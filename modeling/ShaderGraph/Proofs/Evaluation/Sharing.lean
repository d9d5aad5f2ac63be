import ShaderGraph.Proofs.Evaluation.State
import ShaderGraph.Proofs.Evaluation.Tangled

/-!
# What the inputs of a root share

The inputs of a root are resolved one after the other with one memory. What is remembered of a node
that depends on no cycle is what plain recursion yields, so that it makes no difference to a later
input whether it is recalled or found again. But what is found along a cycle depends on where the
cycle was entered, and once it is remembered, a later input gets it in place of what it would have
found. An input is disturbed in this way only by an earlier one with which it shares a node that
depends on a cycle.

## Main definitions

* `Graph.Supplies` — a node leads to an input pin
* `Graph.disconnectOthers` — a graph without the links into the other inputs of a node
* `Scope.Matches` — two scopes remember the same where it makes a difference
* `MaterialAttributes.entry` — what a material has in a channel

## Main results

* `Evaluator.yields_resolveInput_apart` — an input does not disturb those that share nothing with it
* `Evaluator.rel_resolveInput_matching` — a pin that is not disturbed yields the same
* `Graph.Agrees.evaluate_disconnectOthers` — its channel does not depend on other inputs
* `Graph.evaluate_disconnectOthers_ne` — the channel of a pin that is disturbed may
-/

namespace ShaderGraph

/-! ### Channels -/

namespace MaterialAttributes

variable {a b : MaterialAttributes} {c d : Channel} {e : Evaluated} {placeholder : Color}

/-- What a material has in a channel: the content of the slot, and the product that the channel
waits for. -/
def entry (a : MaterialAttributes) (c : Channel) : Option Value × Option PendingOperation :=
  (a.slot c, a.pending.get? c)

theorem entry_pending_insert {op : PendingOperation} :
    { a with pending := a.pending.insert c op }.entry d =
      (a.slot d, if d = c then some op else a.pending.get? d) := by
  rw [entry, Table.get?_insert]
  cases d <;> rfl

theorem entry_assign_of_ne (h : d ≠ c) : (a.assign c e placeholder).entry d = a.entry d := by
  cases e with
  | resolved v => rw [entry, entry, assign, slot_set_of_ne h, pending_set]
  | pending op =>
    rw [assign]
    split
    · dsimp only
      rw [entry_pending_insert, slot_set_of_ne h, if_neg h, pending_set, entry]
    · rfl

theorem slot_set_congr {v : Value} (h : a.slot c = b.slot c) :
    (a.set c v).slot c = (b.set c v).slot c := by
  cases c <;> cases v <;> first | rfl | exact h

/-- What is assigned to a channel depends on nothing else. -/
theorem entry_assign_congr (h : a.entry c = b.entry c) :
    (a.assign c e placeholder).entry c = (b.assign c e placeholder).entry c := by
  obtain ⟨hslot, hpending⟩ := Prod.mk.inj h
  cases e with
  | resolved v =>
    rw [entry, entry, assign, assign, slot_set_congr hslot, pending_set, pending_set, hpending]
  | pending op =>
    rw [assign, assign]
    split
    · dsimp only
      rw [entry_pending_insert, entry_pending_insert, slot_set_congr hslot, if_pos rfl, if_pos rfl]
    · exact h

end MaterialAttributes

namespace Evaluator

variable {ev : Evaluator} {g : Graph} {root : NodeId} {node : Node} {p : Pin} {c : Channel}
  {before after ps : List Pin} {s : Scope}

theorem run_assignInput {a : MaterialAttributes} (hc : Channel.ofPinName? p.name = some c) :
    ((ev.assignInput g node a p).run s).1 =
      ev.assignValue a p ((ev.resolveInput g (depthBound g) [] node p.id).run s).1 := by
  rw [assignInput, assignValue, hc]
  dsimp only
  rw [StateM.run_bind]
  cases ((ev.resolveInput g (depthBound g) [] node p.id).run s).1 <;> rfl

theorem entry_assignValue_congr {a b : MaterialAttributes} {v : Option Evaluated}
    (hc : Channel.ofPinName? p.name = some c) (h : a.entry c = b.entry c) :
    (ev.assignValue a p v).entry c = (ev.assignValue b p v).entry c := by
  rw [assignValue, assignValue, hc]
  cases v with
  | none => exact h
  | some e => exact MaterialAttributes.entry_assign_congr h

/-- Inputs that are meant for other channels leave a channel as it is. -/
theorem entry_foldlM (hps : ∀ q ∈ ps, Channel.ofPinName? q.name ≠ some c)
    (a : MaterialAttributes) :
    ((ps.foldlM (ev.assignInput g node) a).run s).1.entry c = a.entry c := by
  induction ps generalizing a s with
  | nil => rfl
  | cons p ps ih =>
    have hfirst : ((ev.assignInput g node a p).run s).1.entry c = a.entry c := by
      cases hd : Channel.ofPinName? p.name with
      | none => rw [assignInput, hd]; rfl
      | some d =>
        have hne : c ≠ d := fun he => hps p List.mem_cons_self (he ▸ hd)
        rw [run_assignInput hd, assignValue, hd]
        cases ((ev.resolveInput g (depthBound g) [] node p.id).run s).1 with
        | none => rfl
        | some e => exact MaterialAttributes.entry_assign_of_ne hne
    rw [List.foldlM_cons, StateM.run_bind, ih fun q hq => hps q (List.mem_cons_of_mem p hq), hfirst]

/-- What a material has in a channel is what the only input for it yields in its turn. -/
theorem entry_evaluate (hn : g.node? root = some node)
    (hinputs : node.inputs = before ++ p :: after)
    (hc : Channel.ofPinName? p.name = some c)
    (honly : ∀ q ∈ before ++ after, Channel.ofPinName? q.name ≠ some c) :
    (ev.evaluate g root).entry c = (ev.assignValue ∅ p
      ((ev.resolveInput g (depthBound g) [] node p.id).run
        ((before.foldlM (ev.assignInput g node) ∅).run .empty).2).1).entry c := by
  have hbefore : ((before.foldlM (ev.assignInput g node) ∅).run .empty).1.entry c =
      (∅ : MaterialAttributes).entry c :=
    entry_foldlM (fun q hq => honly q (List.mem_append_left _ hq)) ∅
  have hevaluate : ev.evaluate g root =
      ((node.inputs.foldlM (ev.assignInput g node) ∅).run .empty).1 := by
    rw [evaluate, evaluateTraced, hn]
    rfl
  rw [hevaluate, hinputs, List.foldlM_append, StateM.run_bind, List.foldlM_cons, StateM.run_bind,
    entry_foldlM fun q hq => honly q (List.mem_append_right _ hq), run_assignInput hc,
    entry_assignValue_congr hc hbefore]

end Evaluator

/-! ### Nodes that lead to a pin -/

namespace Graph

/-- A node leads to an input pin, along the links. -/
def Supplies (g : Graph) (n : NodeId) (r : PinRef) : Prop :=
  ∃ link ∈ g.links.values, link.target = r ∧ Relation.ReflTransGen g.Feeds n link.source.node

/-- A graph without the links into the other input pins of a pin's node. -/
def disconnectOthers (g : Graph) (r : PinRef) : Graph :=
  g.disconnectAll (((g.linksIntoNode r.node).filter (·.target != r)).map Link.id)

variable {g : Graph} {m n : NodeId} {r : PinRef} {link : Link} {producer : Node}

theorem Supplies.of_feeds (h : g.Supplies n r) (hm : g.Feeds m n) : g.Supplies m r := by
  obtain ⟨link, hmem, htarget, hpath⟩ := h
  exact ⟨link, hmem, htarget, .head hm hpath⟩

theorem Follows.supplies (h : g.Follows r link producer) : g.Supplies link.source.node r := by
  obtain ⟨hmem, htarget⟩ := mem_of_linkInto? h.into
  exact ⟨link, hmem, htarget, .refl⟩

/-- What leads to an input of the producer leads to the pin that follows the link to it. -/
theorem Follows.supplies_of_supplies (h : g.Follows r link producer) {pin : String}
    (hm : g.Supplies m ⟨link.source.node, pin⟩) : g.Supplies m r := by
  obtain ⟨link', hmem', htarget', hpath⟩ := hm
  obtain ⟨hmem, htarget⟩ := mem_of_linkInto? h.into
  exact ⟨link, hmem, htarget, hpath.tail ⟨link', hmem', rfl, by rw [htarget']⟩⟩

/-- What leads to a pin is a region. -/
theorem Agrees.region_supplies (h : g.Agrees) (r : PinRef) : g.Region (g.Supplies · r) where
  node n hn := by
    obtain ⟨link, hmem, -, hpath⟩ := hn
    rcases hpath.cases_head with rfl | ⟨m, hm, -⟩
    · exact h.exists_node?_of_feeds ⟨link, hmem, rfl, rfl⟩
    · exact h.exists_node?_of_feeds hm
  closed _ _ hm hn := hn.of_feeds hm

end Graph

/-! ### Scopes that match -/

/-- Two scopes remember of the nodes inside what is right. Of the other nodes that are concerned,
they remember the same. -/
structure Scope.Matches (inside concerned : NodeId → Prop) (value : PinRef → Option Evaluated)
    (s t : Scope) : Prop where
  left : ∀ ⦃r v⦄, inside r.node → s.memo.get? r = some v → v = value r
  right : ∀ ⦃r v⦄, inside r.node → t.memo.get? r = some v → v = value r
  same : ∀ ⦃r⦄, concerned r.node → ¬ inside r.node → s.memo.get? r = t.memo.get? r

namespace Scope.Matches

variable {inside concerned : NodeId → Prop} {value : PinRef → Option Evaluated} {s t : Scope}
  {r : PinRef} {v : Option Evaluated}

theorem symm (h : Matches inside concerned value s t) : Matches inside concerned value t s where
  left := h.right
  right := h.left
  same _ hr hin := (h.same hr hin).symm

theorem mapTrace (h : Matches inside concerned value s t) (f k : Trace → Trace) :
    Matches inside concerned value (s.mapTrace f) (t.mapTrace k) := ⟨h.left, h.right, h.same⟩

/-- One scope may remember what is right of a node inside, or anything of a node that is not
concerned. -/
theorem remember_left (h : Matches inside concerned value s t)
    (hv : inside r.node → v = value r) (hr : ¬ inside r.node → ¬ concerned r.node) :
    Matches inside concerned value (s.remember r v) t where
  left r' v' hin hv' := by
    rw [remember, Table.get?_insert] at hv'
    split at hv'
    · rename_i he
      subst he
      exact (Option.some_inj.mp hv').symm.trans (hv hin)
    · exact h.left hin hv'
  right := h.right
  same r' hconcerned hin := by
    rw [remember, Table.get?_insert, if_neg, h.same hconcerned hin]
    rintro rfl
    exact hr hin hconcerned

/-- Both scopes may remember the same of a node that is not inside. -/
theorem remember_both (h : Matches inside concerned value s t) (hr : ¬ inside r.node) :
    Matches inside concerned value (s.remember r v) (t.remember r v) where
  left r' v' hin hv' := by
    have hne : r' ≠ r := fun he => hr (by rwa [← he])
    rw [remember, Table.get?_insert, if_neg hne] at hv'
    exact h.left hin hv'
  right r' v' hin hv' := by
    have hne : r' ≠ r := fun he => hr (by rwa [← he])
    rw [remember, Table.get?_insert, if_neg hne] at hv'
    exact h.right hin hv'
  same r' hconcerned hin := by
    rw [remember, remember, Table.get?_insert, Table.get?_insert, h.same hconcerned hin]

/-- What is right of the nodes inside may come to one of two scopes that match. -/
theorem sustains_left :
    Scope.Sustains inside value fun s => Matches inside concerned value s t where
  known _ _ _ h hin hv := h.left hin hv
  mapTrace _ f h := h.mapTrace f id
  remember _ _ h hin := h.remember_left (fun _ => rfl) (absurd hin)

theorem sustains_right :
    Scope.Sustains inside value fun t => Matches inside concerned value s t where
  known _ _ _ h hin hv := h.right hin hv
  mapTrace _ f h := h.mapTrace id f
  remember _ _ h hin := (h.symm.remember_left (fun _ => rfl) (absurd hin)).symm

end Scope.Matches

namespace Evaluator

open MonadRelation

variable {ev : Evaluator} {g : Graph} {depth : Nat} {visited : List PinRef} {n root : NodeId}
  {node : Node} {pin : String} {inside concerned : NodeId → Prop}
  {value : PinRef → Option Evaluated}

/-- An input pin that shares no node with those that are concerned, but for nodes inside, does not
disturb them. -/
theorem yields_resolveInput_apart (hrec : ev.Recursion g inside value) (h : g.Agrees)
    (hn : g.node? n = some node) (hnest : g.Nesting depth visited)
    (hdown : ∀ r ∈ visited, Relation.TransGen g.Feeds n r.node)
    (hapart : ∀ m, g.Supplies m ⟨n, pin⟩ → ¬ inside m → ¬ concerned m) {t : Scope} :
    Yields (Scope.Matches inside concerned value · t) (fun _ => True)
      (ev.resolveInput g depth visited node pin) := by
  induction depth generalizing visited n node pin with
  | zero => exact .pure trivial
  | succ depth ih =>
    by_cases hmem : (⟨n, pin⟩ : PinRef) ∈ visited
    · rw [resolveInput_of_mem (h.node_id hn ▸ hmem)]
      exact .modify (fun s hs => hs.mapTrace _ id) (.pure trivial)
    · rcases resolveInput_cases ev h hn pin with hvalue | ⟨link, producer, hfollows, hresolve⟩
      · rw [hvalue depth visited hmem value]
        exact .pure trivial
      · rw [hresolve depth visited hmem]
        have hnest' := hnest.cons hmem hfollows.input
        have hdown' := hfollows.downstream hdown
        intro s hs
        by_cases hin : inside link.source.node
        -- What is found inside is right.
        · exact ⟨trivial, (hrec.rel_memoized_runNode Scope.Matches.sustains_left h hfollows.node hin
            hnest' hdown' s hs).2⟩
        -- What is found elsewhere does not matter.
        · have hrun : Yields (Scope.Matches inside concerned value · t) (fun _ => True)
              (ev.runNode producer link.source.pin
                (ev.resolveInput g depth (⟨n, pin⟩ :: visited) producer)) := by
            refine .modify (fun s hs => hs.mapTrace _ id) (.evaluateNode_trivial fun pin' => ?_)
            exact ih hfollows.node hnest' hdown' fun m hm =>
              hapart m (hfollows.supplies_of_supplies hm)
          rw [run_memoized]
          cases s.memo.get? link.source with
          | some known => exact ⟨trivial, hs.mapTrace _ id⟩
          | none => exact ⟨trivial, (hrun s hs).2.remember_left (fun h => absurd h hin)
              (hapart _ hfollows.supplies)⟩

/-- An input pin of which only nodes that are concerned are upstream yields the same from scopes
that match. -/
theorem rel_resolveInput_matching (hrec : ev.Recursion g inside value) (h : g.Agrees)
    (hn : g.node? n = some node) (hnest : g.Nesting depth visited)
    (hdown : ∀ r ∈ visited, Relation.TransGen g.Feeds n r.node)
    (hconcerned : ∀ m, g.Supplies m ⟨n, pin⟩ → concerned m) :
    (matching (Scope.Matches inside concerned value)).Rel
      (ev.resolveInput g depth visited node pin) (ev.resolveInput g depth visited node pin) := by
  induction depth generalizing visited n node pin with
  | zero => exact (matching _).rel_pure none
  | succ depth ih =>
    by_cases hmem : (⟨n, pin⟩ : PinRef) ∈ visited
    · rw [resolveInput_of_mem (h.node_id hn ▸ hmem)]
      exact rel_modify_matching (fun s t hst => hst.mapTrace _ _) ((matching _).rel_pure none)
    · rcases resolveInput_cases ev h hn pin with hvalue | ⟨link, producer, hfollows, hresolve⟩
      · rw [hvalue depth visited hmem value]
        exact (matching _).rel_pure _
      · rw [hresolve depth visited hmem]
        have hnest' := hnest.cons hmem hfollows.input
        have hdown' := hfollows.downstream hdown
        intro s t hst
        by_cases hin : inside link.source.node
        -- What is found inside is right from either scope.
        · obtain ⟨hv, hst⟩ := hrec.rel_memoized_runNode Scope.Matches.sustains_left h
            hfollows.node hin hnest' hdown' s hst
          obtain ⟨hw, hst⟩ := hrec.rel_memoized_runNode Scope.Matches.sustains_right h
            hfollows.node hin hnest' hdown' t hst
          exact ⟨hv.trans hw.symm, hst⟩
        -- What is found elsewhere is recalled from both scopes or from neither.
        · have hrun : (matching (Scope.Matches inside concerned value)).Rel
              (ev.runNode producer link.source.pin
                (ev.resolveInput g depth (⟨n, pin⟩ :: visited) producer))
              (ev.runNode producer link.source.pin
                (ev.resolveInput g depth (⟨n, pin⟩ :: visited) producer)) := by
            refine rel_modify_matching (fun s t hst => hst.mapTrace _ _)
              (rel_evaluateNode fun _ => ?_)
            exact ih hfollows.node hnest' hdown' fun m hm =>
              hconcerned m (hfollows.supplies_of_supplies hm)
          rw [run_memoized, run_memoized, ← hst.same (hconcerned _ hfollows.supplies) hin]
          cases s.memo.get? link.source with
          | some known => exact ⟨rfl, hst.mapTrace _ _⟩
          | none =>
            obtain ⟨hv, hst⟩ := hrun s t hst
            dsimp only
            rw [hv]
            exact ⟨rfl, hst.remember_both hin⟩

end Evaluator

/-! ### One input of a root by itself -/

namespace Graph

variable {g : Graph} {r : PinRef} {root : NodeId} {node : Node} {before after : List Pin}
  {p q : Pin} {c : Channel} {dead : LinkId → Bool}

/-- The links that go are those into the node, except for those into the pin. -/
theorem Agrees.disconnectOthers_eq (h : g.Agrees) (r : PinRef) (hpins : g.WellPinned) :
    ∃ dead, g.disconnectOthers r = g.withoutLinks dead ∧ ∀ {l link}, g.link? l = some link →
      (dead l = true ↔ link.target.node = r.node ∧ link.target ≠ r) := by
  refine ⟨_, h.disconnectAll_eq hpins, fun {l link} hl => ?_⟩
  rw [List.contains_iff_mem, linksIntoNode, List.filter_filter, mem_map_id_filter h.link_id]
  constructor
  · rintro ⟨link', hl', hlink'⟩
    obtain rfl := Option.some_inj.mp (hl.symm.trans hl')
    rw [Bool.and_eq_true, bne_iff_ne, beq_iff_eq] at hlink'
    exact hlink'.symm
  · rintro ⟨hnode, hne⟩
    exact ⟨link, hl, by rw [Bool.and_eq_true, bne_iff_ne, beq_iff_eq]; exact ⟨hne, hnode⟩⟩

/-- The input pins of a node differ in their identifiers. -/
theorem WellPinned.id_ne_of_inputs_eq (hpins : g.WellPinned) (hn : g.node? root = some node)
    (hinputs : node.inputs = before ++ p :: after) (hq : q ∈ before) : q.id ≠ p.id := by
  have hnodup := (hpins hn).nodup
  rw [Node.pins, List.map_append] at hnodup
  have hinodup := (List.nodup_append.mp hnodup).1
  rw [hinputs, List.map_append, List.nodup_append] at hinodup
  exact hinodup.2.2 q.id (List.mem_map_of_mem hq) p.id (List.mem_map_of_mem List.mem_cons_self)

/-- While nothing is linked to the inputs before a pin, nothing is remembered. -/
theorem memo_foldlM_of_unlinked {ev : Evaluator} {ps : List Pin} (h : g.Agrees)
    (hn : g.node? root = some node) (hps : ∀ q ∈ ps, g.linkInto? ⟨root, q.id⟩ = none) :
    ((ps.foldlM (ev.assignInput g node) ∅).run .empty).2.memo = ∅ := by
  have hyields : Yields (fun s : Scope => s.memo = ∅) (fun _ => True)
      (ps.foldlM (ev.assignInput g node) ∅) := by
    refine Evaluator.yields_foldlM (fun q hq _ => ?_) ∅
    rw [Evaluator.depthBound]
    rcases Evaluator.resolveInput_cases ev h hn q.id with hvalue | ⟨link, producer, hfollows, -⟩
    · rw [hvalue _ [] List.not_mem_nil fun _ => none]
      exact .pure trivial
    · have hinto := hfollows.into
      rw [hps q hq] at hinto
      cases hinto
  exact (hyields .empty rfl).2

/-- A pin is resolved as before when links into other inputs of its node go, if its node does not
lead to it. -/
theorem Agrees.resolveInput_withoutLinks {ev : Evaluator} (h : g.Agrees)
    (hdead : ∀ {l link}, g.link? l = some link →
      (dead l = true ↔ link.target.node = root ∧ link.target ≠ ⟨root, p.id⟩))
    (hn : g.node? root = some node) (hp : node.input? p.id = some p)
    (hroot : ¬ g.Supplies root ⟨root, p.id⟩) :
    ev.resolveInput (g.withoutLinks dead) (Evaluator.depthBound (g.withoutLinks dead)) []
        (node.mapPins (Pin.without dead)) p.id =
      ev.resolveInput g (Evaluator.depthBound g) [] node p.id := by
  have halike : Alike (g.Supplies · ⟨root, p.id⟩) g (g.withoutLinks dead) := by
    refine h.alike_withoutLinks fun {l link} hl hin => Bool.eq_false_iff.mpr fun hgone => ?_
    obtain ⟨hnode, -⟩ := (hdead hl).mp hgone
    exact hroot (hnode ▸ hin)
  have hmem : p ∈ node.inputs := List.mem_of_find?_eq_some hp
  -- The links that the pin lists lead into it, so they stay.
  have hkept {l : LinkId} (hl : l ∈ p.links) : ∃ link, g.link? l = some link ∧ dead l = false ∧
      link.target = ⟨root, p.id⟩ := by
    obtain ⟨link, hlink, htarget⟩ := (h.mem_input hn hmem).mp hl
    exact ⟨link, hlink, Bool.eq_false_iff.mpr fun hgone => ((hdead hlink).mp hgone).2 htarget,
      htarget⟩
  have hpin : ReadsAlike (g.Supplies · ⟨root, p.id⟩) g (g.withoutLinks dead) node
      (node.mapPins (Pin.without dead)) p.id := by
    refine ⟨rfl, ?_, fun q l hq hl => ?_⟩
    · rw [Node.input?_mapPins (f := Pin.without dead) fun _ => rfl, hp, Option.map_some,
        Pin.without_eq_self fun l hl => ?_]
      obtain ⟨-, -, halive, -⟩ := hkept hl
      exact halive
    · obtain rfl := Option.some_inj.mp (hp.symm.trans hq)
      obtain ⟨link, hlink, halive, htarget⟩ := hkept hl
      exact ⟨link, hlink, link?_withoutLinks.mpr ⟨hlink, halive⟩, link,
        Table.mem_values_iff.mpr ⟨l, hlink⟩, htarget, .refl⟩
  have hn' : (g.withoutLinks dead).node? root = some (node.mapPins (Pin.without dead)) := by
    rw [node?_withoutLinks, hn, Option.map_some]
  exact halike.resolveInput_eq h (h.region_supplies _) hn hn' hpin .nil .nil

/-- Inputs that share no tangled node with a pin leave it to yield what it yields from a scope that
remembers nothing. -/
theorem Agrees.resolveInput_after {ev : Evaluator} {t : Scope} (h : g.Agrees)
    (hn : g.node? root = some node) (ht : t.memo = ∅)
    (hshared : ∀ n, g.Supplies n ⟨root, p.id⟩ → g.Tangled n → ∀ q ∈ before,
      (Channel.ofPinName? q.name).isSome = true → ¬ g.Supplies n ⟨root, q.id⟩) :
    ((ev.resolveInput g (Evaluator.depthBound g) [] node p.id).run
        ((before.foldlM (ev.assignInput g node) ∅).run .empty).2).1 =
      ((ev.resolveInput g (Evaluator.depthBound g) [] node p.id).run t).1 := by
  obtain ⟨value, hrec⟩ := h.exists_recursion ev
  have hempty : Scope.Matches (¬ g.Tangled ·) (g.Supplies · ⟨root, p.id⟩) value .empty t := by
    refine ⟨fun r v _ hv => ?_, fun r v _ hv => ?_, fun r _ _ => ?_⟩
    · cases hv
    · rw [ht] at hv
      cases hv
    · rw [ht]
      rfl
  have hbefore : Yields (Scope.Matches (¬ g.Tangled ·) (g.Supplies · ⟨root, p.id⟩) value · t)
      (fun _ => True) (before.foldlM (ev.assignInput g node) ∅) := by
    refine Evaluator.yields_foldlM (fun q hq hqc => ?_) ∅
    refine Evaluator.yields_resolveInput_apart hrec h hn .nil (List.forall_mem_nil _) ?_
    exact fun m hm htangled hconcerned =>
      hshared m hconcerned (not_not.mp htangled) q hq hqc hm
  exact (Evaluator.rel_resolveInput_matching hrec h hn .nil (List.forall_mem_nil _)
    (fun _ hm => hm) _ t (hbefore .empty hempty).2).1

/-- The channel of an input of a root does not depend on the other inputs if no other one is for
the channel, the root does not lead to the input itself, and the input shares no node that depends
on a cycle with an earlier one. -/
theorem Agrees.evaluate_disconnectOthers (h : g.Agrees) (hpins : g.WellPinned)
    (hn : g.node? root = some node) (hinputs : node.inputs = before ++ p :: after)
    (hc : Channel.ofPinName? p.name = some c)
    (honly : ∀ q ∈ before ++ after, Channel.ofPinName? q.name ≠ some c)
    (hroot : ¬ g.Supplies root ⟨root, p.id⟩)
    (hshared : ∀ n, g.Supplies n ⟨root, p.id⟩ → g.Tangled n → ∀ q ∈ before,
      (Channel.ofPinName? q.name).isSome = true → ¬ g.Supplies n ⟨root, q.id⟩)
    (ev : Evaluator) :
    (ev.evaluate (g.disconnectOthers ⟨root, p.id⟩) root).slot c = (ev.evaluate g root).slot c ∧
      (ev.evaluate (g.disconnectOthers ⟨root, p.id⟩) root).pending.get? c =
        (ev.evaluate g root).pending.get? c := by
  obtain ⟨dead, hothers, hdead⟩ := h.disconnectOthers_eq ⟨root, p.id⟩ hpins
  have hp : node.input? p.id = some p :=
    (hpins hn).input?_eq_some_iff.mpr ⟨hinputs ▸ List.mem_append_right _ List.mem_cons_self, rfl⟩
  have hn' : (g.withoutLinks dead).node? root = some (node.mapPins (Pin.without dead)) := by
    rw [node?_withoutLinks, hn, Option.map_some]
  have hinputs' : (node.mapPins (Pin.without dead)).inputs = before.map (Pin.without dead) ++
      p.without dead :: after.map (Pin.without dead) := by
    rw [Node.inputs_mapPins, hinputs, List.map_append, List.map_cons]
  have honly' : ∀ q ∈ before.map (Pin.without dead) ++ after.map (Pin.without dead),
      Channel.ofPinName? q.name ≠ some c := by
    rw [← List.map_append]
    intro q' hq'
    obtain ⟨q, hq, rfl⟩ := List.mem_map.mp hq'
    exact honly q hq
  -- By itself, the pin finds nothing remembered.
  have hmemo : (((before.map (Pin.without dead)).foldlM (ev.assignInput (g.withoutLinks dead)
      (node.mapPins (Pin.without dead))) ∅).run .empty).2.memo = ∅ := by
    refine memo_foldlM_of_unlinked h.withoutLinks hn' fun q' hq' => ?_
    obtain ⟨q, hq, rfl⟩ := List.mem_map.mp hq'
    rw [Option.eq_none_iff_forall_not_mem]
    intro link hinto
    obtain ⟨hmem, htarget⟩ := mem_of_linkInto? hinto
    obtain ⟨l, hl⟩ := Table.mem_values_iff.mp hmem
    obtain ⟨hl, halive⟩ := link?_withoutLinks.mp hl
    have hne : link.target ≠ ⟨root, p.id⟩ := by
      rw [htarget]
      exact fun he => hpins.id_ne_of_inputs_eq hn hinputs hq (congrArg PinRef.pin he)
    rw [(hdead hl).mpr ⟨by rw [htarget], hne⟩] at halive
    cases halive
  have hassign (v : Option Evaluated) :
      ev.assignValue ∅ (p.without dead) v = ev.assignValue ∅ p v := by
    simp only [Evaluator.assignValue, Pin.without]
  have hid : (p.without dead).id = p.id := rfl
  have hentry : (ev.evaluate (g.withoutLinks dead) root).entry c =
      (ev.evaluate g root).entry c := by
    rw [Evaluator.entry_evaluate hn hinputs hc honly, h.resolveInput_after hn hmemo hshared,
      Evaluator.entry_evaluate hn' hinputs' hc honly', hassign, hid,
      h.resolveInput_withoutLinks hdead hn hp hroot]
  rw [hothers]
  exact Prod.mk.inj hentry

/-- The input at some place in a node is the only one for its channel. -/
theorem exists_only_input {i : Nat} {id : String} (hn : (g.node? root).isSome = true)
    (h : ∀ node ∈ g.node? root,
      ((node.inputs.drop i).head?.map fun p => (p.id, Channel.ofPinName? p.name)) =
        some (id, some c) ∧
      ∀ q ∈ node.inputs.take i ++ (node.inputs.drop i).tail,
        Channel.ofPinName? q.name ≠ some c) :
    ∃ node before p after, g.node? root = some node ∧ node.inputs = before ++ p :: after ∧
      p.id = id ∧ Channel.ofPinName? p.name = some c ∧
      ∀ q ∈ before ++ after, Channel.ofPinName? q.name ≠ some c := by
  obtain ⟨node, hnode⟩ := Option.isSome_iff_exists.mp hn
  obtain ⟨hhead, honly⟩ := h node hnode
  obtain ⟨p, hp, hid⟩ := Option.map_eq_some_iff.mp hhead
  obtain ⟨after, hdrop⟩ := List.head?_eq_some_iff.mp hp
  obtain ⟨hid, hc⟩ := Prod.mk.inj hid
  rw [hdrop] at honly
  refine ⟨node, _, p, after, hnode, ?_, hid, hc, honly⟩
  rw [← hdrop, List.take_append_drop]

/-- A texture that is multiplied by the product itself, around a bend, into the base colour. -/
def loopedTexture : Graph :=
  (((((((Graph.ofSettings "looped texture" .material .standard ⟨⟨9⟩⟩).apply
    (.addNode "TextureSample" ⟨0, 0⟩ ⟨⟨1⟩⟩)).apply (.addNode "Multiply" ⟨1, 0⟩ ⟨⟨2⟩⟩)).apply
    (.addNode "Reroute" ⟨2, 0⟩ ⟨⟨3⟩⟩)).apply
    (.connect ⟨⟨⟨1⟩⟩, "RGB"⟩ ⟨⟨⟨2⟩⟩, "B"⟩ ⟨⟨4⟩⟩)).apply
    (.connect ⟨⟨⟨3⟩⟩, "Output"⟩ ⟨⟨⟨2⟩⟩, "A"⟩ ⟨⟨5⟩⟩)).apply
    (.connect ⟨⟨⟨2⟩⟩, "Result"⟩ ⟨⟨⟨3⟩⟩, "Input"⟩ ⟨⟨6⟩⟩)).apply
    (.connect ⟨⟨⟨3⟩⟩, "Output"⟩ ⟨⟨⟨9⟩⟩, "BaseColor"⟩ ⟨⟨7⟩⟩)

theorem authored_loopedTexture : Authored .material loopedTexture :=
  ((((((((Created.ofSettings "looped texture" .standard ⟨⟨9⟩⟩).authored.apply
    (by decide +kernel)).apply (by decide +kernel)).apply (by decide +kernel)).apply
    (by decide +kernel)).apply (by decide +kernel)).apply (by decide +kernel)).apply
    (by decide +kernel))

/-- The texture by itself goes into the emissive colour. -/
def sharedTexture : Graph :=
  loopedTexture.apply (.connect ⟨⟨⟨1⟩⟩, "RGB"⟩ ⟨⟨⟨9⟩⟩, "EmissiveColor"⟩ ⟨⟨8⟩⟩)

theorem authored_sharedTexture : Authored .material sharedTexture :=
  authored_loopedTexture.apply (by decide +kernel)

/-- The emissive colour shares the texture with the base colour, but no node of the cycle. -/
theorem evaluate_disconnectOthers_sharedTexture : sharedTexture.Agrees ∧
    sharedTexture.WellPinned ∧ sharedTexture.Tangled ⟨⟨2⟩⟩ ∧
    ∃ node before p after, sharedTexture.node? ⟨⟨9⟩⟩ = some node ∧
      node.inputs = before ++ p :: after ∧ p.id = "EmissiveColor" ∧
      Channel.ofPinName? p.name = some .emissiveColor ∧
      (∀ q ∈ before ++ after, Channel.ofPinName? q.name ≠ some .emissiveColor) ∧
      ¬ sharedTexture.Supplies ⟨⟨9⟩⟩ ⟨⟨⟨9⟩⟩, p.id⟩ ∧
      (∀ n, sharedTexture.Supplies n ⟨⟨⟨9⟩⟩, p.id⟩ → sharedTexture.Tangled n → ∀ q ∈ before,
        (Channel.ofPinName? q.name).isSome = true → ¬ sharedTexture.Supplies n ⟨⟨⟨9⟩⟩, q.id⟩) ∧
      ∀ ev : Evaluator,
        (ev.evaluate (sharedTexture.disconnectOthers ⟨⟨⟨9⟩⟩, p.id⟩) ⟨⟨9⟩⟩).slot .emissiveColor =
          (ev.evaluate sharedTexture ⟨⟨9⟩⟩).slot .emissiveColor ∧
        (ev.evaluate (sharedTexture.disconnectOthers ⟨⟨⟨9⟩⟩, p.id⟩) ⟨⟨9⟩⟩).pending.get?
            .emissiveColor =
          (ev.evaluate sharedTexture ⟨⟨9⟩⟩).pending.get? .emissiveColor := by
  have hkept := authored_sharedTexture.kept Registry.uniquePins_material
  have hpins := hkept.wellPinned Registry.uniquePins_material
  obtain ⟨node, before, p, after, hn, hinputs, hid, hc, honly⟩ :
      ∃ node before p after, sharedTexture.node? ⟨⟨9⟩⟩ = some node ∧
        node.inputs = before ++ p :: after ∧ p.id = "EmissiveColor" ∧
        Channel.ofPinName? p.name = some .emissiveColor ∧
        ∀ q ∈ before ++ after, Channel.ofPinName? q.name ≠ some .emissiveColor :=
    exists_only_input (i := 5) (by decide +kernel) (by decide +kernel)
  -- Only the texture leads to the emissive colour, and nothing feeds it.
  have hsources : ∀ link ∈ sharedTexture.links.values,
      link.target = ⟨⟨⟨9⟩⟩, "EmissiveColor"⟩ → link.source.node = ⟨⟨1⟩⟩ := by decide +kernel
  have htargets : ∀ link ∈ sharedTexture.links.values, link.target.node ≠ ⟨⟨1⟩⟩ := by
    decide +kernel
  have hstart : ∀ m, ¬ sharedTexture.Feeds m ⟨⟨1⟩⟩ := fun m hm => by
    obtain ⟨link, hmem, -, htarget⟩ := hm
    exact htargets link hmem htarget
  have hsupplies {n : NodeId} (hn : sharedTexture.Supplies n ⟨⟨⟨9⟩⟩, p.id⟩) : n = ⟨⟨1⟩⟩ := by
    obtain ⟨link, hmem, htarget, hpath⟩ := hn
    rw [hsources link hmem (hid ▸ htarget)] at hpath
    exact eq_of_reflTransGen hstart hpath
  have hroot : ¬ sharedTexture.Supplies ⟨⟨9⟩⟩ ⟨⟨⟨9⟩⟩, p.id⟩ := fun h =>
    absurd (hsupplies h) (by decide)
  have hshared : ∀ n, sharedTexture.Supplies n ⟨⟨⟨9⟩⟩, p.id⟩ → sharedTexture.Tangled n →
      ∀ q ∈ before, (Channel.ofPinName? q.name).isSome = true →
        ¬ sharedTexture.Supplies n ⟨⟨⟨9⟩⟩, q.id⟩ :=
    fun n hn htangled => absurd (hsupplies hn ▸ htangled) (not_tangled hstart)
  have hcycle : sharedTexture.Tangled ⟨⟨2⟩⟩ := by
    have hthere : sharedTexture.Feeds ⟨⟨2⟩⟩ ⟨⟨3⟩⟩ := by decide +kernel
    have hback : sharedTexture.Feeds ⟨⟨3⟩⟩ ⟨⟨2⟩⟩ := by decide +kernel
    exact ⟨⟨⟨2⟩⟩, .tail (.single hthere) hback, .refl⟩
  exact ⟨hkept.wellLinked.agrees, hpins, hcycle, node, before, p, after, hn, hinputs, hid, hc,
    honly, hroot, hshared, hkept.wellLinked.agrees.evaluate_disconnectOthers hpins hn hinputs hc
      honly hroot hshared⟩

/-- The product goes into the emissive colour, from another place of the cycle. -/
def sharedProduct : Graph :=
  loopedTexture.apply (.connect ⟨⟨⟨2⟩⟩, "Result"⟩ ⟨⟨⟨9⟩⟩, "EmissiveColor"⟩ ⟨⟨8⟩⟩)

theorem authored_sharedProduct : Authored .material sharedProduct :=
  authored_loopedTexture.apply (by decide +kernel)

/-- The emissive colour waits for a product that was found for the base colour, with an operand cut
off. By itself it finds that a product has no product with a texture, and is left empty. -/
theorem evaluate_disconnectOthers_ne : sharedProduct.Agrees ∧ sharedProduct.WellPinned ∧
    ∃ (ev : Evaluator) (node : Node) (before : List Pin) (p : Pin) (after : List Pin),
      sharedProduct.node? ⟨⟨9⟩⟩ = some node ∧
      node.inputs = before ++ p :: after ∧ Channel.ofPinName? p.name = some .emissiveColor ∧
      (∀ q ∈ before ++ after, Channel.ofPinName? q.name ≠ some .emissiveColor) ∧
      (ev.evaluate (sharedProduct.disconnectOthers ⟨⟨⟨9⟩⟩, p.id⟩) ⟨⟨9⟩⟩).slot .emissiveColor ≠
        (ev.evaluate sharedProduct ⟨⟨9⟩⟩).slot .emissiveColor ∧
      (ev.evaluate (sharedProduct.disconnectOthers ⟨⟨⟨9⟩⟩, p.id⟩) ⟨⟨9⟩⟩).pending.get?
          .emissiveColor ≠
        (ev.evaluate sharedProduct ⟨⟨9⟩⟩).pending.get? .emissiveColor := by
  have hkept := authored_sharedProduct.kept Registry.uniquePins_material
  obtain ⟨node, before, p, after, hn, hinputs, hid, hc, honly⟩ :
      ∃ node before p after, sharedProduct.node? ⟨⟨9⟩⟩ = some node ∧
        node.inputs = before ++ p :: after ∧ p.id = "EmissiveColor" ∧
        Channel.ofPinName? p.name = some .emissiveColor ∧
        ∀ q ∈ before ++ after, Channel.ofPinName? q.name ≠ some .emissiveColor :=
    exists_only_input (i := 5) (by decide +kernel) (by decide +kernel)
  refine ⟨hkept.wellLinked.agrees, hkept.wellPinned Registry.uniquePins_material,
    ⟨.material, fun _ => some "", .standard⟩, node, before, p, after, hn, hinputs, hc, honly, ?_⟩
  rw [hid]
  exact ⟨fun he => absurd (congrArg Option.isSome he) (by decide +kernel),
    fun he => absurd (congrArg Option.isSome he) (by decide +kernel)⟩

end Graph

end ShaderGraph
