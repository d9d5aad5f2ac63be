import ShaderGraph.Proofs.Graph.Loading

/-!
# Graphs that refuse cycles

A graph that refuses cycles from its beginning never has one. A link is refused if the link table
leads back from its consumer to its producer, so the table stays without cycles. Evaluation reads
the lists of the input pins instead; these are backed by the table throughout, even where the pins
of a definition cannot be told apart by their identifiers.

## Main definitions

* `Graph.Backed` — what an input pin lists are links of the table that lead into it
* `Graph.Guarded` — cycles are refused, there are none, and the input pins are backed
* `Graph.Strict` — how graphs that refuse cycles begin
* `Graph.Refusing` — what becomes of them under edits that never allow cycles

## Main results

* `Acyclic.relink`, `Acyclic.connect` — a link that no path leads back from closes no cycle
* `Guarded.apply`, `Guarded.loadLink` — an edit and a record of a link keep a graph guarded
* `Refusing.guarded` — so does every sequence of edits that never allows cycles
-/

namespace ShaderGraph.Graph

/-- What an input pin lists are links of the table that lead into it. -/
def Backed (g : Graph) : Prop :=
  ∀ ⦃r p l⦄, g.input? r = some p → l ∈ p.links → ∃ link, g.link? l = some link ∧ link.target = r

/-- Cycles are refused, there are none, and the input pins are backed by the table. -/
structure Guarded (g : Graph) : Prop where
  policy : g.cyclePolicy = .reject
  instantiated : g.Instantiated
  backed : g.Backed
  acyclic : g.Acyclic

/-- An edit under fresh identifiers that does not allow cycles. -/
def RefusingStep (g g' : Graph) : Prop :=
  ∃ e : Edit, e.IsFresh g ∧ e ≠ .setPolicy .allow ∧ g.apply e = g'

/-- A graph over `r` as it begins while cycles are refused: with the root that the settings ask
for, or loaded from a document whose links have distinct identifiers. -/
inductive Strict (r : Registry) : Graph → Prop
  | ofSettings (name : String) {s : GraphSettings} (id : NodeId) (hs : s.cyclePolicy = .reject) :
      Strict r (.ofSettings name r s id)
  | toGraph {d : GraphDocument} {s : GraphSettings} (hs : s.cyclePolicy = .reject)
      (hids : (d.links.map LinkRecord.id).Nodup) : Strict r (d.toGraph r s)

/-- A graph over `r` that refused cycles all along. -/
def Refusing (r : Registry) (g : Graph) : Prop :=
  ∃ g₀, Strict r g₀ ∧ Relation.ReflTransGen RefusingStep g₀ g

variable {g g' : Graph} {r : PinRef} {p : Pin} {l : LinkId} {ls : List LinkId} {link : Link}
  {n : NodeId} {node : Node} {a b : PinRef} {id : LinkId}

theorem Instantiated.node_id (h : g.Instantiated) (hn : g.node? n = some node) : node.id = n := by
  obtain ⟨-, d, -, hs⟩ := h (get?_skeletons_of_node? hn)
  exact (congrArg Node.id hs :)

/-! ### The lists of the input pins -/

/-- Input pins stay backed when they list less and the table keeps what they list. -/
theorem Backed.mono (h : g.Backed) (hsub : ∀ {r p l}, g'.input? r = some p → l ∈ p.links →
    (∃ q, g.input? r = some q ∧ l ∈ q.links) ∧ g'.link? l = g.link? l) : g'.Backed := by
  intro r p l hp hl
  obtain ⟨⟨q, hq, hlq⟩, hlink⟩ := hsub hp hl
  rw [hlink]
  exact h hq hlq

theorem Backed.of_wiring (h : g.Backed) (hw : g'.wiring = g.wiring) : g'.Backed := by
  refine h.mono fun {r p l} hp hl => ⟨?_, ?_⟩
  · have hinput : g.wiring.input? r = some p.wiring := by
      rw [← hw, input?_wiring, hp, Option.map_some]
    rw [input?_wiring, Option.map_eq_some_iff] at hinput
    obtain ⟨q, hq, hqp⟩ := hinput
    have hlinks : q.links = p.links := (congrArg Pin.links hqp :)
    exact ⟨q, hq, hlinks ▸ hl⟩
  · have hlinks : g'.links = g.links := (congrArg Graph.links hw :)
    rw [link?, link?, hlinks]

/-- Input pins that list nothing are backed. -/
theorem Loose.backed (h : g.Loose) : g.Backed := by
  intro r p l hp hl
  obtain ⟨node, hn, hp⟩ := Option.bind_eq_some_iff.mp hp
  rw [h.free hn (List.mem_append_left _ (List.mem_of_find?_eq_some hp))] at hl
  cases hl

theorem Backed.insertNode (h : g.Backed) (hfree : ∀ p ∈ node.pins, p.links = []) :
    (g.insertNode node).Backed := by
  refine h.mono fun {r p l} hp hl => ⟨?_, rfl⟩
  rw [input?, node?_insertNode] at hp
  split at hp
  -- The new node lists nothing.
  · rw [Option.bind_some] at hp
    rw [hfree p (List.mem_append_left _ (List.mem_of_find?_eq_some hp))] at hl
    cases hl
  · exact ⟨p, hp, hl⟩

theorem Backed.eraseNode (h : g.Backed) : { g with nodes := g.nodes.erase n }.Backed := by
  refine h.mono fun {r p l} hp hl => ⟨?_, rfl⟩
  rw [input?, node?_eraseNode] at hp
  split at hp
  · cases hp
  · exact ⟨p, hp, hl⟩

/-! ### Links that go -/

theorem link?_disconnect {l' : LinkId} :
    (g.disconnect l).link? l' = if l' = l then none else g.link? l' := by
  rw [disconnect]
  split
  · rename_i hnone
    split
    · rename_i he
      rw [he, hnone]
    · rfl
  · exact Table.get?_erase

/-- What an input pin lists after a link was detached somewhere. -/
theorem mem_links_modifyPin_detach {r' : PinRef} {l' : LinkId}
    (hp : (g.modifyPin r (·.detach l)).input? r' = some p) (hl : l' ∈ p.links) :
    (∃ q, g.input? r' = some q ∧ l' ∈ q.links) ∧ (r' = r → l' ≠ l) := by
  rw [input?_modifyPin fun _ => by rfl] at hp
  split at hp
  · rename_i hr
    obtain ⟨q, hq, rfl⟩ := Option.map_eq_some_iff.mp hp
    rw [Pin.detach, List.mem_filter] at hl
    exact ⟨⟨q, hr ▸ hq, hl.1⟩, fun _ => by simpa using hl.2⟩
  · rename_i hr
    exact ⟨⟨p, hp, hl⟩, fun he => absurd he hr⟩

/-- A link that is removed leaves the input pin that it leads into. -/
theorem Backed.disconnect (h : g.Backed) : (g.disconnect l).Backed := by
  refine h.mono fun {r p l'} hp hl => ?_
  cases hlink : g.link? l with
  | none =>
    have hsame : g.disconnect l = g := by rw [Graph.disconnect, hlink]
    rw [hsame] at hp ⊢
    exact ⟨⟨p, hp, hl⟩, rfl⟩
  | some link =>
    rw [Graph.disconnect, hlink] at hp
    obtain ⟨⟨q, hq, hl⟩, htarget⟩ := mem_links_modifyPin_detach hp hl
    obtain ⟨⟨q, hq, hl⟩, -⟩ := mem_links_modifyPin_detach hq hl
    have hq : g.input? r = some q := hq
    refine ⟨⟨q, hq, hl⟩, ?_⟩
    -- Only the target has listed the link, as the lists were backed.
    rw [link?_disconnect, if_neg]
    rintro rfl
    obtain ⟨link', hlink', hr⟩ := h hq hl
    obtain rfl := Option.some_inj.mp (hlink.symm.trans hlink')
    exact htarget hr.symm rfl

theorem Backed.disconnectAll (h : g.Backed) : (g.disconnectAll ls).Backed := by
  induction ls generalizing g with
  | nil => exact h
  | cons l ls ih => exact ih h.disconnect

theorem link?_disconnectAll :
    (g.disconnectAll ls).link? l = if l ∈ ls then none else g.link? l := by
  rw [Graph.disconnectAll]
  induction ls generalizing g with
  | nil => simp
  | cons l' ls ih =>
    rw [List.foldl_cons, ih, link?_disconnect]
    by_cases hl : l = l' <;> simp [hl]

/-- The links that are left were there before. -/
theorem link?_of_disconnectAll (hl : (g.disconnectAll ls).link? l = some link) :
    g.link? l = some link := by
  rw [link?_disconnectAll] at hl
  split at hl
  · cases hl
  · exact hl

theorem Acyclic.disconnectAll (h : g.Acyclic) : (g.disconnectAll ls).Acyclic := by
  refine h.mono fun link hlink => ?_
  obtain ⟨l, hl⟩ := Table.mem_values_iff.mp hlink
  exact Table.mem_values_iff.mpr ⟨l, link?_of_disconnectAll hl⟩

theorem cyclePolicy_congr (h : g'.unlinked = g.unlinked) : g'.cyclePolicy = g.cyclePolicy :=
  (congrArg Graph.cyclePolicy h :)

theorem Guarded.disconnectAll (h : g.Guarded) : (g.disconnectAll ls).Guarded where
  policy := (cyclePolicy_congr unlinked_disconnectAll).trans h.policy
  instantiated := by
    have hunlinked : (g.disconnectAll ls).unlinked = g.unlinked := unlinked_disconnectAll
    obtain ⟨hs, hr⟩ := unlinked_congr hunlinked
    exact h.instantiated.of_eq hs hr
  backed := h.backed.disconnectAll
  acyclic := h.acyclic.disconnectAll

/-! ### Links that come -/

/-- What an input pin lists after a link was attached somewhere. -/
theorem mem_links_modifyPin_attach {r' : PinRef} {l' : LinkId}
    (hp : (g.modifyPin r (·.attach l)).input? r' = some p) (hl : l' ∈ p.links) :
    (∃ q, g.input? r' = some q ∧ l' ∈ q.links) ∨
      (∃ q, g.input? r = some q) ∧ r' = r ∧ l' = l := by
  rw [input?_modifyPin fun _ => by rfl] at hp
  split at hp
  · rename_i hr
    obtain ⟨q, hq, rfl⟩ := Option.map_eq_some_iff.mp hp
    rw [Pin.attach, List.mem_append, List.mem_singleton] at hl
    rcases hl with hl | hl
    · exact Or.inl ⟨q, hr ▸ hq, hl⟩
    · exact Or.inr ⟨⟨q, hq⟩, hr, hl⟩
  · exact Or.inl ⟨p, hp, hl⟩

theorem link?_insertLink :
    (g.insertLink link).link? l = if l = link.id then some link else g.link? l :=
  Table.get?_insert

/-- Input pins stay backed with a fresh link that leaves no input pin. -/
theorem Backed.insertLink (h : g.Backed) (hfresh : g.link? link.id = none)
    (hsource : g.input? link.source = none) : (g.insertLink link).Backed := by
  -- What was listed before is in the table, so it is not the fresh link.
  have hold {r : PinRef} {q : Pin} {l : LinkId} (hq : g.input? r = some q) (hl : l ∈ q.links) :
      ∃ link', (g.insertLink link).link? l = some link' ∧ link'.target = r := by
    obtain ⟨link', hlink', hr⟩ := h hq hl
    refine ⟨link', ?_, hr⟩
    rw [link?_insertLink, if_neg]
    · exact hlink'
    · rintro rfl
      rw [hfresh] at hlink'
      cases hlink'
  intro r p l hp hl
  have hp : ((g.modifyPin link.source (·.attach link.id)).modifyPin link.target
      (·.attach link.id)).input? r = some p := hp
  rcases mem_links_modifyPin_attach hp hl with ⟨q, hq, hl⟩ | ⟨-, rfl, rfl⟩
  · rcases mem_links_modifyPin_attach hq hl with ⟨q, hq, hl⟩ | ⟨⟨q, hq⟩, -⟩
    · exact hold hq hl
    · rw [hsource] at hq
      cases hq
  · exact ⟨link, by rw [link?_insertLink, if_pos rfl], rfl⟩

/-- A link that takes the place of those into its target closes no cycle if no path leads back. -/
theorem Acyclic.relink (h : g.Acyclic)
    (hback : ¬ Relation.ReflTransGen g.Feeds link.target.node link.source.node) :
    ((g.breakPin link.target).insertLink link).Acyclic := by
  refine h.of_link hback ?_
  rintro m n ⟨link', hlink, hends⟩
  obtain ⟨l, hl⟩ := Table.mem_values_iff.mp hlink
  have hl : ((g.breakPin link.target).insertLink link).link? l = some link' := hl
  rw [link?_insertLink] at hl
  split at hl
  · obtain rfl := Option.some_inj.mp hl
    exact Or.inr ⟨hends.1.symm, hends.2.symm⟩
  · exact Or.inl ⟨link', Table.mem_values_iff.mpr ⟨l, link?_of_disconnectAll hl⟩, hends⟩

/-- A link that is not refused closes no cycle. -/
theorem Acyclic.connect (h : g.Acyclic) (hpolicy : g.cyclePolicy = .reject)
    (hc : g.connect a b id = .ok g') : g'.Acyclic := by
  obtain ⟨-, -, -, -, source, target, output, input, -, -, hcycle, rfl⟩ :=
    connect_eq_ok_iff_orient.mp hc
  exact h.relink fun hpath => hcycle ⟨hpolicy, dependsOn_eq_true_iff.mpr hpath⟩

theorem Guarded.connect (h : g.Guarded) (hfresh : g.link? id = none)
    (hc : g.connect a b id = .ok g') : g'.Guarded where
  policy := (cyclePolicy_congr (unlinked_connect hc)).trans h.policy
  instantiated := by
    obtain ⟨hs, hr⟩ := unlinked_congr (unlinked_connect hc)
    exact h.instantiated.of_eq hs hr
  backed := by
    obtain ⟨pinA, pinB, ha, hb, source, target, output, input, horient, -, -, rfl⟩ :=
      connect_eq_ok_iff_orient.mp hc
    have hsource : g.input? source = none := by
      rcases orient_eq_some_iff.mp horient with ⟨⟨rfl, -⟩, ⟨hd, -⟩, -⟩ | ⟨⟨rfl, -⟩, ⟨hd, -⟩, -⟩
      · exact h.instantiated.sided.input?_eq_none ha hd
      · exact h.instantiated.sided.input?_eq_none hb hd
    have hbroken : (g.breakPin target).Guarded := h.disconnectAll
    refine hbroken.backed.insertLink ?_ ?_
    · rw [Option.eq_none_iff_forall_not_mem]
      intro link hl
      rw [Option.mem_def.mp (link?_of_disconnectAll hl)] at hfresh
      cases hfresh
    -- Freeing the target adds no pin.
    · rw [← Option.map_eq_none_iff (f := Pin.unlinked), ← input?_unlinked, unlinked_breakPin,
        input?_unlinked, hsource, Option.map_none]
  acyclic := h.acyclic.connect h.policy hc

/-! ### One step -/

/-- Nodes that come bring no links. -/
theorem Guarded.insertNode {key : String} {d : NodeDefinition} (h : g.Guarded)
    (hd : g.registry.get? key = some d)
    (hs : node.skeleton = (d.instantiate node.id ⟨0, 0⟩).skeleton)
    (hfree : ∀ p ∈ node.pins, p.links = []) : (g.insertNode node).Guarded where
  policy := h.policy
  instantiated := h.instantiated.insertNode hd hs
  backed := h.backed.insertNode hfree
  acyclic := h.acyclic

theorem Guarded.eraseNode (h : g.Guarded) :
    { g with nodes := g.nodes.erase n }.Guarded where
  policy := h.policy
  instantiated := h.instantiated.eraseNode
  backed := h.backed.eraseNode
  acyclic := h.acyclic

/-- Values and places do not matter. -/
theorem Guarded.of_wiring (h : g.Guarded) (hw : g'.wiring = g.wiring)
    (hpolicy : g'.cyclePolicy = .reject) : g'.Guarded where
  policy := hpolicy
  instantiated := h.instantiated.of_eq (wiring_congr hw).1 (wiring_congr hw).2
  backed := h.backed.of_wiring hw
  acyclic := by
    have hlinks : g'.links = g.links := (congrArg Graph.links hw :)
    exact h.acyclic.mono fun link hlink => hlinks ▸ hlink

/-- Every edit but the one that allows cycles keeps a graph guarded. -/
theorem Guarded.apply {e : Edit} (h : g.Guarded) (hfresh : e.IsFresh g)
    (hallow : e ≠ .setPolicy .allow) : (g.apply e).Guarded := by
  cases e with
  | addNode key position id =>
    rw [Graph.apply]
    cases hadd : g.addNode? key position id with
    | none => exact h
    | some g' =>
      obtain ⟨-, d, hd, rfl⟩ := addNode?_eq_some_iff.mp hadd
      exact h.insertNode hd rfl fun _ hp => NodeDefinition.links_instantiate hp
  | removeNode n =>
    rw [Graph.apply, Graph.removeNode]
    split
    · exact h
    · split
      · exact h
      · exact h.disconnectAll.eraseNode
  | connect a b id =>
    rw [Graph.apply]
    cases hc : g.connect a b id with
    | error => exact h
    | ok g' => exact h.connect hfresh hc
  | disconnect l =>
    have hgone : (g.disconnectAll [l]).Guarded := h.disconnectAll
    exact hgone
  | breakPin r => exact h.disconnectAll
  | setProperty n name value => exact h.of_wiring wiring_setProperty h.policy
  | setDefault r value => exact h.of_wiring wiring_setDefault h.policy
  | setPosition n position => exact h.of_wiring wiring_setPosition h.policy
  | setRoot n =>
    rw [Graph.apply, Graph.setRoot]
    split
    · exact h.of_wiring rfl h.policy
    · exact h
  | setPolicy policy =>
    refine h.of_wiring rfl ?_
    cases policy with
    | allow => exact absurd rfl hallow
    | reject => rfl

/-- A record with a fresh identifier keeps a graph guarded. -/
theorem Guarded.loadLink {rec : LinkRecord} (h : g.Guarded) (hfresh : g.link? rec.id = none) :
    (g.loadLink rec).Guarded := by
  rw [Graph.loadLink]
  split
  · rename_i hc
    exact h.connect hfresh hc
  · exact h

/-! ### Graphs that refused cycles all along -/

theorem Loading.guarded {r : Registry} (h : Loading r g) (hpolicy : g.cyclePolicy = .reject) :
    g.Guarded where
  policy := hpolicy
  instantiated := h.instantiated
  backed := h.loose.backed
  acyclic := acyclic_of_rank (fun _ => 0) fun link hlink => by
    rw [h.loose.links] at hlink
    cases hlink

/-- A link after a record was loaded was there before or is filed under the record's identifier,
which it carries. -/
theorem link?_loadLink {rec : LinkRecord} (hl : (g.loadLink rec).link? l = some link) :
    l = rec.id ∧ link.id = l ∨ g.link? l = some link := by
  rw [loadLink] at hl
  split at hl
  · rename_i hc
    obtain ⟨-, -, -, -, source, target, output, input, -, -, -, rfl⟩ :=
      connect_eq_ok_iff_orient.mp hc
    rw [link?_insertLink] at hl
    split at hl
    · rename_i he
      obtain rfl := Option.some_inj.mp hl
      exact Or.inl ⟨he, he.symm⟩
    · exact Or.inr (link?_of_disconnectAll hl)
  · exact Or.inr hl

/-- Records with distinct identifiers, none of which a link has, keep a graph guarded. -/
theorem Guarded.foldl_loadLink {recs : List LinkRecord} (h : g.Guarded)
    (hids : (recs.map LinkRecord.id).Nodup) (hfresh : ∀ rec ∈ recs, g.link? rec.id = none) :
    (recs.foldl Graph.loadLink g).Guarded := by
  induction recs generalizing g with
  | nil => exact h
  | cons rec recs ih =>
    rw [List.map_cons, List.nodup_cons] at hids
    refine ih (h.loadLink (hfresh rec List.mem_cons_self)) hids.2 fun rec' hrec' => ?_
    rw [Option.eq_none_iff_forall_not_mem]
    intro link hl
    rcases link?_loadLink hl with ⟨he, -⟩ | hold
    · exact hids.1 (he ▸ List.mem_map_of_mem hrec')
    · rw [hfresh rec' (List.mem_cons_of_mem rec hrec')] at hold
      cases hold

theorem cyclePolicy_foldl_loadNode {recs : List NodeRecord} :
    (recs.foldl Graph.loadNode g).cyclePolicy = g.cyclePolicy := by
  induction recs generalizing g with
  | nil => rfl
  | cons rec recs ih =>
    rw [List.foldl_cons, ih, loadNode]
    split <;> rfl

theorem cyclePolicy_loadRoot {root : Option NodeId} :
    (g.loadRoot root).cyclePolicy = g.cyclePolicy := by
  cases root with
  | none => rfl
  | some n =>
    rw [loadRoot]
    split <;> rfl

theorem Strict.guarded {r : Registry} (h : Strict r g) : g.Guarded := by
  cases h with
  | @ofSettings name s id hs =>
    have hempty : ((Graph.empty name r).setPolicy .reject).Guarded := loading_empty.guarded rfl
    rw [Graph.ofSettings, withRoot]
    cases hadd : (Graph.empty name r).addNode? s.rootDefinition ⟨0, 0⟩ id with
    | none => exact hempty.of_wiring rfl hs
    | some g =>
      obtain ⟨-, d, hd, rfl⟩ := addNode?_eq_some_iff.mp hadd
      have hroot : (((Graph.empty name r).setPolicy .reject).insertNode
          (d.instantiate id ⟨0, 0⟩)).Guarded :=
        hempty.insertNode hd rfl fun _ hp => NodeDefinition.links_instantiate hp
      exact hroot.of_wiring rfl hs
  | @toGraph d s hs hids =>
    have hloading := GraphDocument.loading_upTo_zero (d := d) (r := r) (s := s)
    have hpolicy : ((d.upTo 0).toGraph r s).cyclePolicy = .reject :=
      (cyclePolicy_loadRoot.trans cyclePolicy_foldl_loadNode).trans hs
    -- The links follow when all nodes are there.
    refine (hloading.guarded hpolicy).foldl_loadLink hids fun rec _ => ?_
    rw [link?, hloading.loose.links, Table.get?_empty]

/-- A graph that refused cycles all along has none, and its input pins are backed. -/
theorem Refusing.guarded {r : Registry} (h : Refusing r g) : g.Guarded := by
  obtain ⟨g₀, hstrict, hsteps⟩ := h
  induction hsteps with
  | refl => exact hstrict.guarded
  | tail _ hstep ih =>
    obtain ⟨e, hfresh, hallow, rfl⟩ := hstep
    exact ih.apply hfresh hallow

end ShaderGraph.Graph
