import Mathlib.Data.List.Dedup
import ShaderGraph.Proofs.Evaluation.State
import ShaderGraph.Proofs.Graph.Edits
import ShaderGraph.Proofs.Graph.Upstream

/-!
# Rules that run

A result is remembered only after the rule that yields it has run to its end. Still no rule runs
twice for one output pin where there are no cycles: while it runs, all that is evaluated lies
strictly upstream of its node, and once it has run, its result is remembered. This is shown of an
evaluation that notes the output pins whose rules run, and is the same otherwise.

## Main definitions

* `Noted` — a scope together with the output pins whose rules have run
* `Evaluator.resolveNoting`, `Evaluator.evaluateNoting` — evaluation that notes which rules run
* `Noted.Tracks` — each pin that was noted was noted once, and its rule is running or its result is
  remembered
* `Graph.usedOutputs` — the output pins of a node with a link into what a root depends on

## Main results

* `Evaluator.fst_evaluateNoting` — noting changes nothing else
* `Evaluator.yields_resolveNoting` — resolving an input pin keeps track
* `Evaluator.nodup_runs` — each rule runs at most once for each output pin, and only where the
  result is used
-/

namespace ShaderGraph

/-- A scope together with the output pins whose rules have run, in the order in which they began. -/
structure Noted where
  scope : Scope
  runs : List PinRef

namespace Noted

/-- Changes the scope. -/
def mapScope (f : Scope → Scope) (s : Noted) : Noted := { s with scope := f s.scope }

/-- Notes that the rule of a node runs for one of its output pins. -/
def noteRun (r : PinRef) (s : Noted) : Noted where
  scope := s.scope.mapTrace (·.noteEvaluation r.node)
  runs := s.runs ++ [r]

/-- Nothing evaluated yet. -/
def empty : Noted := ⟨.empty, []⟩

end Noted

namespace Evaluator

/-! ### Evaluation that notes which rules run -/

/-- Notes that the rule of a node runs for an output pin, and runs it. -/
def runNoting (ev : Evaluator) (n : Node) (output : String)
    (read : String → StateM Noted (Option Evaluated)) : StateM Noted (Option Evaluated) := do
  modify (Noted.noteRun ⟨n.id, output⟩)
  ev.evaluateNode n output read

/-- What an input pin of a node evaluates to, as `Evaluator.resolveInput`. -/
def resolveNoting (ev : Evaluator) (g : Graph) :
    (depth : Nat) → (visited : List PinRef) → Node → String → StateM Noted (Option Evaluated)
  | 0, _, _, _ => pure none
  | depth + 1, visited, n, pin => do
    if (⟨n.id, pin⟩ : PinRef) ∈ visited then
      modify (Noted.mapScope (Scope.mapTrace Trace.noteCycle))
      pure none
    else match n.input? pin with
      | none => pure none
      | some p => match p.links with
        | [] => pure p.defaultValue?
        | l :: _ => match g.link? l with
          | none => pure none
          | some link => do
            match (← get).scope.memo.get? link.source with
            | some known =>
              modify (Noted.mapScope (Scope.mapTrace Trace.noteHit))
              pure known
            | none => match g.node? link.source.node with
              | none => pure none
              | some producer => do
                let v ← ev.runNoting producer link.source.pin
                  (ev.resolveNoting g depth (⟨n.id, pin⟩ :: visited) producer)
                modify (Noted.mapScope (Scope.remember link.source v))
                pure v

/-- Evaluates one input pin of the root, as `Evaluator.assignInput`. -/
def assignNoting (ev : Evaluator) (g : Graph) (root : Node) (a : MaterialAttributes) (p : Pin) :
    StateM Noted MaterialAttributes :=
  match Channel.ofPinName? p.name with
  | none => pure a
  | some c => do
    match ← ev.resolveNoting g (depthBound g) [] root p.id with
    | some e => pure (a.assign c e ev.settings.pendingColor)
    | none => pure a

/-- The material at a node and what happened while it was evaluated, together with the output pins
whose rules ran. -/
def evaluateNoting (ev : Evaluator) (g : Graph) (root : NodeId) :
    (MaterialAttributes × Trace) × List PinRef :=
  match g.node? root with
  | none => ((∅, .empty), [])
  | some n =>
    let (a, s) := (n.inputs.foldlM (ev.assignNoting g n) ∅).run .empty
    ((a, s.scope.trace), s.runs)

end Evaluator

/-! ### Noting changes nothing else -/

/-- A computation that notes runs yields what another one yields and does the same to its scope. -/
abbrev forgetting : MonadRelation (StateM Noted) (StateM Scope) :=
  .matching fun s t => s.scope = t

open MonadRelation

theorem rel_modify_forgetting {f : Noted → Noted} {k : Scope → Scope} {α : Type}
    {x : StateM Noted α} {y : StateM Scope α} (hf : ∀ s, (f s).scope = k s.scope)
    (hx : forgetting.Rel x y) : forgetting.Rel (do modify f; x) (do modify k; y) :=
  rel_modify_matching (fun s _ hst => (hf s).trans (congrArg k hst)) hx

namespace Evaluator

variable {ev : Evaluator} {g : Graph} {depth : Nat} {visited : List PinRef} {n root : NodeId}
  {node : Node}

theorem rel_resolveNoting (pin : String) :
    forgetting.Rel (ev.resolveNoting g depth visited node pin)
      (ev.resolveInput g depth visited node pin) := by
  induction depth generalizing visited node pin with
  | zero => exact forgetting.rel_pure none
  | succ depth ih =>
    rw [resolveNoting, resolveInput]
    split
    · exact rel_modify_forgetting (fun _ => rfl) (forgetting.rel_pure none)
    · cases node.input? pin with
      | none => exact forgetting.rel_pure none
      | some p =>
        dsimp only
        cases p.links with
        | nil => exact forgetting.rel_pure p.defaultValue?
        | cons l ls =>
          dsimp only
          cases g.link? l with
          | none => exact forgetting.rel_pure none
          | some link =>
            refine rel_get_matching fun s t hst => ?_
            rw [← hst]
            cases s.scope.memo.get? link.source with
            | some known => exact rel_modify_forgetting (fun _ => rfl) (forgetting.rel_pure known)
            | none =>
              dsimp only
              cases g.node? link.source.node with
              | none => exact forgetting.rel_pure none
              | some producer =>
                have hrun : forgetting.Rel
                    (ev.runNoting producer link.source.pin
                      (ev.resolveNoting g depth (⟨node.id, pin⟩ :: visited) producer))
                    (ev.runNode producer link.source.pin
                      (ev.resolveInput g depth (⟨node.id, pin⟩ :: visited) producer)) :=
                  rel_modify_forgetting (fun _ => rfl) (MonadRelation.rel_evaluateNode ih)
                exact forgetting.rel_bind hrun fun v =>
                  rel_modify_forgetting (fun _ => rfl) (forgetting.rel_pure v)

theorem rel_assignNoting (a : MaterialAttributes) (p : Pin) :
    forgetting.Rel (ev.assignNoting g node a p) (ev.assignInput g node a p) := by
  rw [assignNoting, assignInput]
  cases Channel.ofPinName? p.name with
  | none => exact forgetting.rel_pure a
  | some c =>
    refine forgetting.rel_bind (rel_resolveNoting p.id) fun v => ?_
    cases v with
    | none => exact forgetting.rel_pure a
    | some e => exact forgetting.rel_pure _

/-- But for the runs that it notes, the evaluation is the same. -/
theorem fst_evaluateNoting : (ev.evaluateNoting g root).1 = ev.evaluateTraced g root := by
  rw [evaluateNoting, evaluateTraced]
  cases g.node? root with
  | none => rfl
  | some node =>
    have hall : forgetting.Rel (node.inputs.foldlM (ev.assignNoting g node) ∅)
        (node.inputs.foldlM (ev.assignInput g node) ∅) :=
      MonadRelation.rel_foldlM (fun p _ a => rel_assignNoting a p) ∅
    obtain ⟨ha, hs⟩ := hall .empty .empty rfl
    exact Prod.ext ha (congrArg Scope.trace hs)

end Evaluator

/-! ### What was noted -/

/-- Every output pin that was noted was noted once, for a link into what `root` depends on; its rule
is running or its result is remembered. The trace counts what was noted. -/
structure Noted.Tracks (g : Graph) (root : NodeId) (running : List PinRef) (s : Noted) : Prop where
  nodup : s.runs.Nodup
  remembered : ∀ r ∈ s.runs, (∃ v, s.scope.memo.get? r = some v) ∨ r ∈ running
  used : ∀ r ∈ s.runs, ∃ link ∈ g.links.values, link.source = r ∧
    Relation.ReflTransGen g.Feeds link.target.node root
  count : ∀ n, s.scope.trace.evaluationsOf n = s.runs.countP (·.node == n)

theorem Trace.evaluationsOf_noteEvaluation {t : Trace} {m n : NodeId} :
    (t.noteEvaluation m).evaluationsOf n = t.evaluationsOf n + if m = n then 1 else 0 := by
  rw [noteEvaluation, evaluationsOf, Table.get?_insert]
  by_cases h : n = m
  · rw [if_pos h, if_pos h.symm, Option.getD_some, h]
  · rw [if_neg h, if_neg (Ne.symm h)]
    rfl

namespace Noted.Tracks

variable {g : Graph} {root : NodeId} {running : List PinRef} {s : Noted} {r : PinRef}

theorem empty : Noted.empty.Tracks g root [] where
  nodup := List.nodup_nil
  remembered _ hr := by cases hr
  used _ hr := by cases hr
  count _ := rfl

/-- A rule begins to run for a pin whose result is not remembered. -/
theorem noteRun (h : s.Tracks g root running) (hfresh : s.scope.memo.get? r = none)
    (hrunning : r ∉ running) {link : Link} (hlink : link ∈ g.links.values)
    (hsource : link.source = r) (hroot : Relation.ReflTransGen g.Feeds link.target.node root) :
    (s.noteRun r).Tracks g root (r :: running) where
  nodup := by
    refine List.nodup_append.mpr ⟨h.nodup, List.nodup_singleton r, fun r' hr' k hk he => ?_⟩
    obtain rfl := List.mem_singleton.mp hk
    subst he
    rcases h.remembered r' hr' with ⟨v, hv⟩ | hrun
    · rw [hfresh] at hv
      cases hv
    · exact hrunning hrun
  remembered r' hr' := by
    rcases List.mem_append.mp hr' with hr' | hr'
    · exact (h.remembered r' hr').imp_right (List.mem_cons_of_mem r)
    · exact Or.inr (List.mem_singleton.mp hr' ▸ List.mem_cons_self)
  used r' hr' := by
    rcases List.mem_append.mp hr' with hr' | hr'
    · exact h.used r' hr'
    · exact ⟨link, hlink, hsource.trans (List.mem_singleton.mp hr').symm, hroot⟩
  count n := by
    have hcount : (s.noteRun r).scope.trace.evaluationsOf n =
        (s.scope.trace.noteEvaluation r.node).evaluationsOf n := rfl
    have hruns : (s.noteRun r).runs = s.runs ++ [r] := rfl
    rw [hcount, hruns, Trace.evaluationsOf_noteEvaluation, h.count, List.countP_append,
      List.countP_singleton]
    simp only [beq_iff_eq]

/-- A rule has run to its end, and its result is remembered. -/
theorem remember (h : s.Tracks g root (r :: running)) (v : Option Evaluated) :
    (s.mapScope (Scope.remember r v)).Tracks g root running where
  nodup := h.nodup
  remembered r' hr' := by
    have hmemo : (s.mapScope (Scope.remember r v)).scope.memo.get? r' =
        if r' = r then some v else s.scope.memo.get? r' := Table.get?_insert
    rw [hmemo]
    split
    · exact Or.inl ⟨v, rfl⟩
    · rename_i hne
      exact (h.remembered r' hr').imp_right fun hmem => (List.mem_cons.mp hmem).resolve_left hne
  used := h.used
  count := h.count

/-- Hits and cuts are no runs. -/
theorem mapTrace (h : s.Tracks g root running) {f : Trace → Trace}
    (hf : ∀ t, (f t).evaluations = t.evaluations) :
    (s.mapScope (Scope.mapTrace f)).Tracks g root running where
  nodup := h.nodup
  remembered := h.remembered
  used := h.used
  count n := by
    have hcount : (s.mapScope (Scope.mapTrace f)).scope.trace.evaluationsOf n =
        s.scope.trace.evaluationsOf n := by
      rw [Trace.evaluationsOf, Trace.evaluationsOf]
      exact congrArg (fun t => (Table.get? t n).getD 0) (hf s.scope.trace)
    rw [hcount]
    exact h.count n

end Noted.Tracks

namespace Graph

/-- The output pins of a node from which a link leads into what `root` depends on, each once. -/
def usedOutputs (g : Graph) (root n : NodeId) : List String :=
  ((g.links.values.filter fun link =>
    link.source.node == n && decide (link.target.node ∈ g.dependencyOrder root)).map
      (·.source.pin)).dedup

variable {g : Graph} {root n : NodeId} {pin : String}

theorem mem_usedOutputs_iff : pin ∈ g.usedOutputs root n ↔ ∃ link ∈ g.links.values,
    link.source = ⟨n, pin⟩ ∧ link.target.node ∈ g.dependencyOrder root := by
  simp only [usedOutputs, List.mem_dedup, List.mem_map, List.mem_filter, Bool.and_eq_true,
    beq_iff_eq, decide_eq_true_eq]
  constructor
  · rintro ⟨link, ⟨hmem, rfl, htarget⟩, rfl⟩
    exact ⟨link, hmem, rfl, htarget⟩
  · rintro ⟨link, hmem, hsource, htarget⟩
    exact ⟨link, ⟨hmem, by rw [hsource], htarget⟩, by rw [hsource]⟩

end Graph

/-- A node's rule was noted at most once for each of its used outputs. -/
theorem Noted.Tracks.countP_le {g : Graph} {root : NodeId} {node : Node} {running : List PinRef}
    {s : Noted} (hs : s.Tracks g root running) (h : g.Agrees) (hn : g.node? root = some node)
    (n : NodeId) : s.runs.countP (·.node == n) ≤ (g.usedOutputs root n).length := by
  have hnodup : ((s.runs.filter (·.node == n)).map PinRef.pin).Nodup := by
    refine List.Nodup.map_on (fun r hr r' hr' he => ?_) (hs.nodup.filter _)
    have hnode := beq_iff_eq.mp (List.mem_filter.mp hr).2
    have hnode' := beq_iff_eq.mp (List.mem_filter.mp hr').2
    exact PinRef.mk_eq_iff.mpr ⟨hnode.trans hnode'.symm, he⟩
  have hused : (s.runs.filter (·.node == n)).map PinRef.pin ⊆ g.usedOutputs root n := by
    intro pin hpin
    obtain ⟨r, hr, rfl⟩ := List.mem_map.mp hpin
    obtain ⟨hr, hnode⟩ := List.mem_filter.mp hr
    obtain ⟨link, hmem, hsource, hpath⟩ := hs.used r hr
    rw [Graph.mem_usedOutputs_iff]
    refine ⟨link, hmem, ?_, (h.mem_dependencyOrder_iff hn).mpr hpath⟩
    rw [hsource, ← beq_iff_eq.mp hnode]
  rw [List.countP_eq_length_filter, ← List.length_map PinRef.pin]
  exact (List.subperm_of_subset hnodup hused).length_le

namespace Evaluator

variable {ev : Evaluator} {g : Graph} {depth : Nat} {visited running : List PinRef}
  {n root : NodeId} {node : Node}

/-- Resolving an input pin keeps track of the rules that run. The induction is on the depth; the
rules in `running` run at the node or downstream of it. -/
theorem yields_resolveNoting (h : g.Agrees) (hacyclic : g.Acyclic) (hn : g.node? n = some node)
    (hroot : Relation.ReflTransGen g.Feeds n root)
    (hdown : ∀ r ∈ running, Relation.ReflTransGen g.Feeds n r.node) (pin : String) :
    Yields (Noted.Tracks g root running) (fun _ => True)
      (ev.resolveNoting g depth visited node pin) := by
  induction depth generalizing visited running n node pin with
  | zero => exact .pure trivial
  | succ depth ih =>
    obtain rfl := h.node_id hn
    rw [resolveNoting]
    split
    · exact .modify (fun _ hs => hs.mapTrace fun _ => rfl) (.pure trivial)
    · cases hp : node.input? pin with
      | none => exact .pure trivial
      | some p =>
        dsimp only
        cases hlinks : p.links with
        | nil => exact .pure trivial
        | cons l ls =>
          have hmem : p ∈ node.inputs := List.mem_of_find?_eq_some hp
          obtain ⟨link, hlink, htarget⟩ :=
            (h.mem_input hn hmem).mp (hlinks ▸ List.mem_cons_self)
          have hvalues : link ∈ g.links.values := Table.mem_values_iff.mpr ⟨l, hlink⟩
          have hfeeds : g.Feeds link.source.node node.id :=
            ⟨link, hvalues, rfl, by rw [htarget]⟩
          dsimp only
          rw [hlink]
          refine .get_run fun s hs => ?_
          cases hmemo : s.scope.memo.get? link.source with
          | some known => exact ⟨trivial, hs.mapTrace fun _ => rfl⟩
          | none =>
            dsimp only
            cases hproducer : g.node? link.source.node with
            | none => exact ⟨trivial, hs⟩
            | some producer =>
              -- If a rule were running for the same pin, the node would feed itself.
              have hrunning : link.source ∉ running := fun hmem =>
                hacyclic node.id (.tail' (hdown link.source hmem) hfeeds)
              have hdown' : ∀ r ∈ link.source :: running,
                  Relation.ReflTransGen g.Feeds link.source.node r.node := by
                intro r hr
                rcases List.mem_cons.mp hr with rfl | hr
                · exact .refl
                · exact .head hfeeds (hdown r hr)
              have hrun : Yields (Noted.Tracks g root (link.source :: running)) (fun _ => True)
                  (ev.evaluateNode producer link.source.pin
                    (ev.resolveNoting g depth (⟨node.id, pin⟩ :: visited) producer)) :=
                .evaluateNode_trivial fun pin' => ih hproducer (.head hfeeds hroot) hdown' pin'
              have hid : (⟨producer.id, link.source.pin⟩ : PinRef) = link.source := by
                rw [h.node_id hproducer]
              have hbegun : (s.noteRun ⟨producer.id, link.source.pin⟩).Tracks g root
                  (link.source :: running) := by
                rw [hid]
                exact hs.noteRun hmemo hrunning hvalues rfl (by rw [htarget]; exact hroot)
              exact ⟨trivial, (hrun _ hbegun).2.remember _⟩

theorem yields_assignNoting (h : g.Agrees) (hacyclic : g.Acyclic) (hn : g.node? root = some node)
    (a : MaterialAttributes) (p : Pin) :
    Yields (Noted.Tracks g root []) (fun _ => True) (ev.assignNoting g node a p) := by
  rw [assignNoting]
  cases Channel.ofPinName? p.name with
  | none => exact .pure trivial
  | some c =>
    have hresolve : Yields (Noted.Tracks g root []) (fun _ => True)
        (ev.resolveNoting g (depthBound g) [] node p.id) :=
      yields_resolveNoting h hacyclic hn .refl (fun _ hr => by cases hr) p.id
    refine hresolve.bind fun v _ => ?_
    cases v <;> exact .pure trivial

/-- What a whole evaluation has noted when no rule is running any more. -/
theorem exists_tracks_evaluateNoting (ev : Evaluator) (h : g.Agrees) (hacyclic : g.Acyclic)
    (hn : g.node? root = some node) : ∃ s : Noted, s.Tracks g root [] ∧
      (ev.evaluateNoting g root).2 = s.runs ∧ (ev.evaluateNoting g root).1.2 = s.scope.trace := by
  have hall : Yields (Noted.Tracks g root []) (fun _ => True)
      (node.inputs.foldlM (ev.assignNoting g node) ∅) :=
    .foldlM (fun p _ a _ => yields_assignNoting h hacyclic hn a p) trivial
  refine ⟨_, (hall .empty .empty).2, ?_⟩
  rw [evaluateNoting, hn]
  exact ⟨rfl, rfl⟩

/-- Without cycles, an evaluation runs a rule at most once for each output pin: a node's rule as
often as it has outputs with links into what the root depends on, and never that of the root or of a
node that the root does not depend on. -/
theorem nodup_runs (h : g.Agrees) (hacyclic : g.Acyclic) (ev : Evaluator) (root : NodeId) :
    (ev.evaluateNoting g root).1 = ev.evaluateTraced g root ∧
      (ev.evaluateNoting g root).2.Nodup ∧
      ∀ n, (ev.evaluateTraced g root).2.evaluationsOf n =
          (ev.evaluateNoting g root).2.countP (·.node == n) ∧
        (ev.evaluateTraced g root).2.evaluationsOf n ≤ (g.usedOutputs root n).length ∧
        (n = root ∨ n ∉ g.dependencyOrder root →
          (ev.evaluateTraced g root).2.evaluationsOf n = 0) := by
  refine ⟨fst_evaluateNoting, ?_⟩
  rw [← fst_evaluateNoting]
  cases hn : g.node? root with
  | none =>
    have hnothing : ev.evaluateNoting g root = ((∅, .empty), []) := by rw [evaluateNoting, hn]
    rw [hnothing]
    exact ⟨List.nodup_nil, fun n => ⟨rfl, Nat.zero_le _, fun _ => rfl⟩⟩
  | some node =>
    obtain ⟨s, hs, hruns, htrace⟩ := exists_tracks_evaluateNoting ev h hacyclic hn
    rw [hruns, htrace]
    refine ⟨hs.nodup, fun n => ⟨hs.count n, ?_, fun hout => ?_⟩⟩
    · rw [hs.count]
      exact hs.countP_le h hn n
    · rw [hs.count, List.countP_eq_zero]
      intro r hr he
      obtain ⟨link, hmem, rfl, hpath⟩ := hs.used r hr
      obtain rfl := beq_iff_eq.mp he
      have hfeeds : g.Feeds link.source.node link.target.node := ⟨link, hmem, rfl, rfl⟩
      rcases hout with hout | hout
      -- The root would feed itself.
      · exact hacyclic root (.head' (hout ▸ hfeeds) hpath)
      · exact hout ((h.mem_dependencyOrder_iff hn).mpr (.head hfeeds hpath))

/-- Two links leave the constant, from one pin; its rule runs once. -/
theorem nodup_runs_squaredConstant : Graph.squaredConstant.Agrees ∧ Graph.squaredConstant.Acyclic ∧
    Graph.squaredConstant.usedOutputs ⟨⟨9⟩⟩ ⟨⟨1⟩⟩ = ["Output"] ∧
    (evaluateTraced ⟨.material, fun _ => none, .standard⟩ .squaredConstant
      ⟨⟨9⟩⟩).2.evaluationsOf ⟨⟨1⟩⟩ = 1 ∧
    ∀ (ev : Evaluator) (root : NodeId),
      (ev.evaluateNoting .squaredConstant root).1 = ev.evaluateTraced .squaredConstant root ∧
      (ev.evaluateNoting .squaredConstant root).2.Nodup ∧
      ∀ n, (ev.evaluateTraced .squaredConstant root).2.evaluationsOf n =
          (ev.evaluateNoting .squaredConstant root).2.countP (·.node == n) ∧
        (ev.evaluateTraced .squaredConstant root).2.evaluationsOf n ≤
          (Graph.squaredConstant.usedOutputs root n).length ∧
        (n = root ∨ n ∉ Graph.squaredConstant.dependencyOrder root →
          (ev.evaluateTraced .squaredConstant root).2.evaluationsOf n = 0) := by
  have h := (Graph.authored_squaredConstant.kept Registry.uniquePins_material).wellLinked.agrees
  exact ⟨h, Graph.acyclic_squaredConstant, by decide +kernel, by decide +kernel,
    nodup_runs h Graph.acyclic_squaredConstant⟩

end Evaluator

end ShaderGraph
