import ShaderGraph.Proofs.Evaluation.Lifting
import ShaderGraph.Proofs.Evaluation.Step
import ShaderGraph.Proofs.Graph.Edits

/-!
# Evaluation agrees with plain recursion

Evaluation remembers what output pins have yielded, keeps the input pins that are being resolved in
a set and bounds how deep it goes. Without cycles none of this shows: all that is remembered is what
plain recursion yields, every pin in the set lies strictly downstream of the current node, so that
no pin is met again, and there are too few input pins for the depth to be used up. This much holds
of each region without cycles, whatever the rest of the graph is like.

## Main definitions

* `MonadRelation.keeping` — a computation with a state yields a value and keeps an invariant
* `Evaluator.Recursion` — in a region, plain recursion determines what output pins yield
* `Scope.Sustains` — an invariant under which what is remembered of a region is right
* `Scope.Faithful` — all that is remembered is right

## Main results

* `Evaluator.Recursion.rel_resolveInput` — resolving an input pin yields what plain recursion yields
* `Evaluator.Recursion.evaluatePin_eq`, `Evaluator.Recursion.evaluate_eq` — so do the evaluation of
  a pin and that of a material, where there are no cycles at all
* `Evaluator.evaluate_eq_reference` — plain recursion says what evaluation yields
-/

namespace ShaderGraph

/-! ### Computations with a state -/

namespace MonadRelation

/-- From any state that satisfies `P`, a computation yields a value and satisfies `P` again. -/
def keeping {σ : Type} (P : σ → Prop) : MonadRelation (StateM σ) Id where
  Rel x v := ∀ s, P s → (x.run s).1 = v ∧ P (x.run s).2
  rel_pure a s hs := ⟨rfl, hs⟩
  rel_bind {α β x v f k} hx hf s hs := by
    obtain ⟨hv, hs⟩ := hx s hs
    obtain ⟨hw, hs⟩ := hf (x.run s).1 _ hs
    exact ⟨hw.trans (congrArg k hv), hs⟩

variable {σ α β : Type} {P : σ → Prop}

/-- What comes after a computation may use the value that it yields. -/
theorem rel_bind_value {x : StateM σ α} {v : α} {f : α → StateM σ β} {w : β}
    (hx : (keeping P).Rel x v) (hf : (keeping P).Rel (f v) w) : (keeping P).Rel (x >>= f) w := by
  intro s hs
  obtain ⟨rfl, hs⟩ := hx s hs
  exact hf _ hs

theorem rel_modify {f : σ → σ} {x : StateM σ α} {v : Id α} (hf : ∀ s, P s → P (f s))
    (hx : (keeping P).Rel x v) : (keeping P).Rel (do modify f; x) v :=
  fun s hs => hx (f s) (hf s hs)

end MonadRelation

/-! ### Memory -/

/-- An invariant of scopes under which what is remembered of a region is right, and which stays when
more that is right is remembered. -/
structure Scope.Sustains (inside : NodeId → Prop) (value : PinRef → Option Evaluated)
    (P : Scope → Prop) : Prop where
  known : ∀ ⦃s r v⦄, P s → inside r.node → s.memo.get? r = some v → v = value r
  mapTrace : ∀ ⦃s⦄ f, P s → P (s.mapTrace f)
  remember : ∀ ⦃s r⦄, P s → inside r.node → P (s.remember r (value r))

/-- All that is remembered is what output pins yield. -/
def Scope.Faithful (value : PinRef → Option Evaluated) (s : Scope) : Prop :=
  ∀ ⦃r v⦄, s.memo.get? r = some v → v = value r

theorem Scope.Faithful.remember {value : PinRef → Option Evaluated} {s : Scope}
    (h : s.Faithful value) (r : PinRef) : (s.remember r (value r)).Faithful value := by
  intro r' v hv
  rw [Scope.remember, Table.get?_insert] at hv
  split at hv
  · rename_i he
    rw [← Option.some_inj.mp hv, he]
  · exact h hv

theorem Scope.sustains_faithful {value : PinRef → Option Evaluated} :
    Scope.Sustains (fun _ => True) value (Scope.Faithful value) where
  known _ _ _ hs _ hv := hs hv
  mapTrace _ _ hs := hs
  remember _ r hs _ := hs.remember r

namespace Evaluator

open MonadRelation

/-- In a region of a graph that holds with each node all that feeds it, and no cycles, output pins
yield `value`, by the equations of plain recursion. -/
structure Recursion (ev : Evaluator) (g : Graph) (inside : NodeId → Prop)
    (value : PinRef → Option Evaluated) : Prop where
  closed : ∀ ⦃m n⦄, g.Feeds m n → inside n → inside m
  acyclic : ∀ ⦃n⦄, inside n → ¬ Relation.TransGen g.Feeds n n
  value_eq : ∀ ⦃n node⦄, inside n → g.node? n = some node → ∀ output,
    value ⟨n, output⟩ = ev.evaluateNode (m := Id) node output (g.inputValue value n)

variable {ev : Evaluator} {g : Graph} {depth : Nat} {visited : List PinRef} {n : NodeId}
  {node : Node} {inside : NodeId → Prop} {value : PinRef → Option Evaluated} {P : Scope → Prop}

/-- A graph without cycles is a region as a whole. -/
theorem recursion_reference (hacyclic : g.Acyclic) :
    ev.Recursion g (fun _ => True) (ev.reference g hacyclic) where
  closed _ _ _ _ := trivial
  acyclic n _ := hacyclic n
  value_eq _ _ _ hn _ := reference_eq hn

/-- The value of an output pin may stand for what is remembered of it. -/
theorem rel_memoized {r : PinRef} {x : StateM Scope (Option Evaluated)}
    (hP : Scope.Sustains inside value P) (hr : inside r.node) (hx : (keeping P).Rel x (value r)) :
    (keeping P).Rel (memoized r x) (value r) := by
  intro s hs
  rw [run_memoized]
  cases hmemo : s.memo.get? r with
  | some known => exact ⟨hP.known hs hr hmemo, hP.mapTrace _ hs⟩
  | none =>
    obtain ⟨hv, hs⟩ := hx s hs
    dsimp only
    rw [hv]
    exact ⟨rfl, hP.remember hs hr⟩

/-- The rule of a node in the region yields the value of its output pin if its inputs are read as
plain recursion has them. -/
theorem Recursion.rel_runNode (hrec : ev.Recursion g inside value)
    (hP : Scope.Sustains inside value P) (hn : g.node? n = some node) (hin : inside n)
    {read : String → StateM Scope (Option Evaluated)}
    (hread : ∀ pin, (keeping P).Rel (read pin) (g.inputValue value n pin)) (output : String) :
    (keeping P).Rel (ev.runNode node output read) (value ⟨n, output⟩) := by
  rw [hrec.value_eq hin hn output]
  exact rel_modify (fun s hs => hP.mapTrace _ hs) (rel_evaluateNode hread)

/-- In a region that plain recursion determines, resolving an input pin yields what plain recursion
yields. The induction is on the depth; the pins in `visited` stay downstream of the node as it moves
upstream. -/
theorem Recursion.rel_resolveInput (hrec : ev.Recursion g inside value)
    (hP : Scope.Sustains inside value P) (h : g.Agrees) (hn : g.node? n = some node)
    (hin : inside n) (hnest : g.Nesting depth visited)
    (hdown : ∀ r ∈ visited, Relation.TransGen g.Feeds n r.node) (pin : String) :
    (keeping P).Rel (ev.resolveInput g depth visited node pin) (g.inputValue value n pin) := by
  induction depth generalizing visited n node pin with
  | zero => exact absurd rfl hnest.depth_ne_zero
  | succ depth ih =>
    -- A pin met again would lie strictly downstream of its own node.
    have hnew : (⟨n, pin⟩ : PinRef) ∉ visited := fun hmem => hrec.acyclic hin (hdown _ hmem)
    rcases resolveInput_cases ev h hn pin with hvalue | ⟨link, producer, hfollows, hresolve⟩
    · rw [hvalue depth visited hnew value]
      exact (keeping P).rel_pure _
    · have hsource : inside link.source.node := hrec.closed hfollows.feeds hin
      rw [hresolve depth visited hnew, hfollows.inputValue value]
      refine rel_memoized hP hsource (hrec.rel_runNode hP hfollows.node hsource (fun pin' => ?_) _)
      exact ih hfollows.node hsource (hnest.cons hnew hfollows.input) (hfollows.downstream hdown)
        pin'

/-- So does recalling an output pin of the region. -/
theorem Recursion.rel_memoized_runNode {r : PinRef} (hrec : ev.Recursion g inside value)
    (hP : Scope.Sustains inside value P) (h : g.Agrees) (hn : g.node? r.node = some node)
    (hin : inside r.node) (hnest : g.Nesting depth visited)
    (hdown : ∀ r' ∈ visited, Relation.TransGen g.Feeds r.node r'.node) :
    (keeping P).Rel
      (memoized r (ev.runNode node r.pin (ev.resolveInput g depth visited node))) (value r) :=
  rel_memoized hP hin (hrec.rel_runNode hP hn hin
    (fun pin => hrec.rel_resolveInput hP h hn hin hnest hdown pin) r.pin)

/-! ### Whole graphs -/

/-- Every evaluation begins with nothing remembered. -/
theorem faithful_empty : Scope.empty.Faithful value := fun r v hv => by cases hv

/-- An input pin that is resolved by itself yields what plain recursion yields. -/
theorem Recursion.rel_resolveInput_nil (hrec : ev.Recursion g (fun _ => True) value) (h : g.Agrees)
    (hn : g.node? n = some node) (pin : String) :
    (keeping (Scope.Faithful value)).Rel (ev.resolveInput g (depthBound g) [] node pin)
      (g.inputValue value n pin) :=
  hrec.rel_resolveInput Scope.sustains_faithful h hn trivial .nil (List.forall_mem_nil _) pin

theorem Recursion.rel_assignInput (hrec : ev.Recursion g (fun _ => True) value) (h : g.Agrees)
    (hn : g.node? n = some node) (a : MaterialAttributes) (p : Pin) :
    (keeping (Scope.Faithful value)).Rel (ev.assignInput g node a p)
      (ev.assignValue a p (g.inputValue value n p.id)) := by
  rw [assignInput, assignValue]
  cases Channel.ofPinName? p.name with
  | none => exact (keeping _).rel_pure a
  | some c =>
    refine rel_bind_value (hrec.rel_resolveInput_nil h hn p.id) ?_
    cases g.inputValue value n p.id with
    | none => exact (keeping _).rel_pure a
    | some e => exact (keeping _).rel_pure _

theorem Recursion.evaluatePin_eq {r : PinRef} (hrec : ev.Recursion g (fun _ => True) value)
    (h : g.Agrees) (hn : g.node? r.node = some node) : ev.evaluatePin g r = value r := by
  have hrun := hrec.rel_runNode Scope.sustains_faithful hn trivial
    (hrec.rel_resolveInput_nil h hn) r.pin
  rw [evaluatePin, hn]
  exact (hrun .empty faithful_empty).1

theorem Recursion.evaluate_eq {root : NodeId} (hrec : ev.Recursion g (fun _ => True) value)
    (h : g.Agrees) (hn : g.node? root = some node) :
    ev.evaluate g root =
      node.inputs.foldl (fun a p => ev.assignValue a p (g.inputValue value root p.id)) ∅ := by
  have hrun : (keeping (Scope.Faithful value)).Rel
      (node.inputs.foldlM (ev.assignInput g node) (∅ : MaterialAttributes))
      (node.inputs.foldlM (fun a p => ev.assignValue a p (g.inputValue value root p.id)) ∅) :=
    rel_foldlM (fun p _ a => hrec.rel_assignInput h hn a p) ∅
  rw [evaluate, evaluateTraced, hn, List.foldl_eq_foldlM]
  exact (hrun .empty faithful_empty).1

theorem evaluatePin_eq_reference (h : g.Agrees) (hacyclic : g.Acyclic) (r : PinRef) :
    ev.evaluatePin g r = ev.reference g hacyclic r := by
  cases hn : g.node? r.node with
  | none => rw [evaluatePin, hn, reference_eq_none hn]
  | some node => exact (recursion_reference hacyclic).evaluatePin_eq h hn

theorem evaluate_eq_referenceMaterial (h : g.Agrees) (hacyclic : g.Acyclic) (root : NodeId) :
    ev.evaluate g root = ev.referenceMaterial g hacyclic root := by
  cases hn : g.node? root with
  | none => rw [evaluate, evaluateTraced, referenceMaterial, hn]
  | some node => rw [referenceMaterial, hn, (recursion_reference hacyclic).evaluate_eq h hn]

/-- Without cycles, evaluation itself satisfies the equations of plain recursion. -/
theorem recursion_evaluatePin (h : g.Agrees) (hacyclic : g.Acyclic) :
    ev.Recursion g (fun _ => True) (ev.evaluatePin g) := by
  have hvalue : ev.evaluatePin g = ev.reference g hacyclic :=
    funext (evaluatePin_eq_reference h hacyclic)
  rw [hvalue]
  exact recursion_reference hacyclic

/-- Without cycles, the material at any node and the value of any output pin are what plain
recursion yields. -/
theorem evaluate_eq_reference (h : g.Agrees) (hacyclic : g.Acyclic) :
    (∀ root, ev.evaluate g root = ev.referenceMaterial g hacyclic root) ∧
      ∀ r, ev.evaluatePin g r = ev.reference g hacyclic r :=
  ⟨evaluate_eq_referenceMaterial h hacyclic, evaluatePin_eq_reference h hacyclic⟩

/-- The product reads the constant twice and finds it remembered once. -/
theorem evaluate_eq_reference_squaredConstant :
    Graph.squaredConstant.Agrees ∧ ∃ h : Graph.squaredConstant.Acyclic,
      ((∀ root, evaluate ⟨.material, fun _ => none, .standard⟩ .squaredConstant root =
          referenceMaterial ⟨.material, fun _ => none, .standard⟩ .squaredConstant h root) ∧
        ∀ r, evaluatePin ⟨.material, fun _ => none, .standard⟩ .squaredConstant r =
          reference ⟨.material, fun _ => none, .standard⟩ .squaredConstant h r) ∧
      (evaluateTraced ⟨.material, fun _ => none, .standard⟩ .squaredConstant
        ⟨⟨9⟩⟩).2.memoHits = 1 ∧
      evaluatePin ⟨.material, fun _ => none, .standard⟩ .squaredConstant ⟨⟨⟨2⟩⟩, "Result"⟩ =
        some (.resolved (.scalar 0)) := by
  have h := (Graph.authored_squaredConstant.kept Registry.uniquePins_material).wellLinked.agrees
  exact ⟨h, Graph.acyclic_squaredConstant,
    evaluate_eq_reference h Graph.acyclic_squaredConstant, by decide +kernel, by decide +kernel⟩

end Evaluator

end ShaderGraph
