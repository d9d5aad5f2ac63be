import ShaderGraph.Evaluation.Rule

/-!
# Rules in two monads

A rule is written once for every monad in which inputs can be read. Hence two readers that are
related input by input, each in its own monad, make the rule give related results, whatever the
relation is, so long as it respects values and sequencing.

## Main definitions

* `MonadRelation` — a relation between computations that respects values and sequencing
* `MonadRelation.optionT` — the same between computations that may be absent

## Main results

* `MonadRelation.rel_foldlM` — related steps give related runs over a list
* `MonadRelation.rel_applyRule`, `MonadRelation.rel_evaluateNode` — related readers give related
  results
-/

namespace ShaderGraph

/-- A relation between the computations of two monads that respects values and sequencing. -/
structure MonadRelation (m₁ m₂ : Type → Type) [Monad m₁] [Monad m₂] where
  Rel : {α : Type} → m₁ α → m₂ α → Prop
  rel_pure : ∀ {α : Type} (a : α), Rel (pure a) (pure a)
  rel_bind : ∀ {α β : Type} {x₁ : m₁ α} {x₂ : m₂ α} {f₁ : α → m₁ β} {f₂ : α → m₂ β},
    Rel x₁ x₂ → (∀ a, Rel (f₁ a) (f₂ a)) → Rel (x₁ >>= f₁) (x₂ >>= f₂)

namespace MonadRelation

variable {m₁ m₂ : Type → Type} [Monad m₁] [Monad m₂] (R : MonadRelation m₁ m₂)

/-- Computations that may be absent are related if they are related as computations of options. -/
def optionT : MonadRelation (OptionT m₁) (OptionT m₂) where
  Rel x₁ x₂ := R.Rel x₁.run x₂.run
  rel_pure a := R.rel_pure (some a)
  rel_bind hx hf := by
    refine R.rel_bind hx fun a => ?_
    -- An absent value ends both computations.
    cases a with
    | none => exact R.rel_pure none
    | some a => exact hf a

variable {R} {read₁ : String → m₁ (Option Evaluated)} {read₂ : String → m₂ (Option Evaluated)}

/-- Steps that are related make runs over a list related. -/
theorem rel_foldlM {α γ : Type} {f₁ : α → γ → m₁ α} {f₂ : α → γ → m₂ α} {xs : List γ}
    (h : ∀ x ∈ xs, ∀ a, R.Rel (f₁ a x) (f₂ a x)) (a : α) :
    R.Rel (xs.foldlM f₁ a) (xs.foldlM f₂ a) := by
  induction xs generalizing a with
  | nil => exact R.rel_pure a
  | cons x xs ih =>
    rw [List.foldlM_cons, List.foldlM_cons]
    exact R.rel_bind (h x List.mem_cons_self a) (ih fun y hy => h y (List.mem_cons_of_mem x hy))

theorem rel_required (v : Option Value) :
    R.optionT.Rel (Evaluator.required v) (Evaluator.required v) := R.rel_pure v

theorem rel_resolved_required (v : Option Value) :
    R.optionT.Rel (Evaluated.resolved <$> Evaluator.required v)
      (Evaluated.resolved <$> Evaluator.required v) :=
  R.optionT.rel_bind (rel_required v) fun a => R.optionT.rel_pure (Evaluated.resolved a)

theorem rel_operand {pin : String} (h : R.Rel (read₁ pin) (read₂ pin)) :
    R.optionT.Rel (Evaluator.operand read₁ pin) (Evaluator.operand read₂ pin) := by
  have hlift : R.optionT.Rel (OptionT.lift (read₁ pin)) (OptionT.lift (read₂ pin)) :=
    R.rel_bind h fun a => R.rel_pure (some a)
  refine R.optionT.rel_bind hlift fun a => ?_
  match a with
  | some (.resolved v) => exact R.optionT.rel_pure (some v)
  | some (.pending _) => exact R.rel_pure none
  | none => exact R.optionT.rel_pure none

/-- Related readers of inputs make a rule give related results. -/
theorem rel_applyRule (h : ∀ pin, R.Rel (read₁ pin) (read₂ pin)) {ev : Evaluator}
    {rule : EvaluationRule} {n : Node} {output : String} :
    R.Rel (ev.applyRule rule n output read₁) (ev.applyRule rule n output read₂) := by
  have hoperand (pin : String) := rel_operand (h pin)
  -- Each rule is a sequence of operands, in the rule's own order, and of steps without any reading.
  cases rule with
  | scalarProperty name => exact R.rel_pure _
  | vectorProperties names => exact R.rel_pure _
  | binary op =>
    -- A product reads both inputs even if the first is absent; the other operations stop there.
    cases op with
    | multiply => exact R.rel_bind (h "A") fun a => R.rel_bind (h "B") fun b => R.rel_pure _
    | _ =>
      exact R.optionT.rel_bind (hoperand "A") fun _ => R.optionT.rel_bind (rel_required _) fun _ =>
        R.optionT.rel_bind (hoperand "B") fun _ => R.optionT.rel_bind (rel_required _) fun _ =>
          rel_resolved_required _
  | unary f =>
    exact R.optionT.rel_bind (hoperand "Input") fun _ =>
      R.optionT.rel_bind (rel_required _) fun _ => rel_resolved_required _
  | lerp =>
    exact R.optionT.rel_bind (hoperand "A") fun _ => R.optionT.rel_bind (hoperand "B") fun _ =>
      R.optionT.rel_bind (hoperand "Alpha") fun _ => rel_resolved_required _
  | clamp =>
    exact R.optionT.rel_bind (hoperand "Input") fun _ =>
      R.optionT.rel_bind (rel_required _) fun _ => R.optionT.rel_bind (hoperand "Min") fun _ =>
        R.optionT.rel_bind (hoperand "Max") fun _ => rel_resolved_required _
  | append =>
    exact R.optionT.rel_bind (hoperand "A") fun _ => R.optionT.rel_bind (rel_required _) fun _ =>
      R.optionT.rel_bind (hoperand "B") fun _ => R.optionT.rel_bind (rel_required _) fun _ =>
        rel_resolved_required _
  | textureSample => exact R.rel_pure _
  | passthrough pin => exact h pin
  | generic => exact R.rel_pure _

/-- Related readers of inputs make a node evaluate to related results. -/
theorem rel_evaluateNode (h : ∀ pin, R.Rel (read₁ pin) (read₂ pin)) {ev : Evaluator} {n : Node}
    {output : String} :
    R.Rel (ev.evaluateNode n output read₁) (ev.evaluateNode n output read₂) := by
  rw [Evaluator.evaluateNode, Evaluator.evaluateNode]
  split
  · exact R.rel_pure none
  · exact rel_applyRule h

end MonadRelation

end ShaderGraph
