import ShaderGraph.Evaluation.Scope
import ShaderGraph.Proofs.Evaluation.Lifting

/-!
# Computations with a state

A computation is described by what it yields and by an invariant of the state that it keeps.

## Main definitions

* `OnSome` — a property of a value, if there is one
* `Yields` — what a computation yields from states that satisfy an invariant, which it keeps
* `MonadRelation.matching` — two computations yield the same value from states that match

## Main results

* `Yields.bind`, `Yields.bindSome` — the same for what comes after a computation, which may be
  absent
* `Yields.foldlM` — the same for a run over a list
* `Yields.evaluateNode_trivial`, `Evaluator.yields_foldlM` — a node keeps what the reading of its
  inputs keeps, and so do the inputs of a root
-/

namespace ShaderGraph

/-- What holds of a value, if there is one. -/
def OnSome {α : Type} (Q : α → Prop) (o : Option α) : Prop := ∀ a, o = some a → Q a

theorem onSome_none {α : Type} {Q : α → Prop} : OnSome Q none := fun a ha => by cases ha

theorem onSome_some {α : Type} {Q : α → Prop} {a : α} (h : Q a) : OnSome Q (some a) := by
  intro b hb
  exact Option.some_inj.mp hb ▸ h

theorem OnSome.map {α β : Type} {Q : α → Prop} {R : β → Prop} {f : α → β} {o : Option α}
    (h : OnSome Q o) (hf : ∀ a, Q a → R (f a)) : OnSome R (o.map f) := by
  cases o with
  | none => exact onSome_none
  | some a => exact onSome_some (hf a (h a rfl))

theorem OnSome.getD {α : Type} {Q : α → Prop} {o : Option α} {a : α} (h : OnSome Q o)
    (ha : Q a) : Q (o.getD a) := by
  cases o with
  | none => exact ha
  | some b => exact h b rfl

/-- What comes after a computation begins with its value, in the state in which it ends. -/
theorem StateM.run_bind {σ α β : Type} {x : StateM σ α} {k : α → StateM σ β} {s : σ} :
    (x >>= k).run s = (k (x.run s).1).run (x.run s).2 := rfl

/-- From any state that satisfies `P`, a computation yields a value that satisfies `Q` and ends in
a state that satisfies `P`. -/
def Yields {σ α : Type} (P : σ → Prop) (Q : α → Prop) (x : StateM σ α) : Prop :=
  ∀ s, P s → Q (x.run s).1 ∧ P (x.run s).2

namespace Yields

variable {σ α β : Type} {P : σ → Prop} {Q : α → Prop} {R : β → Prop}

theorem pure {a : α} (ha : Q a) : Yields P Q (pure a) := fun _ hs => ⟨ha, hs⟩

theorem bind {x : StateM σ α} {k : α → StateM σ β} (hx : Yields P Q x)
    (hk : ∀ a, Q a → Yields P R (k a)) : Yields P R (x >>= k) :=
  fun s hs => hk _ (hx s hs).1 _ (hx s hs).2

/-- Every step of a run over a list keeps what the run is to yield. -/
theorem foldlM {γ : Type} {f : α → γ → StateM σ α} {xs : List γ}
    (h : ∀ x ∈ xs, ∀ a, Q a → Yields P Q (f a x)) {a : α} (ha : Q a) :
    Yields P Q (xs.foldlM f a) := by
  induction xs generalizing a with
  | nil => exact pure ha
  | cons x xs ih =>
    rw [List.foldlM_cons]
    exact (h x List.mem_cons_self a ha).bind fun b hb =>
      ih (fun y hy => h y (List.mem_cons_of_mem x hy)) hb

theorem modify {f : σ → σ} {x : StateM σ α} (hf : ∀ s, P s → P (f s)) (hx : Yields P Q x) :
    Yields P Q (do modify f; x) :=
  fun s hs => hx (f s) (hf s hs)

/-- What comes after a look at the state begins in the state that was seen. -/
theorem get_run {k : σ → StateM σ α} (hk : ∀ s, P s → Q ((k s).run s).1 ∧ P ((k s).run s).2) :
    Yields P Q (do k (← get)) := hk

theorem get {k : σ → StateM σ α} (hk : ∀ s, P s → Yields P Q (k s)) :
    Yields P Q (do k (← get)) :=
  fun s hs => hk s hs s hs

/-! ### Computations that may be absent -/

theorem none : Yields P (OnSome Q) (Pure.pure none : StateM σ (Option α)) := pure onSome_none

theorem some {a : α} (ha : Q a) : Yields P (OnSome Q) (Pure.pure (some a) : StateM σ (Option α)) :=
  pure (onSome_some ha)

/-- Nothing comes after a computation that is absent. -/
theorem bindSome {x : OptionT (StateM σ) α} {k : α → OptionT (StateM σ) β}
    (hx : Yields P (OnSome Q) x.run) (hk : ∀ a, Q a → Yields P (OnSome R) (k a).run) :
    Yields P (OnSome R) (x >>= k).run := by
  have hbind : (x >>= k).run = x.run >>= fun o => match o with
    | Option.some a => (k a).run
    | Option.none => Pure.pure Option.none := rfl
  rw [hbind]
  refine bind hx fun o ho => ?_
  cases o with
  | none => exact none
  | some a => exact hk a (ho a rfl)

/-- An invariant alone is a relation that disregards the values that are yielded. -/
def relation (P : σ → Prop) : MonadRelation (StateM σ) Id where
  Rel x _ := Yields P (fun _ => True) x
  rel_pure _ := pure trivial
  rel_bind hx hk := bind hx fun a _ => hk a

/-- A node keeps what the reading of its inputs keeps. -/
theorem evaluateNode_trivial {read : String → StateM σ (Option Evaluated)}
    (h : ∀ pin, Yields P (fun _ => True) (read pin)) {ev : Evaluator} {n : Node} {output : String} :
    Yields P (fun _ => True) (ev.evaluateNode n output read) := by
  have hrel : (relation P).Rel (ev.evaluateNode n output read)
      (ev.evaluateNode (m := Id) n output fun _ => Option.none) :=
    MonadRelation.rel_evaluateNode fun pin => h pin
  exact hrel

end Yields

/-- The inputs of a root keep what the resolving of each of them keeps. -/
theorem Evaluator.yields_foldlM {P : Scope → Prop} {ev : Evaluator} {g : Graph} {node : Node}
    {ps : List Pin}
    (h : ∀ p ∈ ps, (Channel.ofPinName? p.name).isSome = true →
      Yields P (fun _ => True) (ev.resolveInput g (depthBound g) [] node p.id))
    (a : MaterialAttributes) :
    Yields P (fun _ => True) (ps.foldlM (ev.assignInput g node) a) := by
  refine .foldlM (fun p hp a _ => ?_) trivial
  rw [assignInput]
  cases hc : Channel.ofPinName? p.name with
  | none => exact .pure trivial
  | some c =>
    refine (h p hp (hc ▸ rfl)).bind fun v _ => ?_
    cases v <;> exact .pure trivial

/-! ### Two computations side by side -/

namespace MonadRelation

/-- From any two states that match, two computations yield the same value and end in states that
match. -/
def matching {σ τ : Type} (M : σ → τ → Prop) : MonadRelation (StateM σ) (StateM τ) where
  Rel x y := ∀ s t, M s t → (x.run s).1 = (y.run t).1 ∧ M (x.run s).2 (y.run t).2
  rel_pure _ _ _ hst := ⟨rfl, hst⟩
  rel_bind {α β x y f k} hx hf s t hst := by
    obtain ⟨hv, hst⟩ := hx s t hst
    rw [StateM.run_bind, StateM.run_bind, ← hv]
    exact hf (x.run s).1 _ _ hst

variable {σ τ α : Type} {M : σ → τ → Prop}

theorem rel_modify_matching {f : σ → σ} {k : τ → τ} {x : StateM σ α} {y : StateM τ α}
    (hf : ∀ s t, M s t → M (f s) (k t)) (hx : (matching M).Rel x y) :
    (matching M).Rel (do modify f; x) (do modify k; y) :=
  fun s t hst => hx (f s) (k t) (hf s t hst)

theorem rel_get_matching {x : σ → StateM σ α} {y : τ → StateM τ α}
    (h : ∀ s t, M s t → (matching M).Rel (x s) (y t)) :
    (matching M).Rel (do x (← get)) (do y (← get)) :=
  fun s t hst => h s t hst s t hst

end MonadRelation

end ShaderGraph
