import ShaderGraph.Proofs.Evaluation.Sharing
import ShaderGraph.Texture

/-!
# Assignments to one channel

A channel may be assigned to more than once, as several pins of a root can mention it, and a
composed texture may fill it in between. What the last assignment leaves there depends on what was
there before, except where the assignment settles the channel: a pending operation settles a colour
channel and a scalar settles any other. A value that goes into a colour channel does not take back
the operation that the channel waits for, and a channel of numbers keeps its number if something
else is assigned to it.

## Main definitions

* `MaterialAttributes.Reached` — what assignments and composed textures make of the empty material
* `MaterialAttributes.Settles` — an assignment after which it does not matter what was there before

## Main results

* `MaterialAttributes.Reached.isColor_of_pending` — only colour channels wait for a texture
* `MaterialAttributes.Reached.entry_assign_eq_iff` — whether the last assignment decides alone
* `MaterialAttributes.entry_assign_ne_waiting` — it does not always
-/

namespace ShaderGraph

namespace MaterialAttributes

/-- What assignments and composed textures make of the empty material. -/
inductive Reached : MaterialAttributes → Prop
  | empty : Reached ∅
  | assign {a : MaterialAttributes} (h : Reached a) (c : Channel) (e : Evaluated)
      (placeholder : Color) : Reached (a.assign c e placeholder)
  | applyResolved {a : MaterialAttributes} (h : Reached a) (c : Channel) (t : TextureRef) :
      Reached (a.applyResolved c t)

/-- An assignment after which it does not matter what was in the channel before. -/
def Settles (c : Channel) : Evaluated → Prop
  | .pending _ => c.isColor = true
  | .resolved v => c.isColor = false ∧ v.scalar?.isSome = true

variable {a b : MaterialAttributes} {c d : Channel} {e : Evaluated} {op : PendingOperation}
  {v : Value} {t : TextureRef} {x : Float32} {placeholder : Color}

/-! ### One assignment -/

theorem slot_set_scalar (h : c.isColor = false) :
    (a.set c (.scalar x)).slot c = some (.scalar x) := by
  cases c with
  | baseColor | emissiveColor | normal => cases h
  | _ => rfl

theorem set_of_scalar?_eq_none (h : c.isColor = false) (hv : v.scalar? = none) : a.set c v = a := by
  cases v with
  | scalar x => cases hv
  | vector _ | texture _ =>
    cases c with
    | baseColor | emissiveColor | normal => cases h
    | _ => rfl

theorem entry_assign_resolved :
    (a.assign c (.resolved v) placeholder).entry c = ((a.set c v).slot c, a.pending.get? c) := by
  rw [entry, assign, pending_set]

theorem entry_assign_pending (h : c.isColor = true) :
    (a.assign c (.pending op) placeholder).entry c = (placeholder.value.asColor?, some op) := by
  rw [assign, if_pos h]
  dsimp only
  rw [entry_pending_insert, slot_set_color h, if_pos rfl]

theorem assign_pending_of_isColor_eq_false (h : c.isColor = false) :
    a.assign c (.pending op) placeholder = a := by
  rw [assign, h]
  rfl

/-- A value that goes into a colour channel does not take back what the channel waits for. -/
theorem entry_assign_eq_iff_of_isColor (hc : c.isColor = true) :
    (a.assign c e placeholder).entry c = (b.assign c e placeholder).entry c ↔
      Settles c e ∨ a.pending.get? c = b.pending.get? c := by
  cases e with
  | pending op =>
    rw [entry_assign_pending hc, entry_assign_pending hc]
    exact iff_of_true rfl (Or.inl hc)
  | resolved v =>
    have hsettles : ¬ Settles c (.resolved v) := fun h => absurd (hc.symm.trans h.1) (by decide)
    rw [entry_assign_resolved, entry_assign_resolved, slot_set_color hc, slot_set_color hc,
      Prod.mk.injEq, or_iff_right hsettles]
    exact and_iff_right rfl

/-- A channel of numbers keeps its number unless a scalar is assigned to it. -/
theorem slot_assign_eq_iff_of_isColor_eq_false (hc : c.isColor = false) :
    (a.assign c e placeholder).slot c = (b.assign c e placeholder).slot c ↔
      Settles c e ∨ a.slot c = b.slot c := by
  cases e with
  | pending op =>
    have hsettles : ¬ Settles c (.pending op) := fun h => absurd (hc.symm.trans h) (by decide)
    rw [assign_pending_of_isColor_eq_false hc, assign_pending_of_isColor_eq_false hc,
      or_iff_right hsettles]
  | resolved v =>
    rw [assign, assign]
    cases v with
    | scalar x =>
      rw [slot_set_scalar hc, slot_set_scalar hc]
      exact iff_of_true rfl (Or.inl ⟨hc, rfl⟩)
    | vector _ | texture _ =>
      rw [set_of_scalar?_eq_none hc rfl, set_of_scalar?_eq_none hc rfl,
        or_iff_right fun h => Bool.false_ne_true h.2]

/-! ### Every sequence of assignments -/

/-- An assignment makes no channel of numbers wait. -/
theorem isColor_of_pending_assign (h : ∀ op, a.pending.get? d = some op → d.isColor = true)
    (hop : (a.assign c e placeholder).pending.get? d = some op) : d.isColor = true := by
  cases e with
  | resolved v =>
    rw [assign, pending_set] at hop
    exact h op hop
  | pending op' =>
    cases hc : c.isColor with
    | false =>
      rw [assign_pending_of_isColor_eq_false hc] at hop
      exact h op hop
    | true =>
      by_cases hd : d = c
      · rw [hd, hc]
      · have hentry : (a.assign c (.pending op') placeholder).entry d = a.entry d :=
          entry_assign_of_ne hd
        exact h op ((Prod.mk.inj hentry).2 ▸ hop)

theorem pending_applyResolved :
    (a.applyResolved c t).pending.get? d = if d = c then none else a.pending.get? d := by
  rw [applyResolved, pending_set, Table.get?_swapErase]

/-- Only colour channels wait for a texture. -/
theorem Reached.isColor_of_pending (h : Reached a) (hop : a.pending.get? d = some op) :
    d.isColor = true := by
  induction h generalizing op with
  | empty => cases hop
  | assign _ c e placeholder ih => exact isColor_of_pending_assign (fun _ => ih) hop
  | applyResolved _ c t ih =>
    rw [pending_applyResolved] at hop
    split at hop
    · cases hop
    · exact ih hop

theorem Reached.entry_eq_of_isColor_eq_false (h : Reached a) (hc : c.isColor = false) :
    a.entry c = (a.slot c, none) := by
  have hpending : a.pending.get? c = none := by
    refine Option.eq_none_iff_forall_ne_some.mpr fun op hop => ?_
    exact absurd (hc.symm.trans (h.isColor_of_pending hop)) (by decide)
  rw [entry, hpending]

/-- An assignment touches its own channel alone. It decides alone what that channel ends up with if
it settles the channel; otherwise a colour channel goes on waiting for what it waited for, and a
channel of numbers keeps its number. -/
theorem Reached.entry_assign_eq_iff (ha : Reached a) (hb : Reached b) :
    (∀ d ≠ c, (a.assign c e placeholder).entry d = a.entry d) ∧
    ((a.assign c e placeholder).entry c = (b.assign c e placeholder).entry c ↔
      Settles c e ∨
        if c.isColor then a.pending.get? c = b.pending.get? c else a.slot c = b.slot c) := by
  refine ⟨fun d hd => entry_assign_of_ne hd, ?_⟩
  cases hc : c.isColor with
  | true => exact entry_assign_eq_iff_of_isColor hc
  | false =>
    -- Nothing waits in a channel of numbers, so its slot is all there is to compare.
    rw [(ha.assign c e placeholder).entry_eq_of_isColor_eq_false hc,
      (hb.assign c e placeholder).entry_eq_of_isColor_eq_false hc, Prod.mk.injEq,
      and_iff_left rfl]
    exact slot_assign_eq_iff_of_isColor_eq_false hc

/-! ### A texture that comes late -/

/-- A brick texture times one half. -/
def halfBrick : PendingOperation := ⟨⟨"brick", "textures/brick.png"⟩, .scalar 0.5⟩

/-- The colour that pending channels show. -/
def white : Color := ⟨1, 1, 1⟩

/-- A material whose base colour waits for the texture. -/
def waiting : MaterialAttributes := assign ∅ .baseColor (.pending halfBrick) white

/-- A grey that is assigned to the base colour. -/
def grey : Evaluated := .resolved (.scalar 0.5)

theorem reached_waiting : Reached waiting := Reached.empty.assign _ _ _

theorem entry_assign_eq_iff_waiting :
    (Reached waiting ∧ Reached ∅) ∧
    (∀ d ≠ Channel.baseColor, (waiting.assign .baseColor grey white).entry d = waiting.entry d) ∧
    ((waiting.assign .baseColor grey white).entry .baseColor =
        (assign ∅ .baseColor grey white).entry .baseColor ↔
      Settles .baseColor grey ∨
        if Channel.isColor .baseColor then
          waiting.pending.get? .baseColor = (∅ : MaterialAttributes).pending.get? .baseColor
        else waiting.slot .baseColor = slot ∅ .baseColor) :=
  ⟨⟨reached_waiting, .empty⟩, reached_waiting.entry_assign_eq_iff .empty⟩

/-- A number assigned to a channel that waits for a texture does not last: the channel waits on, and
the texture replaces the number in the end. -/
theorem entry_assign_ne_waiting :
    (Reached waiting ∧ Reached ∅) ∧
    (waiting.assign .baseColor grey white).entry .baseColor ≠
      (assign ∅ .baseColor grey white).entry .baseColor ∧
    (resolvePending Compositor.compose .empty
        (waiting.assign .baseColor grey white)).attributes.slot .baseColor =
      some (.texture (Compositor.describe halfBrick.texture (Compositor.tag [0.5, 0.5, 0.5]))) := by
  refine ⟨⟨reached_waiting, .empty⟩, ?_, ?_⟩
  · decide
  · rfl

end MaterialAttributes

end ShaderGraph
