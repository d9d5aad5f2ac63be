import ShaderGraph.Proofs.Resolution

/-!
# Materials under any calls

A material is written by assignments, by textures that come in late, and by runs over what is
pending. Each of these writes to the channels that it is given, or for which a texture was composed,
and to no others. What it writes into a colour channel is a colour of three components or a texture,
and it leaves nothing pending but on colour channels. So whatever calls are made, and whatever the
compositor answers, a renderer finds colours where it looks for them.

## Main definitions

* `Value.IsColor` — a colour of three components or a texture
* `Resolution.composed` — the channels that a run writes to
* `MaterialAttributes.Call` — one call, with the channels that it is about
* `MaterialAttributes.Called` — what calls make of the empty material

## Main results

* `MaterialAttributes.Reached.isColor_slot` — colour channels hold colours
* `MaterialAttributes.Reached.entry_eq_of_call` — a call changes the channels that it is about
* `MaterialAttributes.Called.attributes_exactly` — all about materials under calls
-/

namespace ShaderGraph

/-- A colour of three components, or a texture. -/
def Value.IsColor (v : Value) : Prop :=
  (∃ x y z, v = .vector [x, y, z]) ∨ ∃ t, v = .texture t

theorem Value.isColor_of_asColor? {v u : Value} (h : v.asColor? = some u) : u.IsColor := by
  rw [asColor?.eq_def] at h
  split at h <;> cases h
  · exact Or.inl ⟨_, _, _, rfl⟩
  · exact Or.inl ⟨_, _, _, rfl⟩
  · exact Or.inr ⟨_, rfl⟩

namespace Resolution

/-- The channels for which a texture was composed. -/
def composed (tried : List Attempt) : List Channel :=
  tried.filterMap fun x => if x.error?.isNone then some x.channel else none

end Resolution

namespace MaterialAttributes

open Resolution

variable {a b : MaterialAttributes} {c d : Channel} {touched : List Channel}

/-! ### Runs over what is pending, step by step -/

section Pending

variable {σ : Type} {compose : σ → PendingOperation → Except CompositeError TextureRef × σ} {s : σ}
  {r : Resolution σ} {es : List (Channel × PendingOperation)}

/-- A run over pending channels is made of composed textures. -/
theorem Reached.foldl_step (h : Reached r.attributes) :
    Reached (es.foldl (step compose) r).attributes := by
  induction es generalizing r with
  | nil => exact h
  | cons e es ih =>
    refine ih ?_
    cases hanswer : (compose r.state e.2).1 with
    | ok t =>
      rw [step_of_ok hanswer]
      exact h.applyResolved e.1 t
    | error err => rwa [step_of_error hanswer]

theorem mem_composed_iff {tried : List Attempt} :
    c ∈ composed tried ↔ ∃ op t, ⟨c, op, .ok t⟩ ∈ tried := by
  rw [composed, List.mem_filterMap]
  constructor
  · rintro ⟨⟨c', op, answer⟩, hx, hc⟩
    cases answer with
    | ok t =>
      obtain rfl := Option.some_inj.mp hc
      exact ⟨op, t, hx⟩
    | error err => cases hc
  · rintro ⟨op, t, hx⟩
    exact ⟨_, hx, rfl⟩

end Pending

/-! ### Colours -/

/-- Colour channels hold colours. -/
theorem Reached.isColor_slot (h : Reached a) (hd : d.isColor = true) {v : Value}
    (hv : a.slot d = some v) : v.IsColor := by
  induction h generalizing v with
  | empty => cases d <;> cases hv
  | @assign a _ c e placeholder ih =>
    -- A channel that is not assigned keeps its colour.
    by_cases hdc : d = c
    · subst hdc
      cases e with
      | resolved u =>
        have hslot : (a.assign d (.resolved u) placeholder).slot d = u.asColor? := slot_set_color hd
        exact Value.isColor_of_asColor? (hslot ▸ hv)
      | pending op =>
        have hslot : (a.assign d (.pending op) placeholder).slot d =
            placeholder.value.asColor? := (Prod.mk.inj (entry_assign_pending hd)).1
        exact Value.isColor_of_asColor? (hslot ▸ hv)
    · have hentry : (a.assign c e placeholder).entry d = a.entry d := entry_assign_of_ne hdc
      exact ih ((Prod.mk.inj hentry).1 ▸ hv)
  | @applyResolved a _ c t ih =>
    by_cases hdc : d = c
    · subst hdc
      rw [(Prod.mk.inj (entry_applyResolved hd)).1] at hv
      exact Or.inr ⟨t, (Option.some_inj.mp hv).symm⟩
    · have hentry : (a.applyResolved c t).entry d = a.entry d := entry_applyResolved_of_ne hdc
      exact ih ((Prod.mk.inj hentry).1 ▸ hv)

/-! ### Calls -/

/-- What one call makes of a material, with the channels that it was given or for which it composed
a texture. -/
inductive Call (a : MaterialAttributes) : MaterialAttributes → List Channel → Prop
  | assign (c : Channel) (e : Evaluated) (placeholder : Color) :
      Call a (a.assign c e placeholder) [c]
  | applyResolved (c : Channel) (t : TextureRef) : Call a (a.applyResolved c t) [c]
  | resolvePending {σ : Type}
      (compose : σ → PendingOperation → Except CompositeError TextureRef × σ) (s : σ) :
      Call a (resolvePending compose s a).attributes
        (composed (attempts compose s a.pending.entries))

/-- What calls make of the empty material. -/
inductive Called : MaterialAttributes → Prop
  | empty : Called ∅
  | call {a b : MaterialAttributes} {touched : List Channel} (h : Called a)
      (hcall : Call a b touched) : Called b

theorem Reached.call (h : Reached a) (hcall : Call a b touched) : Reached b := by
  cases hcall with
  | assign c e placeholder => exact h.assign c e placeholder
  | applyResolved c t => exact h.applyResolved c t
  | resolvePending compose s => exact Reached.foldl_step (r := ⟨s, a, 0, none⟩) h

theorem Called.reached (h : Called a) : Reached a := by
  induction h with
  | empty => exact .empty
  | call _ hcall ih => exact ih.call hcall

theorem Reached.isColor_of_mem_keys (h : Reached a) (hc : c ∈ a.pending.keys) :
    c.isColor = true := by
  obtain ⟨⟨c', op⟩, hop, rfl⟩ := List.mem_map.mp hc
  exact h.isColor_of_pending (Table.get?_eq_some_iff.mpr hop)

/-- A call changes no channel but those that it is about. -/
theorem Reached.entry_eq_of_call (h : Reached a) (hcall : Call a b touched) (hc : c ∉ touched) :
    b.entry c = a.entry c := by
  cases hcall with
  | assign c' e placeholder => exact entry_assign_of_ne fun he => hc (List.mem_singleton.mpr he)
  | applyResolved c' t => exact entry_applyResolved_of_ne fun he => hc (List.mem_singleton.mpr he)
  | resolvePending compose s =>
    have hsettled : Settled (attempts compose s a.pending.entries) a
        (resolvePending compose s a).attributes :=
      settled_foldl (r := ⟨s, a, 0, none⟩) a.pending.nodup fun c hc => h.isColor_of_mem_keys hc
    exact hsettled.kept fun op t hmem => hc (mem_composed_iff.mpr ⟨op, t, hmem⟩)

/-- Whatever calls are made on the empty material, each colour channel is empty or holds a colour of
three components or a texture, and only colour channels wait for a texture, each for one. A further
call changes no channel but those that it is given or for which it composes a texture. -/
theorem Called.attributes_exactly (h : Called a) :
    (∀ o ∈ [a.baseColor, a.emissiveColor, a.normal],
      o = none ∨ (∃ x y z, o = some (.vector [x, y, z])) ∨ ∃ t, o = some (.texture t)) ∧
    (∀ c ∈ a.pending.keys, c.isColor = true) ∧ a.pending.keys.Nodup ∧
    ∀ b touched, Call a b touched → ∀ c ∉ touched,
      b.slot c = a.slot c ∧ b.pending.get? c = a.pending.get? c := by
  have hcolor (c : Channel) (hc : c.isColor = true) :
      a.slot c = none ∨ (∃ x y z, a.slot c = some (.vector [x, y, z])) ∨
        ∃ t, a.slot c = some (.texture t) := by
    cases hv : a.slot c with
    | none => exact Or.inl rfl
    | some v =>
      rcases h.reached.isColor_slot hc hv with ⟨x, y, z, rfl⟩ | ⟨t, rfl⟩
      · exact Or.inr (Or.inl ⟨x, y, z, rfl⟩)
      · exact Or.inr (Or.inr ⟨t, rfl⟩)
  refine ⟨?_, fun c hc => h.reached.isColor_of_mem_keys hc, a.pending.nodup,
    fun b touched hcall c hc => Prod.mk.inj (h.reached.entry_eq_of_call hcall hc)⟩
  simp only [List.forall_mem_cons, List.not_mem_nil, false_imp_iff, implies_true, and_true]
  exact ⟨hcolor .baseColor rfl, hcolor .emissiveColor rfl, hcolor .normal rfl⟩

/-- A material of which all is written in some way: a product is left pending, a colour with a
fourth component and a texture that came in late are there, and a channel of numbers has been given
a texture. -/
def wellWritten : MaterialAttributes :=
  (((assign ∅ .baseColor (.pending halfBrick) white).assign .normal
    (.resolved (.vector [0, 0, 1, 1])) white).assign .metallic
      (.resolved (.texture halfBrick.texture)) white).applyResolved .emissiveColor halfBrick.texture

theorem called_wellWritten : Called wellWritten :=
  .call (.call (.call (.call .empty (.assign _ _ _)) (.assign _ _ _)) (.assign _ _ _))
    (.applyResolved _ _)

/-- The run composes a texture for the base colour and writes to no other channel. -/
theorem Called.attributes_exactly_wellWritten :
    Called wellWritten ∧ wellWritten.pending.keys = [.baseColor] ∧
    wellWritten.normal = some (.vector [0, 0, 1]) ∧
    let b := (resolvePending failingOnce 0 wellWritten).attributes
    Call wellWritten b [.baseColor] ∧ b.slot .baseColor = some (.texture ⟨"brick*", ""⟩) ∧
    Channel.normal ∉ [Channel.baseColor] ∧ b.slot .normal = wellWritten.slot .normal := by
  have hcall : Call wellWritten (resolvePending failingOnce 0 wellWritten).attributes
      [.baseColor] := .resolvePending failingOnce 0
  have hnormal : Channel.normal ∉ [Channel.baseColor] := by decide
  obtain ⟨-, -, -, hframe⟩ := called_wellWritten.attributes_exactly
  exact ⟨called_wellWritten, by decide, by decide, hcall, by decide, hnormal,
    (hframe _ _ hcall _ hnormal).1⟩

end MaterialAttributes

end ShaderGraph
