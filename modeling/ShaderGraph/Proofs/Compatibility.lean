import Mathlib.Data.List.Basic
import ShaderGraph.Compatibility

/-!
# What may be joined

Whether a type may feed another is looked up in the declarations, and in both directions; equal
types need no declaration, and between numbers of which one has fewer components none helps. So
further declarations add connections and take none away, and what they add is known. Pins and names
of types are joined by the same rule.

## Main definitions

* `Compatibility.Narrows` — a connection in which a number would lose components
* `Compatibility.allowAll` — several declarations, one after the other

## Main results

* `Compatibility.canConnect_allowAll_iff` — what further declarations add
* `Compatibility.canConnectNames_iff` — names are joined if they are equal or name types that are
* `Compatibility.connections_exactly` — all about what may be joined
-/

namespace ShaderGraph.Compatibility

/-- A number with more components would feed one with fewer. -/
def Narrows (source target : PinType) : Prop :=
  source.isNumeric = true ∧ target.isNumeric = true ∧ target.components < source.components

instance (source target : PinType) : Decidable (Narrows source target) :=
  inferInstanceAs (Decidable (_ ∧ _ ∧ _))

/-- Several declarations of source and target, one after the other. -/
def allowAll (c : Compatibility) (further : List (PinType × PinType)) : Compatibility :=
  further.foldl (fun c p => c.allow p.1 p.2) c

variable {c : Compatibility} {s t : PinType} {a b : PinDirection × PinType} {x y x' y' : String}
  {further : List (PinType × PinType)}

/-! ### Types -/

theorem Narrows.ne (h : Narrows s t) : s ≠ t := by
  rintro rfl
  exact Nat.lt_irrefl _ h.2.2

theorem narrows_iff : (s.isNumeric && t.isNumeric && t.components < s.components) = true ↔
    Narrows s t := by
  simp [Narrows, and_assoc]

theorem canConnect_iff : c.canConnect s t = true ↔
    s = t ∨ ¬ Narrows s t ∧ (c.declares t s = true ∨ c.declares s t = true) := by
  rw [canConnect]
  by_cases heq : s = t
  · simp [heq]
  · rw [if_neg heq]
    by_cases hnarrows : Narrows s t
    · rw [if_pos (narrows_iff.mpr hnarrows)]
      simp [heq, hnarrows]
    · rw [if_neg (mt narrows_iff.mp hnarrows)]
      simp [heq, hnarrows]

theorem declares_allowAll_iff : (c.allowAll further).declares t s = true ↔
    c.declares t s = true ∨ (s, t) ∈ further := by
  rw [allowAll]
  induction further generalizing c with
  | nil => simp
  | cons p further ih =>
    rw [List.foldl_cons, ih, declares_allow_iff, List.mem_cons, Prod.ext_iff, or_assoc]

/-- Further declarations add the connections that they declare in one direction or the other, but
for those in which a number would lose components. -/
theorem canConnect_allowAll_iff : (c.allowAll further).canConnect s t = true ↔
    c.canConnect s t = true ∨ ¬ Narrows s t ∧ ((s, t) ∈ further ∨ (t, s) ∈ further) := by
  simp only [canConnect_iff, declares_allowAll_iff]
  tauto

theorem canConnect_eq_false_of_narrows (h : Narrows s t) : c.canConnect s t = false := by
  rw [Bool.eq_false_iff, ne_eq, canConnect_iff]
  rintro (heq | ⟨hnot, -⟩)
  · exact h.ne heq
  · exact hnot h

/-! ### Pins -/

theorem canConnectPins_comm : c.canConnectPins a b = c.canConnectPins b a := by
  obtain ⟨d, s⟩ := a
  obtain ⟨d', t⟩ := b
  cases d <;> cases d' <;> rfl

theorem canConnectPins_self_direction {d : PinDirection} :
    c.canConnectPins (d, s) (d, t) = false := by
  cases d <;> rfl

theorem canConnectPins_iff : c.canConnectPins a b = true ↔
    (a.1 = .output ∧ b.1 = .input ∧ c.canConnect a.2 b.2 = true) ∨
    (a.1 = .input ∧ b.1 = .output ∧ c.canConnect b.2 a.2 = true) := by
  obtain ⟨d, s⟩ := a
  obtain ⟨d', t⟩ := b
  cases d <;> cases d' <;> simp [canConnectPins]

/-! ### Names -/

theorem canConnectNames_of_types (hs : PinType.normalizeName x = s.name)
    (ht : PinType.normalizeName y = t.name) : c.canConnectNames x y = c.canConnect s t := by
  rw [canConnectNames, PinType.ofName?_eq_some_iff.mpr hs, PinType.ofName?_eq_some_iff.mpr ht]

/-- Names are joined if they are equal, blanks at the ends and case aside, or name types that may
be joined. -/
theorem canConnectNames_iff : c.canConnectNames x y = true ↔
    PinType.normalizeName x = PinType.normalizeName y ∨
    ∃ s t : PinType, PinType.normalizeName x = s.name ∧ PinType.normalizeName y = t.name ∧
      c.canConnect s t = true := by
  by_cases htypes : ∃ s t : PinType, PinType.normalizeName x = s.name ∧
      PinType.normalizeName y = t.name
  · obtain ⟨s, t, hs, ht⟩ := htypes
    rw [canConnectNames_of_types hs ht, hs, ht]
    constructor
    · exact fun h => Or.inr ⟨s, t, rfl, rfl, h⟩
    · rintro (h | ⟨s', t', hs', ht', h⟩)
      · rw [PinType.name_injective h]
        exact canConnect_self
      · rwa [PinType.name_injective hs', PinType.name_injective ht']
  · -- Unless both are names of types, names are compared as they stand.
    have hnone : ∀ s t, ¬ (PinType.ofName? x = some s ∧ PinType.ofName? y = some t) :=
      fun s t ⟨hs, ht⟩ => htypes
        ⟨s, t, PinType.ofName?_eq_some_iff.mp hs, PinType.ofName?_eq_some_iff.mp ht⟩
    have hequal : c.canConnectNames x y =
        (PinType.normalizeName x == PinType.normalizeName y) := by
      rw [canConnectNames]
      split
      · rename_i s t hs ht
        exact absurd ⟨hs, ht⟩ (hnone s t)
      · rfl
    rw [hequal, beq_iff_eq]
    exact ⟨Or.inl, fun h => h.elim id fun ⟨s, t, hs, ht, _⟩ => absurd ⟨s, t, hs, ht⟩ htypes⟩

theorem canConnectNames_congr (hx : PinType.normalizeName x = PinType.normalizeName x')
    (hy : PinType.normalizeName y = PinType.normalizeName y') :
    c.canConnectNames x y = c.canConnectNames x' y' := by
  rw [Bool.eq_iff_iff, canConnectNames_iff, canConnectNames_iff, hx, hy]

/-- Whatever is declared, pins are joined in either order, and if their directions differ as their
types are, otherwise not. Further declarations add the connections that they declare in one
direction or the other; they take none away, of types, pins or names, and never let a number lose
components. Names count up to blanks at the ends and case: equal ones are joined, names of types as
the types are, and no others. -/
theorem connections_exactly (c : Compatibility) (further : List (PinType × PinType)) :
    (∀ a b, c.canConnectPins a b = c.canConnectPins b a) ∧
    (∀ d s t, c.canConnectPins (d, s) (d, t) = false) ∧
    (∀ s t, c.canConnectPins (.output, s) (.input, t) = c.canConnect s t) ∧
    (∀ s t, (c.allowAll further).canConnect s t = true ↔
      c.canConnect s t = true ∨ ¬ Narrows s t ∧ ((s, t) ∈ further ∨ (t, s) ∈ further)) ∧
    (∀ a b, c.canConnectPins a b = true → (c.allowAll further).canConnectPins a b = true) ∧
    (∀ x y, c.canConnectNames x y = true → (c.allowAll further).canConnectNames x y = true) ∧
    (∀ s t, Narrows s t → (c.allowAll further).canConnect s t = false) ∧
    (∀ x y x' y', PinType.normalizeName x = PinType.normalizeName x' →
      PinType.normalizeName y = PinType.normalizeName y' →
      c.canConnectNames x y = c.canConnectNames x' y') ∧
    (∀ x y, PinType.normalizeName x = PinType.normalizeName y → c.canConnectNames x y = true) ∧
    (∀ x y (s t : PinType), PinType.normalizeName x = s.name → PinType.normalizeName y = t.name →
      c.canConnectNames x y = c.canConnect s t) ∧
    (∀ x y, PinType.normalizeName x ≠ PinType.normalizeName y →
      (¬ ∃ s t : PinType, PinType.normalizeName x = s.name ∧ PinType.normalizeName y = t.name) →
      c.canConnectNames x y = false) := by
  have htypes (s t : PinType) (h : c.canConnect s t = true) :
      (c.allowAll further).canConnect s t = true := canConnect_allowAll_iff.mpr (Or.inl h)
  refine ⟨fun a b => canConnectPins_comm, fun d s t => canConnectPins_self_direction,
    fun s t => rfl, fun s t => canConnect_allowAll_iff, fun a b h => ?_, fun x y h => ?_,
    fun s t => canConnect_eq_false_of_narrows,
    fun x y x' y' => canConnectNames_congr, fun x y h => canConnectNames_iff.mpr (Or.inl h),
    fun x y s t => canConnectNames_of_types, fun x y hne hno => ?_⟩
  · rw [canConnectPins_iff] at h ⊢
    exact h.imp (.imp_right <| .imp_right <| htypes _ _) (.imp_right <| .imp_right <| htypes _ _)
  · rw [canConnectNames_iff] at h ⊢
    exact h.imp_right fun ⟨s, t, hs, ht, h⟩ => ⟨s, t, hs, ht, htypes s t h⟩
  · rw [Bool.eq_false_iff, ne_eq, canConnectNames_iff]
    rintro (heq | ⟨s, t, hs, ht, -⟩)
    · exact hne heq
    · exact hno ⟨s, t, hs, ht⟩

/-- A declaration of which no connection comes, and one of which one does. -/
def oddPairs : List (PinType × PinType) := [(.float3, .float), (.bool, .texture)]

theorem connections_exactly_standard :
    (standard.canConnect .texture .bool = false ∧
      (standard.allowAll oddPairs).canConnect .texture .bool = true) ∧
    (standard.canConnectPins (.input, .float3) (.output, .float) = true ∧
      (standard.allowAll oddPairs).canConnectPins (.input, .float3) (.output, .float) = true) ∧
    (Narrows .float3 .float ∧ (standard.allowAll oddPairs).canConnect .float3 .float = false) ∧
    (PinType.normalizeName " FLOAT" = PinType.float.name ∧
      PinType.normalizeName "Float3 " = PinType.float3.name ∧
      standard.canConnectNames " FLOAT" "Float3 " = standard.canConnect .float .float3 ∧
      standard.canConnectNames " FLOAT" "Float3 " = standard.canConnectNames "float" "float3" ∧
      (standard.allowAll oddPairs).canConnectNames " FLOAT" "Float3 " = true) ∧
    (PinType.normalizeName "Normal" = PinType.normalizeName "normal\n" ∧
      standard.canConnectNames "Normal" "normal\n" = true) ∧
    (PinType.normalizeName "normal" ≠ PinType.normalizeName "float3" ∧
      standard.canConnectNames "normal" "float3" = false) := by
  obtain ⟨-, -, -, hadd, hpins, hnames, hnarrow, hcongr, hequal, hof, hother⟩ :=
    connections_exactly standard oddPairs
  have hfloat : PinType.normalizeName " FLOAT" = PinType.float.name := by decide
  have hfloat3 : PinType.normalizeName "Float3 " = PinType.float3.name := by decide
  have hno : ¬ ∃ s t : PinType, PinType.normalizeName "normal" = s.name ∧
      PinType.normalizeName "float3" = t.name := by
    rintro ⟨s, t, hs, -⟩
    cases s <;> revert hs <;> decide
  refine ⟨⟨by decide, (hadd _ _).mpr (Or.inr (by decide))⟩, ⟨by decide, hpins _ _ (by decide)⟩,
    ⟨by decide, hnarrow _ _ (by decide)⟩,
    ⟨hfloat, hfloat3, hof _ _ _ _ hfloat hfloat3, hcongr _ _ _ _ (by decide) (by decide),
      hnames _ _ (by decide)⟩,
    ⟨by decide, hequal _ _ (by decide)⟩, ⟨by decide, hother _ _ (by decide) hno⟩⟩

end ShaderGraph.Compatibility
