import Mathlib.Data.List.Basic
import ShaderGraph.Proofs.Number.Notation
import ShaderGraph.Ron.Scan

/-!
# RON: numbers are read back

Integers are spelt with their decimal digits, numbers with a point in the notation of saved text or,
if they are not finite, by a word. Each spelling stands for the number that it was written for.

## Main definitions

* `Numeral.signed` — the digits of a decimal behind a sign
* `Ron.IsSpelling` — characters of which it can be seen that they spell a number

## Main results

* `Numeral.u32?_toDigits` — the digits of an unsigned integer are read back
* `Numeral.f32?_saved` — a number in saved text is read back, whether it is finite or not
* `Ron.isSpelling_toDigits`, `Ron.isSpelling_saved` — both spell a number
-/

namespace ShaderGraph

namespace Numeral

open Decimal FloatNotation

variable {cs : List Char} {n : Nat} {x : Float32} {negative allowed : Bool} {d : Decimal}

/-! ### Unsigned integers -/

theorem splitSign_eq_self (h : ∀ c ∈ cs, c ≠ '-' ∧ c ≠ '+') : splitSign cs = (false, cs) := by
  rw [splitSign.eq_def]
  split
  · exact absurd rfl (h '-' List.mem_cons_self).1
  · exact absurd rfl (h '+' List.mem_cons_self).2
  · rfl

theorem splitBase_eq_self (h : ∀ c ∈ cs, c.isDigit = true) : splitBase cs = (10, cs) := by
  have hsecond {c d : Char} {ds : List Char} (hcs : ∀ e ∈ c :: d :: ds, e.isDigit = true) :
      d.isDigit = true := hcs d (List.mem_cons_of_mem c List.mem_cons_self)
  rw [splitBase.eq_def]
  split
  · exact absurd (hsecond h) (by decide)
  · exact absurd (hsecond h) (by decide)
  · exact absurd (hsecond h) (by decide)
  · rfl

theorem digitValue_lt {c : Char} (h : c.isDigit = true) : digitValue c < 10 := by
  rw [digitValue, if_pos h]
  have := (Char.isDigit_iff_toNat.mp h).2
  have hzero : '0'.toNat = 48 := rfl
  have hnine : '9'.toNat = 57 := rfl
  omega

/-- Digits stand for a number in base ten. -/
theorem digitsIn?_digits (h : ∀ c ∈ cs, c.isDigit = true) :
    digitsIn? 10 cs = some (digitsValue cs) := by
  have hfilter : cs.filter (· != '_') = cs := by
    refine List.filter_eq_self.mpr fun c hc => bne_iff_ne.mpr ?_
    rintro rfl
    exact absurd (h '_' hc) (by decide)
  have hall : cs.all (fun c => decide (digitValue c < 10)) = true :=
    List.all_eq_true.mpr fun c hc => decide_eq_true (digitValue_lt (h c hc))
  have hfold : cs.foldl (fun n c => 10 * n + digitValue c) 0 = digitsValue cs := by
    refine List.foldl_ext _ _ 0 fun n c hc => ?_
    rw [digitValue, if_pos (h c hc)]
  rw [digitsIn?, hfilter, if_pos hall, hfold]

theorem integer?_digitChars : integer? (digitChars n) = some ⟨false, n, []⟩ := by
  have hdigits : ∀ c ∈ digitChars n, c.isDigit = true := fun c => isDigit_of_mem_digitChars
  have hsign : splitSign (digitChars n) = (false, digitChars n) := by
    refine splitSign_eq_self fun c hc => ⟨?_, ?_⟩
    · rintro rfl
      exact absurd (hdigits _ hc) (by decide)
    · rintro rfl
      exact absurd (hdigits _ hc) (by decide)
  have hinteger : ∀ c ∈ digitChars n, isIntegerChar c = true := fun c hc => by
    simp [isIntegerChar, hdigits c hc]
  have hhead : ¬(digitChars n = [] ∨ (digitChars n).head? = some '_') := by
    rintro (h | h)
    · exact Nat.toDigits_ne_nil h
    · exact absurd (hdigits '_' (List.mem_of_head? h)) (by decide)
  simp only [integer?, hsign, splitBase_eq_self hdigits, run_all hinteger]
  rw [if_neg hhead, if_neg (by simp), digitsIn?_digits hdigits, digitsValue_digitChars,
    Option.map_some]

/-- The digits of an unsigned integer are read back. -/
theorem u32?_toDigits {n : UInt32} : u32? (Nat.toDigits 10 n.toNat) = some n := by
  have hlt := n.toNat_lt
  have hread := integer?_digitChars (n := n.toNat)
  rw [digitChars] at hread
  rw [u32?, hread]
  dsimp only
  rw [if_pos ⟨Or.inl rfl, by simp; omega⟩, UInt32.ofNat_toNat]

/-! ### Numbers with a point -/

theorem underscoresFit_of_notMem (h : '_' ∉ cs) : underscoresFit allowed cs = true := by
  induction cs generalizing allowed with
  | nil => rfl
  | cons c cs ih =>
    rw [List.mem_cons, not_or] at h
    rw [underscoresFit, if_neg (Ne.symm h.1), ih h.2, ih h.2, ih h.2]
    simp

/-- A word holds letters that no decimal is spelt with. -/
theorem word?_eq_none {suffix : String} (h : ∀ c ∈ cs, isFloatChar c = true) :
    word? suffix cs = none := by
  have hwords : (words.all fun w => w.1.toList.any fun c => !isFloatChar c) = true := by decide
  have hfind : (words.find? fun w => (w.1 ++ suffix).toList = cs) = none := by
    rw [List.find?_eq_none]
    intro w hw heq
    obtain ⟨c, hc, hletter⟩ := List.any_eq_true.mp (List.all_eq_true.mp hwords w hw)
    rw [← of_decide_eq_true heq, String.toList_append] at h
    rw [h c (List.mem_append_left _ hc)] at hletter
    cases hletter
  rw [word?, hfind, Option.map_none]

/-- The digits of a decimal behind a sign. -/
def signed (negative : Bool) (digits : List Char) : List Char :=
  if negative then '-' :: digits else digits

theorem mem_signed_positionalChars {c : Char} (h : c ∈ signed negative (positionalChars true d)) :
    c.isDigit = true ∨ c = '.' ∨ c = '-' := by
  rw [signed] at h
  split at h
  · rcases List.mem_cons.mp h with rfl | h
    · exact Or.inr (Or.inr rfl)
    · exact (isDigit_or_eq_point h).imp_right Or.inl
  · exact (isDigit_or_eq_point h).imp_right Or.inl

theorem splitSign_signed :
    splitSign (signed negative (positionalChars true d)) = (negative, positionalChars true d) := by
  rw [signed]
  split
  case isTrue h => rw [splitSign, h]
  case isFalse h =>
    rw [Bool.eq_false_of_not_eq_true h]
    refine splitSign_eq_self fun c hc => ⟨?_, ?_⟩
    · rintro rfl
      rcases isDigit_or_eq_point hc with h | h <;> exact absurd h (by decide)
    · rintro rfl
      rcases isDigit_or_eq_point hc with h | h <;> exact absurd h (by decide)

/-- A decimal behind a sign stands for the nearest number with the sign. -/
theorem f32?_signed : f32? (signed negative (positionalChars true d)) =
    some (Binary32.ofPattern negative d.nearestPattern) := by
  have hchars : ∀ c ∈ signed negative (positionalChars true d), isFloatChar c = true := by
    intro c hc
    rcases mem_signed_positionalChars hc with h | rfl | rfl
    · simp [isFloatChar, h]
    · decide
    · decide
  have hunderscore : '_' ∉ signed negative (positionalChars true d) := by
    intro hc
    rcases mem_signed_positionalChars hc with h | h | h <;> exact absurd h (by decide)
  have hfilter : (signed negative (positionalChars true d)).filter (· != '_') =
      signed negative (positionalChars true d) := by
    refine List.filter_eq_self.mpr fun c hc => bne_iff_ne.mpr ?_
    rintro rfl
    exact hunderscore hc
  obtain ⟨d', hread, hnear⟩ := decimalOfText?_positionalChars (d := d)
  have hdecimal : decimal32? (signed negative (positionalChars true d)) =
      some (Binary32.ofPattern negative d.nearestPattern) := by
    rw [decimal32?, if_pos (underscoresFit_of_notMem hunderscore), hfilter, splitSign_signed]
    dsimp only
    rw [hread, Option.map_some, hnear]
  rw [f32?, word?_eq_none hchars, word?_eq_none hchars, splitFloat,
    (run_all hchars).1, (run_all hchars).2]
  exact (if_pos (Or.inl rfl)).trans hdecimal

/-! ### The notation of saved text -/

/-- In every notation, a finite number is written as its magnitude behind its sign. -/
theorem toList_write_of_finite {form : FloatNotation}
    (h : Binary32.pattern x < Binary32.infinity) :
    (form.write x).toList = signed (Binary32.isNegative x)
      (form.magnitudeChars (Binary32.pattern x)) := by
  rw [write]
  dsimp only
  rw [if_neg (Nat.not_lt.mpr h.le), if_neg h.ne, String.toList_ofList, signed]

/-- A finite number is written as its shortest decimal behind its sign. -/
theorem toList_saved_of_finite (h : Binary32.pattern x < Binary32.infinity) :
    (saved.write x).toList = signed (Binary32.isNegative x)
      (positionalChars true (shortest .up (Binary32.pattern x))) :=
  toList_write_of_finite h

/-- A number in saved text is read back, whether it is finite or not. -/
theorem f32?_saved : f32? (saved.write x).toList = some x := by
  rcases Nat.lt_trichotomy (Binary32.pattern x) Binary32.infinity with h | h | h
  · rw [toList_saved_of_finite h, f32?_signed, nearestPattern_shortest h,
      Binary32.ofPattern_pattern]
  · have hx := Binary32.ofPattern_pattern (x := x)
    rw [h] at hx
    rw [write]
    dsimp only
    rw [if_neg h.not_gt, if_pos h, ← hx]
    cases Binary32.isNegative x
    · rfl
    · rfl
  · have hx := Binary32.ofBits_toBits (x := x)
    rw [Binary32.toBits_of_infinity_lt h] at hx
    rw [write]
    dsimp only
    rw [if_pos h, ← hx]
    rfl

end Numeral

/-! ### Spellings as such -/

namespace Ron

open Decimal FloatNotation

/-- Characters that spell a number, as far as it can be seen where the number ends. -/
structure IsSpelling (cs : List Char) : Prop where
  ne_nil : cs ≠ []
  isNumberChar : ∀ c ∈ cs, isNumberChar c = true

theorem isSpelling_toDigits {n : Nat} : IsSpelling (Nat.toDigits 10 n) where
  ne_nil := Nat.toDigits_ne_nil
  isNumberChar c hc := by
    simp [Ron.isNumberChar, Char.isAlphanum, isDigit_of_mem_digitChars (n := n) hc]

theorem isSpelling_saved {x : Float32} : IsSpelling (saved.write x).toList where
  ne_nil hnil := by
    have hread := Numeral.f32?_saved (x := x)
    have hnone : Numeral.f32? [] = none := rfl
    rw [hnil, hnone] at hread
    cases hread
  isNumberChar c hc := by
    have hnan : "NaN".toList.all Ron.isNumberChar = true := by decide
    have hinf : "inf".toList.all Ron.isNumberChar = true := by decide
    have hneg : "-inf".toList.all Ron.isNumberChar = true := by decide
    rcases Nat.lt_trichotomy (Binary32.pattern x) Binary32.infinity with h | h | h
    · rw [Numeral.toList_saved_of_finite h] at hc
      rcases Numeral.mem_signed_positionalChars hc with h | rfl | rfl
      · simp [Ron.isNumberChar, Char.isAlphanum, h]
      · decide
      · decide
    · rw [FloatNotation.write] at hc
      dsimp only at hc
      rw [if_neg h.not_gt, if_pos h] at hc
      split at hc
      · exact List.all_eq_true.mp hneg c hc
      · exact List.all_eq_true.mp hinf c hc
    · rw [FloatNotation.write] at hc
      dsimp only at hc
      rw [if_pos h] at hc
      exact List.all_eq_true.mp hnan c hc

end Ron

end ShaderGraph
