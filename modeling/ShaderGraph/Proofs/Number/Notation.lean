import Mathlib.Data.List.Basic
import Mathlib.Data.List.TakeWhile
import ShaderGraph.Number.Notation
import ShaderGraph.Proofs.Number.Decimal

/-!
# Written numbers

A number in positional form is written with digits and a point, and is read back: the decimal that
is read may have a zero more behind its digits, but it is nearest to the same pattern.

## Main definitions

* `Decimal.around` — the decimal that digits around a point stand for

## Main results

* `isDigit_or_eq_point` — a number in positional form is written with digits and a point
* `exists_positionalChars_eq` — there are digits on both sides of the point
* `decimalOfText?_positionalChars` — a number in positional form is read back
* `notMem_floatText` — a number in shader code has no star
-/

namespace ShaderGraph

open Decimal FloatNotation

/-- A run of characters of a class ends where the next character is not of the class. -/
theorem run_append {p : Char → Bool} {cs rest : List Char} (hcs : ∀ c ∈ cs, p c = true)
    (hrest : ∀ c ∈ rest.head?, p c = false) :
    (cs ++ rest).takeWhile p = cs ∧ (cs ++ rest).dropWhile p = rest := by
  rw [List.takeWhile_append_of_pos hcs, List.dropWhile_append_of_pos hcs]
  cases rest with
  | nil => exact ⟨List.append_nil cs, rfl⟩
  | cons c rest =>
    have hc : ¬p c = true := Bool.not_eq_true _ ▸ hrest c rfl
    rw [List.takeWhile_cons_of_neg hc, List.dropWhile_cons_of_neg hc, List.append_nil]
    exact ⟨rfl, rfl⟩

theorem run_all {p : Char → Bool} {cs : List Char} (h : ∀ c ∈ cs, p c = true) :
    cs.takeWhile p = cs ∧ cs.dropWhile p = [] :=
  ⟨List.takeWhile_eq_self_iff.mpr h, List.dropWhile_eq_nil_iff.mpr h⟩

theorem isDigit_of_mem_digitChars {n : Nat} {c : Char} (h : c ∈ digitChars n) :
    c.isDigit = true :=
  Nat.isDigit_of_mem_toDigits (by decide) (by decide) h

theorem isDigit_of_mem_zeros {k : Nat} : ∀ c ∈ List.replicate k '0', c.isDigit = true := by
  intro c hc
  rw [List.eq_of_mem_replicate hc]
  decide

/-- A number in positional form is written with digits and a point. -/
theorem isDigit_or_eq_point {wholePoint : Bool} {d : Decimal} {c : Char}
    (h : c ∈ positionalChars wholePoint d) : c.isDigit = true ∨ c = '.' := by
  rw [positionalChars] at h
  split at h
  · rcases List.mem_append.mp h with h | h
    · rcases List.mem_append.mp h with h | h
      · exact Or.inl (isDigit_of_mem_digitChars h)
      · exact Or.inl (isDigit_of_mem_zeros c h)
    · split at h
      · rcases List.mem_pair.mp h with rfl | rfl
        · exact Or.inr rfl
        · exact Or.inl (by decide)
      · cases h
  · dsimp only at h
    split at h
    · rcases List.mem_append.mp h with h | h
      · exact Or.inl (isDigit_of_mem_digitChars (List.mem_of_mem_take h))
      · rcases List.mem_cons.mp h with rfl | h
        · exact Or.inr rfl
        · exact Or.inl (isDigit_of_mem_digitChars (List.mem_of_mem_drop h))
    · rcases List.mem_cons.mp h with rfl | h
      · exact Or.inl (by decide)
      · rcases List.mem_cons.mp h with rfl | h
        · exact Or.inr rfl
        · rcases List.mem_append.mp h with h | h
          · exact Or.inl (isDigit_of_mem_zeros c h)
          · exact Or.inl (isDigit_of_mem_digitChars h)

/-! ### Reading what is written -/

theorem digitsValue_eq {cs : List Char} : digitsValue cs = Nat.ofDigitChars 10 cs 0 := rfl

theorem digitsValue_digitChars {n : Nat} : digitsValue (digitChars n) = n := by
  rw [digitsValue_eq, digitChars, Nat.ofDigitChars_toDigits (by decide) (by decide)]

theorem digitsValue_append_zeros {k : Nat} {cs : List Char} :
    digitsValue (cs ++ List.replicate k '0') = digitsValue cs * powerOfTen k := by
  rw [digitsValue_eq, Nat.ofDigitChars_append, Nat.ofDigitChars_replicate_zero, Nat.mul_comm,
    digitsValue_eq, powerOfTen_eq]

theorem digitsValue_zeros_append {k : Nat} {cs : List Char} :
    digitsValue (List.replicate k '0' ++ cs) = digitsValue cs := by
  rw [digitsValue_eq, Nat.ofDigitChars_append, Nat.ofDigitChars_replicate_zero, Nat.mul_zero,
    digitsValue_eq]

/-- The decimal that digits around a point stand for. -/
def Decimal.around (whole fraction : List Char) : Decimal :=
  ⟨digitsValue (whole ++ fraction), -fraction.length⟩

/-- Digits around a point are read. -/
theorem decimalOfText?_point {whole fraction : List Char} (hne : whole ≠ [])
    (hdigits : ∀ c ∈ whole ++ fraction, c.isDigit = true) :
    decimalOfText? (whole ++ '.' :: fraction) = some (around whole fraction) := by
  have hwhole : ∀ c ∈ whole, c.isDigit = true := fun c hc =>
    hdigits c (List.mem_append_left _ hc)
  have hfraction : ∀ c ∈ fraction, c.isDigit = true := fun c hc =>
    hdigits c (List.mem_append_right _ hc)
  have hpoint : ∀ c ∈ ('.' :: fraction).head?, c.isDigit = false := by
    rintro c ⟨⟩
    rfl
  simp only [decimalOfText?, run_append hwhole hpoint, run_all hfraction]
  rw [if_neg (by simp [hne]), Option.map_some, Int.zero_sub, around]

/-- A number in positional form has digits on both sides of its point, which stand for the number
that it was written for. Behind a whole number there is a single zero; otherwise the digits are
those of the decimal. -/
theorem exists_positionalChars_eq {d : Decimal} :
    ∃ whole fraction, positionalChars true d = whole ++ '.' :: fraction ∧
      whole ≠ [] ∧ fraction ≠ [] ∧ (∀ c ∈ whole ++ fraction, c.isDigit = true) ∧
      (around whole fraction).toRat = d.toRat ∧ (0 ≤ d.exponent → fraction = ['0']) ∧
      (d.exponent < 0 → around whole fraction = d) := by
  have hdigits : ∀ c ∈ digitChars d.digits, c.isDigit = true := fun c =>
    isDigit_of_mem_digitChars
  rw [positionalChars]
  dsimp only
  split
  case isTrue h =>
    refine ⟨digitChars d.digits ++ List.replicate d.exponent.toNat '0', ['0'], rfl,
      List.append_ne_nil_of_left_ne_nil Nat.toDigits_ne_nil _, List.cons_ne_nil _ _, ?_, ?_,
      fun _ => rfl, fun hneg => absurd h (Int.not_le.mpr hneg)⟩
    · rw [List.append_assoc, ← List.replicate_succ']
      exact List.forall_mem_append.mpr ⟨hdigits, isDigit_of_mem_zeros⟩
    · -- The zeros in front of the point and the one behind it are zeros behind the digits.
      have hexp : (-(['0'] : List Char).length : Int) =
          d.exponent - (d.exponent.toNat + 1 : Nat) := by
        rw [List.length_singleton]
        omega
      rw [around, List.append_assoc, ← List.replicate_succ', digitsValue_append_zeros,
        digitsValue_digitChars, hexp, toRat_zeros]
  case isFalse h =>
    have hplaces : -((-d.exponent).toNat : Int) = d.exponent := by omega
    split
    case isTrue hlt =>
      have hself : around
          ((digitChars d.digits).take ((digitChars d.digits).length - (-d.exponent).toNat))
          ((digitChars d.digits).drop ((digitChars d.digits).length - (-d.exponent).toNat)) =
            d := by
        rw [around, List.take_append_drop, digitsValue_digitChars, List.length_drop,
          Nat.sub_sub_self (by omega), hplaces]
      refine ⟨_, _, rfl, List.ne_nil_of_length_pos (by rw [List.length_take]; omega),
        List.ne_nil_of_length_pos (by rw [List.length_drop]; omega), ?_, congrArg toRat hself,
        fun hpos => absurd hpos h, fun _ => hself⟩
      rwa [List.take_append_drop]
    case isFalse hlt =>
      have hself : around ['0']
          (List.replicate ((-d.exponent).toNat - (digitChars d.digits).length) '0' ++
            digitChars d.digits) = d := by
        rw [around, ← List.append_assoc, List.singleton_append, ← List.replicate_succ,
          digitsValue_zeros_append, digitsValue_digitChars, List.length_append,
          List.length_replicate, Nat.sub_add_cancel (by omega), hplaces]
      refine ⟨_, _, rfl, List.cons_ne_nil _ _,
        List.append_ne_nil_of_right_ne_nil _ Nat.toDigits_ne_nil, ?_, congrArg toRat hself,
        fun hpos => absurd hpos h, fun _ => hself⟩
      rw [← List.append_assoc, List.singleton_append, ← List.replicate_succ]
      exact List.forall_mem_append.mpr ⟨isDigit_of_mem_zeros, hdigits⟩

/-- A number in positional form is read back. -/
theorem decimalOfText?_positionalChars {d : Decimal} :
    ∃ d', decimalOfText? (positionalChars true d) = some d' ∧
      d'.nearestPattern = d.nearestPattern := by
  obtain ⟨whole, fraction, htext, hne, -, hdigits, hvalue, -⟩ := exists_positionalChars_eq (d := d)
  exact ⟨around whole fraction, htext ▸ decimalOfText?_point hne hdigits,
    nearestPattern_congr hvalue⟩

/-- A number in shader code has no star. -/
theorem notMem_floatText {x : Float32} : '*' ∉ (floatText x).toList := by
  have hsign {neg : Bool} {cs : List Char} (h : '*' ∉ cs) :
      '*' ∉ (String.ofList (if neg then '-' :: cs else cs)).toList := by
    rw [String.toList_ofList]
    split
    · rw [List.mem_cons, not_or]
      exact ⟨by decide, h⟩
    · exact h
  rw [floatText]
  split
  · refine hsign fun hmem => ?_
    rcases List.mem_append.mp hmem with hmem | hmem
    · exact absurd (isDigit_of_mem_digitChars hmem) (by decide)
    · exact absurd hmem (by decide)
  · rw [FloatNotation.write]
    split
    · decide
    · split
      · split <;> decide
      · refine hsign fun hmem => ?_
        rcases isDigit_or_eq_point hmem with h | h
        · exact absurd h (by decide)
        · exact absurd h (by decide)

end ShaderGraph
