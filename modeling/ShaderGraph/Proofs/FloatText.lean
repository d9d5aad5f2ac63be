import ShaderGraph.Proofs.Number.Shortest
import ShaderGraph.Proofs.Ron.Numeral

/-!
# Numbers in shader code

A finite number in shader code is the text of one decimal behind its sign, with digits on both sides
of a point. A whole number is written with all its digits. Of any other number the shortest decimal
is written, and that one has places behind the point: what is nearest to a whole number is whole.
The reader of saved text gives back the number, the sign of a zero included, so that no two finite
numbers have one text.

## Main definitions

* `writtenDecimal` — the decimal that a number in shader code is written as

## Main results

* `f32?_floatText` — a finite number in shader code is read back
* `floatText_exactly` — the form of the text, the decimal in it, and that no other number has it
-/

namespace ShaderGraph

open Binary32 Decimal
open FloatNotation (positionalChars)
open Numeral (f32? f32?_signed signed toList_write_of_finite)

variable {x y : Float32} {d : Decimal}

/-! ### The decimal in the text -/

/-- The decimal that a number in shader code is written as. -/
def writtenDecimal (x : Float32) : Decimal :=
  if isWhole x then ⟨magnitude (pattern x) / unitsPerOne, 0⟩ else shortest .up (pattern x)

theorem writtenDecimal_of_isWhole (h : isWhole x = true) :
    writtenDecimal x = ⟨magnitude (pattern x) / unitsPerOne, 0⟩ :=
  if_pos h

theorem writtenDecimal_of_isWhole_eq_false (h : isWhole x = false) :
    writtenDecimal x = shortest .up (pattern x) :=
  if_neg (Bool.eq_false_iff.mp h)

theorem isWhole_eq (hfinite : isFinite x = true) :
    isWhole x = (magnitude (pattern x) % unitsPerOne == 0) := by
  rw [isWhole, hfinite, Bool.true_and]

/-- The decimal of a whole number is the number itself. -/
theorem toRat_writtenDecimal (hfinite : isFinite x = true) (h : isWhole x = true) :
    (writtenDecimal x).toRat = Binary32.toRat (pattern x) := by
  rw [writtenDecimal_of_isWhole h]
  rw [isWhole_eq hfinite] at h
  exact toRat_whole (eq_of_beq h)

/-- The decimal of a number that is not whole has places behind its point. -/
theorem exponent_writtenDecimal_neg (hfinite : isFinite x = true) (h : isWhole x = false) :
    (writtenDecimal x).exponent < 0 := by
  rw [writtenDecimal_of_isWhole_eq_false h]
  rw [isWhole_eq hfinite] at h
  exact exponent_shortest_neg (of_decide_eq_true hfinite) (ne_of_beq_false h)

theorem nearestPattern_writtenDecimal (hfinite : isFinite x = true) :
    (writtenDecimal x).nearestPattern = pattern x := by
  have hp : pattern x < infinity := of_decide_eq_true hfinite
  cases h : isWhole x with
  | true =>
    have hexact := (toRat_writtenDecimal hfinite h).trans toRat_ofMagnitude.symm
    rw [nearestPattern_congr hexact, nearestPattern_ofMagnitude hp]
  | false => rw [writtenDecimal_of_isWhole_eq_false h, nearestPattern_shortest hp]

theorem positionalChars_of_neg {wholePoint : Bool} (h : d.exponent < 0) :
    positionalChars wholePoint d = positionalChars true d := by
  rw [positionalChars, positionalChars]
  dsimp only
  rw [if_neg (Int.not_le.mpr h), if_neg (Int.not_le.mpr h)]

/-- A finite number in shader code is one decimal behind its sign. -/
theorem toList_floatText (hfinite : isFinite x = true) :
    (floatText x).toList = signed (isNegative x) (positionalChars true (writtenDecimal x)) := by
  cases h : isWhole x with
  | true =>
    rw [floatText, if_pos h, String.toList_ofList, signed, writtenDecimal_of_isWhole h,
      positionalChars]
    dsimp only
    rw [if_pos le_rfl, if_pos rfl, Int.toNat_zero, List.replicate_zero, List.append_nil]
  | false =>
    have hpoint : positionalChars true (writtenDecimal x) =
        positionalChars false (writtenDecimal x) :=
      (positionalChars_of_neg (exponent_writtenDecimal_neg hfinite h)).symm
    rw [floatText, if_neg (Bool.eq_false_iff.mp h), hpoint, writtenDecimal_of_isWhole_eq_false h]
    exact toList_write_of_finite (of_decide_eq_true hfinite)

/-- A finite number in shader code is read back. -/
theorem f32?_floatText (hfinite : isFinite x = true) : f32? (floatText x).toList = some x := by
  rw [toList_floatText hfinite, f32?_signed, nearestPattern_writtenDecimal hfinite,
    ofPattern_pattern]

/-- The text of a finite number is one decimal with digits on both sides of its point behind a minus
sign or none, and as a decimal it is read as this number. It is the number itself with a single zero
behind the point if the number is whole, and otherwise a decimal as short as there is. No other
finite number has the text. -/
theorem floatText_exactly (hx : isFinite x = true) (hy : isFinite y = true) :
    (∃ whole fraction : List Char, whole ≠ [] ∧ fraction ≠ [] ∧
      (∀ c ∈ whole ++ fraction, c.isDigit = true) ∧
      (floatText x).toList = (if isNegative x then ['-'] else []) ++ whole ++ '.' :: fraction ∧
      (around whole fraction).nearestPattern = pattern x ∧
      (isWhole x = true →
        fraction = ['0'] ∧ (around whole fraction).toRat = Binary32.toRat (pattern x)) ∧
      (isWhole x = false → ∀ d : Decimal, d.nearestPattern = pattern x →
        (digitChars (around whole fraction).digits).length ≤ (digitChars d.digits).length)) ∧
    (x.toBits ≠ y.toBits → floatText x ≠ floatText y) := by
  constructor
  · obtain ⟨whole, fraction, htext, hne, hne', hdigits, hvalue, hzero, hself⟩ :=
      exists_positionalChars_eq (d := writtenDecimal x)
    refine ⟨whole, fraction, hne, hne', hdigits, ?_, ?_, fun h => ⟨hzero ?_, ?_⟩, fun h d hd => ?_⟩
    · rw [toList_floatText hx, htext, signed]
      cases isNegative x <;> rfl
    · rw [nearestPattern_congr hvalue, nearestPattern_writtenDecimal hx]
    · rw [writtenDecimal_of_isWhole h]
    · rw [hvalue, toRat_writtenDecimal hx h]
    · rw [hself (exponent_writtenDecimal_neg hx h), writtenDecimal_of_isWhole_eq_false h]
      exact length_shortest_le (of_decide_eq_true hx) hd
  · -- Both numbers are what is read in the one text.
    intro hbits htext
    have hback := f32?_floatText hy
    rw [← htext, f32?_floatText hx] at hback
    exact hbits (congrArg Float32.toBits (Option.some_inj.mp hback))

/-- The two zeros. -/
theorem floatText_exactly_zeros :
    isFinite 0 = true ∧ isFinite (-0) = true ∧ (0 : Float32).toBits ≠ (-0 : Float32).toBits ∧
    floatText 0 = "0.0" ∧ floatText (-0) = "-0.0" ∧ floatText 0 ≠ floatText (-0) := by
  have hpos : isFinite 0 = true := by decide
  have hneg : isFinite (-0) = true := by decide
  have hbits : (0 : Float32).toBits ≠ (-0 : Float32).toBits := by decide
  exact ⟨hpos, hneg, hbits, by decide, by decide, (floatText_exactly hpos hneg).2 hbits⟩

/-- The number nearest to a tenth is not a tenth, but its text is. -/
example : floatText (ofPattern true 0x3dcccccd) = "-0.1" := by decide

end ShaderGraph
