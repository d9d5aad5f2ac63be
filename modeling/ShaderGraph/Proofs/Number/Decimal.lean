import Mathlib.Algebra.Order.Field.Power
import Mathlib.Tactic.NormNum
import Mathlib.Tactic.Positivity
import Mathlib.Tactic.Ring
import ShaderGraph.Number.Decimal
import ShaderGraph.Proofs.Number.Binary32

/-!
# The shortest decimal is read back

What a decimal is read as depends on the number that it stands for and on nothing else, and larger
decimals are read as larger patterns: the bounds beyond which no power of ten is formed cut off only
what is infinite or zero in any case. Every grid of the search for the shortest decimal is left with
a decimal that is read as the pattern in question, and the last grid, on which the magnitude itself
lies, has one.

## Main definitions

* `Decimal.toRat`, `Binary32.toRat` — the number that a decimal and a finite pattern stand for
* `Decimal.ofMagnitude` — the decimal that stands for a magnitude, with all its places

## Main results

* `Decimal.nearestPattern_mono` — larger decimals are read as larger patterns
* `Decimal.nearestPattern_ofMagnitude` — a magnitude with all its places is read as its pattern
* `Decimal.nearestPattern_shortest` — the shortest decimal of a pattern is read as this pattern
-/

namespace ShaderGraph

/-- The number that a finite pattern stands for. -/
def Binary32.toRat (p : Nat) : ℚ := magnitude p / unitsPerOne

namespace Decimal

open Binary32

variable {tie : TieRule} {p n k fuel : Nat} {e : Int} {d d' : Decimal}

/-! ### Digits and powers of ten -/

theorem powerOfTen_eq : powerOfTen n = 10 ^ n := rfl

theorem powerOfTen_pos : 0 < powerOfTen n := Nat.pow_pos (by decide)

theorem lt_pow_length : n < 10 ^ (digitChars n).length :=
  (Nat.length_toDigits_le_iff (by decide) Nat.length_toDigits_pos).mp le_rfl

theorem pow_le_of_lt_length (hn : n ≠ 0) (h : k < (digitChars n).length) : 10 ^ k ≤ n := by
  rcases Nat.eq_zero_or_pos k with rfl | hk
  · exact Nat.one_le_iff_ne_zero.mpr hn
  · rw [← Nat.not_lt, ← Nat.length_toDigits_le_iff (by decide) hk]
    exact Nat.not_le.mpr h

/-! ### The number that a decimal stands for -/

/-- The number that a decimal stands for. -/
def toRat (d : Decimal) : ℚ := d.digits * 10 ^ d.exponent

theorem toRat_one : toRat ⟨1, e⟩ = 10 ^ e := by
  rw [toRat, Nat.cast_one, one_mul]

theorem toRat_mul_powerOfTen :
    d.toRat * powerOfTen (-d.exponent).toNat = d.digits * powerOfTen d.exponent.toNat := by
  have hexp : d.exponent + ((-d.exponent).toNat : Int) = (d.exponent.toNat : Int) := by omega
  rw [toRat, mul_assoc, powerOfTen_eq, powerOfTen_eq, Nat.cast_pow, Nat.cast_pow, Nat.cast_ofNat,
    ← zpow_natCast, ← zpow_add₀ (by norm_num), hexp, zpow_natCast]

/-- Zeros behind the digits, made up for by the exponent, do not change the number. -/
theorem toRat_zeros : toRat ⟨n * powerOfTen k, e - k⟩ = toRat ⟨n, e⟩ := by
  rw [toRat, toRat, powerOfTen_eq, Nat.cast_mul, Nat.cast_pow, Nat.cast_ofNat, mul_assoc,
    ← zpow_natCast, ← zpow_add₀ (by norm_num), add_sub_cancel]

theorem zpow_leadingExponent_le (h : d.digits ≠ 0) : 10 ^ d.leadingExponent ≤ d.toRat := by
  have hpos : 0 < (digitChars d.digits).length := Nat.length_toDigits_pos
  have hdigits := pow_le_of_lt_length h (Nat.sub_one_lt_of_lt hpos)
  rw [leadingExponent, toRat, zpow_add₀ (by norm_num), ← Nat.cast_pred hpos, zpow_natCast]
  exact mul_le_mul_of_nonneg_right (by exact_mod_cast hdigits) (by positivity)

theorem toRat_lt_zpow : d.toRat < 10 ^ (d.leadingExponent + 1) := by
  rw [leadingExponent, toRat, add_right_comm, sub_add_cancel, zpow_add₀ (by norm_num), zpow_natCast]
  exact mul_lt_mul_of_pos_right (by exact_mod_cast lt_pow_length) (by positivity)

/-! ### The order of decimals -/

/-- The pattern nearest to a decimal, whatever powers of ten have to be formed for it. -/
def unboundedPattern (d : Decimal) : Nat :=
  patternNear (d.digits * powerOfTen d.exponent.toNat * unitsPerOne)
    (powerOfTen (-d.exponent).toNat)

theorem unboundedPattern_mono (h : d.toRat ≤ d'.toRat) :
    d.unboundedPattern ≤ d'.unboundedPattern := by
  refine patternNear_le_patternNear powerOfTen_pos powerOfTen_pos ?_
  have hscaled : d.toRat * powerOfTen (-d.exponent).toNat * unitsPerOne *
        powerOfTen (-d'.exponent).toNat ≤
      d'.toRat * powerOfTen (-d'.exponent).toNat * unitsPerOne * powerOfTen (-d.exponent).toNat :=
    calc d.toRat * powerOfTen (-d.exponent).toNat * unitsPerOne * powerOfTen (-d'.exponent).toNat
        = d.toRat * (powerOfTen (-d.exponent).toNat * unitsPerOne *
            powerOfTen (-d'.exponent).toNat) := by ring
      _ ≤ d'.toRat * (powerOfTen (-d.exponent).toNat * unitsPerOne *
            powerOfTen (-d'.exponent).toNat) := mul_le_mul_of_nonneg_right h (by positivity)
      _ = _ := by ring
  rw [toRat_mul_powerOfTen, toRat_mul_powerOfTen] at hscaled
  exact_mod_cast hscaled

theorem unboundedPattern_eq_infinity (h : 10 ^ (41 : Int) ≤ d.toRat) :
    d.unboundedPattern = infinity := by
  have hlarge : unboundedPattern ⟨1, 41⟩ = infinity := by decide
  rw [← toRat_one] at h
  exact le_antisymm patternNear_le_infinity (hlarge ▸ unboundedPattern_mono h)

theorem unboundedPattern_eq_zero (h : d.toRat ≤ 10 ^ (-60 : Int)) : d.unboundedPattern = 0 := by
  have hsmall : unboundedPattern ⟨1, -60⟩ = 0 := by decide
  rw [← toRat_one] at h
  exact Nat.le_zero.mp (hsmall ▸ unboundedPattern_mono h)

/-- Where no power of ten is formed, one would change nothing. -/
theorem nearestPattern_eq_unboundedPattern : d.nearestPattern = d.unboundedPattern := by
  rw [nearestPattern]
  split_ifs with hzero hlarge hsmall
  -- Nothing, too much, too little, and what is formed as it is.
  · refine (unboundedPattern_eq_zero ?_).symm
    rw [toRat, hzero, Nat.cast_zero, zero_mul]
    positivity
  · exact (unboundedPattern_eq_infinity ((zpow_le_zpow_right₀ (by norm_num) hlarge).trans
      (zpow_leadingExponent_le hzero))).symm
  · exact (unboundedPattern_eq_zero
      (toRat_lt_zpow.le.trans (zpow_le_zpow_right₀ (by norm_num) hsmall))).symm
  · rfl

/-- Larger decimals are read as larger patterns. -/
theorem nearestPattern_mono (h : d.toRat ≤ d'.toRat) : d.nearestPattern ≤ d'.nearestPattern := by
  rw [nearestPattern_eq_unboundedPattern, nearestPattern_eq_unboundedPattern]
  exact unboundedPattern_mono h

/-- Decimals of one number are read as one pattern. -/
theorem nearestPattern_congr (h : d.toRat = d'.toRat) : d.nearestPattern = d'.nearestPattern :=
  le_antisymm (nearestPattern_mono h.le) (nearestPattern_mono h.ge)

/-! ### Magnitudes as decimals -/

/-- The decimal that stands for the magnitude of a pattern, with all its places. -/
def ofMagnitude (p : Nat) : Decimal := ⟨magnitude p * 5 ^ 149, -149⟩

theorem powerOfTen_units : powerOfTen 149 = 5 ^ 149 * unitsPerOne := by
  rw [powerOfTen_eq, unitsPerOne, Nat.shiftLeft_eq, Nat.one_mul, ← Nat.mul_pow]

theorem toRat_ofMagnitude : (ofMagnitude p).toRat = Binary32.toRat p := by
  have hunits : ((10 : ℚ) ^ 149) = 5 ^ 149 * unitsPerOne := by exact_mod_cast powerOfTen_units
  rw [ofMagnitude, toRat, Binary32.toRat, zpow_neg, zpow_ofNat, hunits, mul_inv, Nat.cast_mul,
    Nat.cast_pow, Nat.cast_ofNat, div_eq_mul_inv, mul_assoc,
    mul_inv_cancel_left₀ (by norm_num)]

/-- A magnitude with all its places is read as its pattern. -/
theorem nearestPattern_ofMagnitude (hfinite : p < infinity) :
    (ofMagnitude p).nearestPattern = p := by
  have hnum : magnitude p * 5 ^ 149 * powerOfTen (-149 : Int).toNat * unitsPerOne =
      magnitude p * powerOfTen 149 := by
    rw [powerOfTen_units, show powerOfTen (-149 : Int).toNat = 1 from rfl]
    ring
  rw [nearestPattern_eq_unboundedPattern, unboundedPattern, ofMagnitude, hnum]
  exact patternNear_magnitude hfinite powerOfTen_pos

/-! ### The search for the shortest decimal -/

/-- What is taken from a grid lies on it and is read back. -/
theorem of_onGrid_eq_some (h : onGrid tie p e = some d) :
    d.exponent = e ∧ d.nearestPattern = p := by
  rw [onGrid] at h
  dsimp only at h
  split at h
  case h_1 hbelow habove =>
    obtain rfl := Option.some_inj.mp h
    split
    · exact ⟨rfl, eq_of_beq habove⟩
    · exact ⟨rfl, eq_of_beq hbelow⟩
  case h_2 hbelow _ =>
    obtain rfl := Option.some_inj.mp h
    exact ⟨rfl, eq_of_beq hbelow⟩
  case h_3 _ habove =>
    obtain rfl := Option.some_inj.mp h
    exact ⟨rfl, eq_of_beq habove⟩
  case h_4 => cases h

/-- The last grid is the one of the units, on which the magnitude itself is a decimal. -/
theorem search_zero : search tie p 0 (-149) = ofMagnitude p := by
  have hdigits : magnitude p * powerOfTen 149 / unitsPerOne = magnitude p * 5 ^ 149 := by
    rw [powerOfTen_units, ← Nat.mul_assoc, Nat.mul_div_cancel _ (by decide)]
  exact congrArg (Decimal.mk · (-149)) hdigits

/-- Wherever the search starts, it ends with a decimal that is read back if its last grid is the one
of the units. -/
theorem nearestPattern_search (hfinite : p < infinity) (he : e - fuel = -149) :
    (search tie p fuel e).nearestPattern = p := by
  induction fuel generalizing e with
  | zero =>
    obtain rfl : e = -149 := by omega
    rw [search_zero, nearestPattern_ofMagnitude hfinite]
  | succ fuel ih =>
    rw [search]
    cases hgrid : onGrid tie p e with
    | some d => exact (of_onGrid_eq_some hgrid).2
    | none => exact ih (by omega)

/-- The shortest decimal of a pattern is read as this pattern. -/
theorem nearestPattern_shortest (hfinite : p < infinity) :
    (shortest tie p).nearestPattern = p := by
  rw [shortest]
  split
  case isTrue h =>
    rw [h]
    decide
  case isFalse h => exact nearestPattern_search hfinite (by decide)

end Decimal

end ShaderGraph
