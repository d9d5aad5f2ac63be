import Mathlib.Data.Nat.Cast.Field
import ShaderGraph.Proofs.Number.Decimal

/-!
# No decimal is shorter

A decimal that is read as a pattern may lie anywhere among the numbers nearest to the pattern. Since
reading keeps the order, a grid that has such a decimal has one next to the magnitude, where the
search looks. So the search stops on the coarsest grid, and a decimal with fewer digits would leave
room for a power of ten on a grid that is coarser still. A number that is not whole has places behind
the point in its shortest decimal, as what is nearest to a whole number is whole.

## Main results

* `Decimal.exponent_le_shortest` — no decimal of a coarser grid is read as the pattern
* `Decimal.length_shortest_le` — no decimal with fewer digits is read as the pattern
* `Decimal.exponent_shortest_neg` — what is not whole has places behind the point
-/

namespace ShaderGraph.Decimal

open Binary32

variable {tie : TieRule} {p n fuel : Nat} {e : Int} {d : Decimal}

/-! ### The neighbours of a magnitude on a grid -/

theorem nearestPattern_le (hfinite : p < infinity) (h : d.toRat ≤ Binary32.toRat p) :
    d.nearestPattern ≤ p := by
  rw [← toRat_ofMagnitude] at h
  exact (nearestPattern_mono h).trans_eq (nearestPattern_ofMagnitude hfinite)

theorem le_nearestPattern (hfinite : p < infinity) (h : Binary32.toRat p ≤ d.toRat) :
    p ≤ d.nearestPattern := by
  rw [← toRat_ofMagnitude] at h
  exact (nearestPattern_ofMagnitude hfinite).symm.trans_le (nearestPattern_mono h)

/-- The digits of the last decimal of a grid up to a magnitude. -/
def digitsBelow (p : Nat) (e : Int) : Nat :=
  magnitude p * powerOfTen (-e).toNat / (unitsPerOne * powerOfTen e.toNat)

/-- Up to a magnitude there are the decimals of a grid up to its lower neighbour. -/
theorem toRat_le_iff : d.toRat ≤ Binary32.toRat p ↔ d.digits ≤ digitsBelow p d.exponent := by
  have hunits : (0 : ℚ) < unitsPerOne := by exact_mod_cast show 0 < unitsPerOne by decide
  have hscale : (0 : ℚ) < powerOfTen (-d.exponent).toNat := by exact_mod_cast powerOfTen_pos
  rw [digitsBelow, Nat.le_div_iff_mul_le (Nat.mul_pos (by decide) powerOfTen_pos),
    Binary32.toRat, le_div_iff₀ hunits, ← mul_le_mul_iff_of_pos_right hscale, mul_right_comm,
    toRat_mul_powerOfTen, mul_right_comm, mul_assoc]
  exact_mod_cast Iff.rfl

theorem toRat_le_toRat {m : Nat} (h : n ≤ m) : toRat ⟨n, e⟩ ≤ toRat ⟨m, e⟩ :=
  mul_le_mul_of_nonneg_right (by exact_mod_cast h) (by positivity)

theorem of_onGrid_eq_none (h : onGrid tie p e = none) :
    nearestPattern ⟨digitsBelow p e, e⟩ ≠ p ∧ nearestPattern ⟨digitsBelow p e + 1, e⟩ ≠ p := by
  rw [onGrid] at h
  dsimp only at h
  split at h
  case h_1 => cases h
  case h_2 => cases h
  case h_3 => cases h
  case h_4 hbelow habove => exact ⟨ne_of_beq_false hbelow, ne_of_beq_false habove⟩

/-- A grid on which neither neighbour is read back has no decimal that is. -/
theorem nearestPattern_ne_of_onGrid_eq_none (hfinite : p < infinity)
    (h : onGrid tie p d.exponent = none) : d.nearestPattern ≠ p := by
  intro hread
  obtain ⟨hbelow, habove⟩ := of_onGrid_eq_none h
  -- Between the decimal and the magnitude there is a neighbour, which is read as the same pattern.
  rcases Nat.lt_or_ge (digitsBelow p d.exponent) d.digits with hlt | hge
  · have hlow : Binary32.toRat p ≤ toRat ⟨digitsBelow p d.exponent + 1, d.exponent⟩ := by
      refine le_of_not_ge fun hle => ?_
      exact Nat.not_succ_le_self _ (toRat_le_iff.mp hle)
    refine habove (le_antisymm ?_ (le_nearestPattern hfinite hlow))
    exact (nearestPattern_mono (toRat_le_toRat hlt)).trans_eq hread
  · have hhigh : toRat ⟨digitsBelow p d.exponent, d.exponent⟩ ≤ Binary32.toRat p :=
      toRat_le_iff.mpr le_rfl
    refine hbelow (le_antisymm (nearestPattern_le hfinite hhigh) ?_)
    exact hread.symm.trans_le (nearestPattern_mono (toRat_le_toRat hge))

/-! ### The coarsest grid and the fewest digits -/

/-- From wherever the search starts, it passes no grid with a decimal that is read back. -/
theorem exponent_le_search (hfinite : p < infinity) (hread : d.nearestPattern = p)
    (he : d.exponent ≤ e) : d.exponent ≤ (search tie p fuel e).exponent := by
  induction fuel generalizing e with
  | zero => exact he
  | succ fuel ih =>
    rw [search]
    cases hgrid : onGrid tie p e with
    | some d' => exact he.trans_eq (of_onGrid_eq_some hgrid).1.symm
    | none =>
      refine ih (Int.le_sub_one_of_lt (lt_of_le_of_ne he ?_))
      rintro rfl
      exact nearestPattern_ne_of_onGrid_eq_none hfinite hgrid hread

theorem digits_ne_zero (hp : 0 < p) (hread : d.nearestPattern = p) : d.digits ≠ 0 := by
  intro hzero
  rw [nearestPattern, if_pos hzero] at hread
  exact hp.ne hread

/-- What is read as a finite number lies on a grid on which the search looks. -/
theorem exponent_le (hp : 0 < p) (hfinite : p < infinity) (hread : d.nearestPattern = p) :
    d.exponent ≤ 39 := by
  by_contra hlt
  have hlarge : nearestPattern ⟨1, 40⟩ = infinity := by decide
  have hle : toRat ⟨1, 40⟩ ≤ d.toRat := by
    rw [toRat_one]
    calc (10 : ℚ) ^ (40 : Int)
        ≤ 10 ^ d.exponent := zpow_le_zpow_right₀ (by norm_num) (by omega)
      _ ≤ d.digits * 10 ^ d.exponent := le_mul_of_one_le_left (by positivity)
        (by exact_mod_cast Nat.one_le_iff_ne_zero.mpr (digits_ne_zero hp hread))
  have := nearestPattern_mono hle
  omega

/-- No decimal of a coarser grid is read as the pattern. -/
theorem exponent_le_shortest (hp : 0 < p) (hfinite : p < infinity) (hread : d.nearestPattern = p) :
    d.exponent ≤ (shortest tie p).exponent := by
  rw [shortest, if_neg hp.ne']
  exact exponent_le_search hfinite hread (exponent_le hp hfinite hread)

/-- No decimal with fewer digits is read as the pattern. -/
theorem length_shortest_le (hfinite : p < infinity) (hread : d.nearestPattern = p) :
    (digitChars (shortest tie p).digits).length ≤ (digitChars d.digits).length := by
  rcases Nat.eq_zero_or_pos p with rfl | hp
  · rw [shortest, if_pos rfl, digitChars, Nat.toDigits_zero]
    exact Nat.length_toDigits_pos
  · by_contra hlt
    have hshortest : (shortest tie p).nearestPattern = p := nearestPattern_shortest hfinite
    have hexp : d.exponent ≤ (shortest tie p).exponent := exponent_le_shortest hp hfinite hread
    -- Between the two decimals there is a power of ten, on a grid that is coarser than either.
    have hlow : d.toRat ≤ toRat ⟨1, (digitChars d.digits).length + (shortest tie p).exponent⟩ := by
      rw [toRat_one, zpow_add₀ (by norm_num), zpow_natCast]
      exact mul_le_mul (by exact_mod_cast lt_pow_length.le)
        (zpow_le_zpow_right₀ (by norm_num) hexp) (by positivity) (by positivity)
    have hhigh : toRat ⟨1, (digitChars d.digits).length + (shortest tie p).exponent⟩ ≤
        (shortest tie p).toRat := by
      rw [toRat_one, zpow_add₀ (by norm_num), zpow_natCast]
      refine mul_le_mul_of_nonneg_right ?_ (by positivity)
      exact_mod_cast pow_le_of_lt_length (digits_ne_zero hp hshortest) (Nat.not_le.mp hlt)
    have hpower : (digitChars d.digits).length + (shortest tie p).exponent ≤
        (shortest tie p).exponent :=
      exponent_le_shortest hp hfinite (le_antisymm ((nearestPattern_mono hhigh).trans_eq hshortest)
        (hread.symm.trans_le (nearestPattern_mono hlow)))
    have hpos : 0 < (digitChars d.digits).length := Nat.length_toDigits_pos
    omega

/-! ### Whole numbers -/

theorem toRat_whole (h : magnitude p % unitsPerOne = 0) :
    toRat ⟨magnitude p / unitsPerOne, 0⟩ = Binary32.toRat p := by
  have hunits : (unitsPerOne : ℚ) ≠ 0 := by exact_mod_cast show unitsPerOne ≠ 0 by decide
  rw [toRat, zpow_zero, mul_one, Binary32.toRat, Nat.cast_div (Nat.dvd_of_mod_eq_zero h) hunits]

/-- A decimal without places behind the point is read as a whole number. -/
theorem whole_nearestPattern (h : 0 ≤ d.exponent) (hfinite : d.nearestPattern < infinity) :
    magnitude d.nearestPattern % unitsPerOne = 0 := by
  have hone : powerOfTen (-d.exponent).toNat = 1 := by
    rw [Int.toNat_of_nonpos (by omega)]
    rfl
  rw [nearestPattern_eq_unboundedPattern, unboundedPattern, hone] at hfinite ⊢
  exact whole_patternNear hfinite

/-- The shortest decimal of a number that is not whole has places behind its point. -/
theorem exponent_shortest_neg (hfinite : p < infinity) (hwhole : magnitude p % unitsPerOne ≠ 0) :
    (shortest tie p).exponent < 0 := by
  have hread : (shortest tie p).nearestPattern = p := nearestPattern_shortest hfinite
  by_contra hle
  have hzero := whole_nearestPattern (Int.not_lt.mp hle) (hread.trans_lt hfinite)
  rw [hread] at hzero
  exact hwhole hzero

end ShaderGraph.Decimal
