import Mathlib.Algebra.Order.Ring.Nat
import Mathlib.Data.Nat.Log
import Mathlib.Tactic.Ring
import ShaderGraph.Number.Binary32

/-!
# Patterns of binary32 numbers

A number is made up of its bits, and so of its sign and its pattern; only one number is none. A
finite pattern is the one nearest to its own magnitude, however large the terms of the quotient in
which the magnitude is given. Larger quotients have larger nearest patterns, and the magnitude of
the nearest pattern is the rounded significand in its place. But for the two zeros, numbers that are
equal as numbers are the same.

## Main definitions

* `Binary32.scale`, `Binary32.significand` — the two parts of the pattern nearest to a quotient

## Main results

* `Binary32.ofPattern_pattern` — a number is made up of its sign and its pattern
* `Binary32.toBits_of_infinity_lt` — what is not a number has the same bits throughout
* `Binary32.patternNear_magnitude` — a finite pattern is nearest to its own magnitude
* `Binary32.magnitude_patternNear` — the magnitude of a nearest pattern
* `Binary32.patternNear_le_patternNear` — nearest patterns are in the order of the quotients
* `Binary32.whole_patternNear` — the number nearest to a whole number is whole
* `Binary32.eq_or_zeros_of_beq` — equality as numbers is equality but for the two zeros
-/

namespace ShaderGraph.Binary32

open Float.Model.Format Float.Model.UnpackedFloat

variable {x : Float32} {p num den num' den' k : Nat}

/-! ### Numbers and their bits -/

theorem toBitVec_ofBitVec {s : BitVec 1} : (Sign.ofBitVec s).toBitVec = s := by
  have hall : ∀ s : BitVec 1, (Sign.ofBitVec s).toBitVec = s := by decide
  exact hall s

/-- Sign, exponent and significand make up the bits that they were taken from. -/
theorem packComponents_unpack (spec : Float.Model.Format) (b : BitVec spec.numBits) :
    packComponents spec (Sign.ofBitVec (unpackSign b)) (unpackExponent b) (unpackMantissa b) =
      b := by
  rw [packComponents, toBitVec_ofBitVec]
  ext i hi
  delta unpackSign
  simp only [unpackExponent, unpackMantissa, BitVec.extractLsb, BitVec.getElem_append,
    BitVec.getElem_cast, BitVec.getElem_extractLsb']
  rw [← BitVec.getLsbD_eq_getElem]
  split_ifs with hlow hmid
  · rw [Nat.zero_add]
  · rw [Nat.add_sub_cancel' (by omega)]
  · rw [Nat.add_assoc, Nat.add_sub_cancel' (by omega), Nat.add_sub_cancel' (by omega)]

theorem pack_finite {s : Sign} {m : Nat} {e : Int} (hm : 0 < m) :
    pack binary32 (.finite s m e hm) =
      if 2 ^ 8 ≤ (e + 127 + 23).toNat + 1 then packedInfinity binary32 s
      else if m.log2 + 1 = 24 then
        packComponents binary32 s (BitVec.ofNat 8 (e + 127 + 23).toNat) (BitVec.ofNat 23 m)
      else packComponents binary32 s 0#8 (BitVec.ofNat 23 m) := rfl

theorem pack_subnormal {s : Sign} {m : BitVec 23} (hm : 0 < m.toNat) :
    pack binary32 (.finite s m.toNat (-149) hm) = packComponents binary32 s 0#8 m := by
  have hlog : m.toNat.log2 < 23 := (Nat.log2_lt (by omega)).mpr m.isLt
  rw [pack_finite, if_neg (by decide), if_neg (by omega), BitVec.ofNat_toNat, BitVec.setWidth_eq]

theorem toNat_leading {m : BitVec 23} : (1#1 ++ m).toNat = 2 ^ 23 + m.toNat := by
  rw [BitVec.toNat_append, ← Nat.shiftLeft_add_eq_or_of_lt m.isLt]
  rfl

theorem pack_normal {s : Sign} {e : BitVec 8} {m : BitVec 23} (he : e ≠ -1#8)
    (hm : 0 < (1#1 ++ m).toNat) :
    pack binary32 (.finite s (1#1 ++ m).toNat (e.toNat - 150) hm) =
      packComponents binary32 s e m := by
  have hlog : (1#1 ++ m).toNat.log2 = 23 := by
    rw [toNat_leading, Nat.log2_eq_iff (by omega)]
    have := m.isLt
    omega
  have hexp : ((e.toNat : Int) - 150 + 127 + 23).toNat = e.toNat := by omega
  have hfinite : ¬2 ^ 8 ≤ e.toNat + 1 := by
    intro h
    apply he
    apply BitVec.eq_of_toNat_eq
    have := e.isLt
    rw [show (-1#8).toNat = 255 by decide]
    omega
  have hsignificand : BitVec.ofNat 23 (1#1 ++ m).toNat = m := by
    apply BitVec.eq_of_toNat_eq
    rw [BitVec.toNat_ofNat, toNat_leading, Nat.add_mod_left, Nat.mod_eq_of_lt m.isLt]
  rw [pack_finite, hlog, hexp, if_neg hfinite, if_pos rfl, BitVec.ofNat_toNat, BitVec.setWidth_eq,
    hsignificand]

/-- Bits that hold the only pattern for what is not a number, if they hold one, are packed again as
they were. -/
theorem pack_unpack {b : BitVec binary32.numBits} (h : binary32.Valid b) :
    pack binary32 (unpack binary32 b) = b := by
  have hb := packComponents_unpack binary32 b
  by_cases hexp : unpackExponent b = -1#8
  · by_cases hman : unpackMantissa b = 0#23
    · have hunpack : unpack binary32 b = .infinity (Sign.ofBitVec (unpackSign b)) :=
        (if_pos hexp).trans (if_pos hman)
      rw [hexp, hman] at hb
      rw [hunpack]
      exact hb
    · have hunpack : unpack binary32 b = .notANumber := (if_pos hexp).trans (if_neg hman)
      rw [hunpack]
      exact (h.eq_packedNaN hexp hman).symm
  · by_cases hzero : unpackExponent b = 0#8
    · rw [hzero] at hb
      by_cases hman : unpackMantissa b = 0#23
      · have hunpack : unpack binary32 b = .zero (Sign.ofBitVec (unpackSign b)) :=
          (if_neg hexp).trans ((if_pos hzero).trans (dif_pos hman))
        rw [hman] at hb
        rw [hunpack]
        exact hb
      · have hpos : 0 < (unpackMantissa b).toNat := by
          rw [← BitVec.toNat_inj, ← ne_eq] at hman
          exact Nat.pos_of_ne_zero hman
        have hunpack : unpack binary32 b =
            .finite (Sign.ofBitVec (unpackSign b)) (unpackMantissa b).toNat
              ((unpackExponent b).toNat - 150 + 1) hpos :=
          (if_neg hexp).trans ((if_pos hzero).trans (dif_neg hman))
        have hexponent : ((unpackExponent b).toNat : Int) - 150 + 1 = -149 := by
          rw [hzero]
          decide
        rw [hunpack, hexponent]
        exact (pack_subnormal hpos).trans hb
    · have hpos : 0 < (1#1 ++ unpackMantissa b).toNat := by
        rw [toNat_leading]
        omega
      have hunpack : unpack binary32 b =
          .finite (Sign.ofBitVec (unpackSign b)) (1#1 ++ unpackMantissa b).toNat
            ((unpackExponent b).toNat - 150) hpos :=
        (if_neg hexp).trans (if_neg hzero)
      rw [hunpack]
      exact (pack_normal hexp hpos).trans hb

/-- A number is made up of its bits. -/
theorem ofBits_toBits : Float32.ofBits x.toBits = x := by
  obtain ⟨⟨u, hvalid⟩⟩ := x
  have hmodel : Float32.Model.ofBits u = ⟨u, hvalid⟩ := by
    rw [Float32.Model.ofBits, Float32.Model.pack, Float32.Model.mk.injEq, pack_unpack hvalid]
  exact congrArg Float32.ofModel hmodel

/-- A number is made up of its sign and its pattern. -/
theorem ofPattern_pattern : ofPattern (isNegative x) (pattern x) = x := by
  have hlt : x.toBits.toNat < 2 ^ 32 := x.toBits.toNat_lt
  have hbits : (if isNegative x then signBit + pattern x else pattern x) = x.toBits.toNat := by
    rw [isNegative, pattern, signBit]
    split
    · have : 0x80000000 ≤ x.toBits.toNat := of_decide_eq_true ‹_›
      omega
    · have : ¬0x80000000 ≤ x.toBits.toNat := fun h => ‹¬_› (decide_eq_true h)
      omega
  rw [ofPattern, hbits, UInt32.ofNat_toNat, ofBits_toBits]

/-- What is not a number has the same bits throughout. -/
theorem toBits_of_infinity_lt (h : infinity < pattern x) : x.toBits = 0x7fc00000 := by
  obtain ⟨⟨u, hvalid⟩⟩ := x
  have hu : 0x7f800000 < u.toNat % 0x80000000 := h
  have hexp : @unpackExponent binary32 u.toBitVec = -1#8 := by
    apply BitVec.eq_of_toNat_eq
    rw [unpackExponent, BitVec.toNat_cast, BitVec.extractLsb_toNat, UInt32.toNat_toBitVec,
      Nat.shiftRight_eq_div_pow, show (-1#8).toNat = 255 by decide]
    change u.toNat / 2 ^ 23 % 2 ^ 8 = 255
    omega
  have hman : @unpackMantissa binary32 u.toBitVec ≠ 0#23 := by
    intro hzero
    have hzero := congrArg BitVec.toNat hzero
    rw [unpackMantissa, BitVec.toNat_cast, BitVec.extractLsb_toNat, UInt32.toNat_toBitVec,
      Nat.shiftRight_eq_div_pow] at hzero
    change u.toNat / 2 ^ 0 % 2 ^ 23 = 0 at hzero
    omega
  exact UInt32.toBitVec_inj.mp (hvalid.eq_packedNaN hexp hman)

/-! ### The pattern nearest to a quotient -/

theorem roundHalfEven_mul (hk : 0 < k) : roundHalfEven (num * k) (den * k) =
    roundHalfEven num den := by
  have hleft : 2 * (num % den * k) < den * k ↔ 2 * (num % den) < den := by
    rw [← Nat.mul_assoc, Nat.mul_lt_mul_right hk]
  have hright : den * k < 2 * (num % den * k) ↔ den < 2 * (num % den) := by
    rw [← Nat.mul_assoc, Nat.mul_lt_mul_right hk]
  rw [roundHalfEven, roundHalfEven, Nat.mul_div_mul_right _ _ hk, Nat.mul_mod_mul_right]
  simp only [hleft, hright]

/-- The nearest pattern depends on the quotient only. -/
theorem patternNear_mul (hk : 0 < k) : patternNear (num * k) (den * k) = patternNear num den := by
  have hshift {s : Nat} : (den * k) <<< s = (den <<< s) * k := by
    rw [Nat.shiftLeft_eq, Nat.shiftLeft_eq, Nat.mul_right_comm]
  simp only [patternNear, Nat.mul_div_mul_right _ _ hk, hshift, roundHalfEven_mul hk]

theorem roundHalfEven_of_dvd (hden : 0 < den) : roundHalfEven (num * den) den = num := by
  rw [roundHalfEven, Nat.mul_mod_left, Nat.mul_div_cancel _ hden, if_pos (by omega)]

theorem log2_add_shiftLeft {f s : Nat} (hf : f < binade) :
    ((binade + f) <<< s).log2 = 23 + s := by
  rw [binade] at hf ⊢
  have hpos : 0 < 2 ^ s := Nat.two_pow_pos s
  rw [Nat.shiftLeft_eq, Nat.log2_eq_iff (Nat.mul_pos (by omega) hpos).ne']
  constructor
  · rw [pow_add]
    exact Nat.mul_le_mul_right _ (by omega)
  · rw [Nat.add_right_comm, pow_add]
    exact Nat.mul_lt_mul_of_pos_right (by omega) hpos

/-- A finite pattern is nearest to its own magnitude. -/
theorem patternNear_magnitude (hp : p < infinity) (hk : 0 < k) :
    patternNear (magnitude p * k) k = p := by
  have hscale : patternNear (magnitude p * k) (1 * k) = patternNear (magnitude p) 1 :=
    patternNear_mul hk
  rw [Nat.one_mul] at hscale
  rw [hscale, patternNear, Nat.div_one]
  by_cases hsmall : p < binade
  · have hlog : p.log2 - 23 = 0 := by
      by_cases hzero : p = 0
      · rw [hzero]
        decide
      · have := (Nat.log2_lt (k := 23) hzero).mpr hsmall
        omega
    have hround : roundHalfEven p 1 = p := by
      rw [← Nat.mul_one p, roundHalfEven_of_dvd Nat.one_pos, Nat.mul_one]
    rw [magnitude, if_pos hsmall, hlog, Nat.shiftLeft_zero, hround, Nat.zero_mul, Nat.zero_add,
      if_neg (Nat.not_le.mpr hp)]
  · have hf : p % binade < binade := Nat.mod_lt _ (by decide)
    have hlog := log2_add_shiftLeft (s := p / binade - 1) hf
    -- The shift that makes the magnitude is the one that is taken back.
    have hround : roundHalfEven ((binade + p % binade) <<< (p / binade - 1))
        (1 <<< (p / binade - 1)) = binade + p % binade := by
      rw [Nat.shiftLeft_eq, Nat.shiftLeft_eq, Nat.one_mul]
      exact roundHalfEven_of_dvd (Nat.two_pow_pos _)
    have hsum : (p / binade - 1) * binade + (binade + p % binade) = p := by
      rw [binade] at hsmall ⊢
      omega
    rw [magnitude, if_neg hsmall, hlog, Nat.add_sub_cancel_left, hround, hsum,
      if_neg (Nat.not_le.mpr hp)]

/-! ### The order of patterns -/

theorem div_le_roundHalfEven : num / den ≤ roundHalfEven num den := by
  rw [roundHalfEven]
  split_ifs <;> omega

theorem roundHalfEven_le_div : roundHalfEven num den ≤ num / den + 1 := by
  rw [roundHalfEven]
  split_ifs <;> omega

theorem roundHalfEven_mono (h : num ≤ num') : roundHalfEven num den ≤ roundHalfEven num' den := by
  rcases (Nat.div_le_div_right h (c := den)).lt_or_eq with hlt | heq
  · exact roundHalfEven_le_div.trans (hlt.trans_le div_le_roundHalfEven)
  · -- With the same quotient, the larger number leaves the larger remainder.
    have hmod : num % den ≤ num' % den := by
      have h₁ := Nat.div_add_mod num den
      have h₂ := Nat.div_add_mod num' den
      rw [heq] at h₁
      omega
    rw [roundHalfEven, roundHalfEven, heq]
    split_ifs <;> omega

theorem roundHalfEven_mul_self (hden : 0 < den) (h : den ∣ num) :
    roundHalfEven num den * den = num := by
  obtain ⟨k, rfl⟩ := h
  rw [Nat.mul_comm den, roundHalfEven_of_dvd hden]

/-- The power of two that the significand of a quotient counts. -/
def scale (num den : Nat) : Nat := (num / den).log2 - 23

/-- The significand of the number nearest to a quotient. -/
def significand (num den : Nat) : Nat := roundHalfEven num (den <<< scale num den)

theorem patternNear_eq_min :
    patternNear num den = min infinity (scale num den * binade + significand num den) := by
  rw [patternNear, ← scale, ← significand, Nat.min_def]

theorem significand_le : significand num den ≤ 2 * binade := by
  have hquotient : num / (den <<< scale num den) < 2 * binade := by
    rw [Nat.shiftLeft_eq, ← Nat.div_div_eq_div_mul, Nat.div_lt_iff_lt_mul (Nat.two_pow_pos _)]
    have hlog : num / den < 2 ^ ((num / den).log2 + 1) := Nat.lt_log2_self
    refine hlog.trans_le ?_
    rw [scale, show 2 * binade = 2 ^ 24 from rfl, ← pow_add]
    exact Nat.pow_le_pow_right Nat.two_pos (by omega)
  exact roundHalfEven_le_div.trans hquotient

theorem binade_le_significand (h : scale num den ≠ 0) : binade ≤ significand num den := by
  refine le_trans ?_ div_le_roundHalfEven
  rw [scale] at h
  rw [Nat.shiftLeft_eq, ← Nat.div_div_eq_div_mul, Nat.le_div_iff_mul_le (Nat.two_pow_pos _), scale,
    show binade = 2 ^ 23 from rfl, ← pow_add, Nat.add_sub_cancel' (by omega)]
  refine Nat.log2_self_le fun hzero => h ?_
  rw [hzero]
  rfl

/-- A significand in the place of a power of two, also one that has been rounded up to the next. -/
theorem magnitude_scaled {s m : Nat} (hlow : s = 0 ∨ binade ≤ m) (hhigh : m ≤ 2 * binade) :
    magnitude (s * binade + m) = m <<< s := by
  rcases Nat.lt_or_ge m binade with hlt | hge
  · obtain rfl : s = 0 := hlow.resolve_right (Nat.not_le.mpr hlt)
    rw [Nat.zero_mul, Nat.zero_add, magnitude, if_pos hlt, Nat.shiftLeft_zero]
  · rw [magnitude, if_neg (Nat.not_lt.mpr (Nat.le_add_left_of_le hge))]
    rcases hhigh.lt_or_eq with hlt | rfl
    · have hdiv : (s * binade + m) / binade = s + 1 := by
        rw [binade] at hge hlt ⊢
        omega
      have hmod : binade + (s * binade + m) % binade = m := by
        rw [binade] at hge hlt ⊢
        omega
      rw [hdiv, hmod, Nat.add_sub_cancel]
    · have hdiv : (s * binade + 2 * binade) / binade = s + 2 := by
        rw [← Nat.add_mul, Nat.mul_div_cancel _ (by decide)]
      have hmod : (s * binade + 2 * binade) % binade = 0 := by
        rw [← Nat.add_mul, Nat.mul_mod_left]
      rw [hdiv, hmod, Nat.add_zero, show s + 2 - 1 = s + 1 from rfl, Nat.shiftLeft_eq,
        Nat.shiftLeft_eq, pow_succ]
      ring

/-- The magnitude of a nearest pattern that is finite is its significand in place. -/
theorem magnitude_patternNear (h : patternNear num den < infinity) :
    magnitude (patternNear num den) = significand num den <<< scale num den := by
  rw [patternNear_eq_min] at h ⊢
  rw [min_eq_right (by omega)]
  exact magnitude_scaled (or_iff_not_imp_left.mpr binade_le_significand) significand_le

theorem patternNear_le_infinity : patternNear num den ≤ infinity := by
  rw [patternNear_eq_min]
  exact min_le_left _ _

/-- A larger number has no smaller nearest pattern. -/
theorem patternNear_mono (h : num ≤ num') : patternNear num den ≤ patternNear num' den := by
  have hscale : scale num den ≤ scale num' den := by
    rw [scale, scale, Nat.log2_eq_log_two, Nat.log2_eq_log_two]
    exact Nat.sub_le_sub_right (Nat.log_mono_right (Nat.div_le_div_right h)) 23
  rw [patternNear_eq_min, patternNear_eq_min]
  refine min_le_min_left _ ?_
  rcases hscale.lt_or_eq with hlt | heq
  · -- From one power of two to the next, the larger significand makes up for the smaller scale.
    calc scale num den * binade + significand num den
        ≤ scale num den * binade + 2 * binade := Nat.add_le_add_left significand_le _
      _ = (scale num den + 1) * binade + binade := by ring
      _ ≤ scale num' den * binade + significand num' den :=
        Nat.add_le_add (Nat.mul_le_mul_right _ hlt)
          (binade_le_significand (Nat.ne_zero_of_lt hlt))
  · rw [significand, significand, heq]
    exact Nat.add_le_add_left (roundHalfEven_mono h) _

/-- The order of quotients is the order of their nearest patterns. -/
theorem patternNear_le_patternNear (hden : 0 < den) (hden' : 0 < den')
    (h : num * den' ≤ num' * den) : patternNear num den ≤ patternNear num' den' := by
  calc patternNear num den
      = patternNear (num * den') (den * den') := (patternNear_mul hden').symm
    _ ≤ patternNear (num' * den) (den * den') := patternNear_mono h
    _ = patternNear num' den' := by rw [Nat.mul_comm den, patternNear_mul hden]

/-- The number nearest to a whole number is whole. -/
theorem whole_patternNear (h : patternNear (k * unitsPerOne) 1 < infinity) :
    magnitude (patternNear (k * unitsPerOne) 1) % unitsPerOne = 0 := by
  have hunits : unitsPerOne = 2 ^ 149 := rfl
  rw [magnitude_patternNear h, significand, Nat.shiftLeft_eq, Nat.shiftLeft_eq, Nat.one_mul, hunits,
    ← Nat.dvd_iff_mod_eq_zero]
  rcases Nat.le_total (scale (k * 2 ^ 149) 1) 149 with hle | hle
  · -- Nothing below the place of one is cut off.
    rw [roundHalfEven_mul_self (Nat.two_pow_pos _) ((pow_dvd_pow 2 hle).mul_left k)]
    exact Nat.dvd_mul_left _ _
  · exact (pow_dvd_pow 2 hle).mul_left _

/-! ### Equality as numbers -/

section Equality

open Float.Model (UnpackedFloat)

variable {y : Float32} {a b : UnpackedFloat} {s : Sign}

theorem eq_of_unpack_eq (h : x.toModel.unpack = y.toModel.unpack) : x = y := by
  obtain ⟨⟨u, hu⟩⟩ := x
  obtain ⟨⟨v, hv⟩⟩ := y
  have hbits : u.toBitVec = v.toBitVec := by
    rw [← pack_unpack hu, ← pack_unpack hv]
    exact congrArg (pack binary32) h
  obtain rfl : u = v := UInt32.toBitVec_inj.mp hbits
  rfl

theorem finite_eq_of_compare {m n : Nat} {e f : Int} {hm : 0 < m} {hn : 0 < n}
    (h : (compare e f).then (compare m n) = .eq) :
    UnpackedFloat.finite s m e hm = .finite s n f hn := by
  obtain ⟨hexp, hman⟩ := Ordering.then_eq_eq.mp h
  obtain rfl := compare_eq_iff_eq.mp hexp
  obtain rfl := compare_eq_iff_eq.mp hman
  rfl

/-- What is equal as a number is the same or a zero. -/
theorem eq_or_zero_of_unpacked_beq (h : a.beq b = true) :
    a = b ∨ ∃ s t, a = .zero s ∧ b = .zero t := by
  have hcompare : a.compare b = some .eq := beq_iff_eq.mp h
  clear h
  cases a with
  | notANumber => cases hcompare
  | infinity s =>
    cases b with
    | infinity t =>
      cases s <;> cases t
      case negative.negative | positive.positive => exact Or.inl rfl
      case negative.positive | positive.negative => cases hcompare
    | notANumber => cases hcompare
    | zero t => cases s <;> cases hcompare
    | finite t => cases s <;> cases hcompare
  | zero s =>
    cases b with
    | zero t => exact Or.inr ⟨s, t, rfl, rfl⟩
    | notANumber => cases hcompare
    | infinity t => cases t <;> cases hcompare
    | finite t => cases t <;> cases hcompare
  | finite s m e hm =>
    cases b with
    | finite t n f hn =>
      cases s <;> cases t
      case negative.negative =>
        have hswap := Option.some_inj.mp hcompare
        rw [Ordering.swap_eq_eq] at hswap
        exact Or.inl (finite_eq_of_compare hswap)
      case positive.positive => exact Or.inl (finite_eq_of_compare (Option.some_inj.mp hcompare))
      -- Signs that differ are not equal.
      case negative.positive | positive.negative => cases hcompare
    | notANumber => cases hcompare
    | infinity t => cases t <;> cases hcompare
    | zero t => cases s <;> cases hcompare

theorem eq_zero_or_eq_neg_zero (h : x.toModel.unpack = .zero s) : x = 0 ∨ x = -0 := by
  cases s with
  | positive => exact Or.inl (eq_of_unpack_eq (h.trans rfl))
  | negative => exact Or.inr (eq_of_unpack_eq (h.trans rfl))

/-- Two numbers that are equal as numbers are the same or the two zeros. -/
theorem eq_or_zeros_of_beq (h : (x == y) = true) : x = y ∨ x = 0 ∧ y = -0 ∨ x = -0 ∧ y = 0 := by
  rcases eq_or_zero_of_unpacked_beq h with hsame | ⟨s, t, hs, ht⟩
  · exact Or.inl (eq_of_unpack_eq hsame)
  · rcases eq_zero_or_eq_neg_zero hs with rfl | rfl <;>
      rcases eq_zero_or_eq_neg_zero ht with rfl | rfl
    · exact Or.inl rfl
    · exact Or.inr (Or.inl ⟨rfl, rfl⟩)
    · exact Or.inr (Or.inr ⟨rfl, rfl⟩)
    · exact Or.inl rfl

end Equality

end ShaderGraph.Binary32
