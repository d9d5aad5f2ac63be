import Mathlib.Data.List.Basic
import ShaderGraph.Proofs.Number.Notation
import ShaderGraph.Proofs.Uuid
import ShaderGraph.Ron.Scan

/-!
# RON: quoted text is read back

Every character of a quoted text stands for itself or is escaped, and the reader undoes each escape,
also those that give a character by its code point.

## Main results

* `Ron.escapedCode?_hexChars` — a character is read back by its code point
* `Ron.quotedRest?_escapeChar` — the written form of one character is read as this character
* `Ron.quoted?_flatMap` — a text between quotes is read back
-/

namespace ShaderGraph

theorem Uuid.hexNumber?_hexChars {n : Nat} : hexNumber? 0 (Text.hexChars n) = some n := by
  induction n using Nat.strongRecOn with
  | _ n ih =>
    rw [Text.hexChars]
    by_cases hn : n < 16
    · rw [Nat.toDigits_of_lt_base hn, hexNumber?, hexValue?_digitChar hn]
      simp [hexNumber?]
    · rw [Nat.toDigits_of_base_le (by decide) (by omega), hexNumber?_append, ← Text.hexChars,
        ih (n / 16) (by omega), Option.bind_some, hexNumber?,
        hexValue?_digitChar (Nat.mod_lt n (by decide)), Option.bind_some, hexNumber?,
        Nat.div_add_mod]

theorem Uuid.isSome_hexValue?_of_hexNumber? {k n : Nat} {c : Char} {cs : List Char}
    (h : hexNumber? k cs = some n) (hc : c ∈ cs) : (hexValue? c).isSome = true := by
  induction cs generalizing k with
  | nil => cases hc
  | cons d cs ih =>
    rw [hexNumber?] at h
    obtain ⟨v, hv, h⟩ := Option.bind_eq_some_iff.mp h
    rcases List.mem_cons.mp hc with rfl | hc
    · rw [hv]
      rfl
    · exact ih h hc

namespace Ron

variable {c : Char} {cs rest : List Char} {fuel : Nat}

theorem isValidChar_toNat : c.toNat.isValidChar := c.valid

theorem length_hexChars_le : (Text.hexChars c.toNat).length ≤ 6 := by
  rw [Text.hexChars, Nat.length_toDigits_le_iff (by decide) (by decide)]
  have hvalid := isValidChar_toNat (c := c)
  rw [Nat.isValidChar] at hvalid
  omega

/-- A character is read back by its code point. -/
theorem escapedCode?_hexChars :
    escapedCode? ('\x7b' :: (Text.hexChars c.toNat ++ '\x7d' :: rest)) = some (c, rest) := by
  have hread := Uuid.hexNumber?_hexChars (n := c.toNat)
  have hlength := length_hexChars_le (c := c)
  have hbrace : ∀ d ∈ Text.hexChars c.toNat, (d != '\x7d') = true := by
    intro d hd
    have hsome := Uuid.isSome_hexValue?_of_hexNumber? hread hd
    rw [bne_iff_ne]
    rintro rfl
    exact absurd hsome (by decide)
  -- What is left of the six characters, if anything is, begins with the closing brace.
  have hrest : ∀ d ∈ (('\x7d' :: rest).take (6 - (Text.hexChars c.toNat).length)).head?,
      (d != '\x7d') = false := by
    intro d hd
    cases hroom : 6 - (Text.hexChars c.toNat).length with
    | zero =>
      rw [hroom] at hd
      cases hd
    | succ k =>
      rw [hroom] at hd
      cases hd
      rfl
  have hdigits : ((Text.hexChars c.toNat ++ '\x7d' :: rest).take 6).takeWhile (· != '\x7d') =
      Text.hexChars c.toNat := by
    rw [List.take_append, List.take_of_length_le hlength]
    exact (run_append hbrace hrest).1
  have hvalid : Text.hexChars c.toNat ≠ [] ∧ c.toNat.isValidChar :=
    ⟨Nat.toDigits_ne_nil, isValidChar_toNat⟩
  simp only [escapedCode?, Ron.expect, if_true, Option.bind_eq_bind, Option.bind_some, hdigits,
    List.drop_left, hread]
  rw [if_pos hvalid, Char.ofNat_toNat]
  rfl

theorem quotedRest?_escape (escaped : List Char)
    (h : escape? .text (escaped ++ cs) = some (c, cs)) :
    quotedRest? .text (fuel + 1) ('\\' :: (escaped ++ cs)) =
      (quotedRest? .text fuel cs).map fun r => (c :: r.1, r.2) := by
  rw [quotedRest?, if_neg (by decide), if_pos rfl, h]
  simp only [Option.bind_eq_bind, Option.bind_some]
  cases quotedRest? .text fuel cs <;> rfl

theorem quotedRest?_plain (hquote : c ≠ '"') (hslash : c ≠ '\\') :
    quotedRest? .text (fuel + 1) (c :: cs) =
      (quotedRest? .text fuel cs).map fun r => (c :: r.1, r.2) := by
  rw [quotedRest?, if_neg hquote, if_neg hslash]
  cases quotedRest? .text fuel cs <;> rfl

/-- The written form of one character is read as this character. -/
theorem quotedRest?_escapeChar :
    quotedRest? .text (fuel + 1) (Text.escapeChar true c ++ cs) =
      (quotedRest? .text fuel cs).map fun r => (c :: r.1, r.2) := by
  rw [Text.escapeChar]
  split_ifs with hzero htab hreturn hline hslash hquote hsingle hplain
  · exact quotedRest?_escape ['0'] (by rw [hzero]; rfl)
  · exact quotedRest?_escape ['t'] (by rw [htab]; rfl)
  · exact quotedRest?_escape ['r'] (by rw [hreturn]; rfl)
  · exact quotedRest?_escape ['n'] (by rw [hline]; rfl)
  · exact quotedRest?_escape ['\\'] (by rw [hslash]; rfl)
  · exact quotedRest?_escape ['"'] (by rw [hquote]; rfl)
  · rw [Bool.and_true, decide_eq_true_eq] at hsingle
    exact quotedRest?_escape ['\x27'] (by rw [hsingle]; rfl)
  · exact quotedRest?_plain hquote hslash
  · refine quotedRest?_escape ('u' :: '\x7b' :: (Text.hexChars c.toNat ++ ['\x7d'])) ?_
    rw [List.cons_append, List.cons_append, List.append_assoc]
    exact escapedCode?_hexChars

/-- The written form of a text up to the closing quote is read as this text, as far as there is
fuel. -/
theorem quotedRest?_flatMap (h : cs.length < fuel) :
    quotedRest? .text fuel (cs.flatMap (Text.escapeChar true) ++ '"' :: rest) =
      some (cs, rest) := by
  induction cs generalizing fuel with
  | nil =>
    obtain ⟨fuel, rfl⟩ := Nat.exists_eq_add_one_of_ne_zero (Nat.ne_zero_of_lt h)
    rw [List.flatMap_nil, List.nil_append, quotedRest?, if_pos rfl]
  | cons c cs ih =>
    obtain ⟨fuel, rfl⟩ := Nat.exists_eq_add_one_of_ne_zero (Nat.ne_zero_of_lt h)
    rw [List.length_cons] at h
    rw [List.flatMap_cons, List.append_assoc, quotedRest?_escapeChar, ih (by omega),
      Option.map_some]

theorem escapeChar_ne_nil : Text.escapeChar true c ≠ [] := by
  rw [Text.escapeChar]
  split_ifs <;> exact List.cons_ne_nil _ _

theorem length_le_length_flatMap_escapeChar (cs : List Char) :
    cs.length ≤ (cs.flatMap (Text.escapeChar true)).length := by
  induction cs with
  | nil => exact Nat.zero_le _
  | cons c cs ih =>
    have hpos := List.length_pos_iff.mpr (escapeChar_ne_nil (c := c))
    rw [List.flatMap_cons, List.length_append, List.length_cons]
    omega

/-- A text between quotes is read back. -/
theorem quoted?_flatMap :
    quoted? .text (cs.flatMap (Text.escapeChar true) ++ '"' :: rest) = some (cs, rest) := by
  have hlength := length_le_length_flatMap_escapeChar cs
  refine quotedRest?_flatMap ?_
  rw [List.length_append]
  omega

end Ron

end ShaderGraph
