import Mathlib.Algebra.Order.Ring.Nat
import Mathlib.Data.Fintype.EquivFin
import Mathlib.Tactic.Ring
import ShaderGraph.Uuid

/-!
# Identifiers read back

The 32 digits of an identifier stand for it, in one run and in groups, so that identifiers with the
same text are equal. There are finitely many identifiers.

## Main results

* `Uuid.hexNumber?_fixedHex` — digits stand for the number that they were written for
* `Uuid.ofText?_hyphenated` — the groups of digits are read back
* `LinkId.text_injective` — links are told apart by their texts
-/

namespace ShaderGraph

namespace Uuid

variable {u : Uuid}

theorem hexValue?_digitChar {d : Nat} (h : d < 16) : hexValue? (Nat.digitChar d) = some d := by
  have hall : ∀ d : Fin 16, hexValue? (Nat.digitChar d) = some d.val := by decide
  exact hall ⟨d, h⟩

theorem length_fixedHex {width n : Nat} : (fixedHex width n).length = width := by
  induction width generalizing n with
  | zero => rfl
  | succ width ih => rw [fixedHex, List.length_append, ih, List.length_singleton]

theorem isAlphanum_of_mem_fixedHex {width n : Nat} {c : Char} (h : c ∈ fixedHex width n) :
    c.isAlphanum = true := by
  have hall : ∀ d : Fin 16, (Nat.digitChar d).isAlphanum = true := by decide
  induction width generalizing n with
  | zero => cases h
  | succ width ih =>
    rw [fixedHex, List.mem_append, List.mem_singleton] at h
    rcases h with h | rfl
    · exact ih h
    · exact hall ⟨n % 16, Nat.mod_lt n (by decide)⟩

theorem hexNumber?_append {n : Nat} {cs ds : List Char} :
    hexNumber? n (cs ++ ds) = (hexNumber? n cs).bind fun m => hexNumber? m ds := by
  induction cs generalizing n with
  | nil => rfl
  | cons c cs ih =>
    rw [List.cons_append, hexNumber?, hexNumber?]
    cases hexValue? c with
    | none => rfl
    | some v => exact ih

/-- Digits stand for the number that they were written for, up to the width. -/
theorem hexNumber?_fixedHex {width k n : Nat} :
    hexNumber? k (fixedHex width n) = some (k * 16 ^ width + n % 16 ^ width) := by
  induction width generalizing n with
  | zero => simp [fixedHex, hexNumber?, Nat.mod_one]
  | succ width ih =>
    rw [fixedHex, hexNumber?_append, ih, Option.bind_some, hexNumber?,
      hexValue?_digitChar (Nat.mod_lt n (by decide)), Option.bind_some, hexNumber?]
    -- The last digit is the remainder, the others are the quotient.
    have hsplit : n % 16 ^ (width + 1) = n / 16 % 16 ^ width * 16 + n % 16 := by
      rw [pow_succ', Nat.mod_mul]
      ring
    rw [hsplit]
    congr 1
    ring

theorem length_digits : u.digits.length = 32 := length_fixedHex

theorem ofDigits?_digits : ofDigits? u.digits = some u := by
  have hlt : u.value.toNat < 16 ^ 32 := u.value.isLt
  rw [ofDigits?, if_pos length_digits, digits, hexNumber?_fixedHex, Nat.zero_mul, Nat.zero_add,
    Nat.mod_eq_of_lt hlt, Option.map_some, BitVec.ofNat_toNat, BitVec.setWidth_eq]

theorem simple_injective : Function.Injective simple := by
  intro u v h
  have hdigits : u.digits = v.digits := String.ofList_injective h
  have hu := ofDigits?_digits (u := u)
  rw [hdigits, ofDigits?_digits] at hu
  exact (Option.some_inj.mp hu).symm

theorem ofHyphenated?_groups {a b c d e : List Char} (ha : a.length = 8) (hb : b.length = 4)
    (hc : c.length = 4) (hd : d.length = 4) (he : e.length = 12) :
    ofHyphenated? (a ++ '-' :: (b ++ '-' :: (c ++ '-' :: (d ++ '-' :: e)))) =
      ofDigits? (a ++ (b ++ (c ++ (d ++ e)))) := by
  rw [ofHyphenated?, if_pos]
  -- A group that begins further on is what is left when the earlier ones are dropped.
  · have hdrop (xs ys : List Char) (k : Nat) (h : xs.length ≤ k) :
        (xs ++ ys).drop k = ys.drop (k - xs.length) := by
      rw [List.drop_append, List.drop_eq_nil_of_le h, List.nil_append]
    simp [hdrop, ha, hb, hc, hd]
  · simp [ha, hb, hc, hd, he]

/-- The groups of digits are read back. -/
theorem ofText?_hyphenated : ofText? u.hyphenated = some u := by
  have hlength := length_digits (u := u)
  have hgroups : u.hyphenatedChars = u.digits.take 8 ++ '-' :: ((u.digits.drop 8).take 4 ++
      '-' :: ((u.digits.drop 12).take 4 ++ '-' :: ((u.digits.drop 16).take 4 ++
        '-' :: u.digits.drop 20))) := by
    simp [hyphenatedChars]
  have hchars : u.hyphenatedChars.length = 36 := by simp [hgroups, hlength]
  have hjoin : u.digits.take 8 ++ ((u.digits.drop 8).take 4 ++ ((u.digits.drop 12).take 4 ++
      ((u.digits.drop 16).take 4 ++ u.digits.drop 20))) = u.digits := by
    have hdrop (k : Nat) : (u.digits.drop k).take 4 ++ u.digits.drop (k + 4) = u.digits.drop k := by
      rw [← List.drop_drop, List.take_append_drop]
    rw [hdrop 16, hdrop 12, hdrop 8, List.take_append_drop]
  have hread : ofHyphenated? u.hyphenatedChars = some u := by
    rw [hgroups, ofHyphenated?_groups (by simp [hlength]) (by simp [hlength]) (by simp [hlength])
      (by simp [hlength]) (by simp [hlength]), hjoin, ofDigits?_digits]
  rw [ofText?, hyphenated, String.toList_ofList, ofChars?, hchars]
  exact hread

end Uuid

instance : Finite Uuid :=
  .of_injective (fun u => u.value.toFin) fun ⟨a⟩ ⟨b⟩ h => by
    rw [Uuid.mk.injEq]
    exact BitVec.toFin_inj.mp h

instance : Finite NodeId := .of_injective NodeId.uuid fun ⟨_⟩ ⟨_⟩ h => congrArg NodeId.mk h

instance : Finite LinkId := .of_injective LinkId.uuid fun ⟨_⟩ ⟨_⟩ h => congrArg LinkId.mk h

/-- Links are told apart by their texts. -/
theorem LinkId.text_injective : Function.Injective LinkId.text := by
  rintro ⟨u⟩ ⟨v⟩ h
  exact congrArg LinkId.mk (Uuid.simple_injective h)

end ShaderGraph
