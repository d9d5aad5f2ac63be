import ShaderGraph.Text.Quoted

/-!
# Identifiers of 128 bits

Nodes and links are identified by 128 bits, written as 32 hexadecimal digits either in one run or
in five groups joined by hyphens.

## Main definitions

* `Uuid` — 128 bits
* `Uuid.simple`, `Uuid.hyphenated` — the two written forms
* `Uuid.ofText?` — the identifier that a text stands for
* `NodeId`, `LinkId` — what nodes and links are known by
-/

namespace ShaderGraph

/-- An identifier of 128 bits. -/
structure Uuid where
  value : BitVec 128
  deriving DecidableEq, Repr, Inhabited

namespace Uuid

/-- The lowest hexadecimal digits of a number, most significant first. -/
def fixedHex : (width : Nat) → Nat → List Char
  | 0, _ => []
  | width + 1, n => fixedHex width (n / 16) ++ [Nat.digitChar (n % 16)]

/-- All 32 digits. -/
def digits (u : Uuid) : List Char := fixedHex 32 u.value.toNat

/-- The digits in one run. -/
def simple (u : Uuid) : String := String.ofList u.digits

/-- The digits in groups of 8, 4, 4, 4 and 12. -/
def hyphenatedChars (u : Uuid) : List Char :=
  let ds := u.digits
  ds.take 8 ++ '-' :: (ds.drop 8).take 4 ++ '-' :: (ds.drop 12).take 4 ++
    '-' :: (ds.drop 16).take 4 ++ '-' :: ds.drop 20

/-- The digits in groups joined by hyphens. -/
def hyphenated (u : Uuid) : String := String.ofList u.hyphenatedChars

/-- The value of a hexadecimal digit of either case. -/
def hexValue? (c : Char) : Option Nat :=
  if '0' ≤ c ∧ c ≤ '9' then some (c.toNat - '0'.toNat)
  else if 'a' ≤ c ∧ c ≤ 'f' then some (c.toNat - 'a'.toNat + 10)
  else if 'A' ≤ c ∧ c ≤ 'F' then some (c.toNat - 'A'.toNat + 10)
  else none

/-- The number that hexadecimal digits stand for, behind digits that stand for `n`. -/
def hexNumber? (n : Nat) : List Char → Option Nat
  | [] => some n
  | c :: cs => (hexValue? c).bind fun v => hexNumber? (16 * n + v) cs

/-- The identifier with the given 32 digits. -/
def ofDigits? (cs : List Char) : Option Uuid :=
  if cs.length = 32 then (hexNumber? 0 cs).map fun n => ⟨BitVec.ofNat 128 n⟩ else none

/-- The identifier whose digits stand in groups joined by hyphens. -/
def ofHyphenated? (cs : List Char) : Option Uuid :=
  if cs.length = 36 ∧ cs[8]? = some '-' ∧ cs[13]? = some '-' ∧ cs[18]? = some '-' ∧
      cs[23]? = some '-' then
    ofDigits? (cs.take 8 ++ (cs.drop 9).take 4 ++ (cs.drop 14).take 4 ++ (cs.drop 19).take 4 ++
      cs.drop 24)
  else none

/-- The identifier that a text stands for: digits in one run or in groups; groups also stand in
braces or behind `urn:uuid:` in letters of either case. -/
def ofChars? (cs : List Char) : Option Uuid :=
  match cs.length with
  | 32 => ofDigits? cs
  | 36 => ofHyphenated? cs
  | 38 =>
    if cs.head? = some '\x7b' ∧ cs.getLast? = some '\x7d' then ofHyphenated? (cs.drop 1).dropLast
    else none
  | 45 =>
    if (cs.take 9).map Char.toLower = "urn:uuid:".toList then ofHyphenated? (cs.drop 9) else none
  | _ => none

/-- The identifier that a text stands for. -/
def ofText? (s : String) : Option Uuid := ofChars? s.toList

end Uuid

/-- The identifier of a node. -/
structure NodeId where
  uuid : Uuid
  deriving DecidableEq, Repr, Inhabited

/-- The identifier of a link. -/
structure LinkId where
  uuid : Uuid
  deriving DecidableEq, Repr, Inhabited

/-- The text of a node identifier in messages and shader code. -/
def NodeId.text (n : NodeId) : String := n.uuid.simple

/-- The text of a link identifier in shader code. -/
def LinkId.text (l : LinkId) : String := l.uuid.simple

end ShaderGraph
