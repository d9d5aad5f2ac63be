import ShaderGraph.Number.Notation

/-!
# RON: numerals

How numbers are spelt. Integers have a base and may hold underscores; in base ten or two they may
end in the name of a type. Numbers with a point or an exponent may end in the name of a
floating-point type. Three words stand for what is not finite.

## Main definitions

* `Numeral.isNumeral` — whether a run of characters spells a number of any type
* `Numeral.u32?` — the unsigned 32-bit integer that is spelt
* `Numeral.f32?` — the single-precision number that is spelt
-/

namespace ShaderGraph.Numeral

/-- Whether a character is a digit of some base or an underscore. -/
def isIntegerChar (c : Char) : Bool :=
  c.isDigit || 'a' ≤ c && c ≤ 'f' || 'A' ≤ c && c ≤ 'F' || c == '_'

/-- Whether a character can stand in a number with point or exponent. -/
def isFloatChar (c : Char) : Bool :=
  c.isDigit || c == 'e' || c == 'E' || c == '.' || c == '+' || c == '-' || c == '_'

/-- A spelling without its sign, and whether the sign was a minus. -/
def splitSign : List Char → Bool × List Char
  | '-' :: cs => (true, cs)
  | '+' :: cs => (false, cs)
  | cs => (false, cs)

/-- The base that the digits are in, and the spelling without its mark. -/
def splitBase : List Char → Nat × List Char
  | '0' :: 'b' :: cs => (2, cs)
  | '0' :: 'o' :: cs => (8, cs)
  | '0' :: 'x' :: cs => (16, cs)
  | cs => (10, cs)

/-- The value of a digit of either case. -/
def digitValue (c : Char) : Nat :=
  if c.isDigit then c.toNat - '0'.toNat
  else if 'a' ≤ c then c.toNat - 'a'.toNat + 10
  else c.toNat - 'A'.toNat + 10

/-- The number that digits and underscores stand for, if every digit belongs to the base. -/
def digitsIn? (base : Nat) (cs : List Char) : Option Nat :=
  let ds := cs.filter (· != '_')
  if ds.all fun c => digitValue c < base then some (ds.foldl (fun n c => base * n + digitValue c) 0)
  else none

/-- An integer as it is spelt: its sign, its magnitude and the name of its type. -/
structure Integer where
  negative : Bool
  magnitude : Nat
  suffix : List Char
  deriving Repr

/-- Whether integers of a base may name their type: those whose mark, if there is one, could also be
a digit. -/
def namesType (base : Nat) : Bool := base == 10 || base == 2

/-- The integer that is spelt. -/
def integer? (cs : List Char) : Option Integer :=
  let (negative, cs) := splitSign cs
  let (base, cs) := splitBase cs
  let digits := cs.takeWhile isIntegerChar
  let suffix := cs.dropWhile isIntegerChar
  if digits = [] ∨ digits.head? = some '_' then none
  else if suffix ≠ [] ∧ !namesType base then none
  else (digitsIn? base digits).map fun n => ⟨negative, n, suffix⟩

/-- The types of integers by name, with the magnitudes that they hold below and above zero. -/
def integerTypes : List (String × Nat × Nat) :=
  [("i8", 0x80, 0x7f), ("i16", 0x8000, 0x7fff), ("i32", 0x80000000, 0x7fffffff),
    ("i64", 0x8000000000000000, 0x7fffffffffffffff), ("u8", 0, 0xff), ("u16", 0, 0xffff),
    ("u32", 0, 0xffffffff), ("u64", 0, 0xffffffffffffffff),
    ("", 0x8000000000000000, 0xffffffffffffffff)]

/-- Whether an integer fits the type that it names, or the widest type if it names none. -/
def Integer.fits (n : Integer) : Bool :=
  match integerTypes.lookup (String.ofList n.suffix) with
  | some (low, high) => n.magnitude ≤ if n.negative then low else high
  | none => false

/-- The unsigned 32-bit integer that is spelt. -/
def u32? (cs : List Char) : Option UInt32 :=
  match integer? cs with
  | some n =>
    if (n.suffix = [] ∨ n.suffix = "u32".toList) ∧
        n.magnitude ≤ (if n.negative then 0 else 0xffffffff) then
      some (UInt32.ofNat n.magnitude)
    else none
  | none => none

/-- Whether underscores stand only where they may: behind a digit or an exponent mark, but not
behind a point. `allowed` tells whether one may stand next. -/
def underscoresFit (allowed : Bool) : List Char → Bool
  | [] => true
  | c :: cs =>
    if c = '_' then allowed && underscoresFit allowed cs
    else if c = '.' then underscoresFit false cs
    else if c = '+' ∨ c = '-' then underscoresFit allowed cs
    else underscoresFit true cs

/-- The parts of a number with point or exponent: its digits and the name of its type. -/
def splitFloat (cs : List Char) : List Char × List Char :=
  (cs.takeWhile isFloatChar, cs.dropWhile isFloatChar)

/-- The single-precision number nearest to a spelt decimal with sign. -/
def decimal32? (cs : List Char) : Option Float32 :=
  if underscoresFit false cs then
    let (negative, digits) := splitSign (cs.filter (· != '_'))
    (decimalOfText? digits).map fun d => Binary32.ofPattern negative d.nearestPattern
  else none

/-- The pattern of what is not a number. -/
def nanPattern : Nat := 0x7fc00000

/-- The words for what is not finite. -/
def words : List (String × Float32) :=
  [("inf", Binary32.ofPattern false Binary32.infinity),
    ("+inf", Binary32.ofPattern false Binary32.infinity),
    ("-inf", Binary32.ofPattern true Binary32.infinity),
    ("NaN", Binary32.ofPattern false nanPattern), ("+NaN", Binary32.ofPattern false nanPattern),
    ("-NaN", Binary32.ofPattern false nanPattern)]

/-- The number that a word, with or without the name of a type, stands for. -/
def word? (suffix : String) (cs : List Char) : Option Float32 :=
  (words.find? fun w => (w.1 ++ suffix).toList = cs).map Prod.snd

/-- The single-precision number that is spelt, by a word or by digits. -/
def f32? (cs : List Char) : Option Float32 :=
  match word? "" cs <|> word? "f32" cs with
  | some x => some x
  | none =>
    let (digits, suffix) := splitFloat cs
    if suffix = [] ∨ suffix = "f32".toList then decimal32? digits else none

/-- Whether a number with point or exponent is spelt, of either floating-point type. -/
def isFloat (cs : List Char) : Bool :=
  (f32? cs).isSome || (word? "f64" cs).isSome ||
    (splitFloat cs).2 == "f64".toList && (decimal32? (splitFloat cs).1).isSome

/-- Whether a number of any type is spelt. -/
def isNumeral (cs : List Char) : Bool := isFloat cs || (integer? cs).any Integer.fits

end ShaderGraph.Numeral
