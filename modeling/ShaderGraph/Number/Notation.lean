import ShaderGraph.Number.Decimal

/-!
# Written forms of binary32 numbers

A `FloatNotation` says how the shortest decimal of a number is laid out. Each writer of the library
names the notation it uses: shader code, saved text and reports differ only in this record.

## Main definitions

* `FloatNotation` — the choices of a written form
* `FloatNotation.write` — the text of a number
* `FloatNotation.display`, `FloatNotation.debug`, `FloatNotation.json` — the notations in use
* `floatText` — the text of a number in shader code and in composed texture names
* `decimalOfText?` — the decimal that a run of digits with point and exponent stands for
-/

namespace ShaderGraph

open Decimal

/-- How the shortest decimal of a number is laid out. -/
structure FloatNotation where
  /-- What to take of two shortest decimals at the same distance. -/
  tie : TieRule
  /-- The powers of ten from which on and below which the leading digit is written in place;
  `none` stands for all powers. -/
  positional : Option (Int × Int)
  /-- Whether a whole number in positional form ends in `.0`. -/
  wholePoint : Bool
  /-- Whether the power of ten of a large number is written with a plus sign. -/
  exponentPlus : Bool
  /-- The text of what is not a number. -/
  nan : String
  /-- The text of positive infinity; negative infinity is written in the same way. -/
  infinity : String
  /-- The sign of negative infinity. -/
  negativeInfinity : String
  deriving DecidableEq, Repr

namespace FloatNotation

/-- Positional digits: zeros fill the places between the digits and the point. -/
def positionalChars (wholePoint : Bool) (d : Decimal) : List Char :=
  let ds := digitChars d.digits
  if 0 ≤ d.exponent then
    ds ++ List.replicate d.exponent.toNat '0' ++ if wholePoint then ['.', '0'] else []
  else
    let places := (-d.exponent).toNat
    if places < ds.length then
      ds.take (ds.length - places) ++ '.' :: ds.drop (ds.length - places)
    else
      '0' :: '.' :: (List.replicate (places - ds.length) '0' ++ ds)

/-- A power of ten behind its mark. -/
def exponentChars (exponentPlus : Bool) (e : Int) : List Char :=
  let digits := digitChars e.natAbs
  'e' :: if e < 0 then '-' :: digits else if exponentPlus then '+' :: digits else digits

/-- One digit, the others behind a point, and the power of ten. -/
def exponentialChars (exponentPlus : Bool) (d : Decimal) : List Char :=
  let significand := match digitChars d.digits with
    | [] => []
    | [c] => [c]
    | c :: cs => c :: '.' :: cs
  significand ++ exponentChars exponentPlus d.leadingExponent

/-- The text of a finite number without its sign. -/
def magnitudeChars (n : FloatNotation) (p : Nat) : List Char :=
  let d := Decimal.shortest n.tie p
  let inPlace := match n.positional with
    | none => true
    | some (low, high) => p == 0 || (low ≤ d.leadingExponent && d.leadingExponent < high)
  if inPlace then positionalChars n.wholePoint d else exponentialChars n.exponentPlus d

/-- The text of a number. -/
def write (n : FloatNotation) (x : Float32) : String :=
  let p := Binary32.pattern x
  if Binary32.infinity < p then n.nan
  else if p = Binary32.infinity then
    if Binary32.isNegative x then n.negativeInfinity else n.infinity
  else
    let digits := n.magnitudeChars p
    String.ofList (if Binary32.isNegative x then '-' :: digits else digits)

/-- Always positional, whole numbers without a point. -/
def display : FloatNotation where
  tie := .up
  positional := none
  wholePoint := false
  exponentPlus := false
  nan := "NaN"
  infinity := "inf"
  negativeInfinity := "-inf"

/-- Always positional, whole numbers with `.0`: the form in saved text. -/
def saved : FloatNotation := { display with wholePoint := true }

/-- Positional from `10 ^ -4` to below `10 ^ 16`: the form in messages about values. -/
def debug : FloatNotation := { saved with positional := some (-4, 16) }

/-- Positional from `10 ^ -6` to below `10 ^ 13`; what is not finite has no number form. -/
def json : FloatNotation where
  tie := .even
  positional := some (-6, 13)
  wholePoint := true
  exponentPlus := true
  nan := "null"
  infinity := "null"
  negativeInfinity := "null"

end FloatNotation

/-- The text of a number in shader code: a whole number is written with all its digits and `.0`,
any other number in the shortest positional form. -/
def floatText (x : Float32) : String :=
  if Binary32.isWhole x then
    let whole := Binary32.magnitude (Binary32.pattern x) / Binary32.unitsPerOne
    let digits := digitChars whole ++ ['.', '0']
    String.ofList (if Binary32.isNegative x then '-' :: digits else digits)
  else FloatNotation.display.write x

/-- The number that a run of decimal digits stands for. -/
def digitsValue (cs : List Char) : Nat :=
  cs.foldl (fun n c => 10 * n + (c.toNat - '0'.toNat)) 0

/-- The power of ten behind an exponent mark: an optional sign and at least one digit. -/
def exponentOfText? : List Char → Option Int
  | '-' :: cs => if cs ≠ [] ∧ cs.all Char.isDigit then some (-(digitsValue cs : Int)) else none
  | '+' :: cs => if cs ≠ [] ∧ cs.all Char.isDigit then some (digitsValue cs) else none
  | cs => if cs ≠ [] ∧ cs.all Char.isDigit then some (digitsValue cs) else none

/-- The decimal that a text stands for: digits with at most one point, of which at least one digit
is present, and an optional exponent. -/
def decimalOfText? (cs : List Char) : Option Decimal :=
  let whole := cs.takeWhile Char.isDigit
  let rest := cs.dropWhile Char.isDigit
  let (fraction, rest) := match rest with
    | '.' :: rest => (rest.takeWhile Char.isDigit, rest.dropWhile Char.isDigit)
    | rest => ([], rest)
  if whole.isEmpty && fraction.isEmpty then none
  else
    let exponent? := match rest with
      | [] => some 0
      | c :: rest => if c = 'e' ∨ c = 'E' then exponentOfText? rest else none
    exponent?.map fun e => ⟨digitsValue (whole ++ fraction), e - fraction.length⟩

end ShaderGraph
