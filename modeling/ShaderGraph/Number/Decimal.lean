import ShaderGraph.Number.Binary32

/-!
# Decimal numbers and the shortest one for a binary32 number

A decimal is read as the binary32 pattern nearest to it. Conversely each finite pattern has a
shortest decimal: among the grids of multiples of a power of ten, the coarsest on which one of the
two neighbours of the value reads back as the same pattern. On the grid of `10 ^ -149` the value
itself is a point, so the search always ends there at the latest.

## Main definitions

* `Decimal` — a natural number times a power of ten
* `Decimal.nearestPattern` — the binary32 pattern nearest to a decimal
* `Decimal.shortest` — the shortest decimal that reads back as a pattern
-/

namespace ShaderGraph

/-- The decimal `digits * 10 ^ exponent`. -/
structure Decimal where
  digits : Nat
  exponent : Int
  deriving DecidableEq, Repr, Inhabited

namespace Decimal

open Binary32

/-- The digits of a natural number, most significant first. -/
def digitChars (n : Nat) : List Char := Nat.toDigits 10 n

/-- A power of ten. -/
def powerOfTen (n : Nat) : Nat := Nat.pow 10 n

/-- The power of ten at the front of a decimal that is not zero. -/
def leadingExponent (d : Decimal) : Int := (digitChars d.digits).length - 1 + d.exponent

/-- The binary32 pattern nearest to a decimal. Beyond `10 ^ 40` everything is infinite and below
`10 ^ -60` everything is zero, so that no power of ten is formed there. -/
def nearestPattern (d : Decimal) : Nat :=
  if d.digits = 0 then 0
  else if 40 < d.leadingExponent then infinity
  else if d.leadingExponent < -60 then 0
  else
    patternNear (d.digits * powerOfTen d.exponent.toNat * unitsPerOne)
      (powerOfTen (-d.exponent).toNat)

/-- What to take of two neighbours at the same distance. -/
inductive TieRule where
  /-- The larger of the two. -/
  | up
  /-- The one that ends in an even digit. -/
  | even
  deriving DecidableEq, Repr, Inhabited

/-- The nearer of the neighbours of `magnitude p` on the grid of `10 ^ exponent` that read back
as `p`, if one does. -/
def onGrid (tie : TieRule) (p : Nat) (exponent : Int) : Option Decimal :=
  let num := magnitude p * powerOfTen (-exponent).toNat
  let den := unitsPerOne * powerOfTen exponent.toNat
  let below : Decimal := ⟨num / den, exponent⟩
  let above : Decimal := ⟨num / den + 1, exponent⟩
  let r := num % den
  let upper : Bool :=
    den < 2 * r || 2 * r == den && (tie == .up || below.digits % 2 == 1)
  match below.nearestPattern == p, above.nearestPattern == p with
  | true, true => some (if upper then above else below)
  | true, false => some below
  | false, true => some above
  | false, false => none

/-- Tries the grids of `10 ^ exponent` and of the next `fuel` lower powers. -/
def search (tie : TieRule) (p : Nat) : (fuel : Nat) → (exponent : Int) → Decimal
  | 0, exponent => ⟨magnitude p * powerOfTen (-exponent).toNat / unitsPerOne, exponent⟩
  | fuel + 1, exponent => (onGrid tie p exponent).getD (search tie p fuel (exponent - 1))

/-- The shortest decimal that reads back as the finite pattern `p`. -/
def shortest (tie : TieRule) (p : Nat) : Decimal :=
  if p = 0 then ⟨0, 0⟩ else search tie p 188 39

end Decimal

end ShaderGraph
