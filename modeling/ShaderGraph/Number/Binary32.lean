/-!
# Binary32 numbers as exact magnitudes

Every finite single-precision number is a whole multiple of `2 ^ -149`. The *pattern* of a number
is its bit pattern without the sign; `magnitude` gives the number of units of `2 ^ -149` that a
pattern stands for, and `patternNear` goes back from any quotient of such units to the nearest
pattern, a half going to the even one. Reading and writing decimals rest on these two alone, so
they involve no floating-point arithmetic.

## Main definitions

* `Binary32.magnitude` — a pattern in units of `2 ^ -149`
* `Binary32.unitsPerOne` — how many such units make one
* `Binary32.patternNear` — the pattern nearest to a quotient of units
* `Binary32.pattern`, `Binary32.isNegative`, `Binary32.ofPattern` — the two parts of a number
-/

namespace ShaderGraph.Binary32

/-- The pattern of infinity; smaller patterns are finite, larger ones no numbers. -/
def infinity : Nat := 0x7f800000

/-- The number of patterns from one power of two to the next, which is also the weight of the
leading bit of a significand: `2 ^ 23`. -/
def binade : Nat := 0x800000

/-- The weight of the sign bit: `2 ^ 31`. -/
def signBit : Nat := 0x80000000

/-- How many units of `2 ^ -149` make one. -/
def unitsPerOne : Nat := 1 <<< 149

/-- How many units of `2 ^ -149` a finite pattern stands for. -/
def magnitude (p : Nat) : Nat :=
  if p < binade then p else (binade + p % binade) <<< (p / binade - 1)

/-- The quotient of two naturals as a whole number, a half going to the even neighbour. -/
def roundHalfEven (num den : Nat) : Nat :=
  let q := num / den
  let r := num % den
  if 2 * r < den then q
  else if den < 2 * r then q + 1
  else q + q % 2

/-- The pattern nearest to `num / den` units. The significand keeps at most 24 bits; a
significand that rounds up to `2 ^ 24` carries into the exponent by itself. -/
def patternNear (num den : Nat) : Nat :=
  let shift := (num / den).log2 - 23
  let p := shift * binade + roundHalfEven num (den <<< shift)
  if infinity ≤ p then infinity else p

/-- The bit pattern of a number without its sign. -/
def pattern (x : Float32) : Nat := x.toBits.toNat % signBit

/-- Whether the sign bit is set. -/
def isNegative (x : Float32) : Bool := signBit ≤ x.toBits.toNat

/-- The number with the given sign and pattern. -/
def ofPattern (negative : Bool) (p : Nat) : Float32 :=
  Float32.ofBits (UInt32.ofNat (if negative then signBit + p else p))

/-- Whether a number is finite. -/
def isFinite (x : Float32) : Bool := pattern x < infinity

/-- Whether a number is finite and whole. -/
def isWhole (x : Float32) : Bool := isFinite x && magnitude (pattern x) % unitsPerOne == 0

end ShaderGraph.Binary32
