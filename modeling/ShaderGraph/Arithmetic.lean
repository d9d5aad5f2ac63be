import ShaderGraph.Value

/-!
# Arithmetic on values

Operations work component by component. Scalars are repeated to the width of the vectors they meet;
vectors of different widths and textures have no result.

## Main definitions

* `BinaryOperation`, `UnaryFunction` — the operations on one component
* `broadcast` — a component function extended to values
* `BinaryOperation.onValues?`, `UnaryFunction.onValue?`, `Arithmetic.lerp?`, `Arithmetic.clamp?`
* `Arithmetic.append?` — the components of two values side by side
-/

namespace ShaderGraph

/-- An operation on two numbers. -/
inductive BinaryOperation where
  | add
  | subtract
  | multiply
  | divide
  | min
  | max
  | power
  deriving DecidableEq, Repr, Inhabited

/-- A function of one number. -/
inductive UnaryFunction where
  | abs
  | ceil
  | floor
  /-- The distance from the floor. -/
  | frac
  | oneMinus
  /-- The nearest number between zero and one. -/
  | saturate
  | sine
  | cosine
  /-- The square root; a negative number counts as zero. -/
  | squareRoot
  deriving DecidableEq, Repr, Inhabited

namespace Arithmetic

/-- The smaller of two numbers; what is not a number gives way. -/
def smaller (x y : Float32) : Float32 :=
  if x.isNaN then y else if y.isNaN then x else if y < x then y else x

/-- The larger of two numbers; what is not a number gives way. -/
def larger (x y : Float32) : Float32 :=
  if x.isNaN then y else if y.isNaN then x else if x < y then y else x

end Arithmetic

namespace BinaryOperation

/-- What stands in for a missing operand. -/
def identity? : BinaryOperation → Option Float32
  | add | subtract => some 0
  | multiply | divide | power => some 1
  | min | max => none

/-- The result on one component; only division by zero has none. -/
def onNumbers? (op : BinaryOperation) (x y : Float32) : Option Float32 :=
  match op with
  | add => some (x + y)
  | subtract => some (x - y)
  | multiply => some (x * y)
  | divide => if y == 0 then none else some (x / y)
  | min => some (Arithmetic.smaller x y)
  | max => some (Arithmetic.larger x y)
  | power => some (x.pow y)

end BinaryOperation

/-- The result on one component. -/
def UnaryFunction.onNumber (f : UnaryFunction) (x : Float32) : Float32 :=
  match f with
  | abs => x.abs
  | ceil => x.ceil
  | floor => x.floor
  | frac => x - x.floor
  | oneMinus => 1 - x
  | saturate => if x < 0 then 0 else if 1 < x then 1 else x
  | sine => x.sin
  | cosine => x.cos
  | squareRoot => (Arithmetic.larger x 0).sqrt

namespace Value

/-- The number of components of a vector. -/
def width? : Value → Option Nat
  | vector xs => some xs.length
  | _ => none

/-- The component of a value at an index; a scalar is the same at every index. -/
def component? (v : Value) (i : Nat) : Option Float32 :=
  match v with
  | scalar x => some x
  | vector xs => xs[i]?
  | texture _ => none

end Value

/-- The common member of a list, `some none` for the empty list. -/
def commonMember? : List Nat → Option (Option Nat)
  | [] => some none
  | n :: ns => if ns.all (· == n) then some (some n) else none

/-- The width at which values are combined: `some none` if all are scalars, and `none` if one is
a texture or two vectors differ in width. -/
def commonWidth? (vs : List Value) : Option (Option Nat) :=
  if vs.all Value.isNumeric then commonMember? (vs.filterMap Value.width?) else none

/-- A function of `n` numbers applied to the components of `n` values at an index. -/
def atComponent {n : Nat} (operands : Vector Value n)
    (f : Vector Float32 n → Option Float32) (i : Nat) : Option Float32 :=
  (operands.mapM (m := Option) fun v => v.component? i).bind f

/-- A function of `n` numbers extended to `n` values: scalars if all are scalars, otherwise
component by component with the scalars repeated. -/
def broadcast {n : Nat} (operands : Vector Value n)
    (f : Vector Float32 n → Option Float32) : Option Value :=
  match commonWidth? operands.toList with
  | none => none
  | some none => (atComponent operands f 0).map .scalar
  | some (some w) => ((List.range w).mapM (atComponent operands f)).map .vector

/-- A binary operation on values. -/
def BinaryOperation.onValues? (op : BinaryOperation) (a b : Value) : Option Value :=
  broadcast #v[a, b] fun v => op.onNumbers? v[0] v[1]

/-- A unary function on a value. -/
def UnaryFunction.onValue? (f : UnaryFunction) (a : Value) : Option Value :=
  broadcast #v[a] fun v => some (f.onNumber v[0])

namespace Arithmetic

/-- The value on the way from `a` to `b`, at `alpha` of the distance. -/
def lerp? (a b alpha : Value) : Option Value :=
  broadcast #v[a, b, alpha] fun v => some (v[0] + (v[1] - v[0]) * v[2])

/-- The value raised to `low` and then lowered to `high`. -/
def clamp? (a low high : Value) : Option Value :=
  broadcast #v[a, low, high] fun v => some (smaller (larger v[0] v[1]) v[2])

/-- The components of two numeric values side by side, up to four. -/
def append? (a b : Value) : Option Value :=
  match a.components?, b.components? with
  | some xs, some ys => if (xs ++ ys).length ≤ 4 then some (.vector (xs ++ ys)) else none
  | _, _ => none

end Arithmetic

end ShaderGraph
