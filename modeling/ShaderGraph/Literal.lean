import ShaderGraph.PinType
import ShaderGraph.Number.Notation

/-!
# Literals

The values that an author writes down: defaults of pins and properties of nodes.

## Main definitions

* `Literal` — an authored value
* `Literal.pinType?`, `Literal.scalar?`, `Literal.text?` — its views
* `Literal.components?` — its numeric components
* `Literal.agrees` — numeric equality, by which an authored default is told from the declared one
* `Literal.shaderText` — its form in shader code
-/

namespace ShaderGraph

/-- An authored value. -/
inductive Literal where
  | bool (b : Bool)
  | float (x : Float32)
  | vector2 (x y : Float32)
  | vector3 (x y z : Float32)
  | vector4 (x y z w : Float32)
  /-- Names of textures and parameters, and comments. -/
  | text (s : String)
  deriving DecidableEq, Inhabited

namespace Literal

/-- The pin type to which a literal belongs; text belongs to none. -/
def pinType? : Literal → Option PinType
  | bool _ => some .bool
  | float _ => some .float
  | vector2 .. => some .float2
  | vector3 .. => some .float3
  | vector4 .. => some .float4
  | text _ => none

/-- A scalar or truth value as a number. -/
def scalar? : Literal → Option Float32
  | bool b => some (if b then 1 else 0)
  | float x => some x
  | _ => none

/-- The text of a text literal. -/
def text? : Literal → Option String
  | text s => some s
  | _ => none

/-- The components of a vector literal. -/
def vector? : Literal → Option (List Float32)
  | vector2 x y => some [x, y]
  | vector3 x y z => some [x, y, z]
  | vector4 x y z w => some [x, y, z, w]
  | _ => none

/-- Equality with numbers compared as numbers: the two zeros agree, and what is not a number
agrees with nothing. -/
def agrees : Literal → Literal → Bool
  | bool a, bool b => a == b
  | float x, float x' => x == x'
  | vector2 x y, vector2 x' y' => x == x' && y == y'
  | vector3 x y z, vector3 x' y' z' => x == x' && y == y' && z == z'
  | vector4 x y z w, vector4 x' y' z' w' => x == x' && y == y' && z == z' && w == w'
  | text s, text t => s == t
  | _, _ => false

/-- The constructor call of a vector in shader code. -/
def vectorText (xs : List Float32) : String :=
  "float" ++ toString xs.length ++ "(" ++ String.intercalate ", " (xs.map floatText) ++ ")"

/-- The form of a literal in shader code; text stands there as it is. -/
def shaderText : Literal → String
  | bool b => if b then "true" else "false"
  | float x => floatText x
  | vector2 x y => vectorText [x, y]
  | vector3 x y z => vectorText [x, y, z]
  | vector4 x y z w => vectorText [x, y, z, w]
  | text s => s

end Literal

end ShaderGraph
