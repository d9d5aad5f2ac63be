import ShaderGraph.Literal
import ShaderGraph.Text.Quoted

/-!
# Values

What evaluation yields. A value is numeric or a texture. Multiplying a texture by a number cannot
be carried out on the spot, so it yields a `PendingOperation` that a compositor settles later.

## Main definitions

* `Value` — a scalar, a vector or a texture
* `PendingOperation` — the product of a texture and a numeric factor, not yet composed
* `Evaluated` — a value or a pending operation
* `Literal.value?` — the value that a literal stands for
* `Value.describe` — the form of a value in messages
-/

namespace ShaderGraph

/-- A texture by its identifier, with the place where its image is found. -/
structure TextureRef where
  id : String
  url : String
  deriving DecidableEq, Repr, Inhabited

/-- A scalar, a vector or a texture. -/
inductive Value where
  | scalar (x : Float32)
  | vector (xs : List Float32)
  | texture (t : TextureRef)
  deriving DecidableEq, Inhabited

/-- The product of every texel of a texture and a numeric factor. -/
structure PendingOperation where
  texture : TextureRef
  factor : Value
  deriving DecidableEq, Inhabited

/-- What a pin evaluates to. -/
inductive Evaluated where
  | resolved (v : Value)
  | pending (op : PendingOperation)
  deriving DecidableEq, Inhabited

namespace Value

/-- The number of a scalar. -/
def scalar? : Value → Option Float32
  | scalar x => some x
  | _ => none

/-- The reference of a texture. -/
def texture? : Value → Option TextureRef
  | texture t => some t
  | _ => none

/-- Whether a value is a scalar or a vector. -/
def isNumeric : Value → Bool
  | scalar _ | vector _ => true
  | texture _ => false

/-- The components of a numeric value, one for a scalar. -/
def components? : Value → Option (List Float32)
  | scalar x => some [x]
  | vector xs => some xs
  | texture _ => none

/-- The form of a value in messages. -/
def describe : Value → String
  | scalar x => "Scalar(" ++ FloatNotation.debug.write x ++ ")"
  | vector xs =>
    "Vector([" ++ String.intercalate ", " (xs.map FloatNotation.debug.write) ++ "])"
  | texture t =>
    "Texture(TextureRef \x7b id: " ++ Text.quote false t.id ++ ", url: " ++
      Text.quote false t.url ++ " \x7d)"

end Value

/-- The value that an evaluated pin has at once. -/
def Evaluated.value? : Evaluated → Option Value
  | resolved v => some v
  | pending _ => none

/-- The value that a literal stands for; text has none. -/
def Literal.value? (l : Literal) : Option Value :=
  match l.scalar? with
  | some x => some (.scalar x)
  | none => l.vector?.map .vector

end ShaderGraph
