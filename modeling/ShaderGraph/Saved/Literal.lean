import ShaderGraph.Literal
import ShaderGraph.Node
import ShaderGraph.Ron.Decode
import ShaderGraph.Ron.Printer
import ShaderGraph.Ron.Shape

/-!
# Saved literals, identifiers and positions

The form of the smaller parts of saved text: each has a shape in which it is read, and ways to and
from the values of that shape.

## Main definitions

* `Literal.shape`, `Literal.toRon`, `Literal.ofRon?` — literals as variants
* `NodeId.shape`, `LinkId.shape`, `PinRef.shape`, `Position.shape` with their ways to and from
-/

namespace ShaderGraph

/-- Literals are variants around their content. -/
def Literal.shape : Ron.Shape :=
  .variants
    [("Bool", .bool), ("Float", .number), ("Vector2", .numbers 2), ("Vector3", .numbers 3),
      ("Vector4", .numbers 4), ("Text", .text)]

/-- A literal as a variant around its content. -/
def Literal.toRon : Literal → Ron
  | bool b => .wrapped "Bool" (.bool b)
  | float x => .wrapped "Float" (.ofF32 x)
  | vector2 x y => .wrapped "Vector2" (.ofNumbers [x, y])
  | vector3 x y z => .wrapped "Vector3" (.ofNumbers [x, y, z])
  | vector4 x y z w => .wrapped "Vector4" (.ofNumbers [x, y, z, w])
  | text s => .wrapped "Text" (.text s)

/-- The literal that a variant around its content stands for. -/
def Literal.ofRon? : Ron → Option Literal
  | .wrapped "Bool" v => v.bool?.map .bool
  | .wrapped "Float" v => v.f32?.map .float
  | .wrapped "Text" v => v.text?.map .text
  | .wrapped "Vector2" v =>
    match v.numbers? with
    | some [x, y] => some (.vector2 x y)
    | _ => none
  | .wrapped "Vector3" v =>
    match v.numbers? with
    | some [x, y, z] => some (.vector3 x y z)
    | _ => none
  | .wrapped "Vector4" v =>
    match v.numbers? with
    | some [x, y, z, w] => some (.vector4 x y z w)
    | _ => none
  | _ => none

/-- A node identifier is a wrapper around its text. -/
def NodeId.shape : Ron.Shape := .wrapper "NodeId" .text

/-- A node identifier as a wrapper around its text. -/
def NodeId.toRon (n : NodeId) : Ron := .wrapped "NodeId" (.text n.uuid.hyphenated)

/-- The node identifier that a wrapper around its text stands for. -/
def NodeId.ofRon? (v : Ron) : Option NodeId :=
  Ron.wrapped? "NodeId" (fun v => v.uuid?.map NodeId.mk) v

/-- A link identifier is a wrapper around its text. -/
def LinkId.shape : Ron.Shape := .wrapper "LinkId" .text

/-- A link identifier as a wrapper around its text. -/
def LinkId.toRon (l : LinkId) : Ron := .wrapped "LinkId" (.text l.uuid.hyphenated)

/-- The link identifier that a wrapper around its text stands for. -/
def LinkId.ofRon? (v : Ron) : Option LinkId :=
  Ron.wrapped? "LinkId" (fun v => v.uuid?.map LinkId.mk) v

/-- The address of a pin is a record. -/
def PinRef.shape : Ron.Shape := .record "PinRef" [("node", NodeId.shape), ("pin", .text)]

/-- The address of a pin as a record. -/
def PinRef.toRon (p : PinRef) : Ron :=
  .record "PinRef" [("node", p.node.toRon), ("pin", .text p.pin)]

/-- The address of a pin that a record stands for. -/
def PinRef.ofRon? (v : Ron) : Option PinRef := do
  let fs ← v.fields? "PinRef"
  pure ⟨← Ron.required? fs "node" NodeId.ofRon?, ← Ron.required? fs "pin" Ron.text?⟩

/-- A position is a tuple. -/
def Position.shape : Ron.Shape := .numbers 2

/-- A position as a tuple. -/
def Position.toRon (p : Position) : Ron := .ofNumbers [p.x, p.y]

/-- The position that a tuple stands for. -/
def Position.ofRon? (v : Ron) : Option Position :=
  match v.numbers? with
  | some [x, y] => some ⟨x, y⟩
  | _ => none

end ShaderGraph
