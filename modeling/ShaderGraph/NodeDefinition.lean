import ShaderGraph.Arithmetic
import ShaderGraph.Table
import ShaderGraph.Template

/-!
# Node definitions

A node definition describes a kind of node: its pins, its properties with their defaults, the
template of its shader code and the rule by which its outputs are evaluated.

## Main definitions

* `PinSpec` — a declared pin
* `EvaluationRule` — how the outputs of a node are evaluated
* `NodeDefinition` — the description of a kind of node
* `NodeDefinition.unresolvedPlaceholders` — the placeholders of the template that mean nothing
-/

namespace ShaderGraph

/-- What a node is for. -/
inductive NodeKind where
  /-- The terminal of a material. -/
  | output
  | expression
  /-- A value exposed to the user. -/
  | parameter
  | substrateExpression
  /-- An annotation without meaning. -/
  | comment
  /-- A bend in a wire. -/
  | reroute
  deriving DecidableEq, Repr, Inhabited

/-- How the outputs of a node are evaluated. -/
inductive EvaluationRule where
  /-- The number in a property. -/
  | scalarProperty (name : String)
  /-- The vector of the numbers in several properties. -/
  | vectorProperties (names : List String)
  /-- A binary operation on the inputs `A` and `B`. -/
  | binary (op : BinaryOperation)
  /-- A unary function of the input `Input`. -/
  | unary (f : UnaryFunction)
  /-- Interpolation between `A` and `B` at `Alpha`. -/
  | lerp
  /-- `Input` between `Min` and `Max`. -/
  | clamp
  /-- The components of `A` and `B` side by side. -/
  | append
  /-- The texture named by the property `Texture`. -/
  | textureSample
  /-- The input with the given identifier, unchanged. -/
  | passthrough (pin : String)
  /-- The properties `R`, `G`, `B` as a colour, or the property `Value`. -/
  | generic
  deriving DecidableEq, Repr, Inhabited

/-- A declared pin. -/
structure PinSpec where
  /-- Tells the pin from the others of its node. -/
  id : String
  /-- The name shown to the user. -/
  name : String
  direction : PinDirection
  type : PinType
  /-- The value of the pin while it is not linked. -/
  default : Option Literal
  /-- The tag that has to be active for the pin to be shown. -/
  visibleWhen : Option String
  deriving DecidableEq, Inhabited

/-- Whether a pin is shown while the given tags are active; the case of ASCII letters does not
matter. -/
def PinSpec.isVisibleWith (p : PinSpec) (activeTags : List String) : Bool :=
  match p.visibleWhen with
  | none => true
  | some tag => activeTags.any (Text.equalsIgnoringAsciiCase · tag)

/-- The description of a kind of node. -/
structure NodeDefinition where
  /-- The name by which nodes refer to the definition. -/
  key : String
  /-- The name shown to the user. -/
  title : String
  /-- A path whose levels are separated by `|`. -/
  category : String
  kind : NodeKind
  pins : List PinSpec
  /-- The editable properties with their defaults. -/
  properties : Table String Literal
  /-- The shader code, with placeholders for pins and properties. -/
  template : String
  rule : EvaluationRule
  /-- Further words by which the definition is found. -/
  keywords : String
  hotkey : Option Char
  /-- Whether a graph holds at most one such node. -/
  singleton : Bool
  deriving DecidableEq, Inhabited

/-- The placeholder for the result of the node itself. -/
def Template.outputName : String := "OUTPUT"

namespace NodeDefinition

/-- The first declared pin with the given identifier. -/
def pinSpec? (d : NodeDefinition) (id : String) : Option PinSpec := d.pins.find? (·.id == id)

/-- The input pins in declared order. -/
def inputs (d : NodeDefinition) : List PinSpec := d.pins.filter (·.direction == .input)

/-- The output pins in declared order. -/
def outputs (d : NodeDefinition) : List PinSpec := d.pins.filter (·.direction == .output)

/-- Whether a placeholder stands for the result, a pin or a property. -/
def resolves (d : NodeDefinition) (placeholder : String) : Bool :=
  placeholder == Template.outputName || (d.pinSpec? placeholder).isSome ||
    d.properties.contains placeholder

/-- The placeholders of the template that stand for nothing, in order, with repetitions. -/
def unresolvedPlaceholders (d : NodeDefinition) : List String :=
  (Template.placeholders d.template).filter fun p => !d.resolves p

end NodeDefinition

end ShaderGraph
