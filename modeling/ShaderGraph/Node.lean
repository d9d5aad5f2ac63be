import ShaderGraph.NodeDefinition
import ShaderGraph.Uuid

/-!
# Nodes, pins and links

A node is an instance of a definition with its own pins and property values. A link joins an output
pin to an input pin; pins are addressed by their node and their identifier within it.

## Main definitions

* `PinRef` — the address of a pin
* `Link` — a directed edge between two pins
* `Pin`, `Node` — pins and nodes of a graph
* `NodeDefinition.instantiate` — a new node of a definition
* `Node.pin?`, `Node.modifyPin` — the pin with an identifier, inputs before outputs
-/

namespace ShaderGraph

/-- The address of a pin: a node and the identifier of the pin within it. -/
structure PinRef where
  node : NodeId
  pin : String
  deriving DecidableEq, Repr, Inhabited

/-- The text of a pin's address. -/
def PinRef.text (r : PinRef) : String := r.node.text ++ "." ++ r.pin

/-- A directed edge from an output pin to an input pin. -/
structure Link where
  id : LinkId
  /-- The producing output pin. -/
  source : PinRef
  /-- The consuming input pin. -/
  target : PinRef
  /-- The type of the output pin. -/
  type : PinType
  deriving DecidableEq, Repr, Inhabited

namespace Link

/-- Whether a link starts or ends at a node. -/
def touchesNode (l : Link) (n : NodeId) : Bool := l.source.node == n || l.target.node == n

/-- Whether a link starts or ends at a pin. -/
def touchesPin (l : Link) (p : PinRef) : Bool := l.source == p || l.target == p

end Link

/-- A pin of a node. -/
structure Pin where
  id : String
  name : String
  direction : PinDirection
  type : PinType
  /-- The value of the pin while it is not linked. -/
  default : Option Literal
  /-- The links at the pin, in the order in which they came. -/
  links : List LinkId
  deriving DecidableEq, Inhabited

namespace Pin

/-- A pin without links as it is declared. -/
def ofSpec (s : PinSpec) : Pin := ⟨s.id, s.name, s.direction, s.type, s.default, []⟩

/-- Whether a link is at the pin. -/
def isConnected (p : Pin) : Bool := !p.links.isEmpty

/-- Notes one more link at the pin. -/
def attach (p : Pin) (l : LinkId) : Pin := { p with links := p.links ++ [l] }

/-- Forgets a link. -/
def detach (p : Pin) (l : LinkId) : Pin := { p with links := p.links.filter (· != l) }

/-- Applies `f` to the first pin with the given identifier. -/
def modifyIn (id : String) (f : Pin → Pin) : List Pin → List Pin
  | [] => []
  | p :: ps => if p.id = id then f p :: ps else p :: modifyIn id f ps

end Pin

/-- The place of a node on the canvas. -/
structure Position where
  x : Float32
  y : Float32
  deriving DecidableEq, Inhabited

/-- A node of a graph. -/
structure Node where
  id : NodeId
  /-- The key of the definition that the node is an instance of. -/
  key : String
  title : String
  position : Position
  inputs : List Pin
  outputs : List Pin
  properties : Table String Literal
  deriving DecidableEq, Inhabited

/-- A new node of a definition, with all defaults and without links. -/
def NodeDefinition.instantiate (d : NodeDefinition) (id : NodeId) (position : Position) : Node where
  id
  key := d.key
  title := d.title
  position
  inputs := d.inputs.map Pin.ofSpec
  outputs := d.outputs.map Pin.ofSpec
  properties := d.properties

namespace Node

/-- The first input pin with the given identifier. -/
def input? (n : Node) (id : String) : Option Pin := n.inputs.find? (·.id == id)

/-- The first output pin with the given identifier. -/
def output? (n : Node) (id : String) : Option Pin := n.outputs.find? (·.id == id)

/-- The pin with the given identifier, inputs before outputs. -/
def pin? (n : Node) (id : String) : Option Pin := n.input? id <|> n.output? id

/-- All pins, inputs before outputs. -/
def pins (n : Node) : List Pin := n.inputs ++ n.outputs

/-- Applies `f` to the pin with the given identifier, inputs before outputs. -/
def modifyPin (n : Node) (id : String) (f : Pin → Pin) : Node :=
  if (n.input? id).isSome then { n with inputs := Pin.modifyIn id f n.inputs }
  else { n with outputs := Pin.modifyIn id f n.outputs }

/-- The number in a property. -/
def scalarProperty? (n : Node) (name : String) : Option Float32 :=
  (n.properties.get? name).bind Literal.scalar?

end Node

end ShaderGraph
