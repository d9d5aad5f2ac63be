import ShaderGraph.Registry
import ShaderGraph.Settings

/-!
# Material graphs

A graph holds nodes and links in the order in which they came, each filed under its identifier. A
link is noted three times: in the link table and at the two pins that it joins.

## Main definitions

* `Graph` — nodes, links, root and cycle policy over a registry
* `Graph.node?`, `Graph.link?`, `Graph.pin?` — what is filed under an identifier or an address
* `Graph.linkInto?`, `Graph.linksFrom`, `Graph.linksIntoNode` — the links at a place
-/

namespace ShaderGraph

/-- A graph of nodes made from the definitions of a registry. -/
structure Graph where
  name : String
  registry : Registry
  nodes : Table NodeId Node
  links : Table LinkId Link
  /-- The node that stands for the material; it cannot be removed. -/
  root : Option NodeId
  cyclePolicy : CyclePolicy
  deriving DecidableEq, Inhabited

namespace Graph

/-- The graph without nodes. -/
def empty (name : String) (registry : Registry) : Graph :=
  ⟨name, registry, ∅, ∅, none, .allow⟩

/-- The node with an identifier. -/
def node? (g : Graph) (n : NodeId) : Option Node := g.nodes.get? n

/-- Whether a node exists. -/
def hasNode (g : Graph) (n : NodeId) : Bool := g.nodes.contains n

/-- The link with an identifier. -/
def link? (g : Graph) (l : LinkId) : Option Link := g.links.get? l

/-- The pin at an address, inputs before outputs. -/
def pin? (g : Graph) (p : PinRef) : Option Pin := (g.node? p.node).bind (·.pin? p.pin)

/-- The definition of a node in the graph's own registry. -/
def definition? (g : Graph) (n : Node) : Option NodeDefinition := g.registry.get? n.key

/-- The value of a property of a node. -/
def property? (g : Graph) (n : NodeId) (name : String) : Option Literal :=
  (g.node? n).bind (·.properties.get? name)

/-- The first link into a pin. -/
def linkInto? (g : Graph) (p : PinRef) : Option Link := g.links.values.find? (·.target == p)

/-- The links that leave a pin. -/
def linksFrom (g : Graph) (p : PinRef) : List Link := g.links.values.filter (·.source == p)

/-- The links into any input of a node. -/
def linksIntoNode (g : Graph) (n : NodeId) : List Link :=
  g.links.values.filter (·.target.node == n)

end Graph

end ShaderGraph
