import ShaderGraph.Graph.Edit

/-!
# Documents

A document is what is kept of a graph: for each node its definition, position and properties and
the pin defaults that differ from the declared ones, for each link its two ends. Everything else is
made anew from a registry when the document is loaded. Records that no longer fit are left out.

## Main definitions

* `NodeRecord`, `LinkRecord`, `GraphDocument` — a graph as it is saved
* `Graph.toDocument` — the document of a graph
* `GraphDocument.toGraph` — the graph of a document under a registry and settings
-/

namespace ShaderGraph

/-- What is kept of a node. -/
structure NodeRecord where
  id : NodeId
  key : String
  position : Position
  properties : Table String Literal
  /-- The pin defaults that differ from the declared ones. -/
  pinDefaults : Table String (Option Literal)
  deriving DecidableEq, Inhabited

/-- What is kept of a link. -/
structure LinkRecord where
  id : LinkId
  source : PinRef
  target : PinRef
  deriving DecidableEq, Inhabited

/-- What is kept of a graph. -/
structure GraphDocument where
  /-- The version of the format in which the document is saved. -/
  version : UInt32
  name : String
  root : Option NodeId
  nodes : List NodeRecord
  links : List LinkRecord
  deriving DecidableEq, Inhabited

/-- The latest version of the format in which documents are saved. -/
def GraphDocument.formatVersion : UInt32 := 1

/-- Whether two defaults are equal as numbers. -/
def defaultsAgree : Option Literal → Option Literal → Bool
  | none, none => true
  | some a, some b => a.agrees b
  | _, _ => false

/-- Whether a pin's default is the one that its definition declares. -/
def hasDeclaredDefault (d : Option NodeDefinition) (p : Pin) : Bool :=
  defaultsAgree ((d.bind (·.pinSpec? p.id)).bind (·.default)) p.default

/-- What is kept of a node whose definition, if known, is `d`. -/
def Node.toRecord (n : Node) (d : Option NodeDefinition) : NodeRecord where
  id := n.id
  key := n.key
  position := n.position
  properties := n.properties
  pinDefaults :=
    .ofList ((n.pins.filter fun p => !hasDeclaredDefault d p).map fun p => (p.id, p.default))

/-- What is kept of a link. -/
def Link.toRecord (l : Link) : LinkRecord := ⟨l.id, l.source, l.target⟩

/-- The document of a graph. -/
def Graph.toDocument (g : Graph) : GraphDocument where
  version := GraphDocument.formatVersion
  name := g.name
  root := g.root
  nodes := g.nodes.values.map fun n => n.toRecord (g.definition? n)
  links := g.links.values.map Link.toRecord

namespace NodeRecord

/-- A node with the property values and pin defaults of a record, as far as the node has them. -/
def applyTo (r : NodeRecord) (n : Node) : Node :=
  let n := r.properties.entries.foldl
    (fun n e => { n with properties := n.properties.modify e.1 fun _ => e.2 }) n
  r.pinDefaults.entries.foldl
    (fun n e => n.modifyPin e.1 fun p => { p with default := e.2 }) n

/-- The node of a record; none if its definition is unknown or allows no further node. -/
def load? (g : Graph) (r : NodeRecord) : Option Node :=
  if g.isTaken r.key then none
  else (g.registry.createInstance? r.key r.id r.position).map r.applyTo

end NodeRecord

namespace Graph

/-- Adds the node of a record, if it fits. -/
def loadNode (g : Graph) (r : NodeRecord) : Graph :=
  match r.load? g with
  | some n => g.insertNode n
  | none => g

/-- Makes a node the root, if there is one and it exists. -/
def loadRoot (g : Graph) (root : Option NodeId) : Graph :=
  match root with
  | some n => if g.hasNode n then { g with root := some n } else g
  | none => g

/-- Adds the link of a record, if it fits. -/
def loadLink (g : Graph) (r : LinkRecord) : Graph :=
  match g.connect r.source r.target r.id with
  | .ok g => g
  | .error _ => g

end Graph

/-- The graph of a document. The settings' cycle policy holds before the first link is restored. -/
def GraphDocument.toGraph (d : GraphDocument) (registry : Registry) (settings : GraphSettings) :
    Graph :=
  let g := { Graph.empty d.name registry with cyclePolicy := settings.cyclePolicy }
  d.links.foldl Graph.loadLink ((d.nodes.foldl Graph.loadNode g).loadRoot d.root)

end ShaderGraph
