import ShaderGraph.Graph.Dependency

/-!
# Edits of a graph

Every edit is a function from graphs to graphs; those that can be refused say why. New identifiers
are supplied by the caller.

## Main definitions

* `Graph.withRoot`, `Graph.ofSettings` — graphs that begin with a root node
* `Graph.addNode?`, `Graph.removeNode` — nodes come and go
* `Graph.connect`, `Graph.disconnect`, `Graph.breakPin` — links come and go
* `Graph.setRoot`, `Graph.setPosition`, `Graph.setProperty`, `Graph.setDefault`, `Graph.setPolicy`
* `ConnectError`, `EditError` — why an edit was refused
-/

namespace ShaderGraph

/-- Why two pins were not linked. -/
inductive ConnectError where
  | nodeNotFound (n : NodeId)
  | pinNotFound (p : PinRef)
  /-- Both pins are inputs or both are outputs. -/
  | sameDirection
  | incompatibleTypes (output input : PinType)
  /-- The link would close a cycle and cycles are refused. -/
  | wouldCreateCycle
  deriving DecidableEq, Repr

/-- The message about a refused link. -/
def ConnectError.message : ConnectError → String
  | nodeNotFound n => "Node not found: " ++ n.text
  | pinNotFound p => "Pin not found: " ++ p.text
  | sameDirection => "Cannot connect two pins of the same direction"
  | incompatibleTypes output input =>
    "Incompatible types: " ++ output.name ++ " -> " ++ input.name
  | wouldCreateCycle => "Connection would create a cycle"

/-- Why a node was not changed. -/
inductive EditError where
  | nodeNotFound (n : NodeId)
  /-- The root cannot be removed. -/
  | protectedNode (n : NodeId)
  deriving DecidableEq, Repr

/-- The message about a refused edit of a node. -/
def EditError.message : EditError → String
  | nodeNotFound n => "Node not found: " ++ n.text
  | protectedNode n => "Node " ++ n.text ++ " is the material output and cannot be deleted"

namespace Graph

/-- Puts a node into the graph, in place of one with the same identifier. -/
def insertNode (g : Graph) (n : Node) : Graph := { g with nodes := g.nodes.insert n.id n }

/-- Whether a node of a singleton definition is already there. -/
def isTaken (g : Graph) (key : String) : Bool :=
  (g.registry.get? key).any (·.singleton) && g.nodes.values.any (·.key == key)

/-- Adds a new node of a definition; none if the key is unknown or the definition allows no
further node. -/
def addNode? (g : Graph) (key : String) (position : Position) (id : NodeId) : Option Graph :=
  if g.isTaken key then none
  else (g.registry.createInstance? key id position).map g.insertNode

/-- A graph with a root node of the given definition, if there is such a definition. -/
def withRoot (name : String) (registry : Registry) (key : String) (id : NodeId) : Graph :=
  let g := empty name registry
  match g.addNode? key ⟨0, 0⟩ id with
  | some g => { g with root := some id }
  | none => g

/-- A graph with root and cycle policy as the settings ask. -/
def ofSettings (name : String) (registry : Registry) (settings : GraphSettings) (id : NodeId) :
    Graph :=
  { withRoot name registry settings.rootDefinition id with cyclePolicy := settings.cyclePolicy }

/-- Applies `f` to a node. -/
def modifyNode (g : Graph) (n : NodeId) (f : Node → Node) : Graph :=
  { g with nodes := g.nodes.modify n f }

/-- Applies `f` to a pin. -/
def modifyPin (g : Graph) (p : PinRef) (f : Pin → Pin) : Graph :=
  g.modifyNode p.node (·.modifyPin p.pin f)

/-- Removes a link from the table and from the pins at its ends; an unknown link is no change. -/
def disconnect (g : Graph) (l : LinkId) : Graph :=
  match g.link? l with
  | none => g
  | some link =>
    let g := { g with links := g.links.erase l }
    (g.modifyPin link.source (·.detach l)).modifyPin link.target (·.detach l)

/-- Removes several links in order. -/
def disconnectAll (g : Graph) (ls : List LinkId) : Graph := ls.foldl disconnect g

/-- The links noted at a pin. -/
def linksAt (g : Graph) (p : PinRef) : List LinkId :=
  match g.pin? p with
  | some pin => pin.links
  | none => []

/-- Removes every link at a pin. -/
def breakPin (g : Graph) (p : PinRef) : Graph := g.disconnectAll (g.linksAt p)

/-- How many links `breakPin` removes. -/
def breakCount (g : Graph) (p : PinRef) : Nat := g.links.size - (g.breakPin p).links.size

/-- The pin at an address, or which part of the address is unknown. -/
def findPin (g : Graph) (p : PinRef) : Except ConnectError Pin :=
  match g.node? p.node with
  | none => .error (.nodeNotFound p.node)
  | some node =>
    match node.pin? p.pin with
    | none => .error (.pinNotFound p)
    | some pin => .ok pin

/-- Notes a link in the table and at both of its pins. -/
def insertLink (g : Graph) (link : Link) : Graph :=
  let g := (g.modifyPin link.source (·.attach link.id)).modifyPin link.target (·.attach link.id)
  { g with links := g.links.insert link.id link }

/-- The output and the input among two pins, given in either order. -/
def orient (a b : PinRef) (pinA pinB : Pin) : Option ((PinRef × PinType) × (PinRef × PinType)) :=
  match pinA.direction, pinB.direction with
  | .output, .input => some ((a, pinA.type), (b, pinB.type))
  | .input, .output => some ((b, pinB.type), (a, pinA.type))
  | _, _ => none

/-- Links two pins, given in either order, under a new identifier. What was linked to the input
before is removed. -/
def connect (g : Graph) (a b : PinRef) (id : LinkId) : Except ConnectError Graph := do
  let pinA ← g.findPin a
  let pinB ← g.findPin b
  match orient a b pinA pinB with
  | none => .error .sameDirection
  | some ((source, output), (target, input)) =>
    if !g.registry.compatibility.canConnect output input then
      .error (.incompatibleTypes output input)
    else if g.cyclePolicy == .reject && g.dependsOn source.node target.node then
      .error .wouldCreateCycle
    else
      .ok ((g.breakPin target).insertLink ⟨id, source, target, output⟩)

/-- Removes a node together with every link that touches it. -/
def removeNode (g : Graph) (n : NodeId) : Except EditError Graph :=
  if g.root = some n then .error (.protectedNode n)
  else if !g.hasNode n then .error (.nodeNotFound n)
  else
    let attached := (g.links.values.filter (·.touchesNode n)).map (·.id)
    let g := g.disconnectAll attached
    .ok { g with nodes := g.nodes.erase n }

/-- Makes an existing node the root. -/
def setRoot (g : Graph) (n : NodeId) : Except EditError Graph :=
  if g.hasNode n then .ok { g with root := some n } else .error (.nodeNotFound n)

/-- Moves a node, if it exists. -/
def setPosition (g : Graph) (n : NodeId) (position : Position) : Graph :=
  g.modifyNode n fun node => { node with position }

/-- Replaces the value of a property that the node has. -/
def setProperty (g : Graph) (n : NodeId) (name : String) (value : Literal) : Graph :=
  g.modifyNode n fun node => { node with properties := node.properties.modify name fun _ => value }

/-- Sets or clears the default of a pin, if it exists. -/
def setDefault (g : Graph) (p : PinRef) (value : Option Literal) : Graph :=
  g.modifyPin p fun pin => { pin with default := value }

/-- Decides whether links may close cycles from now on. -/
def setPolicy (g : Graph) (policy : CyclePolicy) : Graph := { g with cyclePolicy := policy }

end Graph

end ShaderGraph
