import ShaderGraph.Graph.Basic

/-!
# What a node depends on

Two walks against the direction of the links: one asks whether a node depends on another, the other
lists everything that a node depends on, producers before consumers.

## Main definitions

* `Graph.dependsOn` — whether a node is another one or consumes it, directly or not
* `Graph.dependencyOrder` — the nodes that a node depends on, each after those it consumes
-/

namespace ShaderGraph.Graph

/-- The nodes whose outputs are linked to a node, as the link table tells. -/
def producers (g : Graph) (n : NodeId) : List NodeId :=
  (g.linksIntoNode n).map (·.source.node)

/-- Whether `goal` is met on a walk against the links, given the nodes still to be visited and
those already seen. -/
def meets (g : Graph) (goal : NodeId) : (fuel : Nat) → (stack seen : List NodeId) → Bool
  | 0, _, _ => false
  | _ + 1, [], _ => false
  | fuel + 1, n :: stack, seen =>
    if n = goal then true
    else if n ∈ seen then g.meets goal fuel stack seen
    else g.meets goal fuel (g.producers n ++ stack) (n :: seen)

/-- Whether a node is `producer` or consumes its output, directly or not. A walk visits the node
itself and follows every link at most once, which bounds it. -/
def dependsOn (g : Graph) (n producer : NodeId) : Bool :=
  g.meets producer (g.links.size + 1) [n] []

/-- The nodes whose outputs are linked to a node, as its input pins tell, in declared order. -/
def feeding (g : Graph) (n : Node) : List NodeId :=
  (n.inputs.flatMap Pin.links).filterMap fun l => (g.link? l).map (·.source.node)

/-- A walk against the links: the nodes entered and the nodes finished, in order. -/
structure Walk where
  entered : List NodeId
  finished : List NodeId

/-- Continues a walk with a node: first with the nodes that feed it, then with the node itself. A
node is entered once. -/
def visit (g : Graph) : (depth : Nat) → Walk → NodeId → Walk
  | 0, w, _ => w
  | depth + 1, w, n =>
    if n ∈ w.entered then w
    else match g.node? n with
      | none => { w with entered := n :: w.entered }
      | some node =>
        let w := (g.feeding node).foldl (g.visit depth) { w with entered := n :: w.entered }
        { w with finished := w.finished ++ [n] }

/-- The nodes that `root` depends on, each after those it consumes, `root` last; a cycle is cut
where it enters a node again. No walk is deeper than the number of nodes and one step out. -/
def dependencyOrder (g : Graph) (root : NodeId) : List NodeId :=
  if g.hasNode root then (g.visit (g.nodes.size + 1) ⟨[], []⟩ root).finished else []

end ShaderGraph.Graph
