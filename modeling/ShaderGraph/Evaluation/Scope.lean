import ShaderGraph.Evaluation.Rule

/-!
# Evaluation of a graph

A material is evaluated from its root against the direction of the links. What an output pin
evaluates to is remembered, so that it is computed once for all its consumers, and an input pin
that is met again while it is being resolved counts as absent, which cuts cycles.

## Main definitions

* `Trace` — how often rules ran, results were remembered and cycles were cut
* `Scope` — the memory and the trace of one evaluation
* `Evaluator.resolveInput` — what an input pin evaluates to
* `Evaluator.evaluateTraced`, `Evaluator.evaluate`, `Evaluator.evaluateRoot` — a whole material
* `Evaluator.evaluatePin` — a single output pin
-/

namespace ShaderGraph

/-- What happened during one evaluation. -/
structure Trace where
  /-- How often the rule of each node ran. -/
  evaluations : Table NodeId Nat
  /-- How often a remembered result was used. -/
  memoHits : Nat
  /-- How often a pin was met again while it was being resolved. -/
  cyclesBroken : Nat
  deriving DecidableEq, Inhabited

namespace Trace

/-- Nothing happened yet. -/
def empty : Trace := ⟨∅, 0, 0⟩

/-- How often the rule of a node ran. -/
def evaluationsOf (t : Trace) (n : NodeId) : Nat := (t.evaluations.get? n).getD 0

/-- Notes that the rule of a node runs. -/
def noteEvaluation (t : Trace) (n : NodeId) : Trace :=
  { t with evaluations := t.evaluations.insert n (t.evaluationsOf n + 1) }

/-- Notes that a remembered result is used. -/
def noteHit (t : Trace) : Trace := { t with memoHits := t.memoHits + 1 }

/-- Notes that a cycle is cut. -/
def noteCycle (t : Trace) : Trace := { t with cyclesBroken := t.cyclesBroken + 1 }

end Trace

/-- The memory and the trace of one evaluation. -/
structure Scope where
  /-- What the output pins evaluated so far have yielded. -/
  memo : Table PinRef (Option Evaluated)
  trace : Trace
  deriving Inhabited

namespace Scope

/-- Nothing evaluated yet. -/
def empty : Scope := ⟨∅, .empty⟩

/-- Changes the trace. -/
def mapTrace (f : Trace → Trace) (s : Scope) : Scope := { s with trace := f s.trace }

/-- Remembers what an output pin evaluates to. -/
def remember (p : PinRef) (v : Option Evaluated) (s : Scope) : Scope :=
  { s with memo := s.memo.insert p v }

end Scope

/-- The number of input pins in a graph. -/
def Graph.inputCount (g : Graph) : Nat := (g.nodes.values.flatMap (·.inputs)).length

/-- What an unlinked pin evaluates to: the value of its default. -/
def Pin.defaultValue? (p : Pin) : Option Evaluated :=
  (p.default.bind Literal.value?).map .resolved

namespace Evaluator

/-- Notes that the rule of a node runs, and runs it. -/
def runNode (ev : Evaluator) (n : Node) (output : String)
    (read : String → StateM Scope (Option Evaluated)) : StateM Scope (Option Evaluated) := do
  modify (Scope.mapTrace (·.noteEvaluation n.id))
  ev.evaluateNode n output read

/-- What an input pin of a node evaluates to: the value of its default if nothing is linked to it,
otherwise what the producer at the other end yields. `visited` holds the input pins that are being
resolved further out; `depth` bounds how many more can be entered. -/
def resolveInput (ev : Evaluator) (g : Graph) :
    (depth : Nat) → (visited : List PinRef) → Node → String → StateM Scope (Option Evaluated)
  | 0, _, _, _ => pure none
  | depth + 1, visited, n, pin => do
    if (⟨n.id, pin⟩ : PinRef) ∈ visited then
      modify (Scope.mapTrace Trace.noteCycle)
      pure none
    else match n.input? pin with
      | none => pure none
      | some p => match p.links with
        | [] => pure p.defaultValue?
        | l :: _ => match g.link? l with
          | none => pure none
          | some link => do
            match (← get).memo.get? link.source with
            | some known =>
              modify (Scope.mapTrace Trace.noteHit)
              pure known
            | none => match g.node? link.source.node with
              | none => pure none
              | some producer => do
                let v ← ev.runNode producer link.source.pin
                  (ev.resolveInput g depth (⟨n.id, pin⟩ :: visited) producer)
                modify (Scope.remember link.source v)
                pure v

/-- A depth that no evaluation exhausts: every input pin entered was not entered before. -/
def depthBound (g : Graph) : Nat := g.inputCount + 1

/-- Evaluates one input pin of the root into the channel that its name mentions. -/
def assignInput (ev : Evaluator) (g : Graph) (root : Node) (a : MaterialAttributes) (p : Pin) :
    StateM Scope MaterialAttributes :=
  match Channel.ofPinName? p.name with
  | none => pure a
  | some c => do
    match ← ev.resolveInput g (depthBound g) [] root p.id with
    | some e => pure (a.assign c e ev.settings.pendingColor)
    | none => pure a

/-- The material at a node, and what happened while it was evaluated. -/
def evaluateTraced (ev : Evaluator) (g : Graph) (root : NodeId) : MaterialAttributes × Trace :=
  match g.node? root with
  | none => (∅, .empty)
  | some n =>
    let (a, s) := (n.inputs.foldlM (ev.assignInput g n) ∅).run Scope.empty
    (a, s.trace)

/-- The material at a node. -/
def evaluate (ev : Evaluator) (g : Graph) (root : NodeId) : MaterialAttributes :=
  (ev.evaluateTraced g root).1

/-- The material at the root of a graph. -/
def evaluateRoot (ev : Evaluator) (g : Graph) : MaterialAttributes :=
  match g.root with
  | some root => ev.evaluate g root
  | none => ∅

/-- What a single output pin evaluates to. -/
def evaluatePin (ev : Evaluator) (g : Graph) (p : PinRef) : Option Evaluated :=
  match g.node? p.node with
  | none => none
  | some n => ((ev.runNode n p.pin (ev.resolveInput g (depthBound g) [] n)).run Scope.empty).1

end Evaluator

end ShaderGraph
