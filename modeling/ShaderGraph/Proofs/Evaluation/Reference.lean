import ShaderGraph.Evaluation.Scope
import ShaderGraph.Proofs.Graph.Acyclic
import ShaderGraph.Proofs.Graph.Agreement

/-!
# Evaluation by plain recursion

In a graph without cycles, what an output pin evaluates to can be said by recursion against the
links: nothing is remembered, and no cycle has to be cut. An input pin yields what the producer of
the link in the table yields, or else its default.

## Main definitions

* `Graph.inputValue` — what an input pin yields, given what output pins yield
* `Evaluator.reference` — what an output pin yields
* `Evaluator.referenceMaterial` — the material at a node

## Main results

* `Evaluator.reference_eq` — the recursion as an equation
* `Graph.Agrees.inputValue_of_mem` — an input pin yields what is linked to it
-/

namespace ShaderGraph

namespace Graph

/-- What an input pin of a node yields if output pins yield `value`: that of the producer if some
link leads into the pin, the value of the default otherwise. -/
def inputValue (g : Graph) (value : PinRef → Option Evaluated) (n : NodeId) (pin : String) :
    Option Evaluated :=
  match g.input? ⟨n, pin⟩ with
  | none => none
  | some p => match g.linkInto? ⟨n, pin⟩ with
    | none => p.defaultValue?
    | some link => value link.source

variable {g : Graph} {r : PinRef} {p : Pin} {l : LinkId} {link : Link} {n : NodeId} {node : Node}

theorem feeds_of_linkInto? (h : g.linkInto? r = some link) : g.Feeds link.source.node r.node := by
  obtain ⟨hmem, htarget⟩ := mem_of_linkInto? h
  exact ⟨link, hmem, rfl, by rw [htarget]⟩

/-- An input pin to which something is linked yields what is linked to it. -/
theorem Agrees.inputValue_of_mem (h : g.Agrees) (hmem : link ∈ g.links.values)
    (htarget : link.target = r) (value : PinRef → Option Evaluated) :
    g.inputValue value r.node r.pin = value link.source := by
  obtain ⟨p, hp⟩ := h.target ((mem_values_links h.link_id).mp hmem)
  rw [inputValue, ← htarget, hp, h.linkInto?_eq_some_iff.mpr ⟨hmem, rfl⟩]

end Graph

namespace Evaluator

/-- What an output pin yields, by recursion against the links. -/
def reference (ev : Evaluator) (g : Graph) (h : g.Acyclic) (r : PinRef) : Option Evaluated :=
  match g.node? r.node with
  | none => none
  | some node => ev.evaluateNode (m := Id) node r.pin fun pin =>
    match g.input? ⟨r.node, pin⟩ with
    | none => none
    | some p => match hl : g.linkInto? ⟨r.node, pin⟩ with
      | none => p.defaultValue?
      | some link =>
        have : g.Feeds link.source.node r.node := (Graph.feeds_of_linkInto? hl :)
        ev.reference g h link.source
termination_by h.wellFounded.wrap r.node
decreasing_by assumption

/-- Assigns what an input pin yields to the channel that its name mentions. -/
def assignValue (ev : Evaluator) (a : MaterialAttributes) (p : Pin) (v : Option Evaluated) :
    MaterialAttributes :=
  match Channel.ofPinName? p.name with
  | none => a
  | some c => match v with
    | some e => a.assign c e ev.settings.pendingColor
    | none => a

/-- The material at a node: what its input pins yield, assigned in declared order. -/
def referenceMaterial (ev : Evaluator) (g : Graph) (h : g.Acyclic) (root : NodeId) :
    MaterialAttributes :=
  match g.node? root with
  | none => ∅
  | some node => node.inputs.foldl (fun a p =>
    ev.assignValue a p (g.inputValue (ev.reference g h) root p.id)) ∅

variable {ev : Evaluator} {g : Graph} {h : g.Acyclic} {r : PinRef} {node : Node}

theorem reference_eq_none (hn : g.node? r.node = none) : ev.reference g h r = none := by
  rw [reference, hn]

theorem reference_eq (hn : g.node? r.node = some node) :
    ev.reference g h r =
      ev.evaluateNode (m := Id) node r.pin (g.inputValue (ev.reference g h) r.node) := by
  rw [reference, hn]
  refine congrArg (ev.evaluateNode (m := Id) node r.pin) (funext fun pin => ?_)
  rw [Graph.inputValue]
  cases g.input? ⟨r.node, pin⟩ with
  | none => rfl
  | some p =>
    -- The recursion looks at the link once more to see that it descends.
    dsimp only
    split <;> simp_all

end Evaluator

end ShaderGraph
