import ShaderGraph.Proofs.Evaluation.State
import ShaderGraph.Proofs.Graph.Refusal

/-!
# Evaluation without cuts

Evaluation cuts a cycle when it meets an input pin that it is still resolving. All those pins lie
downstream of the current node, by the links that the input pins list. If these lists are backed by
the link table and the table has no cycles, no pin is met again, however often a result is shared.

## Main definitions

* `Scope.Uncut` — no cycle was cut

## Main results

* `Evaluator.uncut_resolveInput` — resolving an input pin cuts no cycle
* `Refusing.acyclic_and_cyclesBroken_eq_zero` — nor does any evaluation of a graph that refused
  cycles all along
-/

namespace ShaderGraph

/-- No cycle was cut so far. -/
def Scope.Uncut (s : Scope) : Prop := s.trace.cyclesBroken = 0

namespace Evaluator

variable {ev : Evaluator} {g : Graph} {depth : Nat} {visited : List PinRef} {n : NodeId}
  {node : Node}

/-- Resolving an input pin cuts no cycle. The induction is on the depth; the pins in `visited` stay
downstream of the node as it moves upstream. -/
theorem uncut_resolveInput (h : g.Guarded) (hn : g.node? n = some node)
    (hdown : ∀ r ∈ visited, Relation.TransGen g.Feeds n r.node) (pin : String) :
    Yields Scope.Uncut (fun _ => True) (ev.resolveInput g depth visited node pin) := by
  induction depth generalizing visited n node pin with
  | zero => exact .pure trivial
  | succ depth ih =>
    obtain rfl := h.instantiated.node_id hn
    -- A pin met again would lie strictly downstream of its own node.
    have hnew : (⟨node.id, pin⟩ : PinRef) ∉ visited := fun hmem => h.acyclic _ (hdown _ hmem)
    rw [resolveInput, if_neg hnew]
    cases hp : node.input? pin with
    | none => exact .pure trivial
    | some p =>
      dsimp only
      cases hlinks : p.links with
      | nil => exact .pure trivial
      | cons l ls =>
        -- What the pin lists is a link from a producer that feeds the node.
        obtain ⟨link, hlink, htarget⟩ := h.backed
          ((Graph.input?_of_node? hn pin).trans hp) (hlinks ▸ List.mem_cons_self)
        have hfeeds : g.Feeds link.source.node node.id :=
          ⟨link, Table.mem_values_iff.mpr ⟨l, hlink⟩, rfl, by rw [htarget]⟩
        dsimp only
        rw [hlink]
        refine .get fun s _ => ?_
        cases s.memo.get? link.source with
        | some known => exact .modify (fun _ hs => hs) (.pure trivial)
        | none =>
          dsimp only
          cases hproducer : g.node? link.source.node with
          | none => exact .pure trivial
          | some producer =>
            have hdown' : ∀ r ∈ (⟨node.id, pin⟩ : PinRef) :: visited,
                Relation.TransGen g.Feeds link.source.node r.node := by
              intro r hr
              rcases List.mem_cons.mp hr with rfl | hr
              · exact .single hfeeds
              · exact .head hfeeds (hdown r hr)
            have hrun : Yields Scope.Uncut (fun _ => True) (ev.runNode producer link.source.pin
                (ev.resolveInput g depth (⟨node.id, pin⟩ :: visited) producer)) :=
              .modify (fun _ hs => hs) (.evaluateNode_trivial fun pin => ih hproducer hdown' pin)
            exact hrun.bind fun v _ => .modify (fun _ hs => hs) (.pure trivial)

/-- No evaluation of a guarded graph cuts a cycle. -/
theorem cyclesBroken_eq_zero (h : g.Guarded) (root : NodeId) :
    (ev.evaluateTraced g root).2.cyclesBroken = 0 := by
  rw [evaluateTraced]
  cases hn : g.node? root with
  | none => rfl
  | some node =>
    have hall : Yields Scope.Uncut (fun _ => True) (node.inputs.foldlM (ev.assignInput g node) ∅) :=
      yields_foldlM (fun p _ _ => uncut_resolveInput h hn (fun _ hr => by cases hr) p.id) ∅
    exact (hall Scope.empty rfl).2

end Evaluator

namespace Graph

variable {r : Registry} {g : Graph}

/-- A graph that refused cycles all along has none, and no evaluation of it cuts one, whatever the
evaluator and the root. -/
theorem Refusing.acyclic_and_cyclesBroken_eq_zero (h : Refusing r g) :
    g.Acyclic ∧ ∀ (ev : Evaluator) (root : NodeId),
      (ev.evaluateTraced g root).2.cyclesBroken = 0 :=
  ⟨h.guarded.acyclic, fun _ root => Evaluator.cyclesBroken_eq_zero h.guarded root⟩

theorem Strict.refusing (h : Strict r g) : Refusing r g := ⟨g, h, .refl⟩

theorem Refusing.apply {e : Edit} (h : Refusing r g) (hfresh : e.IsFresh g)
    (hallow : e ≠ .setPolicy .allow) : Refusing r (g.apply e) := by
  obtain ⟨g₀, hstrict, hsteps⟩ := h
  exact ⟨g₀, hstrict, hsteps.tail ⟨e, hfresh, hallow, rfl⟩⟩

/-- Two bends behind each other, in a graph that refuses cycles. -/
def straightWire : Graph :=
  (((Graph.ofSettings "straight wire" .material
    { GraphSettings.standard with cyclePolicy := .reject } ⟨⟨0⟩⟩).apply
    (.addNode "Reroute" ⟨0, 0⟩ ⟨⟨1⟩⟩)).apply (.addNode "Reroute" ⟨1, 0⟩ ⟨⟨2⟩⟩)).apply
    (.connect ⟨⟨⟨1⟩⟩, "Output"⟩ ⟨⟨⟨2⟩⟩, "Input"⟩ ⟨⟨3⟩⟩)

theorem refusing_straightWire : Refusing .material straightWire :=
  (((Strict.ofSettings "straight wire" ⟨⟨0⟩⟩ rfl).refusing.apply (by decide) (by nofun)).apply
    (by decide) (by nofun)).apply (by decide) (by nofun)

/-- The link back is refused. -/
theorem acyclic_and_cyclesBroken_eq_zero_straightWire : Refusing .material straightWire ∧
    straightWire.links.keys = [⟨⟨3⟩⟩] ∧
    straightWire.connect ⟨⟨⟨2⟩⟩, "Output"⟩ ⟨⟨⟨1⟩⟩, "Input"⟩ ⟨⟨4⟩⟩ = .error .wouldCreateCycle ∧
    straightWire.Acyclic ∧ ∀ (ev : Evaluator) (root : NodeId),
      (ev.evaluateTraced straightWire root).2.cyclesBroken = 0 :=
  ⟨refusing_straightWire, by decide, by decide,
    Refusing.acyclic_and_cyclesBroken_eq_zero refusing_straightWire⟩

end Graph

end ShaderGraph
