import ShaderGraph.Proofs.Evaluation.Reference

/-!
# One step of evaluation

Resolving an input pin in a graph that agrees comes down to one of three things: the pin is being
resolved already and the cycle is cut, the pin yields its default at once, or the pin follows its
link to a producer, whose output pin is recalled from memory or evaluated and remembered. Also, the
pins that are being resolved leave enough depth for all others, so that the depth never shows.

## Main definitions

* `Graph.Nesting` — the input pins that are being resolved leave depth for all others
* `Graph.Follows` — an input pin follows a link to its producer
* `Evaluator.memoized` — an output pin is recalled, or evaluated and remembered

## Main results

* `Nesting.depth_ne_zero`, `Nesting.cons` — there is always depth left for a further pin
* `Evaluator.resolveInput_cases` — what resolving an input pin comes down to
-/

namespace ShaderGraph

/-! ### Depth -/

namespace Graph

/-- The addresses of all input pins. -/
def inputRefs (g : Graph) : List PinRef :=
  g.nodes.values.flatMap fun n => n.inputs.map fun p => ⟨n.id, p.id⟩

/-- The input pins that are being resolved are distinct, and the depth that is left suffices for all
others. -/
structure Nesting (g : Graph) (depth : Nat) (visited : List PinRef) : Prop where
  nodup : visited.Nodup
  subset : visited ⊆ g.inputRefs
  bound : g.inputCount < depth + visited.length

variable {g : Graph} {depth : Nat} {visited : List PinRef} {r : PinRef} {n : NodeId} {node : Node}

theorem length_inputRefs : g.inputRefs.length = g.inputCount := by
  simp [inputRefs, inputCount, List.length_flatMap]

theorem mem_inputRefs {p : Pin} {pin : String} (hn : g.node? n = some node)
    (hp : node.input? pin = some p) : (⟨node.id, pin⟩ : PinRef) ∈ g.inputRefs := by
  obtain rfl : p.id = pin := by simpa using List.find?_some hp
  refine List.mem_flatMap.mpr ⟨node, Table.mem_values_iff.mpr ⟨n, hn⟩, ?_⟩
  exact List.mem_map.mpr ⟨p, List.mem_of_find?_eq_some hp, rfl⟩

theorem Nesting.nil : Nesting g (Evaluator.depthBound g) [] :=
  ⟨List.nodup_nil, List.nil_subset _, Nat.lt_succ_self _⟩

theorem Nesting.depth_ne_zero (h : g.Nesting depth visited) : depth ≠ 0 := by
  -- Distinct input pins cannot be more than there are.
  have hlength := (List.subperm_of_subset h.nodup h.subset).length_le
  have hbound := h.bound
  rw [length_inputRefs] at hlength
  omega

theorem Nesting.cons (h : g.Nesting (depth + 1) visited) (hnew : r ∉ visited)
    (hr : r ∈ g.inputRefs) : g.Nesting depth (r :: visited) where
  nodup := List.nodup_cons.mpr ⟨hnew, h.nodup⟩
  subset := List.cons_subset.mpr ⟨hr, h.subset⟩
  bound := by
    have hbound := h.bound
    rw [List.length_cons]
    omega

/-- An input pin follows the link into it to a producer, whose output pin it yields. -/
structure Follows (g : Graph) (r : PinRef) (link : Link) (producer : Node) : Prop where
  into : g.linkInto? r = some link
  node : g.node? link.source.node = some producer
  input : r ∈ g.inputRefs
  inputValue : ∀ value, g.inputValue value r.node r.pin = value link.source

variable {link : Link} {producer : Node}

theorem Follows.feeds (h : g.Follows r link producer) : g.Feeds link.source.node r.node :=
  feeds_of_linkInto? h.into

/-- The producer feeds the node of the pin, hence everything downstream of the node. -/
theorem Follows.downstream (h : g.Follows r link producer)
    (hdown : ∀ r' ∈ visited, Relation.TransGen g.Feeds r.node r'.node) :
    ∀ r' ∈ r :: visited, Relation.TransGen g.Feeds link.source.node r'.node := by
  intro r' hr'
  rcases List.mem_cons.mp hr' with rfl | hr'
  · exact .single h.feeds
  · exact .head h.feeds (hdown r' hr')

end Graph

namespace Evaluator

/-! ### Memory -/

/-- Uses what is remembered of an output pin, or else computes it and remembers it. -/
def memoized (r : PinRef) (x : StateM Scope (Option Evaluated)) :
    StateM Scope (Option Evaluated) := do
  match (← get).memo.get? r with
  | some known =>
    modify (Scope.mapTrace Trace.noteHit)
    pure known
  | none =>
    let v ← x
    modify (Scope.remember r v)
    pure v

variable {ev : Evaluator} {g : Graph} {depth : Nat} {visited : List PinRef} {n : NodeId}
  {node : Node} {r : PinRef} {x : StateM Scope (Option Evaluated)} {s : Scope} {pin : String}

theorem run_memoized : (memoized r x).run s =
    match s.memo.get? r with
    | some known => (known, s.mapTrace Trace.noteHit)
    | none => ((x.run s).1, (x.run s).2.remember r (x.run s).1) := by
  have hrun : (memoized r x).run s = (match s.memo.get? r with
    | some known => (do modify (Scope.mapTrace Trace.noteHit); pure known)
    | none => (do let v ← x; modify (Scope.remember r v); pure v) :
      StateM Scope (Option Evaluated)).run s := rfl
  rw [hrun]
  cases s.memo.get? r <;> rfl

/-! ### What resolving comes down to -/

/-- A pin that is being resolved already cuts the cycle. -/
theorem resolveInput_of_mem (h : (⟨node.id, pin⟩ : PinRef) ∈ visited) :
    ev.resolveInput g (depth + 1) visited node pin =
      (do modify (Scope.mapTrace Trace.noteCycle); pure none) := by
  rw [resolveInput, if_pos h]

/-- In a graph that agrees, an input pin that is not being resolved yields a value at once, whatever
output pins yield, or follows its link. -/
theorem resolveInput_cases (ev : Evaluator) (h : g.Agrees) (hn : g.node? n = some node)
    (pin : String) :
    (∀ depth visited, (⟨n, pin⟩ : PinRef) ∉ visited → ∀ value,
      ev.resolveInput g (depth + 1) visited node pin = pure (g.inputValue value n pin)) ∨
    ∃ link producer, g.Follows ⟨n, pin⟩ link producer ∧
      ∀ depth visited, (⟨n, pin⟩ : PinRef) ∉ visited →
        ev.resolveInput g (depth + 1) visited node pin =
          memoized link.source (ev.runNode producer link.source.pin
            (ev.resolveInput g depth (⟨n, pin⟩ :: visited) producer)) := by
  obtain rfl := h.node_id hn
  have hinput : g.input? ⟨node.id, pin⟩ = node.input? pin := Graph.input?_of_node? hn pin
  cases hp : node.input? pin with
  | none =>
    left
    intro depth visited hnew value
    rw [resolveInput, if_neg hnew, Graph.inputValue, hinput, hp]
  | some p =>
    have hmem : p ∈ node.inputs := List.mem_of_find?_eq_some hp
    obtain rfl : p.id = pin := by simpa using List.find?_some hp
    -- Evaluation follows the list of the pin, plain recursion the table; both tell the same.
    cases hlinks : p.links with
    | nil =>
      left
      intro depth visited hnew value
      rw [resolveInput, if_neg hnew, Graph.inputValue, hinput, hp,
        h.linkInto?_eq_none hn hmem hlinks]
      dsimp only
      rw [hlinks]
    | cons l ls =>
      right
      obtain ⟨link, hlink, hinto⟩ := h.exists_linkInto?_eq_some hn hmem hlinks
      obtain ⟨q, hq⟩ := h.source hlink
      obtain ⟨producer, hproducer, -⟩ := Option.bind_eq_some_iff.mp hq
      refine ⟨link, producer, ⟨hinto, hproducer, Graph.mem_inputRefs hn hp, fun value => ?_⟩,
        fun depth visited hnew => ?_⟩
      · rw [Graph.inputValue, hinput, hp, hinto]
      · rw [resolveInput, if_neg hnew, hp]
        dsimp only
        rw [hlinks]
        dsimp only
        rw [hlink]
        dsimp only
        rw [hproducer]
        rfl

end Evaluator

end ShaderGraph
