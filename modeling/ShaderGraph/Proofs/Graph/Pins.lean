import ShaderGraph.Graph.Edit
import ShaderGraph.Proofs.Node

/-!
# Pins of a graph

Every edit of pins is brought into the form of a map over the pins of the graph that their addresses
mean, and the edits that only concern links are shown to leave everything else about a graph alone.

## Main definitions

* `Graph.input?`, `Graph.output?` — the pin at an address, of a given direction
* `Graph.WellPinned` — each node is
* `Graph.Sided` — pins stand on their side
* `Graph.mapPins` — a change to every pin, which may depend on the pin's address
* `Graph.mapAddressed` — a change to every pin that its address means
* `Graph.skeletons` — what is fixed about the nodes of a graph
* `Graph.unlinked` — a graph without its links

## Main results

* `Graph.modifyPin_eq_mapAddressed` — a change to one pin as a change to all of them
* `Graph.pin?_eq_some_iff` — an address means one pin, which is an input or an output
* `Graph.unlinked_disconnect`, `Graph.unlinked_insertLink` — edits of links concern nothing else
-/

namespace ShaderGraph.Graph

/-- The input pin at an address. -/
def input? (g : Graph) (r : PinRef) : Option Pin := (g.node? r.node).bind (·.input? r.pin)

/-- The output pin at an address. -/
def output? (g : Graph) (r : PinRef) : Option Pin := (g.node? r.node).bind (·.output? r.pin)

/-- The pins of every node differ in their identifiers and stand on their side. -/
def WellPinned (g : Graph) : Prop := ∀ ⦃n node⦄, g.node? n = some node → node.WellPinned

/-- Every pin stands among the pins of its direction. -/
structure Sided (g : Graph) : Prop where
  input : ∀ {n node p}, g.node? n = some node → p ∈ node.inputs → p.direction = .input
  output : ∀ {n node p}, g.node? n = some node → p ∈ node.outputs → p.direction = .output

/-- Applies to every pin a change that may depend on the pin's address. -/
def mapPins (g : Graph) (f : PinRef → Pin → Pin) : Graph :=
  { g with nodes := g.nodes.mapValues fun n node => node.mapPins fun p => f ⟨n, p.id⟩ p }

/-- Applies a change that may depend on the address to every pin that its address means. -/
def mapAddressed (g : Graph) (f : PinRef → Pin → Pin) : Graph :=
  { g with nodes := g.nodes.mapValues fun n node => node.mapAddressed fun p => f ⟨n, p.id⟩ p }

/-- What is fixed about the nodes when they are made. -/
def skeletons (g : Graph) : Table NodeId Node := g.nodes.mapValues fun _ node => node.skeleton

/-- A graph without its links. -/
def unlinked (g : Graph) : Graph := { g.mapPins fun _ => Pin.unlinked with links := ∅ }

variable {g : Graph} {f : PinRef → Pin → Pin} {r : PinRef} {p : Pin} {n : NodeId} {node : Node}

theorem input?_of_node? (hn : g.node? n = some node) (pin : String) :
    g.input? ⟨n, pin⟩ = node.input? pin := by
  rw [input?, hn, Option.bind_some]

theorem pin?_eq_or : g.pin? r = (g.input? r).or (g.output? r) := by
  rw [pin?, input?, output?]
  cases g.node? r.node with
  | none => rfl
  | some node => exact Option.orElse_eq_or

/-- Inputs come first. -/
theorem pin?_of_input? (hp : g.input? r = some p) : g.pin? r = some p := by
  rw [pin?_eq_or, hp, Option.some_or]

/-! ### A change to every pin -/

theorem node?_mapPins :
    (g.mapPins f).node? n = (g.node? n).map fun node => node.mapPins fun p => f ⟨n, p.id⟩ p :=
  Table.get?_mapValues

theorem exists_of_mem_inputs_mapPins (hn : (g.mapPins f).node? n = some node)
    (hp : p ∈ node.inputs) :
    ∃ node' q, g.node? n = some node' ∧ q ∈ node'.inputs ∧ f ⟨n, q.id⟩ q = p := by
  rw [node?_mapPins, Option.map_eq_some_iff] at hn
  obtain ⟨node', hn, rfl⟩ := hn
  obtain ⟨q, hq, hqp⟩ := List.mem_map.mp hp
  exact ⟨node', q, hn, hq, hqp⟩

theorem exists_of_mem_outputs_mapPins (hn : (g.mapPins f).node? n = some node)
    (hp : p ∈ node.outputs) :
    ∃ node' q, g.node? n = some node' ∧ q ∈ node'.outputs ∧ f ⟨n, q.id⟩ q = p := by
  rw [node?_mapPins, Option.map_eq_some_iff] at hn
  obtain ⟨node', hn, rfl⟩ := hn
  obtain ⟨q, hq, hqp⟩ := List.mem_map.mp hp
  exact ⟨node', q, hn, hq, hqp⟩

theorem mapPins_mapPins {f' : PinRef → Pin → Pin} (h : ∀ r p, (f r p).id = p.id) :
    (g.mapPins f).mapPins f' = g.mapPins fun r p => f' r (f r p) := by
  simp only [mapPins, Table.mapValues_mapValues, Node.mapPins_mapPins, h]

theorem mapPins_eq_self
    (h : ∀ n node, g.node? n = some node → ∀ p ∈ node.pins, f ⟨n, p.id⟩ p = p) :
    g.mapPins f = g := by
  rw [mapPins, Table.mapValues_eq_self]
  intro n node hn
  exact Node.mapPins_eq_self (h n node hn)

theorem input?_mapPins (h : ∀ r p, (f r p).id = p.id) :
    (g.mapPins f).input? r = (g.input? r).map (f r) := by
  rw [input?, input?, node?_mapPins]
  cases g.node? r.node with
  | none => rfl
  | some node =>
    simp only [Option.map_some, Option.bind_some]
    rw [Node.input?_mapPins fun p => h _ p]
    refine Option.map_congr fun p hp => ?_
    rw [show p.id = r.pin by simpa using List.find?_some hp]

theorem node?_modifyPin {f : Pin → Pin} :
    (g.modifyPin r f).node? n =
      if n = r.node then (g.node? n).map (·.modifyPin r.pin f) else g.node? n := Table.get?_modify

theorem input?_modifyPin {r' : PinRef} {f : Pin → Pin} (h : ∀ p, (f p).id = p.id) :
    (g.modifyPin r f).input? r' = if r' = r then (g.input? r).map f else g.input? r' := by
  obtain ⟨m, id⟩ := r'
  obtain ⟨n, jd⟩ := r
  simp only [input?, node?_modifyPin, PinRef.mk.injEq]
  by_cases hn : m = n
  · rw [if_pos hn, hn]
    cases g.node? n with
    | none => simp
    | some node =>
      simp only [Option.map_some, Option.bind_some, Node.input?_modifyPin h, true_and]
  · rw [if_neg hn, if_neg fun he => hn he.1]

theorem output?_mapPins (h : ∀ r p, (f r p).id = p.id) :
    (g.mapPins f).output? r = (g.output? r).map (f r) := by
  rw [output?, output?, node?_mapPins]
  cases g.node? r.node with
  | none => rfl
  | some node =>
    simp only [Option.map_some, Option.bind_some]
    rw [Node.output?_mapPins fun p => h _ p]
    refine Option.map_congr fun p hp => ?_
    rw [show p.id = r.pin by simpa using List.find?_some hp]

/-! ### A change to one pin -/

/-- A change to one pin as a change to every pin that its address means. -/
theorem modifyPin_eq_mapAddressed {f : Pin → Pin} :
    g.modifyPin r f = g.mapAddressed fun r' p => if r' = r then f p else p := by
  rw [modifyPin, modifyNode, mapAddressed, Table.modify_eq_mapValues, Table.mapValues_congr]
  intro n node _
  by_cases hr : n = r.node
  · rw [if_pos hr, Node.modifyPin_eq_mapAddressed]
    refine Node.mapAddressed_congr fun p _ => ?_
    simp [PinRef.mk_eq_iff, hr]
  · rw [if_neg hr]
    refine (Node.mapAddressed_eq_self fun p _ => ?_).symm
    simp [PinRef.mk_eq_iff, hr]

theorem mapAddressed_mapAddressed {f' : PinRef → Pin → Pin} (h : ∀ r p, (f r p).id = p.id) :
    (g.mapAddressed f).mapAddressed f' = g.mapAddressed fun r p => f' r (f r p) := by
  have hnode (n : NodeId) (node : Node) :
      (node.mapAddressed fun p => f ⟨n, p.id⟩ p).mapAddressed (fun p => f' ⟨n, p.id⟩ p) =
        node.mapAddressed fun p => f' ⟨n, p.id⟩ (f ⟨n, p.id⟩ p) := by
    rw [Node.mapAddressed_mapAddressed fun p => h _ p]
    simp only [h]
  simp only [mapAddressed, Table.mapValues_mapValues, hnode]

/-- Only what a change does to the pins that are found at their addresses matters. -/
theorem mapAddressed_congr {f' : PinRef → Pin → Pin}
    (h : ∀ r p, g.pin? r = some p → f r p = f' r p) : g.mapAddressed f = g.mapAddressed f' := by
  rw [mapAddressed, mapAddressed, Table.mapValues_congr]
  intro n node hn
  refine Node.mapAddressed_congr fun p hp => h ⟨n, p.id⟩ p ?_
  have hn : g.node? n = some node := hn
  rw [pin?, hn, Option.bind_some, hp]

theorem mapAddressed_eq_self (h : ∀ r p, g.pin? r = some p → f r p = p) : g.mapAddressed f = g := by
  have hself : g.mapAddressed f = g.mapAddressed fun _ p => p := mapAddressed_congr h
  rw [hself, mapAddressed, Table.mapValues_eq_self]
  intro n node _
  exact Node.mapAddressed_eq_self fun _ _ => rfl

theorem node?_mapAddressed :
    (g.mapAddressed f).node? n =
      (g.node? n).map fun node => node.mapAddressed fun p => f ⟨n, p.id⟩ p :=
  Table.get?_mapValues

theorem pin?_mapAddressed (h : ∀ r p, (f r p).id = p.id) :
    (g.mapAddressed f).pin? r = (g.pin? r).map (f r) := by
  rw [pin?, pin?, node?_mapAddressed]
  cases g.node? r.node with
  | none => rfl
  | some node =>
    simp only [Option.map_some, Option.bind_some]
    rw [Node.pin?_mapAddressed fun p => h _ p]
    refine Option.map_congr fun p hp => ?_
    rw [Node.id_of_pin? hp]

theorem WellPinned.mapAddressed_eq (h : g.WellPinned) : g.mapAddressed f = g.mapPins f := by
  rw [mapAddressed, Graph.mapPins, Table.mapValues_congr]
  intro n node hn
  exact (h hn).mapAddressed_eq

theorem output?_unlinked : g.unlinked.output? r = (g.output? r).map Pin.unlinked :=
  output?_mapPins (f := fun _ => Pin.unlinked) fun _ _ => rfl

theorem input?_unlinked : g.unlinked.input? r = (g.input? r).map Pin.unlinked :=
  input?_mapPins (f := fun _ => Pin.unlinked) fun _ _ => rfl

theorem pin?_unlinked : g.unlinked.pin? r = (g.pin? r).map Pin.unlinked := by
  rw [pin?_eq_or, pin?_eq_or, input?_unlinked, output?_unlinked, Option.map_or]

theorem unlinked_modifyPin {f : Pin → Pin} (h : ∀ p, (f p).unlinked = p.unlinked) :
    (g.modifyPin r f).unlinked = g.unlinked := by
  have hnodes : (g.nodes.modify r.node (·.modifyPin r.pin f)).mapValues
      (fun _ node => node.mapPins Pin.unlinked) =
      g.nodes.mapValues fun _ node => node.mapPins Pin.unlinked := by
    rw [Table.modify_eq_mapValues, Table.mapValues_mapValues]
    refine Table.mapValues_congr fun n node _ => ?_
    split
    · exact Node.mapPins_modifyPin h
    · rfl
  simp only [unlinked, mapPins, modifyPin, modifyNode, hnodes]

/-! ### Edits of links -/

theorem unlinked_congr {g' : Graph} (h : g'.unlinked = g.unlinked) :
    g'.skeletons = g.skeletons ∧ g'.registry = g.registry := by
  have hskel (k : Graph) : k.unlinked.skeletons = k.skeletons := by
    simp only [skeletons, unlinked, mapPins, Table.mapValues_mapValues]
    exact Table.mapValues_congr fun _ _ _ => Node.skeleton_mapPins fun _ => rfl
  have hreg (k : Graph) : k.unlinked.registry = k.registry := rfl
  exact ⟨by rw [← hskel g', h, hskel g], by rw [← hreg g', h, hreg g]⟩

theorem node?_unlinked : g.unlinked.node? n = (g.node? n).map (·.mapPins Pin.unlinked) :=
  node?_mapPins (f := fun _ => Pin.unlinked)

/-- Graphs that are the same but for links have the same nodes but for links. -/
theorem map_node?_of_unlinked {g' : Graph} (h : g'.unlinked = g.unlinked) :
    (g'.node? n).map (·.mapPins Pin.unlinked) = (g.node? n).map (·.mapPins Pin.unlinked) := by
  rw [← node?_unlinked, h, node?_unlinked]

/-- Graphs that are the same but for links have the same inputs but for links. -/
theorem exists_input?_of_unlinked {g' : Graph} (h : g'.unlinked = g.unlinked)
    (hp : g.input? r = some p) : ∃ q, g'.input? r = some q ∧ q.unlinked = p.unlinked := by
  rw [← Option.map_eq_some_iff, ← input?_unlinked, h, input?_unlinked, hp, Option.map_some]

theorem exists_output?_of_unlinked {g' : Graph} (h : g'.unlinked = g.unlinked)
    (hp : g.output? r = some p) : ∃ q, g'.output? r = some q ∧ q.unlinked = p.unlinked := by
  rw [← Option.map_eq_some_iff, ← output?_unlinked, h, output?_unlinked, hp, Option.map_some]

theorem unlinked_disconnect {l : LinkId} : (g.disconnect l).unlinked = g.unlinked := by
  rw [disconnect]
  split
  · rfl
  · rw [unlinked_modifyPin fun _ => Pin.unlinked_detach,
      unlinked_modifyPin fun _ => Pin.unlinked_detach]
    rfl

theorem unlinked_disconnectAll {ls : List LinkId} : (g.disconnectAll ls).unlinked = g.unlinked := by
  rw [disconnectAll]
  induction ls generalizing g with
  | nil => rfl
  | cons l ls ih => rw [List.foldl_cons, ih, unlinked_disconnect]

theorem unlinked_breakPin : (g.breakPin r).unlinked = g.unlinked := unlinked_disconnectAll

theorem unlinked_insertLink {link : Link} : (g.insertLink link).unlinked = g.unlinked := by
  have hlinks (k : Graph) (t : Table LinkId Link) :
      { k with links := t }.unlinked = k.unlinked := rfl
  rw [insertLink, hlinks, unlinked_modifyPin fun _ => Pin.unlinked_attach,
    unlinked_modifyPin fun _ => Pin.unlinked_attach]

/-! ### Addresses of pins -/

theorem Sided.direction_of_input? (h : g.Sided) (hp : g.input? r = some p) :
    p.direction = .input := by
  obtain ⟨node, hn, hp⟩ := Option.bind_eq_some_iff.mp hp
  exact h.input hn (List.mem_of_find?_eq_some hp)

theorem Sided.direction_of_output? (h : g.Sided) (hp : g.output? r = some p) :
    p.direction = .output := by
  obtain ⟨node, hn, hp⟩ := Option.bind_eq_some_iff.mp hp
  exact h.output hn (List.mem_of_find?_eq_some hp)

theorem Sided.pin?_direction_input (h : g.Sided) :
    (g.pin? r = some p ∧ p.direction = .input) ↔ g.input? r = some p := by
  constructor
  · rintro ⟨hp, hd⟩
    rw [pin?_eq_or, Option.or_eq_some_iff] at hp
    rcases hp with hp | ⟨-, hp⟩
    · exact hp
    · rw [h.direction_of_output? hp] at hd
      cases hd
  · intro hp
    exact ⟨pin?_of_input? hp, h.direction_of_input? hp⟩

/-- An address that means an output is not that of an input. -/
theorem Sided.input?_eq_none (h : g.Sided) (hp : g.pin? r = some p) (hd : p.direction = .output) :
    g.input? r = none := by
  rw [Option.eq_none_iff_forall_not_mem]
  intro q hq
  obtain rfl := Option.some_inj.mp (hp.symm.trans (pin?_of_input? hq))
  rw [h.direction_of_input? hq] at hd
  cases hd

theorem wellPinned_iff_skeletons :
    g.WellPinned ↔ ∀ n s, g.skeletons.get? n = some s → s.WellPinned := by
  constructor
  · intro h n s hs
    rw [skeletons, Table.get?_mapValues, Option.map_eq_some_iff] at hs
    obtain ⟨node, hn, rfl⟩ := hs
    exact Node.wellPinned_skeleton.mpr (h hn)
  · intro h n node hn
    refine Node.wellPinned_skeleton.mp (h n node.skeleton ?_)
    rw [skeletons, Table.get?_mapValues, Option.map_eq_some_iff]
    exact ⟨node, hn, rfl⟩

theorem WellPinned.of_skeletons {g' : Graph} (h : g.WellPinned) (hs : g'.skeletons = g.skeletons) :
    g'.WellPinned := by
  rw [wellPinned_iff_skeletons, hs]
  exact wellPinned_iff_skeletons.mp h

theorem WellPinned.mapPins (h : g.WellPinned) (hf : ∀ r p, (f r p).skeleton = p.skeleton) :
    (g.mapPins f).WellPinned := by
  intro n node hn
  rw [node?_mapPins, Option.map_eq_some_iff] at hn
  obtain ⟨node, hn, rfl⟩ := hn
  exact (h hn).mapPins fun p => hf _ p

theorem WellPinned.input?_eq_some_iff (h : g.WellPinned) :
    g.input? r = some p ↔ ∃ node, g.node? r.node = some node ∧ p ∈ node.inputs ∧ p.id = r.pin := by
  rw [input?, Option.bind_eq_some_iff]
  refine exists_congr fun node => and_congr_right fun hn => ?_
  exact (h hn).input?_eq_some_iff

theorem WellPinned.output?_eq_some_iff (h : g.WellPinned) :
    g.output? r = some p ↔
      ∃ node, g.node? r.node = some node ∧ p ∈ node.outputs ∧ p.id = r.pin := by
  rw [output?, Option.bind_eq_some_iff]
  refine exists_congr fun node => and_congr_right fun hn => ?_
  exact (h hn).output?_eq_some_iff

theorem WellPinned.input?_of_mem (h : g.WellPinned) (hn : g.node? n = some node)
    (hp : p ∈ node.inputs) : g.input? ⟨n, p.id⟩ = some p :=
  h.input?_eq_some_iff.mpr ⟨node, hn, hp, rfl⟩

theorem WellPinned.output?_of_mem (h : g.WellPinned) (hn : g.node? n = some node)
    (hp : p ∈ node.outputs) : g.output? ⟨n, p.id⟩ = some p :=
  h.output?_eq_some_iff.mpr ⟨node, hn, hp, rfl⟩

/-- An address means one pin, which is an input or an output. -/
theorem WellPinned.pin?_eq_some_iff (h : g.WellPinned) :
    g.pin? r = some p ↔ g.input? r = some p ∨ g.output? r = some p := by
  rw [h.input?_eq_some_iff, h.output?_eq_some_iff, pin?, Option.bind_eq_some_iff, ← exists_or]
  refine exists_congr fun node => ?_
  rw [← and_or_left, ← or_and_right, ← List.mem_append]
  exact and_congr_right fun hn => (h hn).pin?_eq_some_iff

theorem WellPinned.sided (h : g.WellPinned) : g.Sided where
  input hn hp := (h hn).direction_input _ hp
  output hn hp := (h hn).direction_output _ hp

/-- No address is that of an input and of an output. -/
theorem WellPinned.input?_eq_none (h : g.WellPinned) (hp : g.output? r = some p) :
    g.input? r = none := by
  rw [Option.eq_none_iff_forall_not_mem]
  intro q hq
  -- Both would be pins of one node.
  obtain ⟨node, hn, hmem, hid⟩ := h.output?_eq_some_iff.mp hp
  obtain ⟨node', hn', hmem', hid'⟩ := h.input?_eq_some_iff.mp hq
  obtain rfl : node = node' := Option.some_inj.mp (hn.symm.trans hn')
  exact (h hn).id_ne_of_mem hmem' hmem (hid'.trans hid.symm)

theorem WellPinned.ne_of_output?_of_input? {r' : PinRef} {q : Pin} (h : g.WellPinned)
    (hp : g.output? r = some p) (hq : g.input? r' = some q) : r ≠ r' := by
  rintro rfl
  rw [h.input?_eq_none hp] at hq
  cases hq

theorem WellPinned.pin?_direction_output (h : g.WellPinned) :
    (g.pin? r = some p ∧ p.direction = .output) ↔ g.output? r = some p := by
  rw [h.pin?_eq_some_iff]
  constructor
  · rintro ⟨hp | hp, hd⟩
    · rw [h.sided.direction_of_input? hp] at hd
      cases hd
    · exact hp
  · intro hp
    exact ⟨Or.inr hp, h.sided.direction_of_output? hp⟩

end ShaderGraph.Graph
