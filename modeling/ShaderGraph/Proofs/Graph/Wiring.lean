import ShaderGraph.Proofs.Graph.Agreement

/-!
# What links do not depend on

Positions, property values, pin defaults, the root and the cycle policy do not matter to links, and
neither do nodes to which nothing is linked.

## Main definitions

* `Graph.wiring` — a graph without its values and places

## Main results

* `WellLinked.of_wiring` — edits of values and places keep a graph well-linked
* `Agrees.insertNode` — a graph goes on to agree with a further node to which nothing is linked
* `WellLinked.insertNode`, `WellLinked.eraseNode` — it stays well-linked as such a node comes or goes
-/

namespace ShaderGraph.Graph

/-- All about a graph but values and places, its root and its cycle policy. -/
def wiring (g : Graph) : Graph :=
  { g with nodes := g.nodes.mapValues fun _ => Node.wiring, root := none, cyclePolicy := .allow }

variable {g g' : Graph} {r : PinRef} {p : Pin} {l : LinkId} {link : Link} {n : NodeId} {node : Node}

/-! ### Edits of values and places -/

theorem wiring_modifyNode {f : Node → Node} (h : ∀ node, (f node).wiring = node.wiring) :
    (g.modifyNode n f).wiring = g.wiring := by
  rw [wiring, wiring, modifyNode, Table.modify_eq_mapValues, Table.mapValues_mapValues]
  congr 1
  refine Table.mapValues_congr fun m node _ => ?_
  split
  · exact h node
  · rfl

theorem wiring_setPosition {position : Position} :
    (g.setPosition n position).wiring = g.wiring :=
  wiring_modifyNode fun _ => rfl

theorem wiring_setProperty {name : String} {value : Literal} :
    (g.setProperty n name value).wiring = g.wiring :=
  wiring_modifyNode fun _ => Node.wiring_modifyProperty

theorem wiring_setDefault {value : Option Literal} : (g.setDefault r value).wiring = g.wiring :=
  wiring_modifyNode fun _ => Node.wiring_modifyPin fun _ => rfl

theorem skeletons_wiring : g.wiring.skeletons = g.skeletons := by
  rw [skeletons, skeletons, wiring, Table.mapValues_mapValues]
  exact Table.mapValues_congr fun _ _ _ => Node.skeleton_wiring

theorem wiring_congr (h : g'.wiring = g.wiring) :
    g'.skeletons = g.skeletons ∧ g'.registry = g.registry := by
  have hreg (k : Graph) : k.wiring.registry = k.registry := rfl
  exact ⟨by rw [← skeletons_wiring, h, skeletons_wiring], by rw [← hreg g', h, hreg g]⟩

/-! ### Links and wiring -/

theorem node?_wiring : g.wiring.node? n = (g.node? n).map Node.wiring := Table.get?_mapValues

theorem input?_wiring : g.wiring.input? r = (g.input? r).map Pin.wiring := by
  rw [input?, input?, node?_wiring]
  cases g.node? r.node with
  | none => rfl
  | some node => exact Node.input?_wiring

theorem output?_wiring : g.wiring.output? r = (g.output? r).map Pin.wiring := by
  rw [output?, output?, node?_wiring]
  cases g.node? r.node with
  | none => rfl
  | some node => exact Node.output?_wiring

theorem wellLinked_wiring_iff : g.wiring.WellLinked ↔ g.WellLinked := by
  -- No clause reads anything that the wiring leaves out.
  have hnode {n : NodeId} {node : Node} (hn : g.node? n = some node) :
      g.wiring.node? n = some node.wiring := by rw [node?_wiring, hn, Option.map_some]
  have hin {node : Node} {p : Pin} (hp : p ∈ node.inputs) : p.wiring ∈ node.wiring.inputs :=
    List.mem_map_of_mem hp
  have hout {node : Node} {p : Pin} (hp : p ∈ node.outputs) : p.wiring ∈ node.wiring.outputs :=
    List.mem_map_of_mem hp
  -- Identifiers, links and types are the same by definition once a pin is known to be there.
  constructor
  · intro h
    refine ⟨fun hn => ?_, h.link_id, fun hl => ?_, fun hl => ?_, fun hn hp => ?_, fun hn hp => ?_,
      fun hn hp => ?_⟩
    · have hid := h.node_id (hnode hn)
      exact hid
    · obtain ⟨p, hp, ht⟩ := h.source hl
      rw [output?_wiring, Option.map_eq_some_iff] at hp
      obtain ⟨q, hq, rfl⟩ := hp
      exact ⟨q, hq, ht⟩
    · obtain ⟨p, hp, hc⟩ := h.target hl
      rw [input?_wiring, Option.map_eq_some_iff] at hp
      obtain ⟨q, hq, rfl⟩ := hp
      exact ⟨q, hq, hc⟩
    · have hlinks := h.links_output (hnode hn) (hout hp)
      exact hlinks
    · have hlinks := h.links_input (hnode hn) (hin hp)
      exact hlinks
    · have hlength := h.length_input (hnode hn) (hin hp)
      exact hlength
  · intro h
    refine ⟨fun hn => ?_, h.link_id, fun hl => ?_, fun hl => ?_, fun hn hp => ?_, fun hn hp => ?_,
      fun hn hp => ?_⟩
    · rw [node?_wiring, Option.map_eq_some_iff] at hn
      obtain ⟨node, hn, rfl⟩ := hn
      have hid := h.node_id hn
      exact hid
    · obtain ⟨p, hp, ht⟩ := h.source hl
      exact ⟨p.wiring, by rw [output?_wiring, hp, Option.map_some], ht⟩
    · obtain ⟨p, hp, hc⟩ := h.target hl
      exact ⟨p.wiring, by rw [input?_wiring, hp, Option.map_some], hc⟩
    all_goals
      rw [node?_wiring, Option.map_eq_some_iff] at hn
      obtain ⟨node, hn, rfl⟩ := hn
      obtain ⟨q, hq, rfl⟩ := List.mem_map.mp hp
    · have hlinks := h.links_output hn hq
      exact hlinks
    · have hlinks := h.links_input hn hq
      exact hlinks
    · have hlength := h.length_input hn hq
      exact hlength

/-- Edits of values and places keep a graph well-linked. -/
theorem WellLinked.of_wiring (h : g.WellLinked) (hw : g'.wiring = g.wiring) : g'.WellLinked := by
  rw [← wellLinked_wiring_iff, hw]
  exact wellLinked_wiring_iff.mpr h

/-! ### Nodes that come and go -/

theorem node?_insertNode :
    (g.insertNode node).node? n = if n = node.id then some node else g.node? n :=
  Table.get?_insert

theorem node?_of_output? (h : g.output? r = some p) : ∃ node, g.node? r.node = some node := by
  obtain ⟨node, hn, -⟩ := Option.bind_eq_some_iff.mp h
  exact ⟨node, hn⟩

theorem node?_of_input? (h : g.input? r = some p) : ∃ node, g.node? r.node = some node := by
  obtain ⟨node, hn, -⟩ := Option.bind_eq_some_iff.mp h
  exact ⟨node, hn⟩

theorem output?_insertNode (hfresh : g.node? node.id = none) (h : g.output? r = some p) :
    (g.insertNode node).output? r = some p := by
  obtain ⟨m, hm⟩ := node?_of_output? h
  have hne : r.node ≠ node.id := by
    intro he
    rw [he, hfresh] at hm
    cases hm
  rw [output?, node?_insertNode, if_neg hne]
  exact h

theorem input?_insertNode (hfresh : g.node? node.id = none) (h : g.input? r = some p) :
    (g.insertNode node).input? r = some p := by
  obtain ⟨m, hm⟩ := node?_of_input? h
  have hne : r.node ≠ node.id := by
    intro he
    rw [he, hfresh] at hm
    cases hm
  rw [input?, node?_insertNode, if_neg hne]
  exact h

/-- No link stands at a node that is not there. -/
theorem Agrees.source_node_ne (h : g.Agrees) (hn : g.node? n = none)
    (hl : g.link? l = some link) : link.source.node ≠ n := by
  rintro rfl
  obtain ⟨p, hp⟩ := h.source hl
  obtain ⟨node, hnode⟩ := node?_of_output? hp
  rw [hn] at hnode
  cases hnode

theorem Agrees.target_node_ne (h : g.Agrees) (hn : g.node? n = none)
    (hl : g.link? l = some link) : link.target.node ≠ n := by
  rintro rfl
  obtain ⟨p, hp⟩ := h.target hl
  obtain ⟨node, hnode⟩ := node?_of_input? hp
  rw [hn] at hnode
  cases hnode

/-- A graph goes on to agree with a further node to which nothing is linked. -/
theorem Agrees.insertNode (h : g.Agrees) (hfresh : g.node? node.id = none)
    (hfree : ∀ p ∈ node.pins, p.links = []) : (g.insertNode node).Agrees where
  node_id hn := by
    rw [node?_insertNode] at hn
    split at hn
    · rename_i he
      rw [← Option.some_inj.mp hn, he]
    · exact h.node_id hn
  link_id := h.link_id
  source hl := by
    obtain ⟨p, hp⟩ := h.source hl
    exact ⟨p, output?_insertNode hfresh hp⟩
  target hl := by
    obtain ⟨p, hp⟩ := h.target hl
    exact ⟨p, input?_insertNode hfresh hp⟩
  mem_output {n _ p l} hn hp := by
    rw [node?_insertNode] at hn
    split at hn
    -- The new node lists no link, and the table has none for a node that was not there.
    · rename_i he
      obtain rfl := Option.some_inj.mp hn
      rw [hfree p (List.mem_append_right _ hp)]
      refine iff_of_false List.not_mem_nil ?_
      rintro ⟨link, hl, hsource⟩
      exact h.source_node_ne (he ▸ hfresh) hl (congrArg PinRef.node hsource)
    · exact h.mem_output hn hp
  mem_input {n _ p l} hn hp := by
    rw [node?_insertNode] at hn
    split at hn
    · rename_i he
      obtain rfl := Option.some_inj.mp hn
      rw [hfree p (List.mem_append_left _ hp)]
      refine iff_of_false List.not_mem_nil ?_
      rintro ⟨link, hl, htarget⟩
      exact h.target_node_ne (he ▸ hfresh) hl (congrArg PinRef.node htarget)
    · exact h.mem_input hn hp
  length_input hn hp := by
    rw [node?_insertNode] at hn
    split at hn
    · obtain rfl := Option.some_inj.mp hn
      rw [hfree _ (List.mem_append_left _ hp)]
      exact Nat.zero_le 1
    · exact h.length_input hn hp

theorem Agrees.linksFrom_eq_nil (h : g.Agrees) (hn : g.node? r.node = none) :
    g.linksFrom r = [] := by
  rw [linksFrom, List.filter_eq_nil_iff]
  intro link hmem hr
  exact h.source_node_ne hn ((mem_values_links h.link_id).mp hmem)
    (congrArg PinRef.node (beq_iff_eq.mp hr))

theorem Agrees.linksInto_eq_nil (h : g.Agrees) (hn : g.node? r.node = none) :
    g.linksInto r = [] := by
  rw [linksInto, List.filter_eq_nil_iff]
  intro link hmem hr
  exact h.target_node_ne hn ((mem_values_links h.link_id).mp hmem)
    (congrArg PinRef.node (beq_iff_eq.mp hr))

/-- A graph stays well-linked with a further node to which nothing is linked. -/
theorem WellLinked.insertNode (h : g.WellLinked) (hfresh : g.node? node.id = none)
    (hfree : ∀ p ∈ node.pins, p.links = []) : (g.insertNode node).WellLinked where
  node_id := (h.agrees.insertNode hfresh hfree).node_id
  link_id := h.link_id
  source hl := by
    obtain ⟨p, hp, ht⟩ := h.source hl
    exact ⟨p, output?_insertNode hfresh hp, ht⟩
  target hl := by
    obtain ⟨p, hp, hc⟩ := h.target hl
    exact ⟨p, input?_insertNode hfresh hp, hc⟩
  links_output {n _ p} hn hp := by
    rw [node?_insertNode] at hn
    split at hn
    · rename_i he
      obtain rfl := Option.some_inj.mp hn
      have hnil : g.linksFrom ⟨n, p.id⟩ = [] := h.agrees.linksFrom_eq_nil (he ▸ hfresh)
      rw [hfree p (List.mem_append_right _ hp)]
      exact (congrArg (List.map Link.id) hnil).symm
    · exact h.links_output hn hp
  links_input {n _ p} hn hp := by
    rw [node?_insertNode] at hn
    split at hn
    · rename_i he
      obtain rfl := Option.some_inj.mp hn
      have hnil : g.linksInto ⟨n, p.id⟩ = [] := h.agrees.linksInto_eq_nil (he ▸ hfresh)
      rw [hfree p (List.mem_append_left _ hp)]
      exact (congrArg (List.map Link.id) hnil).symm
    · exact h.links_input hn hp
  length_input := (h.agrees.insertNode hfresh hfree).length_input

theorem node?_eraseNode {m : NodeId} :
    { g with nodes := g.nodes.erase n }.node? m = if m = n then none else g.node? m :=
  Table.get?_erase

/-- A graph stays well-linked without a node to which nothing is linked. -/
theorem WellLinked.eraseNode (h : g.WellLinked)
    (hfree : ∀ {l link}, g.link? l = some link → link.touchesNode n = false) :
    { g with nodes := g.nodes.erase n }.WellLinked := by
  -- A node that is left was there before, with the same pins.
  have hkept {m : NodeId} {node : Node}
      (hm : { g with nodes := g.nodes.erase n }.node? m = some node) : g.node? m = some node := by
    rw [node?_eraseNode] at hm
    split at hm
    · cases hm
    · exact hm
  refine ⟨fun hm => h.node_id (hkept hm), h.link_id, fun {l link} hl => ?_, fun {l link} hl => ?_,
    fun hm => h.links_output (hkept hm), fun hm => h.links_input (hkept hm),
    fun hm => h.length_input (hkept hm)⟩
  · obtain ⟨p, hp, ht⟩ := h.source hl
    have hne : link.source.node ≠ n := fun he => by simpa [Link.touchesNode, he] using hfree hl
    refine ⟨p, ?_, ht⟩
    rw [output?, node?_eraseNode, if_neg hne]
    exact hp
  · obtain ⟨p, hp, hc⟩ := h.target hl
    have hne : link.target.node ≠ n := fun he => by simpa [Link.touchesNode, he] using hfree hl
    refine ⟨p, ?_, hc⟩
    rw [input?, node?_eraseNode, if_neg hne]
    exact hp

end ShaderGraph.Graph
