import ShaderGraph.Proofs.Graph.Pins
import ShaderGraph.Proofs.Registry

/-!
# Nodes as instances of definitions

Every node of a graph stems from a definition of the registry. Edits change its position, its
property values and the defaults and links of its pins, but never its skeleton, so that which pins
it has can be read off the definition.

## Main definitions

* `Graph.Instantiated` — every node has the skeleton of an instance of a definition
* `Graph.Sound` — there is at most one node of a singleton definition, and the root is a node

## Main results

* `Graph.Instantiated.wellPinned` — pins can be told apart by their addresses
* `Graph.Sound.insertNode`, `Graph.Sound.eraseNode` — nodes come and go
-/

namespace ShaderGraph

namespace NodeDefinition

variable {d : NodeDefinition} {n : NodeId} {position : Position}

theorem direction_of_mem_inputs_instantiate {p : Pin} (hp : p ∈ (d.instantiate n position).inputs) :
    p.direction = .input := by
  obtain ⟨s, hs, rfl⟩ := List.mem_map.mp hp
  exact beq_iff_eq.mp (List.mem_filter.mp hs).2

theorem direction_of_mem_outputs_instantiate {p : Pin}
    (hp : p ∈ (d.instantiate n position).outputs) : p.direction = .output := by
  obtain ⟨s, hs, rfl⟩ := List.mem_map.mp hp
  exact beq_iff_eq.mp (List.mem_filter.mp hs).2

theorem wellPinned_instantiate (h : (d.pins.map PinSpec.id).Nodup) :
    (d.instantiate n position).WellPinned where
  nodup := by
    -- Inputs before outputs are the declared pins in another order.
    have hperm : (d.inputs ++ d.outputs).Perm d.pins := by
      have hout : d.outputs = d.pins.filter fun p => !(p.direction == .input) := by
        refine List.filter_congr fun p _ => ?_
        cases p.direction <;> rfl
      rw [hout]
      exact List.filter_append_perm _ _
    have hids : (d.instantiate n position).pins.map Pin.id =
        (d.inputs ++ d.outputs).map PinSpec.id := by
      simp [Node.pins, instantiate, Pin.ofSpec, Function.comp_def]
    rw [hids]
    exact (hperm.map PinSpec.id).nodup_iff.mpr h
  direction_input _ := direction_of_mem_inputs_instantiate
  direction_output _ := direction_of_mem_outputs_instantiate

theorem links_instantiate {p : Pin} (hp : p ∈ (d.instantiate n position).pins) : p.links = [] := by
  rcases List.mem_append.mp hp with hp | hp
  · obtain ⟨s, -, rfl⟩ := List.mem_map.mp hp
    rfl
  · obtain ⟨s, -, rfl⟩ := List.mem_map.mp hp
    rfl

end NodeDefinition

namespace Graph

/-- Every node has the skeleton of an instance of a definition, under the identifier that it is
filed under. -/
def Instantiated (g : Graph) : Prop :=
  ∀ ⦃n s⦄, g.skeletons.get? n = some s →
    ∃ key d, g.registry.get? key = some d ∧ s = (d.instantiate n ⟨0, 0⟩).skeleton

/-- There is at most one node of a singleton definition, and the root is a node. -/
structure Sound (g : Graph) : Prop where
  single : ∀ ⦃n m s t⦄, g.skeletons.get? n = some s → g.skeletons.get? m = some t →
    s.key = t.key → (g.registry.get? s.key).any (·.singleton) = true → n = m
  root : ∀ ⦃n⦄, g.root = some n → ∃ s, g.skeletons.get? n = some s

variable {g g' : Graph} {n : NodeId} {node : Node}

theorem get?_skeletons : g.skeletons.get? n = (g.node? n).map Node.skeleton := Table.get?_mapValues

theorem get?_skeletons_of_node? (h : g.node? n = some node) :
    g.skeletons.get? n = some node.skeleton := by
  rw [get?_skeletons, h, Option.map_some]

theorem exists_of_get?_skeletons {s : Node} (h : g.skeletons.get? n = some s) :
    ∃ node, g.node? n = some node ∧ node.skeleton = s :=
  Option.map_eq_some_iff.mp (get?_skeletons.symm.trans h)

/-- The definition of a node, found under the key of the node. -/
theorem Instantiated.exists_definition? (h : g.Instantiated) (hf : g.registry.Filed)
    (hn : g.node? n = some node) :
    ∃ d, g.definition? node = some d ∧ node.skeleton = (d.instantiate n ⟨0, 0⟩).skeleton := by
  obtain ⟨key, d, hd, hs⟩ := h (get?_skeletons_of_node? hn)
  have hkey : node.key = d.key := (congrArg Node.key hs :)
  exact ⟨d, by rw [definition?, hkey, hf hd]; exact hd, hs⟩

/-- The instance of a definition has every pin among those of its direction. -/
theorem Instantiated.sided (h : g.Instantiated) : g.Sided := by
  -- The direction of a pin belongs to its skeleton.
  have hdirection {ps qs : List Pin} {p : Pin} (hps : ps.map Pin.skeleton = qs.map Pin.skeleton)
      (hp : p ∈ ps) : ∃ q ∈ qs, q.direction = p.direction := by
    obtain ⟨q, hq, hqp⟩ := List.mem_map.mp (hps ▸ List.mem_map_of_mem hp)
    exact ⟨q, hq, (congrArg Pin.direction hqp :)⟩
  constructor
  · intro n node p hn hp
    obtain ⟨-, d, -, hs⟩ := h (get?_skeletons_of_node? hn)
    obtain ⟨q, hq, hqp⟩ := hdirection (congrArg Node.inputs hs) hp
    rw [← hqp, NodeDefinition.direction_of_mem_inputs_instantiate hq]
  · intro n node p hn hp
    obtain ⟨-, d, -, hs⟩ := h (get?_skeletons_of_node? hn)
    obtain ⟨q, hq, hqp⟩ := hdirection (congrArg Node.outputs hs) hp
    rw [← hqp, NodeDefinition.direction_of_mem_outputs_instantiate hq]

theorem Instantiated.wellPinned (h : g.Instantiated) (hr : g.registry.UniquePins) :
    g.WellPinned := by
  rw [wellPinned_iff_skeletons]
  intro n s hs
  obtain ⟨key, d, hd, rfl⟩ := h hs
  exact Node.wellPinned_skeleton.mpr (NodeDefinition.wellPinned_instantiate (hr hd))

theorem Instantiated.of_eq (h : g.Instantiated) (hs : g'.skeletons = g.skeletons)
    (hr : g'.registry = g.registry) : g'.Instantiated := by
  intro n s
  rw [hs, hr]
  exact @h n s

theorem get?_skeletons_insertNode {m : NodeId} :
    (g.insertNode node).skeletons.get? m =
      if m = node.id then some node.skeleton else g.skeletons.get? m := by
  rw [get?_skeletons, get?_skeletons, node?, Graph.insertNode, Table.get?_insert]
  split <;> rfl

theorem get?_skeletons_eraseNode {m : NodeId} :
    { g with nodes := g.nodes.erase n }.skeletons.get? m =
      if m = n then none else g.skeletons.get? m := by
  rw [get?_skeletons, get?_skeletons, node?, Table.get?_erase]
  split <;> rfl

theorem Instantiated.insertNode {key : String} {d : NodeDefinition} (h : g.Instantiated)
    (hd : g.registry.get? key = some d)
    (hs : node.skeleton = (d.instantiate node.id ⟨0, 0⟩).skeleton) :
    (g.insertNode node).Instantiated := by
  intro n s hn
  rw [get?_skeletons_insertNode] at hn
  split at hn
  · rename_i he
    obtain rfl := Option.some_inj.mp hn
    exact ⟨key, d, hd, he ▸ hs⟩
  · exact h hn

theorem Instantiated.eraseNode (h : g.Instantiated) :
    { g with nodes := g.nodes.erase n }.Instantiated := by
  intro m s hm
  rw [get?_skeletons_eraseNode] at hm
  split at hm
  · cases hm
  · exact h hm

/-! ### Singletons and the root -/

theorem Sound.of_eq (h : g.Sound) (hs : g'.skeletons = g.skeletons) (hr : g'.registry = g.registry)
    (hroot : ∀ n, g'.root = some n → ∃ s, g.skeletons.get? n = some s) : g'.Sound where
  single n m s t := by
    rw [hs, hr]
    exact @h.single n m s t
  root n hn := by
    rw [hs]
    exact hroot n hn

theorem isTaken_eq_true_iff {key : String} :
    g.isTaken key = true ↔
      (g.registry.get? key).any (·.singleton) = true ∧
        ∃ n s, g.skeletons.get? n = some s ∧ s.key = key := by
  simp only [isTaken, Bool.and_eq_true, List.any_eq_true, beq_iff_eq, Table.mem_values_iff,
    get?_skeletons, Option.map_eq_some_iff, node?]
  refine and_congr_right fun _ => ⟨?_, ?_⟩
  · rintro ⟨node, ⟨n, hn⟩, hkey⟩
    exact ⟨n, node.skeleton, ⟨node, hn, rfl⟩, hkey⟩
  · rintro ⟨n, s, ⟨node, hn, rfl⟩, hkey⟩
    exact ⟨node, ⟨n, hn⟩, hkey⟩

/-- A node comes in if its definition allows it. -/
theorem Sound.insertNode (h : g.Sound) (htaken : g.isTaken node.key = false) :
    (g.insertNode node).Sound where
  single n m s t hn hm hkey hsingle := by
    -- A further node of the same singleton definition would have kept the new one out.
    have hother {n : NodeId} {s : Node} (hn : g.skeletons.get? n = some s)
        (hkey : s.key = node.key) (hsingle : (g.registry.get? s.key).any (·.singleton) = true) :
        False := by
      rw [← Bool.not_eq_true, isTaken_eq_true_iff] at htaken
      exact htaken ⟨hkey ▸ hsingle, n, s, hn, hkey⟩
    rw [get?_skeletons_insertNode] at hn hm
    split at hn <;> split at hm
    -- Both are the new node, one of them is, or neither is.
    · rename_i hn' hm'
      rw [hn', hm']
    · rw [← Option.some_inj.mp hn] at hkey hsingle
      exact (hother hm hkey.symm (hkey ▸ hsingle)).elim
    · rw [← Option.some_inj.mp hm] at hkey
      exact (hother hn hkey hsingle).elim
    · exact h.single hn hm hkey hsingle
  root n hn := by
    obtain ⟨s, hs⟩ := h.root hn
    rw [get?_skeletons_insertNode]
    split
    · exact ⟨_, rfl⟩
    · exact ⟨s, hs⟩

/-- A node other than the root goes. -/
theorem Sound.eraseNode (h : g.Sound) (hroot : g.root ≠ some n) :
    { g with nodes := g.nodes.erase n }.Sound where
  single m m' s t hm hm' := by
    rw [get?_skeletons_eraseNode] at hm hm'
    split at hm
    · cases hm
    · split at hm'
      · cases hm'
      · exact h.single hm hm'
  root m hm := by
    obtain ⟨s, hs⟩ := h.root hm
    have hne : m ≠ n := by
      rintro rfl
      exact hroot hm
    exact ⟨s, by rw [get?_skeletons_eraseNode, if_neg hne, hs]⟩

end Graph

end ShaderGraph
