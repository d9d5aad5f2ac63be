import Mathlib.Data.List.Nodup
import ShaderGraph.Proofs.Graph.Acyclic
import ShaderGraph.Proofs.Graph.Agreement

/-!
# Walks against the links

The dependency order of a node comes from a walk that enters each node once and finishes it after
all that feed it. A walk that goes deeper opens one more node each time, so that it never needs more
depth than there are nodes, and it finishes no node twice, whatever the graph.

## Main definitions

* `Graph.Ordered` — a list of nodes in which producers stand before consumers
* `Graph.Sorted` — a list of nodes in which this is so except for cycles
* `Graph.Room` — the nodes that a walk has open leave depth for all others
* `Graph.Once` — a walk has finished no node twice

## Main results

* `Agrees.mem_feeding_iff` — the input pins and the link table name the same producers
* `Sorted.ordered` — without cycles, producers stand before consumers
* `Room.depth_ne_zero` — a walk that has room can go deeper
* `nodup_dependencyOrder` — whatever the graph, the dependency order lists no node twice
-/

namespace ShaderGraph.Graph

/-- Nodes of the graph without repetition, each behind all nodes that feed it. -/
structure Ordered (g : Graph) (order : List NodeId) : Prop where
  nodup : order.Nodup
  node : ∀ n ∈ order, ∃ node, g.node? n = some node
  producers : ∀ ⦃before n after⦄, order = before ++ n :: after → ∀ m, g.Feeds m n → m ∈ before

/-- A list of nodes in which whatever feeds a node stands before it or depends on it. -/
def Sorted (g : Graph) (order : List NodeId) : Prop :=
  ∀ ⦃before n after⦄, order = before ++ n :: after →
    ∀ m, g.Feeds m n → m ∈ before ∨ Relation.ReflTransGen g.Feeds n m

/-- The nodes that a walk has open are distinct, and the depth that is left suffices for all
others. -/
structure Room (g : Graph) (depth : Nat) (path : List NodeId) : Prop where
  nodup : path.Nodup
  node : ∀ k ∈ path, ∃ node, g.node? k = some node
  bound : g.nodes.size < depth + path.length

/-- A walk has entered the open nodes and the finished ones, no open node is finished, and no node
is finished twice. -/
structure Once (path : List NodeId) (w : Walk) : Prop where
  nodup : w.finished.Nodup
  entered : ∀ k, k ∈ w.finished ∨ k ∈ path → k ∈ w.entered
  disjoint : ∀ k ∈ path, k ∉ w.finished

variable {g : Graph} {m n : NodeId} {node : Node} {order path : List NodeId} {depth : Nat}
  {w : Walk}

/-! ### The nodes that feed a node -/

/-- In a graph that agrees, the input pins and the link table name the same producers. -/
theorem Agrees.mem_feeding_iff (h : g.Agrees) (hn : g.node? n = some node) :
    m ∈ g.feeding node ↔ g.Feeds m n := by
  rw [feeding, List.mem_filterMap]
  constructor
  · rintro ⟨l, hl, hm⟩
    obtain ⟨p, hp, hl⟩ := List.mem_flatMap.mp hl
    obtain ⟨link, hlink, rfl⟩ := Option.map_eq_some_iff.mp hm
    obtain ⟨link', hlink', htarget⟩ := (h.mem_input hn hp).mp hl
    obtain rfl := Option.some_inj.mp (hlink.symm.trans hlink')
    exact ⟨link, Table.mem_values_iff.mpr ⟨l, hlink⟩, rfl, by rw [htarget]⟩
  · rintro ⟨link, hmem, rfl, rfl⟩
    obtain ⟨l, hlink⟩ := Table.mem_values_iff.mp hmem
    obtain ⟨p, hp⟩ := h.target hlink
    obtain ⟨node', hn', hp⟩ := Option.bind_eq_some_iff.mp hp
    obtain rfl := Option.some_inj.mp (hn.symm.trans hn')
    have hid : p.id = link.target.pin := by simpa using List.find?_some hp
    have hp : p ∈ node.inputs := List.mem_of_find?_eq_some hp
    have hlisted := (h.mem_input hn hp).mpr ⟨link, hlink, by rw [hid]⟩
    exact ⟨l, List.mem_flatMap.mpr ⟨p, hp, hlisted⟩, by rw [link?, hlink, Option.map_some]⟩

/-- A node that feeds another is there. -/
theorem Agrees.exists_node?_of_feeds (h : g.Agrees) (hm : g.Feeds m n) :
    ∃ node, g.node? m = some node := by
  obtain ⟨link, hmem, rfl, rfl⟩ := hm
  obtain ⟨l, hlink⟩ := Table.mem_values_iff.mp hmem
  obtain ⟨p, hp⟩ := h.source hlink
  obtain ⟨node, hn, -⟩ := Option.bind_eq_some_iff.mp hp
  exact ⟨node, hn⟩

/-! ### Orders -/

theorem sorted_nil : g.Sorted [] := by
  intro before n after h
  have hlength := congrArg List.length h
  simp at hlength

/-- A node comes to the end of a list that has all nodes which feed it and do not depend on it. -/
theorem Sorted.append (h : g.Sorted order)
    (hfeeds : ∀ m, g.Feeds m n → m ∈ order ∨ Relation.ReflTransGen g.Feeds n m) :
    g.Sorted (order ++ [n]) := by
  intro before k after heq m hm
  -- The node at hand is the new one or an old one.
  rcases append_singleton_eq_append_cons heq with ⟨rfl, rfl, -⟩ | ⟨after, -, rfl⟩
  · exact hfeeds m hm
  · exact h rfl m hm

/-- Without cycles, no node depends on one that it feeds. -/
theorem Sorted.ordered (h : g.Sorted order) (hacyclic : g.Acyclic) (hnodup : order.Nodup)
    (hnode : ∀ n ∈ order, ∃ node, g.node? n = some node) : g.Ordered order where
  nodup := hnodup
  node := hnode
  producers _ _ _ heq m hm :=
    (h heq m hm).resolve_right fun hback => hacyclic m (Relation.TransGen.head' hm hback)

/-- A producer that does not depend on a node which it feeds stands before it. -/
theorem Sorted.exists_eq_append (h : g.Sorted order) (hn : n ∈ order) (hm : g.Feeds m n)
    (hback : ¬ Relation.ReflTransGen g.Feeds n m) :
    ∃ before between after, order = before ++ m :: (between ++ n :: after) := by
  obtain ⟨upToN, after, rfl⟩ := List.append_of_mem hn
  obtain ⟨before, between, rfl⟩ := List.append_of_mem ((h rfl m hm).resolve_right hback)
  exact ⟨before, between, after, by rw [List.append_assoc, List.cons_append]⟩

/-- In an order, a producer stands before each node that it feeds. -/
theorem Ordered.exists_eq_append (h : g.Ordered order) (hn : n ∈ order) (hm : g.Feeds m n) :
    ∃ before between after, order = before ++ m :: (between ++ n :: after) := by
  obtain ⟨upToN, after, rfl⟩ := List.append_of_mem hn
  obtain ⟨before, between, rfl⟩ := List.append_of_mem (h.producers rfl m hm)
  exact ⟨before, between, after, by rw [List.append_assoc, List.cons_append]⟩

/-! ### Walks without repetition -/

/-- A walk enters a node that it has not met. -/
theorem Once.enter (h : Once path w) (hnew : n ∉ w.entered) :
    Once (n :: path) { w with entered := n :: w.entered } where
  nodup := h.nodup
  entered k hk := by
    rw [List.mem_cons, or_left_comm] at hk
    exact List.mem_cons.mpr (hk.imp_right (h.entered k))
  disjoint k hk hfinished := by
    rcases List.mem_cons.mp hk with rfl | hk
    · exact hnew (h.entered k (Or.inl hfinished))
    · exact h.disjoint k hk hfinished

/-- A walk finishes the node that it has entered last. -/
theorem Once.finish (h : Once (n :: path) w) (hpath : n ∉ path) :
    Once path { w with finished := w.finished ++ [n] } where
  nodup := by
    refine List.nodup_append.mpr ⟨h.nodup, List.nodup_singleton n, fun k hk k' hk' he => ?_⟩
    obtain rfl := List.mem_singleton.mp hk'
    exact h.disjoint k' List.mem_cons_self (he ▸ hk)
  entered k hk := by
    rw [List.mem_append, List.mem_singleton, or_assoc, ← List.mem_cons] at hk
    exact h.entered k hk
  disjoint k hk hfinished := by
    rcases List.mem_append.mp hfinished with hfinished | hfinished
    · exact h.disjoint k (List.mem_cons_of_mem n hk) hfinished
    · exact hpath (List.mem_singleton.mp hfinished ▸ hk)

/-- A visit leaves open what was open and finishes no node twice, in any graph. -/
theorem Once.visit (h : Once path w) : Once path (g.visit depth w n) := by
  induction depth generalizing path w n with
  | zero => exact h
  | succ depth ih =>
    rw [Graph.visit]
    split
    · exact h
    · rename_i hnew
      have hpath : n ∉ path := fun hmem => hnew (h.entered n (Or.inr hmem))
      cases g.node? n with
      | none =>
        exact ⟨h.nodup, fun k hk => List.mem_cons_of_mem n (h.entered k hk), h.disjoint⟩
      -- The node is open while those that feed it are visited, so that none of them finishes it.
      | some node =>
        refine Once.finish ?_ hpath
        exact List.foldlRecOn (g.feeding node) (g.visit depth) (h.enter hnew) fun _ hw _ _ => ih hw

/-- The dependency order of a node lists no node twice, in any graph. -/
theorem nodup_dependencyOrder {root : NodeId} : (g.dependencyOrder root).Nodup := by
  rw [dependencyOrder]
  split
  · have hnone : Once [] ⟨[], []⟩ := ⟨List.nodup_nil, by simp, by simp⟩
    exact hnone.visit.nodup
  · exact List.nodup_nil

/-! ### The depth of a walk -/

theorem Room.nil : g.Room (g.nodes.size + 1) [] :=
  ⟨List.nodup_nil, fun _ hk => (List.not_mem_nil hk).elim, Nat.lt_succ_self _⟩

theorem Room.depth_ne_zero (h : g.Room depth path) : depth ≠ 0 := by
  -- Distinct nodes cannot be more than there are.
  have hsubset : path ⊆ g.nodes.keys := fun k hk => by
    obtain ⟨node, hnode⟩ := h.node k hk
    exact List.mem_map_of_mem (f := Prod.fst) (Table.get?_eq_some_iff.mp hnode)
  have hlength := (List.subperm_of_subset h.nodup hsubset).length_le
  have hbound := h.bound
  rw [Table.keys, List.length_map] at hlength
  rw [Table.size] at hbound
  omega

theorem Room.cons (h : g.Room (depth + 1) path) (hn : g.node? n = some node) (hnew : n ∉ path) :
    g.Room depth (n :: path) where
  nodup := List.nodup_cons.mpr ⟨hnew, h.nodup⟩
  node k hk := by
    rcases List.mem_cons.mp hk with rfl | hk
    · exact ⟨node, hn⟩
    · exact h.node k hk
  bound := by
    have hbound := h.bound
    rw [List.length_cons]
    omega

theorem dependencyOrder_eq (hn : g.node? n = some node) :
    g.dependencyOrder n = (g.visit (g.nodes.size + 1) ⟨[], []⟩ n).finished :=
  if_pos (Option.isSome_iff_exists.mpr ⟨node, hn⟩)

end ShaderGraph.Graph
