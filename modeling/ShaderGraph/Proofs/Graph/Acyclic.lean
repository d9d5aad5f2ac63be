import Mathlib.Data.Fintype.Order
import Mathlib.Logic.Relation
import Mathlib.Order.WellFounded
import ShaderGraph.Graph.Dependency
import ShaderGraph.Proofs.Table
import ShaderGraph.Proofs.Uuid

/-!
# Cycles

A node feeds another if a link leads from one to the other. In a graph without cycles this relation
is well-founded, as there are finitely many identifiers, so that one can recurse from a node to
those that feed it.

## Main definitions

* `Graph.Feeds` — some link leads from one node to another
* `Graph.Acyclic` — no node feeds itself, directly or not
* `Graph.Walked` — a walk misses nothing that feeds the nodes that it has seen

## Main results

* `Acyclic.wellFounded` — one can recurse against the links
* `Acyclic.of_link` — a link keeps a graph without cycles if no path leads back
* `dependsOn_eq_true_iff` — the walk finds a dependency exactly if there is a path of links
-/

namespace ShaderGraph

namespace Graph

/-- Some link leads from `m` to `n`. -/
def Feeds (g : Graph) (m n : NodeId) : Prop :=
  ∃ link ∈ g.links.values, link.source.node = m ∧ link.target.node = n

instance {g : Graph} {m n : NodeId} : Decidable (g.Feeds m n) :=
  inferInstanceAs (Decidable (∃ link ∈ g.links.values, link.source.node = m ∧ link.target.node = n))

/-- No node feeds itself, directly or through others. -/
def Acyclic (g : Graph) : Prop := ∀ n, ¬ Relation.TransGen g.Feeds n n

variable {g g' : Graph} {m n : NodeId}

theorem Acyclic.wellFounded (h : g.Acyclic) : WellFounded g.Feeds := by
  -- On finitely many identifiers, a transitive relation without loops is well-founded.
  have : Std.Irrefl (Relation.TransGen g.Feeds) := ⟨h⟩
  exact (Finite.wellFounded_of_trans_of_irrefl (Relation.TransGen g.Feeds)).mono
    fun _ _ hmn => .single hmn

/-- A graph with fewer links has fewer cycles. -/
theorem Acyclic.mono (h : g.Acyclic) (hsub : ∀ link ∈ g'.links.values, link ∈ g.links.values) :
    g'.Acyclic := by
  have hfeeds : g'.Feeds ≤ g.Feeds := by
    rintro a b ⟨link, hlink, hends⟩
    exact ⟨link, hsub link hlink, hends⟩
  exact fun n hn => h n (Relation.TransGen.mono hfeeds n n hn)

/-- There are no cycles if links lead upwards. -/
theorem acyclic_of_rank (rank : NodeId → Nat)
    (h : ∀ link ∈ g.links.values, rank link.source.node < rank link.target.node) : g.Acyclic := by
  have hfeeds : g.Feeds ≤ fun m n => rank m < rank n := by
    rintro m n ⟨link, hlink, rfl, rfl⟩
    exact h link hlink
  intro n hn
  -- Along a cycle the rank would rise above itself.
  have hpath := Relation.TransGen.mono hfeeds n n hn
  rw [Relation.transGen_eq_self] at hpath
  exact Nat.lt_irrefl _ hpath

/-- A further link from `m` to `n` closes no cycle if no path leads from `n` to `m`. -/
theorem Acyclic.of_link (h : g.Acyclic) (hback : ¬ Relation.ReflTransGen g.Feeds n m)
    (hfeeds : ∀ a b, g'.Feeds a b → g.Feeds a b ∨ a = m ∧ b = n) : g'.Acyclic := by
  -- A path that takes the new link twice would lead back from its end to its beginning.
  have hpath {a b : NodeId} (hab : Relation.TransGen g'.Feeds a b) :
      Relation.TransGen g.Feeds a b ∨
        Relation.ReflTransGen g.Feeds a m ∧ Relation.ReflTransGen g.Feeds n b := by
    induction hab with
    | single hstep =>
      rcases hfeeds _ _ hstep with hold | ⟨rfl, rfl⟩
      · exact Or.inl (.single hold)
      · exact Or.inr ⟨.refl, .refl⟩
    | tail _ hstep ih =>
      rcases hfeeds _ _ hstep with hold | ⟨rfl, rfl⟩
      · rcases ih with hab | ⟨ham, hnb⟩
        · exact Or.inl (hab.tail hold)
        · exact Or.inr ⟨ham, hnb.tail hold⟩
      · rcases ih with hab | ⟨-, hnb⟩
        · exact Or.inr ⟨hab.to_reflTransGen, .refl⟩
        · exact absurd hnb hback
  intro k hk
  rcases hpath hk with hold | ⟨hkm, hnk⟩
  · exact h k hold
  · exact hback (hnk.trans hkm)

/-! ### The walk against the links -/

theorem mem_producers_iff : m ∈ g.producers n ↔ g.Feeds m n := by
  simp only [producers, linksIntoNode, List.mem_map, List.mem_filter, beq_iff_eq, Feeds]
  exact exists_congr fun link => by tauto

theorem exists_path_of_meets {goal : NodeId} {fuel : Nat} {stack seen : List NodeId}
    (h : g.meets goal fuel stack seen = true) :
    ∃ n ∈ stack, Relation.ReflTransGen g.Feeds goal n := by
  -- All that the walk puts on its stack lies on paths to the nodes that were there before.
  induction fuel generalizing stack seen with
  | zero => cases h
  | succ fuel ih =>
    cases stack with
    | nil => cases h
    | cons n stack =>
      rw [meets] at h
      split at h
      · rename_i hgoal
        exact ⟨n, List.mem_cons_self, hgoal ▸ .refl⟩
      · split at h
        -- A node that was seen before is dropped; any other makes way for its producers.
        · obtain ⟨k, hk, hpath⟩ := ih h
          exact ⟨k, List.mem_cons_of_mem n hk, hpath⟩
        · obtain ⟨k, hk, hpath⟩ := ih h
          rcases List.mem_append.mp hk with hk | hk
          · exact ⟨n, List.mem_cons_self, hpath.tail (mem_producers_iff.mp hk)⟩
          · exact ⟨k, List.mem_cons_of_mem n hk, hpath⟩

/-- A dependency that the walk finds is a path of links. -/
theorem reflTransGen_of_dependsOn (h : g.dependsOn n m = true) :
    Relation.ReflTransGen g.Feeds m n := by
  obtain ⟨k, hk, hpath⟩ := exists_path_of_meets h
  rw [List.mem_singleton] at hk
  exact hk ▸ hpath

/-- The links into nodes that a walk has not seen yet. -/
def unseenLinks (g : Graph) (seen : List NodeId) : List Link :=
  g.links.values.filter fun link => link.target.node ∉ seen

/-- When the walk sees a node, it puts the producer of each further link on its stack. -/
theorem length_unseenLinks_cons {seen : List NodeId} (hn : n ∉ seen) :
    (g.producers n).length + (g.unseenLinks (n :: seen)).length =
      (g.unseenLinks seen).length := by
  have hinto : (g.unseenLinks seen).filter (·.target.node == n) = g.linksIntoNode n := by
    rw [unseenLinks, List.filter_filter, linksIntoNode]
    refine List.filter_congr fun link _ => ?_
    by_cases hlink : link.target.node = n
    · simp [hlink, hn]
    · simp [hlink]
  have hrest : (g.unseenLinks seen).filter (fun link => !(link.target.node == n)) =
      g.unseenLinks (n :: seen) := by
    rw [unseenLinks, unseenLinks, List.filter_filter]
    refine List.filter_congr fun link _ => ?_
    by_cases hlink : link.target.node = n <;> simp [hlink]
  rw [producers, List.length_map, ← hinto, ← hrest, ← List.length_append]
  exact (List.filter_append_perm _ _).length_eq

/-- What feeds a node that a walk has seen was seen, too, or stands on the stack. -/
def Walked (g : Graph) (stack seen : List NodeId) : Prop :=
  ∀ k ∈ seen, ∀ m, g.Feeds m k → m ∈ seen ∨ m ∈ stack

/-- A path to a node of the walk from one that was not seen passes through the stack. -/
theorem Walked.ne_nil {stack seen : List NodeId} (h : g.Walked stack seen) (hm : m ∉ seen)
    (hpath : Relation.ReflTransGen g.Feeds m n) (hn : n ∈ seen ∨ n ∈ stack) : stack ≠ [] := by
  induction hpath with
  | refl => exact List.ne_nil_of_mem (hn.resolve_left hm)
  | tail _ hstep ih =>
    rcases hn with hn | hn
    · exact ih (h _ hn _ hstep)
    · exact List.ne_nil_of_mem hn

/-- A walk that may still follow every unseen link meets what lies on a path to one of its nodes. -/
theorem meets_eq_true {goal : NodeId} {fuel : Nat} {stack seen : List NodeId}
    (h : g.Walked stack seen) (hgoal : goal ∉ seen)
    (hfuel : stack.length + (g.unseenLinks seen).length ≤ fuel)
    (hpath : Relation.ReflTransGen g.Feeds goal n) (hn : n ∈ seen ∨ n ∈ stack) :
    g.meets goal fuel stack seen = true := by
  induction fuel generalizing stack seen with
  | zero =>
    have hlength := List.length_pos_iff.mpr (h.ne_nil hgoal hpath hn)
    omega
  | succ fuel ih =>
    cases stack with
    | nil => exact absurd rfl (h.ne_nil hgoal hpath hn)
    | cons k stack =>
      rw [List.length_cons] at hfuel
      rw [meets]
      split
      · rfl
      · rename_i hk
        split
        -- A node that was seen before leaves the stack and is still a node of the walk.
        · rename_i hseen
          have hdrop {j : NodeId} (hj : j ∈ seen ∨ j ∈ k :: stack) : j ∈ seen ∨ j ∈ stack := by
            rw [List.mem_cons] at hj
            rcases hj with hj | rfl | hj
            · exact Or.inl hj
            · exact Or.inl hseen
            · exact Or.inr hj
          exact ih (fun j hj m hm => hdrop (h j hj m hm)) hgoal (by omega) (hdrop hn)
        -- A new node is seen and makes way for its producers.
        · rename_i hseen
          have hcount := length_unseenLinks_cons (g := g) hseen
          have hmove {j : NodeId} (hj : j ∈ seen ∨ j ∈ k :: stack) :
              j ∈ k :: seen ∨ j ∈ g.producers k ++ stack := by
            rw [List.mem_cons] at hj
            rw [List.mem_cons, List.mem_append]
            rcases hj with hj | rfl | hj
            · exact Or.inl (Or.inr hj)
            · exact Or.inl (Or.inl rfl)
            · exact Or.inr (Or.inr hj)
          refine ih (fun j hj m hm => ?_) ?_ (by rw [List.length_append]; omega) (hmove hn)
          · rcases List.mem_cons.mp hj with rfl | hj
            · exact Or.inr (List.mem_append_left _ (mem_producers_iff.mpr hm))
            · exact hmove (h j hj m hm)
          · rw [List.mem_cons, not_or]
            exact ⟨Ne.symm hk, hgoal⟩

/-- The walk finds a dependency exactly if there is a path of links. -/
theorem dependsOn_eq_true_iff : g.dependsOn n m = true ↔ Relation.ReflTransGen g.Feeds m n := by
  refine ⟨reflTransGen_of_dependsOn, fun hpath => ?_⟩
  have hall : g.unseenLinks [] = g.links.values := by
    rw [unseenLinks, List.filter_eq_self]
    simp
  refine meets_eq_true (fun k hk => by cases hk) List.not_mem_nil ?_ hpath
    (Or.inr (List.mem_singleton_self n))
  rw [hall, Table.values, List.length_map, List.length_singleton, Nat.add_comm]
  exact Nat.le_refl _

end Graph

end ShaderGraph
