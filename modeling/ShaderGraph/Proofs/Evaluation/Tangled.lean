import ShaderGraph.Proofs.Evaluation.Agreement
import ShaderGraph.Proofs.Locality

/-!
# Cycles and what depends on them

A node is tangled if it depends on a cycle. All other nodes make up a region without cycles,
whatever the rest of the graph is like: take the links into tangled nodes away, and plain recursion
says what the output pins of the others yield.

## Main definitions

* `Graph.Tangled` — a node depends on a cycle
* `Graph.untangled` — a graph without the links into tangled nodes

## Main results

* `Agrees.exists_recursion` — plain recursion determines what output pins of untangled nodes yield
-/

namespace ShaderGraph

namespace Graph

/-- A node depends on a cycle. -/
def Tangled (g : Graph) (n : NodeId) : Prop :=
  ∃ k, Relation.TransGen g.Feeds k k ∧ Relation.ReflTransGen g.Feeds k n

open Classical in
/-- A graph without the links into tangled nodes. -/
noncomputable def untangled (g : Graph) : Graph :=
  g.withoutLinks fun l => decide (∃ link, g.link? l = some link ∧ g.Tangled link.target.node)

variable {g g' : Graph} {m n : NodeId} {inside : NodeId → Prop} {l : LinkId} {link : Link}

/-- What feeds an untangled node is untangled. -/
theorem Tangled.of_feeds (h : g.Tangled m) (hm : g.Feeds m n) : g.Tangled n := by
  obtain ⟨k, hcycle, hpath⟩ := h
  exact ⟨k, hcycle, hpath.tail hm⟩

/-- A node that nothing feeds depends on itself alone. -/
theorem eq_of_reflTransGen (hn : ∀ m, ¬ g.Feeds m n) (h : Relation.ReflTransGen g.Feeds m n) :
    m = n := by
  rcases h.cases_tail with rfl | ⟨k, -, hk⟩
  · rfl
  · exact absurd hk (hn k)

theorem not_tangled (hn : ∀ m, ¬ g.Feeds m n) : ¬ g.Tangled n := by
  rintro ⟨k, hcycle, hpath⟩
  obtain rfl := eq_of_reflTransGen hn hpath
  obtain ⟨m, -, hm⟩ := Relation.TransGen.tail'_iff.mp hcycle
  exact hn m hm

theorem link?_untangled :
    g.untangled.link? l = some link ↔ g.link? l = some link ∧ ¬ g.Tangled link.target.node := by
  rw [untangled, link?_withoutLinks, decide_eq_false_iff_not]
  refine and_congr_right fun hl => not_congr ⟨?_, fun htangled => ⟨link, hl, htangled⟩⟩
  rintro ⟨link', hl', htangled⟩
  obtain rfl := Option.some_inj.mp (hl.symm.trans hl')
  exact htangled

/-- A cycle of the links that are left would be a cycle at an untangled node. -/
theorem acyclic_untangled : g.untangled.Acyclic := by
  have hfeeds : ∀ m n, g.untangled.Feeds m n → g.Feeds m n ∧ ¬ g.Tangled n := by
    rintro m n ⟨link, hmem, rfl, rfl⟩
    obtain ⟨l, hl⟩ := Table.mem_values_iff.mp hmem
    obtain ⟨hl, htangled⟩ := link?_untangled.mp hl
    exact ⟨⟨link, Table.mem_values_iff.mpr ⟨l, hl⟩, rfl, rfl⟩, htangled⟩
  intro n hcycle
  obtain ⟨m, -, hlast⟩ := Relation.TransGen.tail'_iff.mp hcycle
  exact (hfeeds m n hlast).2
    ⟨n, Relation.TransGen.mono (fun a b hab => (hfeeds a b hab).1) n n hcycle, .refl⟩

theorem Agrees.alike_untangled (h : g.Agrees) : Alike (¬ g.Tangled ·) g g.untangled := by
  refine h.alike_withoutLinks fun {l link} hl hin => ?_
  rw [decide_eq_false_iff_not]
  rintro ⟨link', hl', htangled⟩
  obtain rfl := Option.some_inj.mp (hl.symm.trans hl')
  exact hin htangled

/-- An input pin yields the same in a graph that reads alike. -/
theorem Alike.inputValue_eq (h : Alike inside g g') (hin : inside n)
    (value : PinRef → Option Evaluated) : g'.inputValue value n = g.inputValue value n := by
  funext pin
  rw [inputValue, inputValue, h.input?_eq hin, h.linkInto?_eq hin]

/-- Plain recursion determines what the output pins of untangled nodes yield. -/
theorem Agrees.exists_recursion (h : g.Agrees) (ev : Evaluator) :
    ∃ value, ev.Recursion g (¬ g.Tangled ·) value := by
  refine ⟨ev.reference g.untangled acyclic_untangled, fun m n hm hn htangled => ?_,
    fun n hn hcycle => hn ⟨n, hcycle, .refl⟩, fun n node hn hnode output => ?_⟩
  · exact hn (htangled.of_feeds hm)
  · obtain ⟨node', hnode', hread⟩ := h.alike_untangled.exists_node? hn hnode
    rw [Evaluator.reference_eq hnode', h.alike_untangled.inputValue_eq hn,
      Evaluator.evaluateNode_congr hread]

end Graph

end ShaderGraph
