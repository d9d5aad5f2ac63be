import ShaderGraph.Proofs.Graph.Edits
import ShaderGraph.Proofs.Graph.Order

/-!
# What a node depends on, in any graph

The walk against the links finishes all that it enters: a node that is met again is finished or
open, and what is open is finished in the end. Hence the dependency order of a node lists what some
path of links leads from to the node. A producer that is met while it is open depends on the node
that it feeds, for the walk has come from it. So where there are no cycles among the nodes of the
order, producers stand before consumers.

## Main definitions

* `Graph.Closing` — what a walk has finished misses nothing but what is open
* `Graph.FeedsWithin` — some link leads from one node of a list to another

## Main results

* `Closing.visit` — a visit enters a node and finishes what it enters
* `Agrees.mem_dependencyOrder_iff` — the dependency order lists what the node depends on
* `Agrees.sorted_dependencyOrder` — whatever feeds a node stands before it or depends on it
* `Agrees.dependencyOrder_exactly` — all about the dependency order
-/

namespace ShaderGraph.Graph

/-- What a walk has entered is finished or open, and whatever feeds a finished node is entered, and
finished earlier unless it depends on that node. -/
structure Closing (g : Graph) (path : List NodeId) (w : Walk) : Prop where
  nodup : w.finished.Nodup
  entered : ∀ k, k ∈ w.entered ↔ k ∈ w.finished ∨ k ∈ path
  disjoint : ∀ k ∈ path, k ∉ w.finished
  closed : ∀ k ∈ w.finished, ∀ m, g.Feeds m k → m ∈ w.entered
  sorted : g.Sorted w.finished

/-- `w'` continues `w` with the open nodes as they were, has entered the nodes `ns`, and has
finished only what was finished before or feeds one of them, directly or not. -/
structure Closes (g : Graph) (path : List NodeId) (w w' : Walk) (ns : List NodeId) : Prop where
  closing : g.Closing path w'
  extended : w.entered ⊆ w'.entered
  entered : ns ⊆ w'.entered
  upstream : ∀ k ∈ w'.finished, k ∈ w.finished ∨ ∃ n ∈ ns, Relation.ReflTransGen g.Feeds k n

/-- Some link leads from one node of a list to another. -/
def FeedsWithin (g : Graph) (ns : List NodeId) (m n : NodeId) : Prop :=
  m ∈ ns ∧ n ∈ ns ∧ g.Feeds m n

variable {g : Graph} {m n root : NodeId} {node : Node} {path ns : List NodeId} {depth : Nat}
  {w : Walk}

theorem Closing.once (h : g.Closing path w) : Once path w where
  nodup := h.nodup
  entered k hk := (h.entered k).mpr hk
  disjoint := h.disjoint

theorem Closing.enter (h : g.Closing path w) (hnew : n ∉ w.entered) :
    g.Closing (n :: path) { w with entered := n :: w.entered } where
  nodup := h.nodup
  entered k := by
    rw [List.mem_cons, List.mem_cons, h.entered]
    tauto
  disjoint := (h.once.enter hnew).disjoint
  closed k hk m hm := List.mem_cons_of_mem n (h.closed k hk m hm)
  sorted := h.sorted

/-- The node that a walk has entered last is finished when all that feed it are entered. Those of
them that are open depend on the node, as it leads to all open nodes. -/
theorem Closing.finish (h : g.Closing (n :: path) w) (hpath : n ∉ path)
    (hopen : ∀ k ∈ path, Relation.ReflTransGen g.Feeds n k)
    (hfeeds : ∀ m, g.Feeds m n → m ∈ w.entered) :
    g.Closing path { w with finished := w.finished ++ [n] } where
  nodup := (h.once.finish hpath).nodup
  entered k := by
    rw [h.entered, List.mem_cons, List.mem_append, List.mem_singleton]
    tauto
  disjoint := (h.once.finish hpath).disjoint
  closed k hk m hm := by
    rcases List.mem_append.mp hk with hk | hk
    · exact h.closed k hk m hm
    · exact hfeeds m (List.mem_singleton.mp hk ▸ hm)
  sorted := by
    refine h.sorted.append fun m hm => ?_
    refine ((h.entered m).mp (hfeeds m hm)).imp_right fun hm => ?_
    rcases List.mem_cons.mp hm with rfl | hm
    · exact .refl
    · exact hopen m hm

/-- What each visit does, a sequence of visits does for all their nodes. -/
theorem Closes.foldl {f : Walk → NodeId → Walk} (hw : g.Closing path w)
    (hf : ∀ n ∈ ns, ∀ w, g.Closing path w → g.Closes path w (f w n) [n]) :
    g.Closes path w (ns.foldl f w) ns := by
  induction ns generalizing w with
  | nil => exact ⟨hw, List.Subset.refl _, List.nil_subset _, fun k hk => Or.inl hk⟩
  | cons n ns ih =>
    have hfirst := hf n List.mem_cons_self w hw
    have hrest := ih hfirst.closing fun k hk => hf k (List.mem_cons_of_mem n hk)
    refine ⟨hrest.closing, List.Subset.trans hfirst.extended hrest.extended, ?_, fun k hk => ?_⟩
    · exact List.cons_subset.mpr ⟨hrest.extended (hfirst.entered List.mem_cons_self), hrest.entered⟩
    · rcases hrest.upstream k hk with hk | ⟨m, hm, hpath⟩
      · refine (hfirst.upstream k hk).imp_right ?_
        rintro ⟨m, hm, hpath⟩
        exact ⟨n, List.mem_cons_self, List.mem_singleton.mp hm ▸ hpath⟩
      · exact Or.inr ⟨m, List.mem_cons_of_mem n hm, hpath⟩

/-- A visit of a node that leads to all open nodes enters this node, finishes what it enters, and
leaves open what was open. -/
theorem Closing.visit (hw : g.Closing path w) (h : g.Agrees) (hroom : g.Room depth path)
    (hopen : ∀ k ∈ path, Relation.ReflTransGen g.Feeds n k) (hn : g.node? n = some node) :
    g.Closes path w (g.visit depth w n) [n] := by
  induction depth generalizing path w n node with
  | zero => exact absurd rfl hroom.depth_ne_zero
  | succ depth ih =>
    rw [Graph.visit]
    split
    · rename_i hentered
      exact ⟨hw, List.Subset.refl _, List.cons_subset.mpr ⟨hentered, List.nil_subset _⟩,
        fun k hk => Or.inl hk⟩
    · rename_i hnew
      have hpath : n ∉ path := fun hmem => hnew ((hw.entered n).mpr (Or.inr hmem))
      rw [hn]
      dsimp only
      have hfeeding : g.Closes (n :: path) { w with entered := n :: w.entered }
          ((g.feeding node).foldl (g.visit depth) { w with entered := n :: w.entered })
          (g.feeding node) := by
        refine .foldl (hw.enter hnew) fun m hm w hw => ?_
        have hfeeds := (h.mem_feeding_iff hn).mp hm
        obtain ⟨producer, hproducer⟩ := h.exists_node?_of_feeds hfeeds
        refine ih hw (hroom.cons hn hpath) (fun k hk => ?_) hproducer
        rcases List.mem_cons.mp hk with rfl | hk
        · exact .single hfeeds
        · exact .head hfeeds (hopen k hk)
      have hself : n ∈ ((g.feeding node).foldl (g.visit depth)
          { w with entered := n :: w.entered }).entered := hfeeding.extended List.mem_cons_self
      refine ⟨hfeeding.closing.finish hpath hopen fun m hm => ?_, fun k hk => ?_,
        List.cons_subset.mpr ⟨hself, List.nil_subset _⟩, fun k hk => ?_⟩
      · exact hfeeding.entered ((h.mem_feeding_iff hn).mpr hm)
      · exact hfeeding.extended (List.mem_cons_of_mem n hk)
      -- What was finished on the way feeds a node that feeds this one.
      · rcases List.mem_append.mp hk with hk | hk
        · refine (hfeeding.upstream k hk).imp_right ?_
          rintro ⟨m, hm, hkm⟩
          exact ⟨n, List.mem_cons_self, hkm.tail ((h.mem_feeding_iff hn).mp hm)⟩
        · exact Or.inr ⟨n, List.mem_cons_self, List.mem_singleton.mp hk ▸ .refl⟩

/-- The walk from a node, begun with nothing entered, leaves nothing open. -/
theorem Agrees.closes_visit (h : g.Agrees) (hn : g.node? root = some node) :
    g.Closes [] ⟨[], []⟩ (g.visit (g.nodes.size + 1) ⟨[], []⟩ root) [root] := by
  have hempty : g.Closing [] ⟨[], []⟩ := ⟨List.nodup_nil, by simp, by simp, by simp, sorted_nil⟩
  exact hempty.visit h .nil (by simp) hn

/-- The dependency order of a node lists what the node depends on, and the node itself. -/
theorem Agrees.mem_dependencyOrder_iff (h : g.Agrees) (hn : g.node? root = some node) :
    n ∈ g.dependencyOrder root ↔ Relation.ReflTransGen g.Feeds n root := by
  have hcloses := h.closes_visit hn
  have hall (k : NodeId) : k ∈ (g.visit (g.nodes.size + 1) ⟨[], []⟩ root).entered ↔
      k ∈ (g.visit (g.nodes.size + 1) ⟨[], []⟩ root).finished := by
    rw [hcloses.closing.entered]
    simp
  rw [dependencyOrder_eq hn]
  constructor
  · intro hmem
    obtain hmem | ⟨m, hm, hpath⟩ := hcloses.upstream n hmem
    · cases hmem
    · exact List.mem_singleton.mp hm ▸ hpath
  · intro hpath
    induction hpath using Relation.ReflTransGen.head_induction_on with
    | refl => exact (hall root).mp (hcloses.entered List.mem_cons_self)
    | head hstep _ ih => exact (hall _).mp (hcloses.closing.closed _ ih _ hstep)

theorem Agrees.mem_dependencyOrder_self (h : g.Agrees) (hn : g.node? n = some node) :
    n ∈ g.dependencyOrder n :=
  (h.mem_dependencyOrder_iff hn).mpr .refl

theorem dependencyOrder_eq_nil (hn : g.node? root = none) : g.dependencyOrder root = [] := by
  have hroot : ¬ g.hasNode root = true := by
    rw [hasNode, Table.contains, ← node?, hn]
    exact Bool.false_ne_true
  rw [dependencyOrder, if_neg hroot]

/-- What the dependency order of a node lists is there. -/
theorem Agrees.exists_node?_of_mem_dependencyOrder (h : g.Agrees)
    (hmem : n ∈ g.dependencyOrder root) : ∃ node, g.node? n = some node := by
  cases hn : g.node? root with
  | none =>
    rw [dependencyOrder_eq_nil hn] at hmem
    cases hmem
  | some node =>
    rcases ((h.mem_dependencyOrder_iff hn).mp hmem).cases_head with rfl | ⟨m, hm, -⟩
    · exact ⟨node, hn⟩
    · exact h.exists_node?_of_feeds hm

/-- In the dependency order of a node, whatever feeds a node stands before it or depends on it. -/
theorem Agrees.sorted_dependencyOrder (h : g.Agrees) (root : NodeId) :
    g.Sorted (g.dependencyOrder root) := by
  cases hn : g.node? root with
  | none =>
    rw [dependencyOrder_eq_nil hn]
    exact sorted_nil
  | some node =>
    rw [dependencyOrder_eq hn]
    exact (h.closes_visit hn).closing.sorted

/-- Without cycles, producers stand before consumers. -/
theorem Agrees.ordered_dependencyOrder (h : g.Agrees) (hacyclic : g.Acyclic) (root : NodeId) :
    g.Ordered (g.dependencyOrder root) :=
  (h.sorted_dependencyOrder root).ordered hacyclic nodup_dependencyOrder
    fun _ hn => h.exists_node?_of_mem_dependencyOrder hn

/-- The walk from a node finishes this node last. -/
theorem getLast?_dependencyOrder (hn : g.node? root = some node) :
    (g.dependencyOrder root).getLast? = some root := by
  rw [dependencyOrder_eq hn, visit, if_neg List.not_mem_nil, hn]
  exact List.getLast?_concat

/-- A path between nodes of an order leads through nodes of the order. -/
theorem Agrees.reflTransGen_dependencyOrder (h : g.Agrees) (hn : m ∈ g.dependencyOrder root)
    (hpath : Relation.ReflTransGen g.Feeds n m) :
    Relation.ReflTransGen (g.FeedsWithin (g.dependencyOrder root)) n m := by
  cases hroot : g.node? root with
  | none =>
    rw [dependencyOrder_eq_nil hroot] at hn
    cases hn
  | some node =>
    have hmem {k : NodeId} (hk : Relation.ReflTransGen g.Feeds k m) :
        k ∈ g.dependencyOrder root :=
      (h.mem_dependencyOrder_iff hroot).mpr (hk.trans ((h.mem_dependencyOrder_iff hroot).mp hn))
    induction hpath using Relation.ReflTransGen.head_induction_on with
    | refl => exact .refl
    | head hstep hrest ih => exact .head ⟨hmem (.head hstep hrest), hmem hrest, hstep⟩ ih

/-- The dependency order of a node lists every existing node that the node depends on, once, and the
node itself last. If no cycle of links leads through nodes of the order alone, the producer of every
link between two of them stands before its consumer. -/
theorem Agrees.dependencyOrder_exactly (h : g.Agrees) (hroot : g.hasNode root = true) :
    (g.dependencyOrder root).Nodup ∧
    (∀ n, n ∈ g.dependencyOrder root ↔ g.hasNode n = true ∧ g.dependsOn root n = true) ∧
    (g.dependencyOrder root).getLast? = some root ∧
    ((∀ n, ¬ Relation.TransGen (g.FeedsWithin (g.dependencyOrder root)) n n) →
      ∀ l link, g.link? l = some link → link.source.node ∈ g.dependencyOrder root →
        link.target.node ∈ g.dependencyOrder root → ∃ before between after,
          g.dependencyOrder root =
            before ++ link.source.node :: (between ++ link.target.node :: after)) := by
  obtain ⟨node, hn⟩ := Option.isSome_iff_exists.mp hroot
  refine ⟨nodup_dependencyOrder, fun n => ?_, getLast?_dependencyOrder hn, ?_⟩
  · rw [h.mem_dependencyOrder_iff hn, dependsOn_eq_true_iff]
    refine ⟨fun hpath => ⟨?_, hpath⟩, And.right⟩
    have hmem := (h.mem_dependencyOrder_iff hn).mpr hpath
    exact Option.isSome_iff_exists.mpr (h.exists_node?_of_mem_dependencyOrder hmem)
  · intro hcycle l link hl hsource htarget
    have hfeeds : g.Feeds link.source.node link.target.node :=
      ⟨link, Table.mem_values_iff.mpr ⟨l, hl⟩, rfl, rfl⟩
    refine (h.sorted_dependencyOrder root).exists_eq_append htarget hfeeds fun hback => ?_
    -- A path back would close a cycle within the order.
    have hback := h.reflTransGen_dependencyOrder hsource hback
    exact hcycle link.source.node (Relation.TransGen.head' ⟨hsource, htarget, hfeeds⟩ hback)

/-- The bend depends on the constant, which comes first. -/
theorem dependencyOrder_exactly_bentWire : bentWire.Agrees ∧ bentWire.hasNode ⟨⟨2⟩⟩ = true ∧
    (bentWire.dependencyOrder ⟨⟨2⟩⟩).getLast? = some ⟨⟨2⟩⟩ ∧
    (∀ n, n ∈ bentWire.dependencyOrder ⟨⟨2⟩⟩ ↔
      bentWire.hasNode n = true ∧ bentWire.dependsOn ⟨⟨2⟩⟩ n = true) ∧
    ∃ before between after,
      bentWire.dependencyOrder ⟨⟨2⟩⟩ = before ++ ⟨⟨1⟩⟩ :: (between ++ ⟨⟨2⟩⟩ :: after) := by
  have hagrees := (authored_bentWire.kept Registry.uniquePins_material).wellLinked.agrees
  have hroot : bentWire.hasNode ⟨⟨2⟩⟩ = true := by decide
  obtain ⟨-, hmem, hlast, hsorted⟩ := hagrees.dependencyOrder_exactly hroot
  have hfeeds : bentWire.FeedsWithin (bentWire.dependencyOrder ⟨⟨2⟩⟩) ≤ bentWire.Feeds :=
    fun _ _ hab => hab.2.2
  have hcycle (n : NodeId) :
      ¬ Relation.TransGen (bentWire.FeedsWithin (bentWire.dependencyOrder ⟨⟨2⟩⟩)) n n :=
    fun hn => acyclic_bentWire n (Relation.TransGen.mono hfeeds n n hn)
  have hlink : bentWire.link? ⟨⟨3⟩⟩ =
      some ⟨⟨⟨3⟩⟩, ⟨⟨⟨1⟩⟩, "Output"⟩, ⟨⟨⟨2⟩⟩, "Input"⟩, .float⟩ := by decide
  exact ⟨hagrees, hroot, hlast, hmem, hsorted hcycle _ _ hlink (by decide) (by decide)⟩

end ShaderGraph.Graph
