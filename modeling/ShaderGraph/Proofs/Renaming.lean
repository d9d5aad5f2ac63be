import Mathlib.Data.Fintype.Sum
import Mathlib.Logic.Embedding.Basic
import ShaderGraph.Proofs.Evaluation.Sharing
import ShaderGraph.Proofs.Locality

/-!
# Identifiers and the order of tables

Identifiers are drawn at random, and the order of the tables tells of the history of a graph.
Neither has any bearing on what a graph means: with other identifiers and its entries in another
order, a graph evaluates to the same materials by the same steps, and its nodes depend on each other
as before. There may be cycles, and the pins need not agree with the table.

Two runs are compared step by step. What one of them remembers, counts and has visited is at all
times what the other does under the new names, so that every look-up succeeds in both or in neither.

## Main definitions

* `Renaming` — new identifiers for nodes and links, different ones for different ones
* `Graph.rename`, `Trace.rename` — a graph and a trace under new identifiers
* `Graph.Reorders` — the same nodes and links in another order
* `Graph.Renames` — what both together leave of a graph

## Main results

* `Renaming.exists_extends` — new identifiers for some nodes and links are enough
* `Renames.rel_resolveInput` — an input pin is resolved by the same steps
* `Renames.visit_eq` — the walk against the links enters and finishes the same nodes
* `Reorders.renamed` — materials, traces, orders and dependencies under new identifiers
-/

namespace ShaderGraph

/-- New identifiers for nodes and links. -/
structure Renaming where
  node : NodeId ↪ NodeId
  link : LinkId ↪ LinkId

/-! ### Identifiers that are left open -/

/-- A map that tells some elements of a finite type apart extends to one that tells all apart. -/
theorem exists_embedding_of_injOn {α : Type} [Finite α] {f : α → α} {s : Set α} (h : s.InjOn f) :
    ∃ e : α ↪ α, ∀ a ∈ s, e a = f a := by
  classical
  cases nonempty_fintype α
  have hmaps : s.MapsTo f (Finset.univ : Finset α) := fun _ _ => Finset.mem_univ _
  obtain ⟨e, he⟩ := hmaps.exists_equiv_extend_of_card_eq Finset.card_univ.symm h
  exact ⟨e.toEmbedding.trans (.subtype _), he⟩

/-- New identifiers for some nodes and links, as those of a graph, extend to all, as long as they
are different for different ones. -/
theorem Renaming.exists_extends {f : NodeId → NodeId} {k : LinkId → LinkId} {ns : Set NodeId}
    {ls : Set LinkId} (hf : ns.InjOn f) (hk : ls.InjOn k) :
    ∃ ρ : Renaming, (∀ n ∈ ns, ρ.node n = f n) ∧ ∀ l ∈ ls, ρ.link l = k l := by
  obtain ⟨e, he⟩ := exists_embedding_of_injOn hf
  obtain ⟨i, hi⟩ := exists_embedding_of_injOn hk
  exact ⟨⟨e, i⟩, he, hi⟩

variable {ρ : Renaming}

/-! ### Tables under new keys -/

namespace Table

universe u v w

variable {α : Type u} {β : Type v} {γ : Type w} {t t' : Table α β} {f : α ↪ γ} {k : α} {b : β}

/-- A table with its values under new keys. -/
def mapKeys (t : Table α β) (f : α ↪ γ) : Table γ β :=
  ⟨t.entries.map fun e => (f e.1, e.2), by
    have hkeys : (t.entries.map fun e => (f e.1, e.2)).map Prod.fst =
        (t.entries.map Prod.fst).map f := by
      simp [List.map_map, Function.comp_def]
    rw [hkeys]
    exact t.nodup.map f.injective⟩

/-- A table with its entries in reverse order. -/
def reverse (t : Table α β) : Table α β :=
  ⟨t.entries.reverse, by
    rw [List.map_reverse, List.nodup_reverse]
    exact t.nodup⟩

variable [DecidableEq α]

/-- Look-ups do not depend on the order of the entries. -/
theorem get?_of_perm (h : t.entries.Perm t'.entries) : t.get? k = t'.get? k := by
  apply Option.ext
  intro b
  rw [get?_eq_some_iff, get?_eq_some_iff, h.mem_iff]

variable [DecidableEq γ]

theorem get?_mapKeys : (t.mapKeys f).get? (f k) = t.get? k := by
  apply Option.ext
  intro b
  simp [get?_eq_some_iff, mapKeys]

theorem mapKeys_insert : (t.insert k b).mapKeys f = (t.mapKeys f).insert (f k) b := by
  apply ext
  simp only [mapKeys, entries_insert]
  induction t.entries with
  | nil => rfl
  | cons e es ih =>
    by_cases hk : e.1 = k
    · simp [insertIn, hk]
    · simp [insertIn, hk, ih]

end Table

/-! ### Graphs under new identifiers -/

/-- The address of a pin under new identifiers. -/
def PinRef.rename (ρ : Renaming) : PinRef ↪ PinRef where
  toFun r := ⟨ρ.node r.node, r.pin⟩
  inj' r r' h := by
    cases r
    cases r'
    obtain ⟨hnode, hpin⟩ := PinRef.mk.inj h
    rw [PinRef.mk.injEq]
    exact ⟨ρ.node.injective hnode, hpin⟩

/-- A link under new identifiers. -/
def Link.rename (ρ : Renaming) (l : Link) : Link :=
  ⟨ρ.link l.id, l.source.rename ρ, l.target.rename ρ, l.type⟩

/-- A pin that lists its links under new identifiers. -/
def Pin.rename (ρ : Renaming) (p : Pin) : Pin := { p with links := p.links.map ρ.link }

/-- A node under new identifiers. -/
def Node.rename (ρ : Renaming) (n : Node) : Node :=
  { n.mapPins (Pin.rename ρ) with id := ρ.node n.id }

namespace Graph

/-- A graph under new identifiers. -/
def rename (ρ : Renaming) (g : Graph) : Graph :=
  { g with
    nodes := (g.nodes.mapKeys ρ.node).mapValues fun _ => Node.rename ρ
    links := (g.links.mapKeys ρ.link).mapValues fun _ => Link.rename ρ
    root := g.root.map ρ.node }

/-- The same nodes and the same links in another order; what the outputs list may be in another
order, too. -/
structure Reorders (g g' : Graph) : Prop where
  nodes : (g'.nodes.mapValues fun _ => Node.reading).entries.Perm
    (g.nodes.mapValues fun _ => Node.reading).entries
  links : g'.links.entries.Perm g.links.entries

/-- `g'` has the nodes and the links of `g` under new identifiers. -/
structure Renames (ρ : Renaming) (g g' : Graph) : Prop where
  node : ∀ n, (g'.node? (ρ.node n)).map Node.reading =
    (g.node? n).map fun node => (node.rename ρ).reading
  link : ∀ l, g'.link? (ρ.link l) = (g.link? l).map (Link.rename ρ)
  links : g'.links.values.Perm (g.links.values.map (Link.rename ρ))
  size : g'.nodes.size = g.nodes.size
  inputCount : g'.inputCount = g.inputCount

variable {g g' : Graph} {m n root : NodeId} {node node' : Node} {l : LinkId} {link : Link}

/-- The entries of both tables may be in any order. -/
theorem Reorders.of_perm (hnodes : g'.nodes.entries.Perm g.nodes.entries)
    (hlinks : g'.links.entries.Perm g.links.entries) : g.Reorders g' where
  nodes := by
    rw [Table.entries_mapValues, Table.entries_mapValues]
    exact hnodes.map _
  links := hlinks

/-- A graph under new identifiers, in whatever order. -/
theorem Reorders.renames (h : (g.rename ρ).Reorders g') : Renames ρ g g' where
  node n := by
    have hget := Table.get?_of_perm (k := ρ.node n) h.nodes
    simp only [Table.get?_mapValues, rename, Table.get?_mapKeys, Option.map_map] at hget
    exact hget
  link l := by
    have hget := Table.get?_of_perm (k := ρ.link l) h.links
    simp only [rename, Table.get?_mapValues, Table.get?_mapKeys] at hget
    exact hget
  links := by
    have hperm := h.links.map Prod.snd
    simp only [rename, Table.entries_mapValues, Table.mapKeys, List.map_map] at hperm
    rw [Table.values, Table.values, List.map_map]
    exact hperm
  size := by
    have hlength := h.nodes.length_eq
    simpa [Table.size, rename, Table.mapKeys] using hlength
  inputCount := by
    have hlength := ((h.nodes.map Prod.snd).flatMap_right Node.inputs).length_eq
    simp only [inputCount, Table.values, rename, Table.mapKeys, Table.entries_mapValues,
      List.map_map, List.flatMap_map, List.length_flatMap, Function.comp_def] at hlength ⊢
    simpa [Node.reading, Node.rename] using hlength

/-! ### Dependencies -/

/-- A node that is there has a counterpart that is read as the renamed node. -/
theorem Renames.exists_node? (h : Renames ρ g g') (hn : g.node? n = some node) :
    ∃ node', g'.node? (ρ.node n) = some node' ∧ node'.reading = (node.rename ρ).reading := by
  have hnode := h.node n
  rwa [hn, Option.map_some, Option.map_eq_some_iff] at hnode

theorem Renames.node?_eq_none (h : Renames ρ g g') (hn : g.node? n = none) :
    g'.node? (ρ.node n) = none := by
  have hnode := h.node n
  rwa [hn, Option.map_none, Option.map_eq_none_iff] at hnode

theorem Renames.feeds (h : Renames ρ g g') (hm : g.Feeds m n) :
    g'.Feeds (ρ.node m) (ρ.node n) := by
  obtain ⟨link, hmem, rfl, rfl⟩ := hm
  exact ⟨link.rename ρ, h.links.mem_iff.mpr (List.mem_map_of_mem hmem), rfl, rfl⟩

/-- No link of a renamed graph touches a node that has no old name. -/
theorem Renames.exists_feeds {x y : NodeId} (h : Renames ρ g g') (hxy : g'.Feeds x y) :
    ∃ m n, ρ.node m = x ∧ ρ.node n = y ∧ g.Feeds m n := by
  obtain ⟨link', hmem, rfl, rfl⟩ := hxy
  obtain ⟨link, hlink, rfl⟩ := List.mem_map.mp (h.links.mem_iff.mp hmem)
  exact ⟨link.source.node, link.target.node, rfl, rfl, link, hlink, rfl, rfl⟩

theorem Renames.reflTransGen_iff (h : Renames ρ g g') :
    Relation.ReflTransGen g'.Feeds (ρ.node m) (ρ.node n) ↔ Relation.ReflTransGen g.Feeds m n := by
  constructor
  · intro hpath
    -- Every node on a path from a renamed node is a renamed node.
    have hold {y : NodeId} (hy : Relation.ReflTransGen g'.Feeds (ρ.node m) y) :
        ∃ k, ρ.node k = y ∧ Relation.ReflTransGen g.Feeds m k := by
      induction hy with
      | refl => exact ⟨m, rfl, .refl⟩
      | tail _ hstep ih =>
        obtain ⟨k, rfl, hmk⟩ := ih
        obtain ⟨a, b, ha, rfl, hab⟩ := h.exists_feeds hstep
        obtain rfl := ρ.node.injective ha
        exact ⟨b, rfl, hmk.tail hab⟩
    obtain ⟨k, hk, hmk⟩ := hold hpath
    exact ρ.node.injective hk ▸ hmk
  · intro hpath
    exact hpath.lift ρ.node fun _ _ hstep => h.feeds hstep

theorem Renames.dependsOn_eq (h : Renames ρ g g') :
    g'.dependsOn (ρ.node m) (ρ.node n) = g.dependsOn m n := by
  rw [Bool.eq_iff_iff, dependsOn_eq_true_iff, dependsOn_eq_true_iff, h.reflTransGen_iff]

/-- A walk under new identifiers. -/
def Walk.rename (ρ : Renaming) (w : Walk) : Walk :=
  ⟨w.entered.map ρ.node, w.finished.map ρ.node⟩

theorem Renames.feeding_eq (h : Renames ρ g g') (hread : node'.reading = (node.rename ρ).reading) :
    g'.feeding node' = (g.feeding node).map ρ.node := by
  rw [feeding_congr hread, feeding, feeding, List.map_filterMap]
  have hlisted : (node.rename ρ).inputs.flatMap Pin.links =
      (node.inputs.flatMap Pin.links).map ρ.link := by
    simp [Node.rename, Pin.rename, List.flatMap_map, List.map_flatMap]
  rw [hlisted, List.filterMap_map]
  refine List.filterMap_congr fun l _ => ?_
  rw [Function.comp_apply, h.link, Option.map_map, Option.map_map]
  rfl

/-- The walk against the links enters and finishes the same nodes, in the same order. -/
theorem Renames.visit_eq (h : Renames ρ g g') {depth : Nat} {w : Walk} :
    g'.visit depth (w.rename ρ) (ρ.node n) = (g.visit depth w n).rename ρ := by
  induction depth generalizing w n with
  | zero => rfl
  | succ depth ih =>
    have hentered : ρ.node n ∈ (w.rename ρ).entered ↔ n ∈ w.entered :=
      List.mem_map_of_injective ρ.node.injective
    -- The nodes that feed the node are visited in the order of its inputs.
    have hfoldl (ns : List NodeId) (w : Walk) :
        (ns.map ρ.node).foldl (g'.visit depth) (w.rename ρ) =
          (ns.foldl (g.visit depth) w).rename ρ := by
      induction ns generalizing w with
      | nil => rfl
      | cons m ns ihns => rw [List.map_cons, List.foldl_cons, List.foldl_cons, ih, ihns]
    rw [visit, visit]
    by_cases hnew : n ∈ w.entered
    · rw [if_pos hnew, if_pos (hentered.mpr hnew)]
    · rw [if_neg hnew, if_neg (mt hentered.mp hnew)]
      cases hn : g.node? n with
      | none =>
        rw [h.node?_eq_none hn]
        rfl
      | some node =>
        obtain ⟨node', hn', hread⟩ := h.exists_node? hn
        have hfeeding : ((g.feeding node).map ρ.node).foldl (g'.visit depth)
            { w.rename ρ with entered := ρ.node n :: (w.rename ρ).entered } =
            ((g.feeding node).foldl (g.visit depth)
              { w with entered := n :: w.entered }).rename ρ :=
          hfoldl (g.feeding node) { w with entered := n :: w.entered }
        rw [hn']
        dsimp only
        rw [h.feeding_eq hread, hfeeding]
        simp [Walk.rename]

theorem Renames.dependencyOrder_eq (h : Renames ρ g g') :
    g'.dependencyOrder (ρ.node root) = (g.dependencyOrder root).map ρ.node := by
  cases hn : g.node? root with
  | none =>
    have hnone := h.node?_eq_none hn
    simp only [node?] at hn hnone
    simp [dependencyOrder, hasNode, Table.contains, hn, hnone]
  | some node =>
    obtain ⟨node', hn', -⟩ := h.exists_node? hn
    have hvisit : g'.visit (g.nodes.size + 1) (Walk.rename ρ ⟨[], []⟩) (ρ.node root) =
        (g.visit (g.nodes.size + 1) ⟨[], []⟩ root).rename ρ := h.visit_eq
    rw [Graph.dependencyOrder_eq hn, Graph.dependencyOrder_eq hn', h.size]
    exact congrArg Walk.finished hvisit

end Graph

/-! ### Evaluation -/

/-- A trace under new identifiers. -/
def Trace.rename (ρ : Renaming) (t : Trace) : Trace :=
  { t with evaluations := t.evaluations.mapKeys ρ.node }

/-- A memory and a trace under new identifiers. -/
def Scope.rename (ρ : Renaming) (s : Scope) : Scope :=
  ⟨s.memo.mapKeys (PinRef.rename ρ), s.trace.rename ρ⟩

theorem Scope.rename_noteEvaluation {s : Scope} {n : NodeId} :
    (s.mapTrace (·.noteEvaluation n)).rename ρ =
      (s.rename ρ).mapTrace (·.noteEvaluation (ρ.node n)) := by
  simp only [mapTrace, Trace.noteEvaluation, rename, Trace.rename, Trace.evaluationsOf,
    Table.get?_mapKeys, Table.mapKeys_insert]

theorem Scope.rename_remember {s : Scope} {r : PinRef} {v : Option Evaluated} :
    (s.remember r v).rename ρ = (s.rename ρ).remember (r.rename ρ) v := by
  simp only [remember, rename, Table.mapKeys_insert]

theorem Node.input?_rename {node : Node} {pin : String} :
    (node.rename ρ).input? pin = (node.input? pin).map (Pin.rename ρ) :=
  Node.find?_map_pins fun _ => rfl

/-- Two runs are at the same point if the scope of one is that of the other under the new names. -/
abbrev Renaming.runs (ρ : Renaming) : MonadRelation (StateM Scope) (StateM Scope) :=
  .matching fun s t => t = s.rename ρ

namespace Graph

open MonadRelation

variable {g g' : Graph} {root : NodeId} {node node' : Node} {ev : Evaluator} {depth : Nat}
  {visited : List PinRef}

/-- The rule of a node runs by the same steps if its inputs are read by the same steps. -/
theorem rel_runNode {read read' : String → StateM Scope (Option Evaluated)} {output : String}
    (hread : node'.reading = (node.rename ρ).reading)
    (h : ∀ pin, ρ.runs.Rel (read pin) (read' pin)) :
    ρ.runs.Rel (ev.runNode node output read) (ev.runNode node' output read') := by
  have hid : node'.id = ρ.node node.id := (congrArg Node.id hread :)
  -- The rule looks at the key and the properties of the node, which have kept their names.
  have hrule : ev.evaluateNode node' output read' = ev.evaluateNode node output read' :=
    (Evaluator.evaluateNode_congr hread).trans rfl
  rw [Evaluator.runNode, Evaluator.runNode, hid, hrule]
  exact rel_modify_matching (fun s t hst => by rw [hst, Scope.rename_noteEvaluation])
    (rel_evaluateNode h)

/-- An input pin is resolved by the same steps. -/
theorem Renames.rel_resolveInput (h : Renames ρ g g')
    (hread : node'.reading = (node.rename ρ).reading) {pin : String} :
    ρ.runs.Rel (ev.resolveInput g depth visited node pin)
      (ev.resolveInput g' depth (visited.map (PinRef.rename ρ)) node' pin) := by
  induction depth generalizing visited node node' pin with
  | zero => exact ρ.runs.rel_pure none
  | succ depth ih =>
    have hid : node'.id = ρ.node node.id := (congrArg Node.id hread :)
    have hvisited : (⟨ρ.node node.id, pin⟩ : PinRef) ∈ visited.map (PinRef.rename ρ) ↔
        (⟨node.id, pin⟩ : PinRef) ∈ visited :=
      List.mem_map_of_injective (a := ⟨node.id, pin⟩) (PinRef.rename ρ).injective
    rw [Evaluator.resolveInput, Evaluator.resolveInput, hid]
    by_cases hmet : (⟨node.id, pin⟩ : PinRef) ∈ visited
    · rw [if_pos hmet, if_pos (hvisited.mpr hmet)]
      exact rel_modify_matching (fun s t hst => by rw [hst]; rfl) (ρ.runs.rel_pure none)
    · rw [if_neg hmet, if_neg (mt hvisited.mp hmet), Node.input?_congr hread, Node.input?_rename]
      cases node.input? pin with
      | none => exact ρ.runs.rel_pure none
      | some p =>
        dsimp only [Option.map_some, Pin.rename]
        cases p.links with
        | nil => exact ρ.runs.rel_pure p.defaultValue?
        | cons l ls =>
          rw [List.map_cons]
          dsimp only
          rw [h.link]
          cases g.link? l with
          | none => exact ρ.runs.rel_pure none
          | some link =>
            refine rel_get_matching fun s t hst => ?_
            have hmemo : t.memo.get? (link.rename ρ).source = s.memo.get? link.source := by
              rw [hst]
              exact Table.get?_mapKeys
            rw [hmemo]
            cases s.memo.get? link.source with
            | some known =>
              exact rel_modify_matching (fun s t hst => by rw [hst]; rfl) (ρ.runs.rel_pure known)
            | none =>
              have hsource : (link.rename ρ).source.node = ρ.node link.source.node := rfl
              rw [hsource]
              cases hn : g.node? link.source.node with
              | none =>
                rw [h.node?_eq_none hn]
                exact ρ.runs.rel_pure none
              | some producer =>
                obtain ⟨producer', hn', hread'⟩ := h.exists_node? hn
                rw [hn']
                have hrun : ρ.runs.Rel
                    (ev.runNode producer link.source.pin
                      (ev.resolveInput g depth (⟨node.id, pin⟩ :: visited) producer))
                    (ev.runNode producer' link.source.pin (ev.resolveInput g' depth
                      (⟨ρ.node node.id, pin⟩ :: visited.map (PinRef.rename ρ)) producer')) :=
                  rel_runNode hread' fun _ => ih hread'
                exact ρ.runs.rel_bind hrun fun v => rel_modify_matching
                  (fun s t hst => by rw [hst, Scope.rename_remember]; rfl) (ρ.runs.rel_pure v)

/-- The inputs of a root are assigned by the same steps. -/
theorem Renames.rel_assignInput (h : Renames ρ g g')
    (hread : node'.reading = (node.rename ρ).reading) (a : MaterialAttributes) (p : Pin) :
    ρ.runs.Rel (ev.assignInput g node a p) (ev.assignInput g' node' a (p.rename ρ)) := by
  have hdepth : Evaluator.depthBound g' = Evaluator.depthBound g := congrArg (· + 1) h.inputCount
  rw [Evaluator.assignInput, Evaluator.assignInput, hdepth]
  have hname : (p.rename ρ).name = p.name := rfl
  rw [hname]
  cases Channel.ofPinName? p.name with
  | none => exact ρ.runs.rel_pure a
  | some c =>
    refine ρ.runs.rel_bind (h.rel_resolveInput hread) fun v => ?_
    cases v with
    | none => exact ρ.runs.rel_pure a
    | some v => exact ρ.runs.rel_pure _

/-- The material at a node is the same, and its trace is the same under the new names. -/
theorem Renames.evaluateTraced_eq (h : Renames ρ g g') : ev.evaluateTraced g' (ρ.node root) =
    ((ev.evaluateTraced g root).1, (ev.evaluateTraced g root).2.rename ρ) := by
  rw [Evaluator.evaluateTraced, Evaluator.evaluateTraced]
  cases hn : g.node? root with
  | none =>
    rw [h.node?_eq_none hn]
    rfl
  | some node =>
    obtain ⟨node', hn', hread⟩ := h.exists_node? hn
    have hinputs : node'.inputs = node.inputs.map (Pin.rename ρ) := (congrArg Node.inputs hread :)
    have hruns : ρ.runs.Rel (node.inputs.foldlM (ev.assignInput g node) ∅)
        (node'.inputs.foldlM (ev.assignInput g' node') ∅) := by
      rw [hinputs, List.foldlM_map]
      exact rel_foldlM (fun p _ a => h.rel_assignInput hread a p) ∅
    obtain ⟨hvalue, hscope⟩ := hruns Scope.empty Scope.empty rfl
    rw [hn']
    exact Prod.ext hvalue.symm (congrArg Scope.trace hscope)

/-- Identifiers and the order of the tables have no bearing on materials, on what happens while they
are evaluated, on the order of dependencies and on what depends on what. -/
theorem Reorders.renamed (h : (g.rename ρ).Reorders g') :
    (∀ (ev : Evaluator) (root : NodeId), ev.evaluate g' (ρ.node root) = ev.evaluate g root) ∧
    (∀ (ev : Evaluator) (root : NodeId), ev.evaluateTraced g' (ρ.node root) =
      ((ev.evaluateTraced g root).1, (ev.evaluateTraced g root).2.rename ρ)) ∧
    (∀ root, g'.dependencyOrder (ρ.node root) = (g.dependencyOrder root).map ρ.node) ∧
    ∀ m n, g'.dependsOn (ρ.node m) (ρ.node n) = g.dependsOn m n :=
  ⟨fun ev root => by rw [Evaluator.evaluate, h.renames.evaluateTraced_eq, Evaluator.evaluate],
    fun _ _ => h.renames.evaluateTraced_eq, fun _ => h.renames.dependencyOrder_eq,
    fun _ _ => h.renames.dependsOn_eq⟩

/-- A graph with both of its tables in reverse order. -/
def reversed (g : Graph) : Graph :=
  { g with nodes := g.nodes.reverse, links := g.links.reverse }

theorem reorders_reversed : g.Reorders g.reversed :=
  .of_perm (List.reverse_perm _) (List.reverse_perm _)

end Graph

/-- All bits of all identifiers inverted. -/
def Renaming.inverted : Renaming where
  node := ⟨fun n => ⟨⟨~~~n.uuid.value⟩⟩, fun m n h => by
    obtain ⟨⟨a⟩⟩ := m
    obtain ⟨⟨b⟩⟩ := n
    simpa using h⟩
  link := ⟨fun l => ⟨⟨~~~l.uuid.value⟩⟩, fun l l' h => by
    obtain ⟨⟨a⟩⟩ := l
    obtain ⟨⟨b⟩⟩ := l'
    simpa using h⟩

namespace Graph

/-- A product that feeds itself, under other identifiers and in reverse order. -/
theorem renamed_loopedTexture :
    (loopedTexture.rename .inverted).Reorders (loopedTexture.rename .inverted).reversed ∧
    (loopedTexture.rename .inverted).reversed.links.keys =
      [⟨⟨~~~7⟩⟩, ⟨⟨~~~6⟩⟩, ⟨⟨~~~5⟩⟩, ⟨⟨~~~4⟩⟩] ∧
    loopedTexture.dependencyOrder ⟨⟨9⟩⟩ = [⟨⟨1⟩⟩, ⟨⟨2⟩⟩, ⟨⟨3⟩⟩, ⟨⟨9⟩⟩] ∧
    (loopedTexture.rename .inverted).reversed.dependencyOrder ⟨⟨~~~9⟩⟩ =
      [⟨⟨~~~1⟩⟩, ⟨⟨~~~2⟩⟩, ⟨⟨~~~3⟩⟩, ⟨⟨~~~9⟩⟩] ∧
    ∀ ev : Evaluator, ev.evaluate (loopedTexture.rename .inverted).reversed ⟨⟨~~~9⟩⟩ =
      ev.evaluate loopedTexture ⟨⟨9⟩⟩ := by
  have hreorders := reorders_reversed (g := loopedTexture.rename .inverted)
  have horder : loopedTexture.dependencyOrder ⟨⟨9⟩⟩ = [⟨⟨1⟩⟩, ⟨⟨2⟩⟩, ⟨⟨3⟩⟩, ⟨⟨9⟩⟩] := by
    decide +kernel
  obtain ⟨hmaterial, -, hrenamed, -⟩ := hreorders.renamed
  refine ⟨hreorders, by decide +kernel, horder, ?_, fun ev => hmaterial ev ⟨⟨9⟩⟩⟩
  have hlist := hrenamed ⟨⟨9⟩⟩
  rw [horder] at hlist
  exact hlist

end Graph

end ShaderGraph
