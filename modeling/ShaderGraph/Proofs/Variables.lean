import ShaderGraph.Proofs.Graph.Refusal
import ShaderGraph.Proofs.Shader

/-!
# The variables of exported code

Exported code introduces a variable for every exported node and one for every link that is declared
behind it. The names are made from two sorts of identifiers, but in the same way, so that a node and
a link with the same identifier have the same variable. A document can bring such a pair along, with
all its nodes and all its links told apart among themselves.

## Main definitions

* `Shader.introduced` — the variables that exported code introduces
* `Shader.Apart` — no exported node has the identifier of a declared link
* `Shader.Discerned` — output pins of one name have no declared links
* `Graph.Filed` — nodes and links are filed under the identifiers that they carry

## Main results

* `Shader.perm_introduced` — the variables, those of nodes before those of links
* `Graph.Filed.nodup_introduced_iff` — when the variables are distinct
* `GraphDocument.filed_toGraph` — the graph of any document is filed
* `GraphDocument.toGraph_nodup_introduced_iff` — when they are distinct for the graph of a document
* `GraphDocument.nodup_introduced` — they are if no node is recorded under the identifier of a link
-/

namespace ShaderGraph

/-- Nodes and links are filed under the identifiers that they carry. -/
structure Graph.Filed (g : Graph) : Prop where
  node : ∀ {n node}, g.node? n = some node → node.id = n
  link : ∀ {l link}, g.link? l = some link → link.id = l

namespace Shader

/-- The node whose code a part is. -/
def Part.code? : Part → Option NodeId
  | code n _ => some n
  | _ => none

/-- The variable that a part introduces. In the code of a node it stands where the template of the
definition names the result. -/
def Part.variable? : Part → Option String
  | heading _ => none
  | code n _ => some (nodeVariable n)
  | declaration link => some (linkVariable link.id)

/-- The nodes whose code is exported, in order. -/
def exportedNodes (g : Graph) (root : NodeId) : List NodeId :=
  (parts g root).filterMap Part.code?

/-- The links whose variables are declared, in order. -/
def aliasedLinks (g : Graph) (root : NodeId) : List Link :=
  (parts g root).filterMap Part.link?

/-- The variables that exported code introduces, in order: those of the exported nodes and those of
the links that are declared. -/
def introduced (g : Graph) (root : NodeId) : List String :=
  (parts g root).filterMap Part.variable?

/-- No exported node has the identifier of a link that is declared. -/
def Apart (g : Graph) (root : NodeId) : Prop :=
  ∀ n ∈ exportedNodes g root, ∀ link ∈ aliasedLinks g root, n.uuid ≠ link.id.uuid

/-- If an exported node has two output pins of one name, then no link from there is declared. -/
def Discerned (g : Graph) (root : NodeId) : Prop :=
  ∀ n ∈ exportedNodes g root, ∀ node, g.node? n = some node →
    node.outputs.Pairwise fun p q =>
      p.id = q.id → exportedLinks g (g.dependencyOrder root) ⟨n, p.id⟩ = []

variable {g : Graph} {included : List NodeId} {root n : NodeId}

/-! ### Nodes and links apart -/

/-- The variable of a node is that of a link with the same identifier. -/
theorem nodeVariable_eq_linkVariable : nodeVariable n = linkVariable ⟨n.uuid⟩ := rfl

theorem nodeVariable_eq_linkVariable_iff {l : LinkId} :
    nodeVariable n = linkVariable l ↔ n.uuid = l.uuid := by
  cases l
  rw [nodeVariable_eq_linkVariable, linkVariable_injective.eq_iff, LinkId.mk.injEq]

theorem nodeVariable_injective : Function.Injective nodeVariable := by
  rintro m ⟨u⟩ he
  rw [nodeVariable_eq_linkVariable (n := ⟨u⟩), nodeVariable_eq_linkVariable_iff] at he
  exact congrArg NodeId.mk he

/-- The variables of the nodes and those of the links, in two lists. -/
theorem perm_introduced : (introduced g root).Perm
    ((exportedNodes g root).map nodeVariable ++
      ((aliasedLinks g root).map Link.id).map linkVariable) := by
  rw [introduced, exportedNodes, aliasedLinks]
  induction parts g root with
  | nil => exact .nil
  | cons part ps ih =>
    cases part with
    | heading node => exact ih
    | code n text => exact ih.cons (nodeVariable n)
    | declaration link => exact (ih.cons (linkVariable link.id)).trans List.perm_middle.symm

theorem filterMap_code?_sectionParts : (sectionParts g included n).filterMap Part.code? =
    match g.node? n, snippet? g n with
    | some _, some _ => [n]
    | _, _ => [] := by
  rw [sectionParts]
  cases g.node? n with
  | none => rfl
  | some node =>
    cases snippet? g n with
    | none => rfl
    | some code =>
      have hlinks : ((declaredLinks g included node).map Part.declaration).filterMap
          Part.code? = [] := by
        rw [List.filterMap_map, List.filterMap_eq_nil_iff]
        exact fun _ _ => rfl
      rw [List.filterMap_cons_none (by rfl), List.filterMap_cons_some (by rfl), hlinks]

theorem mem_exportedNodes_iff : n ∈ exportedNodes g root ↔
    n ∈ g.dependencyOrder root ∧ (∃ node, g.node? n = some node) ∧
      ∃ code, snippet? g n = some code := by
  rw [exportedNodes, parts, List.filterMap_flatMap, List.mem_flatMap]
  constructor
  · rintro ⟨m, hm, hmem⟩
    rw [filterMap_code?_sectionParts] at hmem
    split at hmem
    · rename_i node code hnode hcode
      obtain rfl := List.mem_singleton.mp hmem
      exact ⟨hm, ⟨node, hnode⟩, code, hcode⟩
    · cases hmem
  · rintro ⟨hn, ⟨node, hnode⟩, code, hcode⟩
    refine ⟨n, hn, ?_⟩
    rw [filterMap_code?_sectionParts, hnode, hcode]
    exact List.mem_singleton_self n

/-- No node is exported twice. -/
theorem nodup_exportedNodes : (exportedNodes g root).Nodup := by
  rw [exportedNodes, parts, List.filterMap_flatMap]
  refine nodup_flatMap_of_key id Graph.nodup_dependencyOrder (fun n _ => ?_) fun n _ m hm => ?_
  · rw [filterMap_code?_sectionParts]
    split
    · exact List.nodup_singleton n
    · exact List.nodup_nil
  · rw [filterMap_code?_sectionParts] at hm
    split at hm
    · exact List.mem_singleton.mp hm
    · cases hm

end Shader

namespace Graph

open Shader

variable {g : Graph} {root n : NodeId} {node : Node} {link : Link}

/-! ### Links that are declared twice -/

/-- No link is declared twice if none leaves two pins of one name. -/
theorem Filed.nodup_aliasedLinks_iff (h : g.Filed) :
    (aliasedLinks g root).Nodup ↔ Discerned g root := by
  rw [aliasedLinks, nodup_links_parts_iff h.node, Discerned]
  constructor
  · intro hall n hn node hnode
    obtain ⟨horder, -, code, hcode⟩ := mem_exportedNodes_iff.mp hn
    have hlinks := hall n horder
    rw [filterMap_link?_sectionParts, hnode, hcode] at hlinks
    have hpairs := (nodup_declaredLinks_iff h.link).mp hlinks
    rwa [h.node hnode] at hpairs
  · intro hall n hn
    rw [filterMap_link?_sectionParts]
    split
    · rename_i node code hnode hcode
      have hpairs := hall n (mem_exportedNodes_iff.mpr ⟨hn, ⟨node, hnode⟩, code, hcode⟩) node hnode
      rw [← h.node hnode] at hpairs
      exact (nodup_declaredLinks_iff h.link).mpr hpairs
    · exact List.nodup_nil

theorem mem_values_of_mem_aliasedLinks (h : link ∈ aliasedLinks g root) :
    link ∈ g.links.values := by
  obtain ⟨part, hpart, hlink⟩ := List.mem_filterMap.mp h
  cases part with
  | heading | code => cases hlink
  | declaration link' => exact Option.some_inj.mp hlink ▸ (mem_links_of_mem_parts hpart).1

/-- The variables are distinct exactly if no exported node has the identifier of a declared link and
no link is declared for two pins of one name. -/
theorem Filed.nodup_introduced_iff (h : g.Filed) :
    (introduced g root).Nodup ↔ Apart g root ∧ Discerned g root := by
  have hnodes : ((exportedNodes g root).map nodeVariable).Nodup :=
    nodup_exportedNodes.map nodeVariable_injective
  have hlinks : (((aliasedLinks g root).map Link.id).map linkVariable).Nodup ↔
      Discerned g root := by
    rw [List.nodup_map_iff linkVariable_injective, ← h.nodup_aliasedLinks_iff]
    -- Distinct links of the table have distinct identifiers.
    refine ⟨.of_map _, fun hnodup => hnodup.map_on fun link hlink link' hlink' he => ?_⟩
    exact List.inj_on_of_nodup_map (nodup_map_id h.link) (mem_values_of_mem_aliasedLinks hlink)
      (mem_values_of_mem_aliasedLinks hlink') he
  have happart : List.Disjoint ((exportedNodes g root).map nodeVariable)
      (((aliasedLinks g root).map Link.id).map linkVariable) ↔ Apart g root := by
    simp only [Apart, List.disjoint_iff_ne, List.forall_mem_map, ne_eq,
      nodeVariable_eq_linkVariable_iff]
  rw [perm_introduced.nodup_iff, List.nodup_append', hlinks, happart, and_iff_right hnodes,
    and_comm]

/-- Where pins have names of their own, no link is declared twice. -/
theorem WellPinned.discerned (hp : g.WellPinned) : Discerned g root := by
  intro n _ node hnode
  exact (List.pairwise_map.mp (hp hnode).nodup_outputs).imp fun hne he => absurd he hne

/-! ### Loaded graphs -/

/-- A node after a record was loaded was there before or is filed under the record's identifier. -/
theorem node?_loadNode {rec : NodeRecord} (hn : (g.loadNode rec).node? n = some node) :
    n = rec.id ∨ g.node? n = some node := by
  rw [loadNode] at hn
  split at hn
  · rename_i loaded hload
    obtain ⟨-, d, -, rfl⟩ := NodeRecord.load?_eq_some_iff.mp hload
    have hid : (rec.applyTo (d.instantiate rec.id rec.position)).id = rec.id :=
      (congrArg Node.id (Node.skeleton_eq_of_wiring NodeRecord.wiring_applyTo) :)
    rw [node?_insertNode, hid] at hn
    split at hn
    · rename_i he
      exact Or.inl he
    · exact Or.inr hn
  · exact Or.inr hn

theorem node?_foldl_loadNode {recs : List NodeRecord}
    (hn : (recs.foldl loadNode g).node? n = some node) :
    (∃ rec ∈ recs, rec.id = n) ∨ g.node? n = some node := by
  induction recs generalizing g with
  | nil => exact Or.inr hn
  | cons rec recs ih =>
    rcases ih hn with ⟨rec', hrec', hid⟩ | hn
    · exact Or.inl ⟨rec', List.mem_cons_of_mem rec hrec', hid⟩
    · exact (node?_loadNode hn).imp_left fun he => ⟨rec, List.mem_cons_self, he.symm⟩

theorem node?_loadRoot {m : Option NodeId} : (g.loadRoot m).node? n = g.node? n := by
  cases m with
  | none => rfl
  | some m =>
    rw [loadRoot]
    split <;> rfl

theorem Filed.loadLink {rec : LinkRecord} (h : g.Filed) (hi : (g.loadLink rec).Instantiated) :
    (g.loadLink rec).Filed where
  node := hi.node_id
  link hl := by
    rcases link?_loadLink hl with ⟨-, hid⟩ | hl
    · exact hid
    · exact h.link hl

end Graph

namespace GraphDocument

open Shader

variable {d : GraphDocument} {r : Registry} {s : GraphSettings} {k : Nat} {root n : NodeId}
  {node : Node} {l : LinkId} {link : Link}

theorem filed_upTo : ((d.upTo k).toGraph r s).Filed := by
  induction k with
  | zero =>
    have hwell := (loading_upTo_zero (d := d) (r := r) (s := s)).loose.wellLinked
    exact ⟨hwell.node_id, hwell.link_id⟩
  | succ k ih =>
    cases hrec : d.links[k]? with
    | none => rw [upTo_succ_eq hrec]; exact ih
    | some rec =>
      have hinst := instantiated_upTo (d := d) (r := r) (s := s) (k := k + 1)
      rw [toGraph_upTo_succ hrec] at hinst ⊢
      exact ih.loadLink hinst

/-- The graph of any document is filed. -/
theorem filed_toGraph : (d.toGraph r s).Filed := by
  have hfiled := filed_upTo (d := d) (r := r) (s := s) (k := d.links.length)
  rwa [upTo_length] at hfiled

/-- The variables introduced by the code of a loaded graph are distinct exactly if no exported node
has the identifier of a declared link and no link is declared for two pins of one name. -/
theorem toGraph_nodup_introduced_iff (d : GraphDocument) (r : Registry) (s : GraphSettings)
    (root : NodeId) :
    (introduced (d.toGraph r s) root).Nodup ↔
      Apart (d.toGraph r s) root ∧ Discerned (d.toGraph r s) root :=
  filed_toGraph.nodup_introduced_iff

/-- Every node of a loaded graph has a record under its identifier. -/
theorem exists_nodeRecord (hn : ((d.upTo k).toGraph r s).node? n = some node) :
    ∃ rec ∈ d.nodes, rec.id = n := by
  have hskeleton := Graph.get?_skeletons_of_node? hn
  rw [(Graph.unlinked_congr unlinked_upTo).1] at hskeleton
  obtain ⟨node', hn', -⟩ := Graph.exists_of_get?_skeletons hskeleton
  rw [toGraph, upTo, List.take_zero, List.foldl_nil, Graph.node?_loadRoot] at hn'
  refine (Graph.node?_foldl_loadNode hn').resolve_right fun hempty => ?_
  cases hempty

/-- Every link of a loaded graph has a record under its identifier. -/
theorem exists_linkRecord (hl : ((d.upTo k).toGraph r s).link? l = some link) :
    ∃ rec ∈ d.links, rec.id = l := by
  induction k with
  | zero =>
    rw [Graph.link?, loading_upTo_zero.loose.links] at hl
    cases hl
  | succ k ih =>
    cases hrec : d.links[k]? with
    | none =>
      rw [upTo_succ_eq hrec] at hl
      exact ih hl
    | some rec =>
      rw [toGraph_upTo_succ hrec] at hl
      rcases Graph.link?_loadLink hl with ⟨rfl, -⟩ | hl
      · exact ⟨rec, List.mem_of_getElem? hrec, rfl⟩
      · exact ih hl

/-- Nothing collides where pins have names of their own and no node is recorded under the
identifier of a link. -/
theorem nodup_introduced (hr : r.UniquePins)
    (h : ∀ n ∈ d.nodes, ∀ l ∈ d.links, n.id.uuid ≠ l.id.uuid) :
    (introduced (d.toGraph r s) root).Nodup := by
  refine filed_toGraph.nodup_introduced_iff.mpr ⟨fun n hn link hlink => ?_,
    (wellPinned_toGraph hr).discerned⟩
  obtain ⟨-, ⟨node, hnode⟩, -⟩ := mem_exportedNodes_iff.mp hn
  obtain ⟨l, hl⟩ := Table.mem_values_iff.mp (Graph.mem_values_of_mem_aliasedLinks hlink)
  have hl : (d.toGraph r s).link? l = some link := hl
  rw [filed_toGraph.link hl]
  rw [← upTo_length (d := d)] at hnode hl
  obtain ⟨rec, hrec, rfl⟩ := exists_nodeRecord hnode
  obtain ⟨rec', hrec', rfl⟩ := exists_linkRecord hl
  exact h rec hrec rec' hrec'

/-- A constant linked to a material output under the identifier of the constant. -/
def namesake : GraphDocument where
  version := formatVersion
  name := "namesake"
  root := some ⟨⟨2⟩⟩
  nodes := [⟨⟨⟨1⟩⟩, "Constant", ⟨0, 0⟩, ∅, ∅⟩, ⟨⟨⟨2⟩⟩, "MaterialOutput", ⟨0, 0⟩, ∅, ∅⟩]
  links := [⟨⟨⟨1⟩⟩, ⟨⟨⟨1⟩⟩, "Output"⟩, ⟨⟨⟨2⟩⟩, "Metallic"⟩⟩]

/-- The variable of the constant is declared once more, for the link. -/
theorem not_nodup_introduced_namesake : ¬ ∀ (d : GraphDocument) (r : Registry) (s : GraphSettings)
    (root : NodeId), (d.nodes.map NodeRecord.id).Nodup → (d.links.map LinkRecord.id).Nodup →
      (introduced (d.toGraph r s) root).Nodup := by
  intro h
  have hnodup := h namesake .material .standard ⟨⟨2⟩⟩ (by decide) (by decide)
  have hintroduced : introduced (namesake.toGraph .material .standard) ⟨⟨2⟩⟩ =
      ["var_00000000000000000000000000000001", "var_00000000000000000000000000000001",
        "var_00000000000000000000000000000002"] := by decide
  rw [hintroduced] at hnodup
  exact absurd hnodup (by decide)

end GraphDocument

end ShaderGraph
