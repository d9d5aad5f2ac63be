import ShaderGraph.Proofs.Graph.Acyclic
import ShaderGraph.Proofs.Graph.Loading

/-!
# Saving and loading a graph

The document of a graph that was made by edits is loaded back into the same graph, up to defaults
that agree as numbers with the declared ones. Its records are replayed one by one: no node finds its
definition taken, and no link is refused or takes the place of another. What was not written down is
made anew, and the order of the links at each pin comes back with the order of the table, for a
well-linked graph is determined by its links and by what it is without them.

## Main definitions

* `Graph.restored` — a graph with the declared defaults where they agree
* `Pin.Restores`, `Node.Restores` — equality up to defaults that agree

## Main results

* `WellLinked.eq_of_unlinked` — well-linked graphs with the same links
* `foldl_loadNode`, `foldl_loadLink` — how the nodes and the links of a document are replayed
* `Graph.toGraph_toDocument` — loading a saved graph, as an equation
* `Authored.toGraph_toDocument_restores` — the same for every graph that is made by edits
-/

namespace ShaderGraph

/-- The same pin, up to a default that agrees. -/
structure Pin.Restores (p' p : Pin) : Prop where
  wiring : p'.wiring = p.wiring
  default : p'.default = p.default ∨ defaultsAgree p'.default p.default = true

/-- The same node, up to defaults that agree. -/
structure Node.Restores (n' n : Node) : Prop where
  id : n'.id = n.id
  key : n'.key = n.key
  title : n'.title = n.title
  position : n'.position = n.position
  properties : n'.properties = n.properties
  inputs : List.Forall₂ Pin.Restores n'.inputs n.inputs
  outputs : List.Forall₂ Pin.Restores n'.outputs n.outputs

theorem Node.restores_restored {n : Node} {d : Option NodeDefinition} :
    (n.restored d).Restores n := by
  have hpins (ps : List Pin) : List.Forall₂ Pin.Restores (ps.map (Pin.restored d)) ps := by
    rw [List.forall₂_map_left_iff, List.forall₂_same]
    exact fun p _ => ⟨Pin.wiring_restored, Pin.default_restored⟩
  exact ⟨rfl, rfl, rfl, rfl, rfl, hpins n.inputs, hpins n.outputs⟩

namespace Graph

/-- A graph under the cycle policy of some settings, with the declared defaults where they agree. -/
def restored (g : Graph) (s : GraphSettings) : Graph :=
  { g with
    nodes := g.nodes.mapValues fun _ n => n.restored (g.definition? n)
    cyclePolicy := s.cyclePolicy }

variable {g g' k : Graph} {s : GraphSettings} {r : PinRef} {p : Pin} {link : Link} {n : NodeId}
  {node : Node}

/-! ### Links determine where they are listed -/

/-- A well-linked graph is determined by its links and by what it is without them. -/
theorem WellLinked.eq_of_unlinked (h : g.WellLinked) (h' : g'.WellLinked)
    (hu : g'.unlinked = g.unlinked) (hl : g'.links = g.links) : g' = g := by
  -- Pins that are equal without their links list those that the common table has for them.
  have hpins {ps' ps : List Pin} (hps : ps'.map Pin.unlinked = ps.map Pin.unlinked)
      (hlinks : ∀ p' ∈ ps', ∀ p ∈ ps, p'.id = p.id → p'.links = p.links) : ps' = ps := by
    rw [← List.map_id ps', ← List.map_id ps]
    refine map_eq_map_of_map_eq hps fun p' hp' p hp he => ?_
    have hid : p'.id = p.id := (congrArg Pin.id he :)
    exact Pin.eq_of_skeleton (Pin.skeleton_eq_of_unlinked he) (congrArg Pin.default he :)
      (hlinks p' hp' p hp hid)
  have hnodes : g'.nodes = g.nodes := by
    have hentries : g'.unlinked.nodes.entries = g.unlinked.nodes.entries := by rw [hu]
    apply Table.ext
    rw [← List.map_id g'.nodes.entries, ← List.map_id g.nodes.entries]
    refine map_eq_map_of_map_eq hentries ?_
    rintro ⟨n, node'⟩ hn' ⟨m, node⟩ hn he
    obtain ⟨rfl, he⟩ := Prod.mk.inj he
    have hn' : g'.node? n = some node' := Table.get?_eq_some_iff.mpr hn'
    have hn : g.node? n = some node := Table.get?_eq_some_iff.mpr hn
    obtain ⟨hid, hkey, htitle, hposition, hin, hout, hproperties⟩ := Node.mk.inj he
    have hinputs : node'.inputs = node.inputs := hpins hin fun p' hp' p hp hid => by
      rw [h'.links_input hn' hp', h.links_input hn hp, hid, linksInto, linksInto, hl]
    have houtputs : node'.outputs = node.outputs := hpins hout fun p' hp' p hp hid => by
      rw [h'.links_output hn' hp', h.links_output hn hp, hid, linksFrom, linksFrom, hl]
    cases node'
    cases node
    simp_all
  obtain ⟨hname, hregistry, -, -, hroot, hpolicy⟩ := Graph.mk.inj hu
  cases g'
  cases g
  rw [Graph.mk.injEq]
  exact ⟨hname, hregistry, hnodes, hl, hroot, hpolicy⟩

/-! ### Replaying the links -/

/-- A link into a free pin is replayed as it is. -/
theorem WellLinked.loadLink_toRecord {output input : Pin} (h : g.WellLinked) (hp : g.WellPinned)
    (hs : g.output? link.source = some output) (hst : output.type = link.type)
    (ht : g.input? link.target = some input) (hfree : input.links = [])
    (hc : g.registry.compatibility.canConnect link.type input.type = true)
    (hcycle : g.cyclePolicy = .reject → ¬ g.dependsOn link.source.node link.target.node = true) :
    g.loadLink link.toRecord = g.withLink link := by
  have hends : g.Orients link.source link.target link.source link.target output input :=
    ⟨Or.inl ⟨rfl, rfl⟩, hs, ht⟩
  -- The target lists nothing, so that nothing is taken away before the link comes in.
  have hkept : g.withoutLinks input.links.contains = g :=
    h.agrees.withoutLinks_eq_self fun _ => by rw [hfree]; rfl
  have hresult : (g.breakPin link.target).insertLink
      ⟨link.id, link.source, link.target, output.type⟩ = g.withLink link := by
    rw [h.agrees.connect_eq hp hends, hkept, hst]
  have hconnect : g.connect link.source link.target link.id = .ok (g.withLink link) :=
    (connect_eq_ok_iff hp).mpr ⟨link.source, link.target, output, input, hends,
      by rw [hst]; exact hc, fun hreject => hcycle hreject.1 hreject.2, hresult⟩
  rw [Graph.loadLink, Link.toRecord]
  dsimp only
  rw [hconnect]

/-- What is known of a graph `g` that is `k` with only the links in `done` so far. -/
structure Replaying (k : Graph) (done : List (LinkId × Link)) (g : Graph) : Prop where
  wellLinked : g.WellLinked
  unlinked : g.unlinked = k.unlinked
  links : g.links.entries = done

variable {done rest : List (LinkId × Link)} {e : LinkId × Link}

theorem withoutLinks_true : (k.withoutLinks fun _ => true) = k.unlinked := by
  have hpin : (Pin.without fun _ => true) = Pin.unlinked := by
    funext p
    simp [Pin.without, Pin.unlinked]
  have hlinks : (k.links.filter fun _ _ => !true) = ∅ := by
    apply Table.ext
    simp
  rw [withoutLinks, unlinked, hpin, hlinks]

/-- Before the first link. -/
theorem Replaying.start (hk : k.WellLinked) : Replaying k [] k.unlinked where
  wellLinked := by
    rw [← withoutLinks_true]
    exact hk.withoutLinks
  unlinked :=
    calc k.unlinked.unlinked = (k.withoutLinks fun _ => true).unlinked := by rw [withoutLinks_true]
      _ = k.unlinked := unlinked_withoutLinks
  links := rfl

/-- The next link is neither refused, nor does it take the place of another. -/
theorem Replaying.loadLink (h : Replaying k done g) (hk : k.WellLinked) (hp : k.WellPinned)
    (hcycle : k.cyclePolicy = .reject → k.Acyclic)
    (hentries : k.links.entries = done ++ e :: rest) :
    Replaying k (done ++ [e]) (g.loadLink e.2.toRecord) := by
  have hpg : g.WellPinned := hp.of_skeletons (unlinked_congr h.unlinked).1
  obtain ⟨hlink, hbefore⟩ := Table.get?_of_entries_eq hentries
  have hlink : k.link? e.1 = some e.2 := hlink
  have hid : e.2.id = e.1 := hk.link_id hlink
  have hearlier {l : LinkId} {link : Link} (hl : g.link? l = some link) :
      k.link? l = some link ∧ l ≠ e.1 := by
    rw [link?, Table.get?_eq_some_iff, h.links] at hl
    exact hbefore _ hl
  have hfresh : g.link? e.2.id = none := by
    rw [Option.eq_none_iff_forall_not_mem]
    exact fun link hl => (hearlier hl).2 hid
  obtain ⟨output, hout, htype⟩ := hk.source hlink
  obtain ⟨input, hin, hcan⟩ := hk.target hlink
  -- The pins are there as in the whole graph, but for the links at them.
  obtain ⟨output', hout', houtput⟩ := exists_output?_of_unlinked h.unlinked hout
  obtain ⟨input', hin', hinput⟩ := exists_input?_of_unlinked h.unlinked hin
  have htype' : output'.type = e.2.type := (congrArg Pin.type houtput :).trans htype
  have hcan' : g.registry.compatibility.canConnect e.2.type input'.type = true := by
    have hintype : input'.type = input.type := (congrArg Pin.type hinput :)
    rw [(unlinked_congr h.unlinked).2, hintype]
    exact hcan
  -- The pin is free: an earlier link into it would be a second one in the whole graph.
  have hfree : input'.links = [] := by
    rw [List.eq_nil_iff_forall_not_mem]
    intro l hl
    obtain ⟨link, hl, htarget⟩ := (h.wellLinked.agrees.mem_links_of_input? hpg hin').mp hl
    exact (hearlier hl).2 (hk.agrees.eq_of_target (hearlier hl).1 hlink htarget)
  -- No cycle is closed: it would be one of the whole graph, in which the link is already there.
  have hnocycle : g.cyclePolicy = .reject →
      ¬ g.dependsOn e.2.source.node e.2.target.node = true := by
    intro hreject hdepends
    have hpolicy : g.cyclePolicy = k.cyclePolicy := (congrArg Graph.cyclePolicy h.unlinked :)
    have hfeeds : g.Feeds ≤ k.Feeds := by
      rintro m n ⟨link, hmem, hends⟩
      obtain ⟨l, hl⟩ := Table.mem_values_iff.mp hmem
      exact ⟨link, Table.mem_values_iff.mpr ⟨l, (hearlier hl).1⟩, hends⟩
    have hpath := Relation.ReflTransGen.mono hfeeds _ _ (reflTransGen_of_dependsOn hdepends)
    have hlast : k.Feeds e.2.source.node e.2.target.node :=
      ⟨e.2, Table.mem_values_iff.mpr ⟨e.1, hlink⟩, rfl, rfl⟩
    exact hcycle (hpolicy ▸ hreject) _ (Relation.TransGen.head' hlast hpath)
  have hload : g.loadLink e.2.toRecord = g.withLink e.2 :=
    h.wellLinked.loadLink_toRecord hpg hout' htype' hin' hfree hcan' hnocycle
  refine ⟨?_, ?_, ?_⟩
  · rw [hload]
    exact h.wellLinked.withLink hpg hfresh hout' htype' hin' hcan' hfree
  · rw [unlinked_loadLink, h.unlinked]
  · have hinsert := Table.entries_insert_of_get?_eq_none (b := e.2) hfresh
    rw [hload, withLink, hinsert, h.links, hid]

/-- The links of a well-linked graph, replayed in order, give the graph. -/
theorem Replaying.foldl_loadLink (h : Replaying k done g) (hk : k.WellLinked) (hp : k.WellPinned)
    (hcycle : k.cyclePolicy = .reject → k.Acyclic) (hentries : k.links.entries = done ++ rest) :
    (rest.map fun e => e.2.toRecord).foldl Graph.loadLink g = k := by
  induction rest generalizing done g with
  | nil =>
    -- All links are back, so the pins list what they listed.
    rw [List.append_nil] at hentries
    exact hk.eq_of_unlinked h.wellLinked h.unlinked (Table.ext (h.links.trans hentries.symm))
  | cons e rest ih =>
    refine ih (h.loadLink hk hp hcycle hentries) ?_
    rw [hentries, List.append_assoc]
    rfl

/-! ### Replaying the nodes -/

theorem wiring_restored : (g.restored s).wiring = g.wiring := by
  have hnode (n : Node) (d : Option NodeDefinition) : (n.restored d).wiring = n.wiring := by
    simp only [Node.wiring, Node.restored, Node.mapPins, List.map_map, Function.comp_def,
      Pin.wiring_restored]
  simp only [wiring, restored, Table.mapValues_mapValues, hnode]

/-- An entry for a node as it is loaded back before the links. -/
def replayed (g : Graph) (e : NodeId × Node) : NodeId × Node :=
  (e.1, (e.2.restored (g.definition? e.2)).mapPins Pin.unlinked)

theorem entries_unlinked_restored :
    (g.restored s).unlinked.nodes.entries = g.nodes.entries.map g.replayed := by
  simp only [unlinked, mapPins, restored, Table.entries_mapValues, List.map_map, Function.comp_def]
  rfl

section Nodes

variable {registry : Registry} {done rest : List (NodeId × Node)} {e : NodeId × Node}

/-- The node of the next record does not find its definition taken. -/
theorem Kept.isTaken_eq_false (h : Kept registry g) (hf : registry.Filed)
    (hentries : g.nodes.entries = done ++ e :: rest) (hregistry : k.registry = registry)
    (hdone : k.nodes.entries = done.map g.replayed) : k.isTaken e.2.key = false := by
  -- A node of the definition that is already back would be a second one in the saved graph.
  obtain ⟨hn, hbefore⟩ := Table.get?_of_entries_eq hentries
  rw [← Bool.not_eq_true, isTaken_eq_true_iff, hregistry]
  rintro ⟨hsingle, m, s, hm, hkey⟩
  obtain ⟨node, hnode, rfl⟩ := exists_of_get?_skeletons hm
  have hmem := Table.get?_eq_some_iff.mp hnode
  rw [hdone] at hmem
  obtain ⟨e', he', heq⟩ := List.mem_map.mp hmem
  obtain ⟨rfl, rfl⟩ := Prod.mk.inj heq
  obtain ⟨hn', hne⟩ := hbefore e' he'
  have hkey' : e'.2.skeleton.key = e.2.skeleton.key := hkey
  have hsingle' : (g.registry.get? e'.2.skeleton.key).any (·.singleton) = true := by
    rw [hkey', h.registry]
    exact hsingle
  exact hne ((h.sound hf).single (get?_skeletons_of_node? hn') (get?_skeletons_of_node? hn) hkey'
    hsingle')

/-- The next node comes back as it was, less its links. -/
theorem Kept.loadNode_toRecord (h : Kept registry g) (hf : registry.Filed)
    (hu : registry.UniquePins) (hentries : g.nodes.entries = done ++ e :: rest)
    (hregistry : k.registry = registry) (hdone : k.nodes.entries = done.map g.replayed) :
    k.loadNode (e.2.toRecord (g.definition? e.2)) = k.insertNode (g.replayed e).2 := by
  have hn : g.node? e.1 = some e.2 := (Table.get?_of_entries_eq hentries).1
  have htaken := h.isTaken_eq_false hf hentries hregistry hdone
  -- The node stems from the definition that the record will find under its key.
  obtain ⟨d, hd, hs⟩ := h.instantiated.exists_definition? (h.registry ▸ hf) hn
  have hget : registry.get? e.2.key = some d := h.registry ▸ hd
  rw [← h.wellLinked.node_id hn] at hs
  have hload : (e.2.toRecord (some d)).load? k =
      some ((e.2.restored (some d)).mapPins Pin.unlinked) :=
    NodeRecord.load?_eq_some_iff.mpr
      ⟨htaken, d, hregistry ▸ hget, NodeRecord.applyTo_toRecord (hu hget) hs⟩
  rw [replayed, hd, Graph.loadNode, hload]

/-- The nodes of a document, replayed in order, are those of the graph, less their links. -/
theorem Kept.foldl_loadNode (h : Kept registry g) (hf : registry.Filed) (hu : registry.UniquePins)
    (hentries : g.nodes.entries = done ++ rest) (hregistry : k.registry = registry)
    (hdone : k.nodes.entries = done.map g.replayed) :
    (rest.map fun e => e.2.toRecord (g.definition? e.2)).foldl Graph.loadNode k =
      { k with nodes := (g.restored s).unlinked.nodes } := by
  induction rest generalizing done k with
  | nil =>
    have hnodes : k.nodes = (g.restored s).unlinked.nodes := by
      apply Table.ext
      rw [entries_unlinked_restored, hdone, hentries, List.append_nil]
    rw [← hnodes]
    rfl
  | cons e rest ih =>
    obtain ⟨hn, hbefore⟩ := Table.get?_of_entries_eq hentries
    have hid : (g.replayed e).2.id = e.1 := (h.wellLinked.node_id hn :)
    -- The nodes that are back are filed under other identifiers, so this one goes to the end.
    have hfresh : k.nodes.get? e.1 = none := by
      rw [Table.get?_eq_none_iff, Table.keys, hdone, List.map_map]
      intro hmem
      obtain ⟨e', he', hkey⟩ := List.mem_map.mp hmem
      exact (hbefore e' he').2 hkey
    have hinsert : (k.insertNode (g.replayed e).2).nodes.entries =
        (done ++ [e]).map g.replayed := by
      rw [insertNode, hid, Table.entries_insert_of_get?_eq_none hfresh, hdone, List.map_append]
      rfl
    have hentries' : g.nodes.entries = (done ++ [e]) ++ rest := by
      rw [hentries, List.append_assoc]
      rfl
    have hregistry' : (k.insertNode (g.replayed e).2).registry = registry := hregistry
    rw [List.map_cons, List.foldl_cons, h.loadNode_toRecord hf hu hentries hregistry hdone,
      ih hentries' hregistry' hinsert]
    rfl

end Nodes

/-! ### Loading a saved graph -/

theorem loadRoot_eq_self (h : ∀ n, g.root = some n → g.hasNode n = true) :
    Graph.loadRoot { g with root := none } g.root = g := by
  cases hroot : g.root with
  | none => rw [loadRoot, ← hroot]
  | some n =>
    have hnode : Graph.hasNode { g with root := none } n = true := h n hroot
    rw [loadRoot]
    dsimp only
    rw [if_pos hnode, ← hroot]

/-- A graph that was made by edits is loaded back, with the declared defaults where they agree. -/
theorem Kept.toGraph_toDocument {registry : Registry} (h : Kept registry g) (hf : registry.Filed)
    (hu : registry.UniquePins) (hcycle : s.cyclePolicy = .reject → g.Acyclic) :
    g.toDocument.toGraph registry s = g.restored s := by
  have hwired : (g.restored s).WellLinked := h.wellLinked.of_wiring wiring_restored
  have hpinned : (g.restored s).WellPinned :=
    (h.wellPinned hu).of_skeletons (wiring_congr wiring_restored).1
  have hnodes : g.toDocument.nodes.foldl Graph.loadNode
      ((Graph.empty g.name registry).setPolicy s.cyclePolicy) =
      { (g.restored s).unlinked with root := none } := by
    have hrecords : g.toDocument.nodes =
        g.nodes.entries.map fun e => e.2.toRecord (g.definition? e.2) := by
      simp only [toDocument, Table.values, List.map_map, Function.comp_def]
    rw [hrecords, h.foldl_loadNode hf hu (List.nil_append _).symm rfl rfl, ← h.registry]
    rfl
  -- The root is a node, so it is not dropped when the document is read.
  have hroot : ∀ n, (g.restored s).unlinked.root = some n →
      (g.restored s).unlinked.hasNode n = true := by
    intro n hn
    obtain ⟨skeleton, hs⟩ := (h.sound hf).root hn
    obtain ⟨node, hn, -⟩ := exists_of_get?_skeletons hs
    have hget : g.nodes.get? n = some node := hn
    simp only [hasNode, Table.contains, unlinked, mapPins, restored, Table.get?_mapValues, hget,
      Option.map_some, Option.isSome_some]
  have hlinks : g.toDocument.links = (g.restored s).links.entries.map fun e => e.2.toRecord := by
    simp only [toDocument, restored, Table.values, List.map_map, Function.comp_def]
  have hload : g.toDocument.toGraph registry s = g.toDocument.links.foldl Graph.loadLink
      ((g.toDocument.nodes.foldl Graph.loadNode
        ((Graph.empty g.name registry).setPolicy s.cyclePolicy)).loadRoot
          (g.restored s).unlinked.root) := rfl
  rw [hload, hnodes, loadRoot_eq_self hroot, hlinks]
  exact (Replaying.start hwired).foldl_loadLink hwired hpinned hcycle (List.nil_append _).symm

/-- Every graph that is made by edits is loaded back as it was saved: name, root, nodes and links
are the same, in the same order, and each pin default is the same or agrees with the saved one. -/
theorem Authored.toGraph_toDocument_restores {registry : Registry} (hb : registry.Built)
    (hu : registry.UniquePins) (h : Authored registry g)
    (hcycle : s.cyclePolicy = .reject → g.Acyclic) :
    (g.toDocument.toGraph g.registry s).name = g.name ∧
      (g.toDocument.toGraph g.registry s).root = g.root ∧
      List.Forall₂ (fun e' e => e'.1 = e.1 ∧ Node.Restores e'.2 e.2)
        (g.toDocument.toGraph g.registry s).nodes.entries g.nodes.entries ∧
      (g.toDocument.toGraph g.registry s).links = g.links := by
  have hkept := h.kept hu
  have hload := hkept.toGraph_toDocument (s := s) hb.filed hu hcycle
  rw [hkept.registry, hload]
  refine ⟨rfl, rfl, ?_, rfl⟩
  rw [restored, Table.entries_mapValues, List.forall₂_map_left_iff, List.forall₂_same]
  exact fun e _ => ⟨rfl, Node.restores_restored⟩

theorem toGraph_toDocument_restores_bentWire : Registry.material.Built ∧
    Registry.material.UniquePins ∧ Authored .material bentWire ∧ bentWire.Acyclic ∧
      ∃ s : GraphSettings, s.cyclePolicy = .reject ∧
        (bentWire.toDocument.toGraph bentWire.registry s).name = bentWire.name ∧
        (bentWire.toDocument.toGraph bentWire.registry s).root = bentWire.root ∧
        List.Forall₂ (fun e' e => e'.1 = e.1 ∧ Node.Restores e'.2 e.2)
          (bentWire.toDocument.toGraph bentWire.registry s).nodes.entries bentWire.nodes.entries ∧
        (bentWire.toDocument.toGraph bentWire.registry s).links = bentWire.links :=
  ⟨Registry.built_material, Registry.uniquePins_material, authored_bentWire, acyclic_bentWire,
    { GraphSettings.standard with cyclePolicy := .reject }, rfl,
    Authored.toGraph_toDocument_restores Registry.built_material Registry.uniquePins_material
      authored_bentWire fun _ => acyclic_bentWire⟩

end Graph

end ShaderGraph
