import ShaderGraph.Proofs.Graph.Loading

/-!
# Graphs conform to their registry

Nodes come into a graph in three ways: as its root, by an edit, and out of a document, where a later
record may bring a node under the identifier of an earlier one. Values, places and links are changed
in place. Throughout, every node remains what its definition makes of it, a singleton definition has
at most one node, and the root stays.

## Main definitions

* `Graph.Begun` — how graphs begin, among them those that are loaded
* `Graph.Shaped` — what every edit preserves, whatever identifiers it brings
* `Node.Matches` — a node has the pins and the properties of a definition
* `Graph.Conforms` — what can be relied upon in every graph

## Main results

* `Graph.Shaped.apply` — the step: every edit preserves the shape of a graph
* `Graph.Begun.conforms` — the run: a graph conforms, whatever it begins as and undergoes
-/

namespace ShaderGraph

/-- What a pin has from its declaration: its identifier, its name, its direction and its type. -/
def PinSpec.signature (s : PinSpec) : String × String × PinDirection × PinType :=
  (s.id, s.name, s.direction, s.type)

/-- The identifier, the name, the direction and the type of a pin. -/
def Pin.signature (p : Pin) : String × String × PinDirection × PinType :=
  (p.id, p.name, p.direction, p.type)

/-- A node has the pins and the properties that a definition declares, in the same order. -/
structure Node.Matches (n : Node) (d : NodeDefinition) : Prop where
  inputs : n.inputs.map Pin.signature = d.inputs.map PinSpec.signature
  outputs : n.outputs.map Pin.signature = d.outputs.map PinSpec.signature
  properties : n.properties.keys = d.properties.keys

theorem Node.matches_of_skeleton {n : Node} {d : NodeDefinition} {id : NodeId}
    (h : n.skeleton = (d.instantiate id ⟨0, 0⟩).skeleton) : n.Matches d := by
  obtain ⟨-, -, -, -, hinputs, houtputs, hproperties⟩ := Node.mk.inj h
  -- What a pin has from its declaration belongs to its skeleton.
  have hpins {ps : List Pin} {specs : List PinSpec}
      (hps : ps.map Pin.skeleton = (specs.map Pin.ofSpec).map Pin.skeleton) :
      ps.map Pin.signature = specs.map PinSpec.signature := by
    have hsignature := congrArg (List.map Pin.signature) hps
    rw [List.map_map, List.map_map, List.map_map] at hsignature
    exact hsignature
  have hkeys := congrArg Table.keys hproperties
  rw [Table.keys_mapValues, Table.keys_mapValues] at hkeys
  exact ⟨hpins hinputs, hpins houtputs, hkeys⟩

namespace Graph

/-- A graph over `r` as it begins: without nodes, with a root node, or loaded from a document. -/
inductive Begun (r : Registry) : Graph → Prop
  | created {g : Graph} (h : Created r g) : Begun r g
  | loaded (d : GraphDocument) (s : GraphSettings) : Begun r (d.toGraph r s)

/-- The nodes of a graph over `r` stem from definitions of `r`, at most one of them from a singleton
definition, and the root is one of them. -/
structure Shaped (r : Registry) (g : Graph) : Prop where
  registry : g.registry = r
  instantiated : g.Instantiated
  sound : g.Sound

/-- What can be relied upon in every graph. -/
structure Conforms (g : Graph) : Prop where
  /-- A node is filed under its own identifier and has the shape of the definition of its key. -/
  node : ∀ {n node}, g.node? n = some node →
    node.id = n ∧ ∃ d, g.registry.get? node.key = some d ∧ node.Matches d
  /-- Two nodes of a singleton definition are one. -/
  single : ∀ {m n node node' d}, g.node? m = some node → g.node? n = some node' →
    node.key = node'.key → g.registry.get? node.key = some d → d.singleton = true → m = n
  /-- The root is a node, and an attempt to remove it is refused without effect. -/
  root : ∀ {n}, g.root = some n → (∃ node, g.node? n = some node) ∧
    g.removeNode n = .error (.protectedNode n) ∧ g.apply (.removeNode n) = g

variable {g g' : Graph} {r : Registry} {n : NodeId} {node : Node} {d : NodeDefinition}

/-! ### What each kind of edit preserves -/

/-- Where the skeletons of the nodes, the registry and the root are the same, so is the shape. -/
theorem Shaped.of_eq (h : Shaped r g)
    (hs : g'.skeletons = g.skeletons ∧ g'.registry = g.registry) (hroot : g'.root = g.root) :
    Shaped r g' :=
  ⟨hs.2.trans h.registry, h.instantiated.of_eq hs.1 hs.2,
    h.sound.of_eq hs.1 hs.2 fun _ hn => h.sound.root (hroot ▸ hn)⟩

/-- Links do not matter to the shape of a graph. -/
theorem Shaped.of_unlinked (h : Shaped r g) (hu : g'.unlinked = g.unlinked) : Shaped r g' := by
  have hroot : g'.root = g.root := (congrArg Graph.root hu :)
  exact h.of_eq (unlinked_congr hu) hroot

/-- Neither do values and places. -/
theorem Shaped.of_wiring (h : Shaped r g) (hw : g'.wiring = g.wiring) (hroot : g'.root = g.root) :
    Shaped r g' := h.of_eq (wiring_congr hw) hroot

/-- A new node may replace another, the root included. -/
theorem Shaped.insertNode {key : String} (h : Shaped r g) (hf : r.Filed)
    (hd : g.registry.get? key = some d) (htaken : g.isTaken key = false) {position : Position} :
    Shaped r (g.insertNode (d.instantiate n position)) := by
  have hkey : d.key = key := hf (h.registry ▸ hd)
  refine ⟨h.registry, h.instantiated.insertNode hd rfl, h.sound.insertNode ?_⟩
  rw [← hkey] at htaken
  exact htaken

theorem Shaped.eraseNode (h : Shaped r g) (hroot : g.root ≠ some n) :
    Shaped r { g with nodes := g.nodes.erase n } :=
  ⟨h.registry, h.instantiated.eraseNode, h.sound.eraseNode hroot⟩

theorem Shaped.setRoot (h : Shaped r g) (hn : g.node? n = some node) :
    Shaped r { g with root := some n } := by
  refine ⟨h.registry, h.instantiated, h.sound.of_eq rfl rfl fun m hm => ?_⟩
  obtain rfl := Option.some_inj.mp hm
  exact ⟨node.skeleton, get?_skeletons_of_node? hn⟩

/-- Every edit preserves the shape of a graph, whatever identifiers it brings. -/
theorem Shaped.apply (h : Shaped r g) (hf : r.Filed) (e : Edit) : Shaped r (g.apply e) := by
  cases e with
  | addNode key position id =>
    rw [Graph.apply]
    cases hadd : g.addNode? key position id with
    | none => exact h
    | some g' =>
      obtain ⟨htaken, d, hd, rfl⟩ := addNode?_eq_some_iff.mp hadd
      exact h.insertNode hf hd htaken
  | removeNode n =>
    rw [Graph.apply, Graph.removeNode]
    split
    · exact h
    · rename_i hroot
      split
      · exact h
      · exact (h.of_unlinked unlinked_disconnectAll).eraseNode fun he => hroot <| by
          rw [← he]
          exact (congrArg Graph.root unlinked_disconnectAll :).symm
  | connect a b id =>
    rw [Graph.apply]
    cases hc : g.connect a b id with
    | error => exact h
    | ok g' => exact h.of_unlinked (unlinked_connect hc)
  | disconnect l => exact h.of_unlinked unlinked_disconnect
  | breakPin p => exact h.of_unlinked unlinked_breakPin
  | setProperty n name value => exact h.of_wiring wiring_setProperty rfl
  | setDefault p value => exact h.of_wiring wiring_setDefault rfl
  | setPosition n position => exact h.of_wiring wiring_setPosition rfl
  | setRoot n =>
    rw [Graph.apply]
    cases hroot : g.setRoot n with
    | error => exact h
    | ok g' =>
      obtain ⟨⟨node, hn⟩, rfl⟩ := setRoot_eq_ok_iff.mp hroot
      exact h.setRoot hn
  | setPolicy policy => exact h.of_wiring rfl rfl

/-! ### From the beginning on -/

theorem Shaped.foldl_apply (h : Shaped r g) (hf : r.Filed) (edits : List Edit) :
    Shaped r (edits.foldl Graph.apply g) := by
  induction edits generalizing g with
  | nil => exact h
  | cons e edits ih => exact ih (h.apply hf e)

theorem Shaped.of_editSteps (h : Shaped r g) (hf : r.Filed)
    (hsteps : Relation.ReflTransGen EditStep g g') : Shaped r g' := by
  induction hsteps with
  | refl => exact h
  | tail _ hstep ih =>
    obtain ⟨e, -, rfl⟩ := hstep
    exact ih.apply hf e

theorem Created.shaped (h : Created r g) (hf : r.Filed) : Shaped r g := by
  obtain ⟨name, hsteps⟩ := h.exists_editStep
  have hempty : Shaped r (.empty name r) := ⟨rfl, instantiated_empty, sound_empty⟩
  exact hempty.of_editSteps hf hsteps

theorem Loading.shaped (h : Loading r g) (hf : r.Filed) : Shaped r g :=
  ⟨h.registry, h.instantiated, h.sound hf⟩

theorem Begun.shaped (h : Begun r g) (hf : r.Filed) : Shaped r g := by
  cases h with
  | created h => exact h.shaped hf
  | loaded d s =>
    have hlinks := GraphDocument.unlinked_upTo (d := d) (r := r) (s := s) (k := d.links.length)
    rw [GraphDocument.upTo_length] at hlinks
    exact (GraphDocument.loading_upTo_zero.shaped hf).of_unlinked hlinks

/-! ### What the shape of a graph tells -/

theorem Conforms.of_shaped (h : Shaped r g) (hf : r.Filed) : g.Conforms where
  node {n node} hn := by
    obtain ⟨d, hd, hs⟩ := h.instantiated.exists_definition? (h.registry ▸ hf) hn
    have hid : node.id = n := (congrArg Node.id hs :)
    exact ⟨hid, d, hd, Node.matches_of_skeleton hs⟩
  single hm hn hkey hd hsingle := by
    refine h.sound.single (get?_skeletons_of_node? hm) (get?_skeletons_of_node? hn) hkey ?_
    have hkey' {k : Node} : k.skeleton.key = k.key := rfl
    rw [hkey', hd, Option.any_some, hsingle]
  root {n} hroot := by
    obtain ⟨s, hs⟩ := h.sound.root hroot
    obtain ⟨node, hn, -⟩ := exists_of_get?_skeletons hs
    have hremove : g.removeNode n = .error (.protectedNode n) := by
      rw [Graph.removeNode, if_pos hroot]
    exact ⟨⟨node, hn⟩, hremove, by rw [Graph.apply, hremove]; rfl⟩

/-- A graph conforms to its registry, whatever it begins as and undergoes. -/
theorem Begun.conforms (hr : r.Built) (hg : Begun r g) (edits : List Edit) :
    (edits.foldl Graph.apply g).registry = r ∧ (edits.foldl Graph.apply g).Conforms := by
  have hshaped := (hg.shaped hr.filed).foldl_apply hr.filed edits
  exact ⟨hshaped.registry, .of_shaped hshaped hr.filed⟩

/-- A document whose second record has the identifier of the first, and whose third asks for another
material output. -/
def overwritten : GraphDocument where
  version := GraphDocument.formatVersion
  name := "overwritten"
  root := some ⟨⟨1⟩⟩
  nodes := [⟨⟨⟨1⟩⟩, "Constant", ⟨0, 0⟩, ∅, ∅⟩, ⟨⟨⟨1⟩⟩, "MaterialOutput", ⟨0, 0⟩, ∅, ∅⟩,
    ⟨⟨⟨2⟩⟩, "MaterialOutput", ⟨0, 0⟩, ∅, ∅⟩]
  links := []

/-- The root is to be removed, and a constant and a further material output are to come. -/
def lateEdits : List Edit :=
  [.removeNode ⟨⟨1⟩⟩, .addNode "Constant" ⟨1, 0⟩ ⟨⟨3⟩⟩, .addNode "MaterialOutput" ⟨2, 0⟩ ⟨⟨4⟩⟩,
    .setProperty ⟨⟨3⟩⟩ "R" (.float 1), .connect ⟨⟨⟨3⟩⟩, "Output"⟩ ⟨⟨⟨1⟩⟩, "Metallic"⟩ ⟨⟨5⟩⟩]

theorem conforms_overwritten :
    Registry.material.Built ∧ Begun .material (overwritten.toGraph .material .standard) ∧
    (lateEdits.foldl Graph.apply (overwritten.toGraph .material .standard)).nodes.values.map
      (fun n => (n.id, n.key)) = [(⟨⟨1⟩⟩, "MaterialOutput"), (⟨⟨3⟩⟩, "Constant")] ∧
    (lateEdits.foldl Graph.apply (overwritten.toGraph .material .standard)).registry = .material ∧
    (lateEdits.foldl Graph.apply (overwritten.toGraph .material .standard)).Conforms :=
  ⟨Registry.built_material, .loaded _ _, by decide,
    Begun.conforms Registry.built_material (.loaded _ _) lateEdits⟩

end Graph

end ShaderGraph
