import ShaderGraph.Catalog.Builder
import ShaderGraph.Evaluation.Scope
import ShaderGraph.Proofs.Graph.Reload
import ShaderGraph.Proofs.Number.Binary32
import ShaderGraph.Shader

/-!
# What is observed of a saved graph

Neither evaluation nor the export of code reads the default of a linked pin or of an output pin; the
default of an unlinked input pin is read by both. When a graph is saved and loaded back, a default
that agrees as a number with the declared one becomes the declared one. The two zeros agree, but
evaluation and the code tell them apart. So saving and loading is unobservable if and only if no
unlinked input pin has one zero where its definition declares the other.

## Main definitions

* `Graph.observed` — a graph without the defaults that are not read, and without its cycle policy
* `Graph.DefaultsKept` — unlinked input pins have the declared default if it agrees with theirs

## Main results

* `Evaluator.evaluateTraced_observed`, `Evaluator.evaluatePin_observed`, `Shader.export_observed` —
  evaluation and export depend on what is observed
* `Graph.defaultsKept_of_notMem` — without negative zeros, defaults are kept
* `Graph.Authored.reload_unobservable_iff` — when saving and loading is unobservable
* `Graph.reload_observable` — a graph for which it is not
-/

namespace ShaderGraph

/-- A pin without its default if it is linked. -/
def Pin.observed (p : Pin) : Pin :=
  { p with default := if p.links.isEmpty then p.default else none }

/-- A node without the defaults of its outputs and of its linked inputs. -/
def Node.observed (n : Node) : Node :=
  { n with inputs := n.inputs.map Pin.observed, outputs := n.outputs.map Pin.wiring }

/-- A graph without the defaults that are not read, and without its cycle policy. -/
def Graph.observed (g : Graph) : Graph :=
  { g with nodes := g.nodes.mapValues fun _ => Node.observed, cyclePolicy := .allow }

variable {g : Graph} {n root : NodeId} {node : Node} {p : Pin} {pin : String}

theorem Node.input?_observed : node.observed.input? pin = (node.input? pin).map Pin.observed :=
  Node.find?_map_pins fun _ => rfl

theorem Graph.node?_observed : g.observed.node? n = (g.node? n).map Node.observed :=
  Table.get?_mapValues

/-! ### Evaluation -/

namespace Evaluator

variable {ev : Evaluator} {depth : Nat} {visited : List PinRef}

theorem runNode_observed {output : String} {read : String → StateM Scope (Option Evaluated)} :
    ev.runNode node.observed output read = ev.runNode node output read := rfl

theorem resolveInput_observed : ev.resolveInput g.observed depth visited node.observed pin =
    ev.resolveInput g depth visited node pin := by
  induction depth generalizing visited node pin with
  | zero => rfl
  | succ depth ih =>
    have hid : node.observed.id = node.id := rfl
    rw [resolveInput, resolveInput, hid, Node.input?_observed]
    split
    · rfl
    · cases node.input? pin with
      | none => rfl
      | some p =>
        have hlinks : p.observed.links = p.links := rfl
        simp only [Option.map_some, hlinks]
        cases hp : p.links with
        | nil => rw [Pin.defaultValue?, Pin.defaultValue?, Pin.observed, hp]; rfl
        | cons l ls =>
          have hl : g.observed.link? l = g.link? l := rfl
          simp only [hl]
          cases g.link? l with
          | none => rfl
          | some link =>
            -- The producer reads its inputs as it does in the graph itself.
            have hread (producer : Node) : ev.resolveInput g.observed depth
                (⟨node.id, pin⟩ :: visited) producer.observed =
                ev.resolveInput g depth (⟨node.id, pin⟩ :: visited) producer :=
              funext fun _ => ih
            simp only [Graph.node?_observed]
            cases g.node? link.source.node with
            | none => rfl
            | some producer => simp only [Option.map_some, hread, runNode_observed]

theorem depthBound_observed : depthBound g.observed = depthBound g := by
  simp only [depthBound, Graph.inputCount, Graph.observed, Table.values, Table.entries_mapValues,
    List.map_map, List.flatMap_map, List.length_flatMap, Function.comp_def, Node.observed,
    List.length_map]

/-- The material at a node depends on what is observed, and so does what happens on the way. -/
theorem evaluateTraced_observed (ev : Evaluator) (g : Graph) (root : NodeId) :
    ev.evaluateTraced g.observed root = ev.evaluateTraced g root := by
  rw [evaluateTraced, evaluateTraced, Graph.node?_observed]
  cases g.node? root with
  | none => rfl
  | some node =>
    have hassign (a : MaterialAttributes) (p : Pin) :
        ev.assignInput g.observed node.observed a p.observed = ev.assignInput g node a p := by
      have hid : p.observed.id = p.id := rfl
      have hname : p.observed.name = p.name := rfl
      rw [assignInput, assignInput, depthBound_observed, hid, hname, resolveInput_observed]
    have hinputs : node.observed.inputs = node.inputs.map Pin.observed := rfl
    simp only [Option.map_some, hinputs, List.foldlM_map, hassign]

/-- So does what an output pin evaluates to. -/
theorem evaluatePin_observed (ev : Evaluator) (g : Graph) (r : PinRef) :
    ev.evaluatePin g.observed r = ev.evaluatePin g r := by
  rw [evaluatePin, evaluatePin, Graph.node?_observed]
  cases g.node? r.node with
  | none => rfl
  | some node =>
    have hread : ev.resolveInput g.observed (depthBound g) [] node.observed =
        ev.resolveInput g (depthBound g) [] node := funext fun _ => resolveInput_observed
    simp only [Option.map_some, depthBound_observed, hread, runNode_observed]

end Evaluator

/-! ### Code -/

namespace Graph

theorem feeding_observed : g.observed.feeding node.observed = g.feeding node := by
  have hlinks : (node.observed.inputs.flatMap Pin.links) = node.inputs.flatMap Pin.links :=
    List.flatMap_map ..
  rw [feeding, feeding, hlinks]
  rfl

theorem visit_observed {depth : Nat} {w : Walk} :
    g.observed.visit depth w n = g.visit depth w n := by
  induction depth generalizing w n with
  | zero => rfl
  | succ depth ih =>
    have hvisit : g.observed.visit depth = g.visit depth := funext fun _ => funext fun _ => ih
    rw [visit, visit, node?_observed, hvisit]
    cases g.node? n with
    | none => rfl
    | some node => simp only [Option.map_some, feeding_observed]

theorem dependencyOrder_observed : g.observed.dependencyOrder root = g.dependencyOrder root := by
  have hnode : g.observed.hasNode root = g.hasNode root := by
    have hget := congrArg Option.isSome (node?_observed (g := g) (n := root))
    rw [Option.isSome_map] at hget
    exact hget
  have hsize : g.observed.nodes.size = g.nodes.size := by
    rw [Table.size, Table.size, observed, Table.entries_mapValues, List.length_map]
  rw [dependencyOrder, dependencyOrder, hnode, hsize, visit_observed]

end Graph

namespace Shader

variable {included : List NodeId}

theorem inputText_observed : inputText p.observed = inputText p := by
  have hlinks : p.observed.links = p.links := rfl
  rw [inputText, inputText, hlinks]
  cases hp : p.links with
  | nil => rw [Pin.observed, hp]; rfl
  | cons l ls => rfl

theorem placeholderText?_observed : placeholderText? node.observed = placeholderText? node := by
  have hinputText : inputText ∘ Pin.observed = inputText := funext fun _ => inputText_observed
  funext name
  rw [placeholderText?, placeholderText?, Node.input?_observed, Option.map_map, hinputText]
  rfl

theorem nodeSection_observed : nodeSection g.observed included n = nodeSection g included n := by
  have hsnippet : snippet? g.observed n = snippet? g n := by
    rw [snippet?, snippet?, Graph.node?_observed]
    cases g.node? n with
    | none => rfl
    | some node =>
      have hd : g.observed.definition? node.observed = g.definition? node := rfl
      simp only [Option.map_some, Option.bind_eq_bind, Option.bind_some, hd,
        placeholderText?_observed]
  rw [nodeSection, nodeSection, hsnippet, Graph.node?_observed]
  cases g.node? n with
  | none => rfl
  | some node =>
    have haliases : aliases g.observed included node.observed = aliases g included node := by
      have houtputs : node.observed.outputs = node.outputs.map Pin.wiring := rfl
      rw [aliases, aliases, houtputs, List.flatMap_map]
      rfl
    cases snippet? g n with
    | none => rfl
    | some code =>
      simp only [Option.map_some, haliases]
      rfl

/-- The code of everything that a node depends on is made of what is observed. -/
theorem export_observed (g : Graph) (root : NodeId) :
    Shader.export g.observed root = Shader.export g root := by
  have hsection : nodeSection g.observed (g.dependencyOrder root) =
      nodeSection g (g.dependencyOrder root) := funext fun _ => nodeSection_observed
  rw [Shader.export, Shader.export, Graph.dependencyOrder_observed, hsection]
  rfl

end Shader

/-! ### Defaults that are loaded back -/

/-- The default that a definition, if it is known, declares for a pin. -/
def Pin.declared? (p : Pin) (d : Option NodeDefinition) : Option Literal :=
  (d.bind (·.pinSpec? p.id)).bind (·.default)

theorem Pin.restored_eq {d : Option NodeDefinition} : p.restored d =
    if defaultsAgree (p.declared? d) p.default = true then { p with default := p.declared? d }
    else p := rfl

namespace Literal

/-- Literals that agree are equal if evaluation cannot tell them apart. -/
theorem eq_of_agrees {a b : Literal} (h : a.agrees b = true) (hv : a.value? = b.value?) :
    a = b := by
  cases a <;> cases b <;> simp_all [agrees, value?, scalar?, vector?]

/-- The numbers that a literal is made of. -/
def numbers : Literal → List Float32
  | float x => [x]
  | vector2 x y => [x, y]
  | vector3 x y z => [x, y, z]
  | vector4 x y z w => [x, y, z, w]
  | bool _ | text _ => []

/-- Literals that agree are equal if neither has a negative zero. -/
theorem eq_of_agrees_of_notMem {a b : Literal} (h : a.agrees b = true) (ha : -0 ∉ a.numbers)
    (hb : -0 ∉ b.numbers) : a = b := by
  have hnumber {x y : Float32} (hxy : (x == y) = true) (hx : -0 ≠ x) (hy : -0 ≠ y) : x = y := by
    rcases Binary32.eq_or_zeros_of_beq hxy with hsame | ⟨-, rfl⟩ | ⟨rfl, -⟩
    · exact hsame
    · exact absurd rfl hy
    · exact absurd rfl hx
  cases a <;> cases b <;> grind [agrees, numbers]

end Literal

/-- Defaults agree if there are none or if they are literals that agree. -/
theorem defaultsAgree_eq_true_iff {a b : Option Literal} : defaultsAgree a b = true ↔
    a = none ∧ b = none ∨ ∃ l m, a = some l ∧ b = some m ∧ l.agrees m = true := by
  cases a <;> cases b <;> simp [defaultsAgree]

/-- A pin is observed as before if the declared default is its own where the two agree. -/
theorem Pin.observed_restored {d : Option NodeDefinition}
    (h : p.links = [] → defaultsAgree (p.declared? d) p.default = true →
      p.declared? d = p.default) : (p.restored d).observed = p.observed := by
  rw [Pin.restored_eq]
  split
  · rename_i hagree
    by_cases hlinks : p.links = []
    · rw [h hlinks hagree]
    -- The default of a linked pin is not observed.
    · have hlinked : p.links.isEmpty = false := by
        rw [Bool.eq_false_iff, ne_eq, List.isEmpty_iff]
        exact hlinks
      simp only [Pin.observed, hlinked, Bool.false_eq_true, if_false]
  · rfl

namespace Graph

/-- An unlinked input pin has the declared default if that agrees as a number with its own. -/
def DefaultsKept (g : Graph) : Prop :=
  ∀ ⦃n node⦄, g.node? n = some node → ∀ p ∈ node.inputs, p.links = [] →
    defaultsAgree (p.declared? (g.definition? node)) p.default = true →
      p.declared? (g.definition? node) = p.default

variable {s : GraphSettings}

/-- That defaults are kept is a matter of the finitely many nodes. -/
theorem defaultsKept_iff :
    g.DefaultsKept ↔ ∀ e ∈ g.nodes.entries, ∀ p ∈ e.2.inputs, p.links = [] →
      defaultsAgree (p.declared? (g.definition? e.2)) p.default = true →
        p.declared? (g.definition? e.2) = p.default :=
  ⟨fun h _ he => h (Table.get?_eq_some_iff.mpr he),
    fun h _ _ hn => h _ (Table.get?_eq_some_iff.mp hn)⟩

instance : Decidable g.DefaultsKept := decidable_of_iff _ defaultsKept_iff.symm

/-- Where no negative zero is declared or set, defaults are kept. -/
theorem defaultsKept_of_notMem
    (h : ∀ ⦃n node⦄, g.node? n = some node → ∀ p ∈ node.inputs, p.links = [] → ∀ l,
      p.declared? (g.definition? node) = some l ∨ p.default = some l → -0 ∉ l.numbers) :
    g.DefaultsKept := by
  intro n node hn p hp hlinks hagree
  rcases defaultsAgree_eq_true_iff.mp hagree with ⟨hnone, hnone'⟩ | ⟨l, m, hl, hm, hlm⟩
  · rw [hnone, hnone']
  · have hsame : l = m := Literal.eq_of_agrees_of_notMem hlm
      (h hn p hp hlinks l (Or.inl hl)) (h hn p hp hlinks m (Or.inr hm))
    rw [hl, hm, hsame]

/-- A graph that is loaded back differs in nothing that is observed. -/
theorem DefaultsKept.observed_restored (h : g.DefaultsKept) :
    (g.restored s).observed = g.observed := by
  have hnode : ∀ n node, g.nodes.get? n = some node →
      (node.restored (g.definition? node)).observed = node.observed := by
    intro n node hn
    have hinputs : (node.inputs.map (Pin.restored (g.definition? node))).map Pin.observed =
        node.inputs.map Pin.observed := by
      rw [List.map_map]
      exact List.map_congr_left fun p hp => Pin.observed_restored (h hn p hp)
    have houtputs : (node.outputs.map (Pin.restored (g.definition? node))).map Pin.wiring =
        node.outputs.map Pin.wiring := by
      rw [List.map_map]
      exact List.map_congr_left fun p _ => Pin.wiring_restored
    rw [Node.observed, Node.restored, Node.inputs_mapPins, Node.outputs_mapPins, hinputs, houtputs]
    rfl
  have hnodes : (g.restored s).nodes.mapValues (fun _ => Node.observed) =
      g.nodes.mapValues fun _ => Node.observed := by
    rw [restored, Table.mapValues_mapValues]
    exact Table.mapValues_congr hnode
  rw [observed, hnodes]
  rfl

end Graph

namespace Evaluator

/-- An evaluator by which every output of the nodes of a key yields an input pin of the node. -/
def peek (key pin : String) : Evaluator where
  registry := Registry.empty.register { Catalog.definition key "" "" with rule := .passthrough pin }
  textureUrl? _ := none
  settings := .standard

/-- The default of an unlinked input pin is observed. -/
theorem evaluatePin_peek {key : String} (hn : g.node? n = some node) (hkey : node.key = key)
    (hp : node.input? pin = some p) (hlinks : p.links = []) :
    (peek key pin).evaluatePin g ⟨n, ""⟩ = p.defaultValue? := by
  have hget : (peek key pin).registry.get? node.key =
      some { Catalog.definition key "" "" with rule := .passthrough pin } := by
    rw [peek, Registry.get?_register]
    exact if_pos hkey
  have hread : (peek key pin).resolveInput g (depthBound g) [] node pin =
      pure p.defaultValue? := by
    rw [depthBound, resolveInput, if_neg List.not_mem_nil, hp]
    dsimp only
    rw [hlinks]
  rw [evaluatePin, hn]
  dsimp only
  rw [runNode, evaluateNode, hget]
  dsimp only
  rw [applyRule, hread]
  rfl

end Evaluator

namespace Graph

variable {registry : Registry}

theorem node?_restored {s : GraphSettings} :
    (g.restored s).node? n = (g.node? n).map fun k => k.restored (g.definition? k) :=
  Table.get?_mapValues

/-- A default that was not kept is seen to differ. -/
theorem DefaultsKept.of_evaluatePin (hp : g.WellPinned) {s : GraphSettings}
    (h : ∀ (ev : Evaluator) r, ev.evaluatePin (g.restored s) r = ev.evaluatePin g r) :
    g.DefaultsKept := by
  intro n node hn p hmem hlinks hagree
  have hinput : node.input? p.id = some p := (hp hn).input?_eq_some_iff.mpr ⟨hmem, rfl⟩
  have hrestored : (g.restored s).node? n = some (node.restored (g.definition? node)) := by
    rw [node?_restored, hn, Option.map_some]
  have hinput' : (node.restored (g.definition? node)).input? p.id =
      some { p with default := p.declared? (g.definition? node) } := by
    rw [Node.restored, Node.input?_mapPins fun q => Pin.id_eq_of_skeleton Pin.skeleton_restored,
      hinput, Option.map_some, Pin.restored_eq, if_pos hagree]
  have hkey : (node.restored (g.definition? node)).key = node.key := rfl
  have hvalue := h (Evaluator.peek node.key p.id) ⟨n, ""⟩
  rw [Evaluator.evaluatePin_peek hn rfl hinput hlinks,
    Evaluator.evaluatePin_peek hrestored hkey hinput' hlinks] at hvalue
  -- Pins that yield the same have the same literal.
  have hsame := Option.map_injective (fun _ _ => Evaluated.resolved.inj) hvalue
  rcases defaultsAgree_eq_true_iff.mp hagree with ⟨hnone, hnone'⟩ | ⟨l, m, hl, hm, hlm⟩
  · rw [hnone, hnone']
  · dsimp only at hsame
    rw [hl, hm] at hsame
    rw [hl, hm, Literal.eq_of_agrees hlm hsame]

/-- Saving a graph that was made by edits and loading it back is unobservable, in the code of every
node, in the material at every node and in what every output pin evaluates to, if and only if every
unlinked input pin has the declared default where that agrees as a number with its own. -/
theorem Authored.reload_unobservable_iff (hb : registry.Built) (hu : registry.UniquePins)
    (h : Authored registry g) :
    ((∀ root, Shader.export (g.toDocument.toGraph registry .standard) root =
        Shader.export g root) ∧
      (∀ (ev : Evaluator) root, ev.evaluateTraced (g.toDocument.toGraph registry .standard) root =
        ev.evaluateTraced g root) ∧
      ∀ (ev : Evaluator) r, ev.evaluatePin (g.toDocument.toGraph registry .standard) r =
        ev.evaluatePin g r) ↔ g.DefaultsKept := by
  have hkept := h.kept hu
  rw [hkept.toGraph_toDocument (s := .standard) hb.filed hu fun hreject => by cases hreject]
  constructor
  · rintro ⟨-, -, hpins⟩
    exact .of_evaluatePin (hkept.wellPinned hu) hpins
  · intro hdefaults
    have hsame := hdefaults.observed_restored (s := .standard)
    refine ⟨fun root => ?_, fun ev root => ?_, fun ev r => ?_⟩
    · rw [← Shader.export_observed, hsame, Shader.export_observed]
    · rw [← ev.evaluateTraced_observed, hsame, ev.evaluateTraced_observed]
    · rw [← ev.evaluatePin_observed, hsame, ev.evaluatePin_observed]

theorem reload_unobservable_iff_bentWire : Registry.material.Built ∧
    Registry.material.UniquePins ∧ Authored .material bentWire ∧ bentWire.DefaultsKept ∧
    (∀ root, Shader.export (bentWire.toDocument.toGraph .material .standard) root =
      Shader.export bentWire root) ∧
    (∀ (ev : Evaluator) root,
      ev.evaluateTraced (bentWire.toDocument.toGraph .material .standard) root =
        ev.evaluateTraced bentWire root) ∧
    ∀ (ev : Evaluator) r, ev.evaluatePin (bentWire.toDocument.toGraph .material .standard) r =
      ev.evaluatePin bentWire r := by
  have hkept : bentWire.DefaultsKept := by decide
  exact ⟨Registry.built_material, Registry.uniquePins_material, authored_bentWire, hkept,
    (Authored.reload_unobservable_iff Registry.built_material Registry.uniquePins_material
      authored_bentWire).mpr hkept⟩

/-- A definition whose code is the value of its only pin. -/
def probe : NodeDefinition :=
  { Catalog.definition "Probe" "Probe" "Custom" with
    pins := [Catalog.inputWith "Metallic" "Metallic" .float (.float 0)]
    template := Catalog.angled "⟨Metallic⟩" }

def probes : Registry := Registry.empty.register probe

/-- A root whose default was changed from one zero to the other. -/
def negated : Graph :=
  (Graph.withRoot "negated" probes "Probe" ⟨⟨1⟩⟩).apply
    (.setDefault ⟨⟨⟨1⟩⟩, "Metallic"⟩ (some (.float (-0))))

/-- An evaluator that knows the definition, and no texture. -/
def probing : Evaluator := ⟨probes, fun _ => none, .standard⟩

theorem authored_negated : Authored probes negated :=
  (Created.withRoot "negated" "Probe" ⟨⟨1⟩⟩).authored.apply trivial

/-- The sign of the zero is lost, and this shows in the code and in the material. -/
theorem reload_observable :
    (probes.Built ∧ probes.UniquePins ∧ Authored probes negated ∧ ¬ negated.DefaultsKept) ∧
    Shader.export negated ⟨⟨1⟩⟩ =
      "// Material: negated\n\n// Probe (00000000000000000000000000000001)\n-0.0\n" ∧
    Shader.export (negated.toDocument.toGraph probes .standard) ⟨⟨1⟩⟩ =
      "// Material: negated\n\n// Probe (00000000000000000000000000000001)\n0.0\n" ∧
    (probing.evaluate negated ⟨⟨1⟩⟩).metallic = some (-0) ∧
    (probing.evaluate (negated.toDocument.toGraph probes .standard) ⟨⟨1⟩⟩).metallic = some 0 ∧
    (-0 : Float32) ≠ 0 := by
  refine ⟨⟨.register (.withCompatibility _) probe, by decide, authored_negated, by decide⟩,
    ?_, ?_, ?_, ?_, by decide⟩
  · decide +kernel
  · decide +kernel
  · rfl
  · rfl

end Graph

end ShaderGraph
