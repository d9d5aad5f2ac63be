import ShaderGraph.Proofs.Graph.Edits
import ShaderGraph.Proofs.Template
import ShaderGraph.Shader

/-!
# The code of a node

Which placeholders of a template stand for something is decided twice: by the check of a definition,
and when the code of a node is written. The check accepts every pin, but only input pins stand for
something in the code. So a placeholder that names an output pin passes the check and stays in the
code; all others that pass are replaced.

## Main definitions

* `NodeDefinition.outputPlaceholders` — the placeholders that name an output pin

## Main results

* `NodeDefinition.resolves_iff` — the placeholders that pass the check
* `Shader.isSome_placeholderText?_iff` — the placeholders that stand for something in the code
* `Shader.remaining_eq_outputPlaceholders` — the placeholders that stay in the code
* `Graph.Instantiated.snippet?_complete_iff` — when the code of a node is complete
* `Graph.remaining_echo` — the code of a node that is not
-/

namespace ShaderGraph

open Shader

variable {d : NodeDefinition} {name : String}

namespace NodeDefinition

/-- The placeholders of the template that name an output pin, and neither the result nor a property,
in order, with repetitions. -/
def outputPlaceholders (d : NodeDefinition) : List String :=
  (Template.placeholders d.template).filter fun name =>
    name != Template.outputName && !d.properties.contains name && d.outputs.any (·.id == name)

theorem isSome_pinSpec?_iff : (d.pinSpec? name).isSome = true ↔
    (∃ s ∈ d.inputs, s.id = name) ∨ ∃ s ∈ d.outputs, s.id = name := by
  simp only [pinSpec?, List.find?_isSome, beq_iff_eq, inputs, outputs, List.mem_filter]
  constructor
  · rintro ⟨s, hs, hid⟩
    cases hdirection : s.direction with
    | input => exact Or.inl ⟨s, ⟨hs, hdirection⟩, hid⟩
    | output => exact Or.inr ⟨s, ⟨hs, hdirection⟩, hid⟩
  · rintro (⟨s, ⟨hs, -⟩, hid⟩ | ⟨s, ⟨hs, -⟩, hid⟩) <;> exact ⟨s, hs, hid⟩

/-- What passes the check is the result, a property, an input pin or an output pin. -/
theorem resolves_iff : d.resolves name = true ↔
    (name = Template.outputName ∨ d.properties.contains name = true ∨
      ∃ s ∈ d.inputs, s.id = name) ∨ ∃ s ∈ d.outputs, s.id = name := by
  rw [resolves, Bool.or_eq_true, Bool.or_eq_true, beq_iff_eq, isSome_pinSpec?_iff,
    or_right_comm]
  simp only [or_assoc]

/-- Declared pins that differ in their identifiers are not inputs and outputs at once. -/
theorem id_ne_of_mem {s t : PinSpec} (hids : (d.pins.map PinSpec.id).Nodup) (hs : s ∈ d.inputs)
    (ht : t ∈ d.outputs) : s.id ≠ t.id := by
  have hpinned : (d.instantiate ⟨⟨0⟩⟩ ⟨0, 0⟩).WellPinned := wellPinned_instantiate hids
  exact hpinned.id_ne_of_mem (List.mem_map_of_mem (f := Pin.ofSpec) hs)
    (List.mem_map_of_mem (f := Pin.ofSpec) ht)

end NodeDefinition

/-! ### What stands for something in the code -/

namespace Shader

variable {node : Node} {n : NodeId} {position : Position}

/-- The nodes of a definition have its properties and its input pins. -/
theorem isSome_placeholderText?_iff (h : node.skeleton = (d.instantiate n position).skeleton)
    (name : String) :
    (placeholderText? node name).isSome = true ↔
      name = Template.outputName ∨ d.properties.contains name = true ∨
        ∃ s ∈ d.inputs, s.id = name := by
  have hproperty : (node.properties.get? name).isSome = (d.properties.get? name).isSome := by
    have hnames : node.properties.mapValues (fun _ _ => Literal.bool false) =
        d.properties.mapValues fun _ _ => Literal.bool false := congrArg Node.properties h
    have hget := congrArg (fun t => (t.get? name).isSome) hnames
    simpa only [Table.get?_mapValues, Option.isSome_map] using hget
  have hinput : (node.input? name).isSome = true ↔ ∃ s ∈ d.inputs, s.id = name := by
    have hids : node.inputs.map Pin.id = d.inputs.map PinSpec.id := by
      have hinputs : node.inputs.map Pin.skeleton = (d.inputs.map Pin.ofSpec).map Pin.skeleton :=
        congrArg Node.inputs h
      have hmap := congrArg (List.map Pin.id) hinputs
      rw [List.map_map, List.map_map, List.map_map] at hmap
      exact hmap
    have hmem : name ∈ node.inputs.map Pin.id ↔ name ∈ d.inputs.map PinSpec.id := by rw [hids]
    simpa only [Node.input?, List.find?_isSome, beq_iff_eq, List.mem_map] using hmem
  rw [placeholderText?, Table.contains, ← hproperty, ← hinput]
  split
  · rename_i hname
    exact iff_of_true rfl (Or.inl hname)
  · rename_i hname
    cases node.properties.get? name with
    | some l => exact iff_of_true rfl (Or.inr (Or.inl rfl))
    | none =>
      rw [Option.isSome_map, Option.isSome_none]
      simp [hname]

/-- A placeholder that passes the check stays in the code if and only if it names an output pin. -/
theorem remaining_eq_outputPlaceholders
    (h : node.skeleton = (d.instantiate n position).skeleton)
    (hids : (d.pins.map PinSpec.id).Nodup) (hchecked : d.unresolvedPlaceholders = []) :
    Template.remaining d.template (placeholderText? node) = d.outputPlaceholders := by
  rw [Template.remaining, NodeDefinition.outputPlaceholders]
  refine List.filter_congr fun name hname => ?_
  have hresolves : d.resolves name = true := by
    have hpass := List.filter_eq_nil_iff.mp hchecked name hname
    rwa [Bool.not_eq_true, Bool.not_eq_false'] at hpass
  have htext := isSome_placeholderText?_iff h name
  rw [Bool.eq_iff_iff, Option.isNone_iff_eq_none, ← Option.not_isSome_iff_eq_none, htext,
    Bool.and_eq_true, Bool.and_eq_true, bne_iff_ne, Bool.not_eq_true', List.any_eq_true]
  simp only [beq_iff_eq]
  constructor
  · intro hnone
    have houtput := (NodeDefinition.resolves_iff.mp hresolves).resolve_left hnone
    have hproperty : d.properties.contains name = false :=
      Bool.eq_false_iff.mpr fun hp => hnone (Or.inr (Or.inl hp))
    exact ⟨⟨fun he => hnone (Or.inl he), hproperty⟩, houtput⟩
  · rintro ⟨⟨hne, hproperty⟩, t, ht, rfl⟩ (he | hp | ⟨s, hs, he⟩)
    · exact hne he
    · rw [hproperty] at hp
      cases hp
    · exact NodeDefinition.id_ne_of_mem hids hs ht he

end Shader

namespace Graph

variable {g : Graph} {n : NodeId} {node : Node}

/-- The code of a node whose definition passes the check is complete if and only if the template
names no output pin. -/
theorem Instantiated.snippet?_complete_iff (h : g.Instantiated) (hfiled : g.registry.Filed)
    (hn : g.node? n = some node) (hd : g.definition? node = some d)
    (hids : (d.pins.map PinSpec.id).Nodup) (hchecked : d.unresolvedPlaceholders = []) :
    Template.remaining d.template (placeholderText? node) = d.outputPlaceholders ∧
      ∃ code, snippet? g n = some code ∧
        (Template.fill? d.template (placeholderText? node) = some code ↔
          d.outputPlaceholders = []) := by
  obtain ⟨e, he, hs⟩ := h.exists_definition? hfiled hn
  obtain rfl := Option.some_inj.mp (hd.symm.trans he)
  have hremaining := remaining_eq_outputPlaceholders hs hids hchecked
  refine ⟨hremaining, Template.substitute d.template (placeholderText? node), ?_, ?_⟩
  · rw [snippet?, hn, Option.bind_eq_bind, Option.bind_some, hd]
    rfl
  · rw [Template.fill?_eq_some_iff, hremaining]
    exact and_iff_left rfl

/-- The code of a constant is complete. -/
theorem snippet?_complete_iff_bentWire : bentWire.Instantiated ∧ bentWire.registry.Filed ∧
    ∃ node d code, bentWire.node? ⟨⟨1⟩⟩ = some node ∧ bentWire.definition? node = some d ∧
      (d.pins.map PinSpec.id).Nodup ∧ d.unresolvedPlaceholders = [] ∧
      Template.placeholders d.template = ["OUTPUT", "R"] ∧ snippet? bentWire ⟨⟨1⟩⟩ = some code ∧
      Template.fill? d.template (placeholderText? node) = some code := by
  have hkept := authored_bentWire.kept Registry.uniquePins_material
  have hfiled : bentWire.registry.Filed := hkept.registry ▸ Registry.built_material.filed
  obtain ⟨node, hn, hd⟩ : ∃ node, bentWire.node? ⟨⟨1⟩⟩ = some node ∧
      bentWire.definition? node = some Catalog.constants[0] := ⟨_, rfl, rfl⟩
  have hids : (Catalog.constants[0].pins.map PinSpec.id).Nodup := by decide
  have hnames : Template.placeholders Catalog.constants[0].template = ["OUTPUT", "R"] := by
    rw [Template.placeholders_eq]
    decide +kernel
  have hchecked : Catalog.constants[0].unresolvedPlaceholders = [] := by
    rw [NodeDefinition.unresolvedPlaceholders, hnames]
    decide
  have houtput : Catalog.constants[0].outputPlaceholders = [] := by
    rw [NodeDefinition.outputPlaceholders, hnames]
    decide
  obtain ⟨-, code, hcode, hfill⟩ :=
    hkept.instantiated.snippet?_complete_iff hfiled hn hd hids hchecked
  exact ⟨hkept.instantiated, hfiled, node, _, code, hn, hd, hids, hchecked, hnames, hcode,
    hfill.mpr houtput⟩

/-- A definition whose code declares a variable and gives it the value of the output pin. -/
def echo : NodeDefinition :=
  { Catalog.definition "Echo" "Echo" "Expressions" with
    pins := [Catalog.output "Result" "Result" .float]
    template := Catalog.angled "auto ⟨OUTPUT⟩ = ⟨Result⟩;" }

def echoed : Graph := .withRoot "echo" (Registry.empty.register echo) "Echo" ⟨⟨1⟩⟩

/-- The name of the output pin passes the check and stays in the code. -/
theorem remaining_echo : (echo.pins.map PinSpec.id).Nodup ∧ echo.unresolvedPlaceholders = [] ∧
    Authored (Registry.empty.register echo) echoed ∧
    ∃ node, echoed.node? ⟨⟨1⟩⟩ = some node ∧ echoed.definition? node = some echo ∧
      "Result" ∈ Template.placeholders echo.template ∧ placeholderText? node "Result" = none ∧
      snippet? echoed ⟨⟨1⟩⟩ =
        some "auto var_00000000000000000000000000000001 = \x7bResult\x7d;" := by
  have hnames : Template.placeholders echo.template = ["OUTPUT", "Result"] := by
    rw [Template.placeholders_eq]
    decide +kernel
  refine ⟨by decide, ?_, (Created.withRoot "echo" "Echo" ⟨⟨1⟩⟩).authored, _, rfl, rfl, ?_, rfl, ?_⟩
  · rw [NodeDefinition.unresolvedPlaceholders, hnames]
    decide
  · rw [hnames]
    exact List.mem_cons_of_mem _ List.mem_cons_self
  · have hcode : snippet? echoed ⟨⟨1⟩⟩ = some (Template.substitute echo.template
        (placeholderText? (echo.instantiate ⟨⟨1⟩⟩ ⟨0, 0⟩))) := rfl
    rw [hcode, Template.substitute_eq]
    decide +kernel

end Graph

end ShaderGraph
