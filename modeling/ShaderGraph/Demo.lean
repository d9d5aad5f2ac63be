import ShaderGraph.Graph.Edit

/-!
# The demonstration graph

The graph that is shown where no document is given: a tinted texture feeds the base colour, and one
constant feeds two channels. It is built step by step over any registry and stops at the first step
that the graph refuses.

## Main definitions

* `Demo.Part` — the nodes of the demonstration
* `Demo.Step` — one edit on the way to it
* `Demo.steps` — all edits in order
* `Demo.graph` — the demonstration over a registry and settings
-/

namespace ShaderGraph.Demo

/-- A node of the demonstration. -/
inductive Part where
  | root
  | sample
  | tint
  | multiply
  | rough
  | invert
  | metal
  | occlusion
  deriving DecidableEq, Repr

/-- The number of a part in the order in which the parts are added. -/
def Part.number : Part → Nat
  | root => 0
  | sample => 1
  | tint => 2
  | multiply => 3
  | rough => 4
  | invert => 5
  | metal => 6
  | occlusion => 7

/-- A pin of the demonstration. -/
structure Terminal where
  part : Part
  pin : String
  deriving DecidableEq, Repr

/-- One edit on the way to the demonstration. -/
inductive Step where
  /-- Adds a part as a node of the definition with a key. -/
  | place (part : Part) (key : String) (position : Position)
  | setProperty (part : Part) (name : String) (value : Literal)
  | setDefault (pin : Terminal) (value : Literal)
  /-- Draws the link with a number between two pins. -/
  | wire (number : Nat) (source target : Terminal)

/-- The nodes apart from the root. -/
def places : List Step :=
  [.place .sample "TextureSample" ⟨-600, -200⟩, .place .tint "VectorParameter" ⟨-600, 0⟩,
    .place .multiply "Multiply" ⟨-300, -100⟩, .place .rough "Constant" ⟨-600, 150⟩,
    .place .invert "OneMinus" ⟨-300, 200⟩, .place .metal "ScalarParameter" ⟨-600, 300⟩,
    .place .occlusion "Lerp" ⟨-300, 400⟩]

/-- The values that differ from the declared ones. -/
def values : List Step :=
  [.setProperty .tint "ParameterName" (.text "Tint"), .setProperty .tint "G" (.float 0.35),
    .setProperty .tint "B" (.float 0.2), .setProperty .rough "R" (.float 0.65),
    .setProperty .metal "ParameterName" (.text "Metalness"),
    .setDefault ⟨.occlusion, "A"⟩ (.float 0.6)]

/-- The links. -/
def wires : List Step :=
  [.wire 0 ⟨.sample, "RGB"⟩ ⟨.multiply, "A"⟩, .wire 1 ⟨.tint, "Output"⟩ ⟨.multiply, "B"⟩,
    .wire 2 ⟨.multiply, "Result"⟩ ⟨.root, "BaseColor"⟩,
    .wire 3 ⟨.rough, "Output"⟩ ⟨.root, "Roughness"⟩,
    .wire 4 ⟨.rough, "Output"⟩ ⟨.invert, "Input"⟩,
    .wire 5 ⟨.invert, "Result"⟩ ⟨.root, "Specular"⟩,
    .wire 6 ⟨.metal, "Output"⟩ ⟨.root, "Metallic"⟩,
    .wire 7 ⟨.sample, "R"⟩ ⟨.occlusion, "Alpha"⟩,
    .wire 8 ⟨.occlusion, "Result"⟩ ⟨.root, "AmbientOcclusion"⟩]

/-- All edits in order. -/
def steps : List Step := places ++ values ++ wires

/-- The identifiers that the numbered nodes and links receive. -/
structure Numbering where
  node : Nat → NodeId
  link : Nat → LinkId

namespace Numbering

/-- The identifier of a part. -/
def part (ids : Numbering) (p : Part) : NodeId := ids.node p.number

/-- The address of a pin. -/
def pin (ids : Numbering) (t : Terminal) : PinRef := ⟨ids.part t.part, t.pin⟩

end Numbering

/-- Carries out one edit; none if the graph refuses it. A value for a property or a pin that does
not exist is disregarded. -/
def Step.perform? (ids : Numbering) (g : Graph) : Step → Option Graph
  | place part key position => g.addNode? key position (ids.part part)
  | setProperty part name value => some (g.setProperty (ids.part part) name value)
  | setDefault pin value => some (g.setDefault (ids.pin pin) (some value))
  | wire number source target =>
    (g.connect (ids.pin source) (ids.pin target) (ids.link number)).toOption

/-- Carries out edits up to the first one that the graph refuses. -/
def build (ids : Numbering) (g : Graph) : List Step → Graph
  | [] => g
  | s :: ss =>
    match s.perform? ids g with
    | some g => build ids g ss
    | none => g

/-- The demonstration over a registry and settings; without a root nothing is added. -/
def graph (registry : Registry) (settings : GraphSettings) (ids : Numbering) : Graph :=
  let g := Graph.ofSettings "Demo Brick" registry settings (ids.part .root)
  if g.root.isSome then build ids g steps else g

end ShaderGraph.Demo
