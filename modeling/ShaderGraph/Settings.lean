import ShaderGraph.Attributes

/-!
# Settings

What can be configured: the definition of the root node, whether links may close cycles, and the
values that evaluation shows where a texture stands for a number.

## Main definitions

* `CyclePolicy` — whether links may close cycles
* `EvaluatorSettings` — the placeholders of evaluation
* `GraphSettings` — all settings, with the version of their format
-/

namespace ShaderGraph

/-- Whether a link may close a cycle. -/
inductive CyclePolicy where
  /-- Cycles are accepted; evaluation cuts them. -/
  | allow
  /-- A link that would close a cycle is refused. -/
  | reject
  deriving DecidableEq, Repr, Inhabited

/-- The identifier of the texture that is always present. -/
def defaultTextureId : String := "default_checker"

/-- The placeholders of evaluation. -/
structure EvaluatorSettings where
  /-- The texture that is sampled where none is named. -/
  placeholderTexture : String
  /-- The number that a channel of a texture stands for. -/
  textureScalar : Float32
  /-- The colour shown while a texture waits to be composed. -/
  pendingColor : Color
  deriving DecidableEq

/-- The checker texture, one half, and white. -/
def EvaluatorSettings.standard : EvaluatorSettings := ⟨defaultTextureId, 0.5, ⟨1, 1, 1⟩⟩

instance : Inhabited EvaluatorSettings := ⟨.standard⟩

/-- All settings of a graph. -/
structure GraphSettings where
  /-- The version of the format in which the settings are saved. -/
  version : UInt32
  /-- The key of the definition of the root node. -/
  rootDefinition : String
  cyclePolicy : CyclePolicy
  evaluation : EvaluatorSettings
  deriving DecidableEq

/-- The latest version of the format in which settings are saved. -/
def GraphSettings.formatVersion : UInt32 := 1

/-- A material output as root, cycles accepted, and the standard placeholders. -/
def GraphSettings.standard : GraphSettings where
  version := formatVersion
  rootDefinition := "MaterialOutput"
  cyclePolicy := .allow
  evaluation := .standard

instance : Inhabited GraphSettings := ⟨.standard⟩

/-- Equality of settings with numbers compared as numbers: what is not a number agrees with
nothing. -/
def GraphSettings.agrees (s t : GraphSettings) : Bool :=
  let c := s.evaluation.pendingColor
  let d := t.evaluation.pendingColor
  s.version == t.version && s.rootDefinition == t.rootDefinition &&
    s.cyclePolicy == t.cyclePolicy &&
    s.evaluation.placeholderTexture == t.evaluation.placeholderTexture &&
    s.evaluation.textureScalar == t.evaluation.textureScalar &&
    c.red == d.red && c.green == d.green && c.blue == d.blue

end ShaderGraph
