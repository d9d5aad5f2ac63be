import ShaderGraph.Ron.Decode
import ShaderGraph.Ron.Printer
import ShaderGraph.Ron.Reader
import ShaderGraph.Saved.Error
import ShaderGraph.Settings

/-!
# Saved settings

The text of settings and the settings of a text. Whatever a text leaves out has its standard value.

## Main definitions

* `GraphSettings.shape` — what saved settings look like
* `GraphSettings.toText` — the text in which settings are saved
* `GraphSettings.ofText` — the settings that a text stands for, or why there are none
-/

namespace ShaderGraph

/-- A colour is a tuple. -/
def Color.shape : Ron.Shape := .numbers 3

/-- A colour as a tuple. -/
def Color.toRon (c : Color) : Ron := .ofNumbers [c.red, c.green, c.blue]

/-- The colour that a tuple stands for. -/
def Color.ofRon? (v : Ron) : Option Color :=
  match v.numbers? with
  | some [r, g, b] => some ⟨r, g, b⟩
  | _ => none

/-- A cycle policy is a name. -/
def CyclePolicy.shape : Ron.Shape := .names ["Allow", "Reject"]

/-- A cycle policy as a name. -/
def CyclePolicy.toRon : CyclePolicy → Ron
  | allow => .unit "Allow"
  | reject => .unit "Reject"

/-- The cycle policy that a name stands for. -/
def CyclePolicy.ofRon? : Ron → Option CyclePolicy
  | .unit "Allow" => some .allow
  | .unit "Reject" => some .reject
  | _ => none

namespace EvaluatorSettings

/-- The placeholders of evaluation are a record. -/
def shape : Ron.Shape :=
  .record "EvaluatorSettings"
    [("placeholder_texture_id", .text), ("texture_scalar_placeholder", .number),
      ("pending_placeholder_color", Color.shape)]

/-- The placeholders of evaluation as a record. -/
def toRon (s : EvaluatorSettings) : Ron :=
  .record "EvaluatorSettings"
    [("placeholder_texture_id", .text s.placeholderTexture),
      ("texture_scalar_placeholder", .ofF32 s.textureScalar),
      ("pending_placeholder_color", s.pendingColor.toRon)]

/-- The placeholders of evaluation that a record stands for. -/
def ofRon? (v : Ron) : Option EvaluatorSettings := do
  let fs ← v.fields? "EvaluatorSettings"
  let texture ←
    Ron.optional? fs "placeholder_texture_id" standard.placeholderTexture Ron.text?
  let scalar ← Ron.optional? fs "texture_scalar_placeholder" standard.textureScalar Ron.f32?
  let color ← Ron.optional? fs "pending_placeholder_color" standard.pendingColor Color.ofRon?
  pure ⟨texture, scalar, color⟩

end EvaluatorSettings

namespace GraphSettings

/-- Settings are a record. -/
def shape : Ron.Shape :=
  .record "GraphSettings"
    [("version", .number), ("root_definition", .text), ("cycle_policy", CyclePolicy.shape),
      ("evaluation", EvaluatorSettings.shape)]

/-- Settings as a record. -/
def toRon (s : GraphSettings) : Ron :=
  .record "GraphSettings"
    [("version", .ofU32 s.version), ("root_definition", .text s.rootDefinition),
      ("cycle_policy", s.cyclePolicy.toRon), ("evaluation", s.evaluation.toRon)]

/-- The settings that a record stands for. -/
def ofRon? (v : Ron) : Option GraphSettings := do
  let fs ← v.fields? "GraphSettings"
  let version ← Ron.optional? fs "version" standard.version Ron.u32?
  let root ← Ron.optional? fs "root_definition" standard.rootDefinition Ron.text?
  let policy ← Ron.optional? fs "cycle_policy" standard.cyclePolicy CyclePolicy.ofRon?
  let evaluation ← Ron.optional? fs "evaluation" standard.evaluation EvaluatorSettings.ofRon?
  pure ⟨version, root, policy, evaluation⟩

/-- The text in which settings are saved. -/
def toText (s : GraphSettings) : String := s.toRon.toText

/-- The settings that a text stands for. -/
def ofText (s : String) : Except SavedTextError GraphSettings :=
  match (Ron.ofText? shape s).bind ofRon? with
  | none => .error .malformed
  | some settings =>
    if formatVersion < settings.version then
      .error (.unsupportedVersion settings.version formatVersion)
    else .ok settings

end GraphSettings

end ShaderGraph
