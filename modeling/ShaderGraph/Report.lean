import ShaderGraph.Evaluation.Scope
import ShaderGraph.Json
import ShaderGraph.Shader
import ShaderGraph.Texture

/-!
# Reports

What is told about a material after it was evaluated: the size of its graph, the content of its
channels, the effort of the evaluation, what became of its pending operations and, on demand, its
shader code. A report is read by people as text or by programs as JSON.

## Main definitions

* `Report` — what is told about a material
* `Report.ofGraph` — the report on the material at a node, before any texture is composed
* `Report.compose`, `Report.withShader` — the report after composition, and with shader code
* `Report.toText`, `Report.toJson` — the two written forms
-/

namespace ShaderGraph

/-- What is told about a material. -/
structure Report where
  /-- The name of the graph. -/
  material : String
  nodes : Nat
  links : Nat
  attributes : MaterialAttributes
  /-- How often rules ran, over all nodes. -/
  evaluations : Nat
  memoHits : Nat
  cyclesBroken : Nat
  /-- How many operations evaluation left pending. -/
  pending : Nat
  /-- How many of them were carried out since. -/
  resolved : Nat
  shader : Option String
  deriving DecidableEq

/-- How often rules ran, over all nodes. -/
def Trace.totalEvaluations (t : Trace) : Nat := t.evaluations.values.foldl (· + ·) 0

namespace Report

/-- The report on the material at a node, before any texture is composed. -/
def ofGraph (ev : Evaluator) (g : Graph) (root : NodeId) : Report :=
  let (attributes, trace) := ev.evaluateTraced g root
  { material := g.name
    nodes := g.nodes.size
    links := g.links.size
    attributes
    evaluations := trace.totalEvaluations
    memoHits := trace.memoHits
    cyclesBroken := trace.cyclesBroken
    pending := attributes.pending.size
    resolved := 0
    shader := none }

/-- The report after a new compositor was handed every pending operation. -/
def compose (r : Report) : Report :=
  let run := resolvePending Compositor.compose .empty r.attributes
  { r with attributes := run.attributes, resolved := run.resolved }

/-- The report with the shader code of a node. -/
def withShader (r : Report) (g : Graph) (root : NodeId) : Report :=
  { r with shader := some (Shader.export g root) }

/-! ## Text -/

/-- The channels with their headings, in the order in which they are shown. -/
def rows : List (String × Channel) :=
  [("Base Color", .baseColor), ("Metallic", .metallic), ("Specular", .specular),
    ("Roughness", .roughness), ("Anisotropy", .anisotropy), ("Emissive Color", .emissiveColor),
    ("Opacity", .opacity), ("Opacity Mask", .opacityMask), ("Normal", .normal),
    ("Ambient Occlusion", .ambientOcclusion)]

/-- The width of the column of headings. -/
def headingWidth : Nat := 18

/-- A heading with blanks up to the width of its column. -/
def heading (s : String) : String :=
  s ++ String.ofList (List.replicate (headingWidth - s.length) ' ')

/-- What is shown for the content of a channel. -/
def cell : Option Value → String
  | none => "-"
  | some (.scalar x) => floatText x
  | some (.vector xs) => "[" ++ String.intercalate ", " (xs.map floatText) ++ "]"
  | some (.texture t) => "texture " ++ t.id

/-- The line about a channel. -/
def row (a : MaterialAttributes) (heading : String) (c : Channel) : String :=
  "  " ++ Report.heading heading ++ cell (a.slot c) ++ "\n"

/-- The line about pending operations, left out if there were none. -/
def pendingLine (r : Report) : String :=
  if r.pending = 0 then ""
  else "Pending: " ++ toString r.resolved ++ " of " ++ toString r.pending ++ " resolved\n"

/-- The form of a report for people. -/
def toText (r : Report) : String :=
  "Material: " ++ r.material ++ " (" ++ toString r.nodes ++ " nodes, " ++ toString r.links ++
      " links)\n" ++
    String.join (rows.map fun e => row r.attributes e.1 e.2) ++
    "Evaluation: " ++ toString r.evaluations ++ " node evaluations, " ++ toString r.memoHits ++
      " memo hits, " ++ toString r.cyclesBroken ++ " cycles broken\n" ++
    r.pendingLine ++
    match r.shader with
    | some code => "\n" ++ code
    | none => ""

end Report

/-! ## JSON -/

/-- A texture as a record. -/
def TextureRef.toJson (t : TextureRef) : Json := .record [("id", .text t.id), ("url", .text t.url)]

/-- A value as a record with a single field, which tells its kind. -/
def Value.toJson : Value → Json
  | scalar x => .record [("Scalar", .number x)]
  | vector xs => .record [("Vector", .list (xs.map .number))]
  | texture t => .record [("Texture", t.toJson)]

/-- A pending operation as a record. -/
def PendingOperation.toJson (op : PendingOperation) : Json :=
  .record [("operation", .text "Multiply"), ("texture", op.texture.toJson),
    ("color", op.factor.toJson)]

/-- The name of a channel in the table of pending operations. -/
def Channel.name : Channel → String
  | baseColor => "BaseColor"
  | metallic => "Metallic"
  | specular => "Specular"
  | roughness => "Roughness"
  | anisotropy => "Anisotropy"
  | emissiveColor => "EmissiveColor"
  | opacityMask => "OpacityMask"
  | opacity => "Opacity"
  | normal => "Normal"
  | ambientOcclusion => "AmbientOcclusion"

/-- A material as a record: its channels, then the table of its pending operations. -/
def MaterialAttributes.toJson (a : MaterialAttributes) : Json :=
  let color := Json.ofOption Value.toJson
  let number := Json.ofOption Json.number
  .record [("base_color", color a.baseColor), ("metallic", number a.metallic),
    ("specular", number a.specular), ("roughness", number a.roughness),
    ("anisotropy", number a.anisotropy), ("emissive_color", color a.emissiveColor),
    ("opacity_mask", number a.opacityMask), ("opacity", number a.opacity),
    ("normal", color a.normal), ("ambient_occlusion", number a.ambientOcclusion),
    ("pending", .record (a.pending.entries.map fun e => (e.1.name, e.2.toJson)))]

/-- A report as a record; shader code is a field only if the report has any. -/
def Report.toJson (r : Report) : Json :=
  .record
    ([("material", .text r.material), ("nodes", .natural r.nodes), ("links", .natural r.links),
        ("attributes", r.attributes.toJson), ("node_evaluations", .natural r.evaluations),
        ("memo_hits", .natural r.memoHits), ("cycles_broken", .natural r.cyclesBroken),
        ("pending", .natural r.pending), ("resolved", .natural r.resolved)] ++
      match r.shader with
      | some code => [("shader", .text code)]
      | none => [])

end ShaderGraph
