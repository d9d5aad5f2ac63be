import Mathlib.Data.List.Basic
import ShaderGraph.Proofs.Ron.Decode
import ShaderGraph.Saved.Settings

/-!
# Saved settings are read back, in full or in part

Every field of saved settings is a line of their text, or several lines if it has fields itself, and
each of these lines may be taken out. What remains is read back: a field that is left has its saved
value, and a field that was taken out has its standard value, on either level. Only the version
decides whether the settings are accepted, and it has to be left in the text to do so.

## Main definitions

* `Ron.recordText` — the text of a record with some of its fields
* `GraphSettings.remainingText` — what remains of the text of settings with some of their fields
* `GraphSettings.keeping` — settings with the standard values for all but some fields

## Main results

* `GraphSettings.remaining_reads` — what remains is read back
* `GraphSettings.ofRon?_remaining` — it is decoded to the settings that keep the fields left in it
* `GraphSettings.ofText_remainingText` — so the text that remains stands for these settings
-/

namespace ShaderGraph

/-! ### Records with some of their fields -/

namespace Ron

/-- The text of a record with the fields that are kept, each of them a name and the text of its
value, one a line. -/
def recordText (indent name : String) (kept : String → Bool) (fields : List (String × String)) :
    String :=
  name ++ "(\n" ++
    String.join ((fields.filter (kept ·.1)).map fun f =>
      indent ++ "    " ++ f.1 ++ ": " ++ f.2 ++ ",\n") ++
    indent ++ ")"

variable {kept : String → Bool} {level : Nat} {name indent : String}

theorem indentation_succ : indentation (level + 1) = indentation level ++ "    ".toList :=
  List.replicate_add ..

/-- Each field is a line. -/
theorem toList_join_lines (hindent : indent.toList = indentation level)
    (fs : List (String × Ron)) :
    (String.join (fs.map fun f =>
        indent ++ "    " ++ f.1 ++ ": " ++ String.ofList (write (level + 1) f.2) ++ ",\n")).toList =
      lines (level + 1) (writeField (level + 1)) fs := by
  rw [String.toList_join, List.flatMap_map, lines]
  refine List.flatMap_congr fun f _ => ?_
  simp only [String.toList_append, String.toList_ofList, hindent, indentation_succ, writeField,
    List.append_assoc]
  rfl

/-- The text of a record with some of its fields is what is written of the record that has no
others. -/
theorem recordText_eq (hindent : indent.toList = indentation level) (fs : List (String × Ron)) :
    recordText indent name kept
        (fs.map fun f => (f.1, String.ofList (write (level + 1) f.2))) =
      String.ofList (write level (.record name (fs.filter (kept ·.1)))) := by
  have hlines := toList_join_lines hindent (fs.filter (kept ·.1))
  rw [recordText, List.filter_map, List.map_map, ← String.toList_inj, String.toList_ofList,
    write_record, ← hlines]
  simp only [String.toList_append, hindent, List.append_assoc]
  rfl

end Ron

/-! ### Colours and cycle policies -/

theorem Color.reads {c : Color} : Color.shape.Reads c.toRon :=
  .ofNumbers [c.red, c.green, c.blue]

theorem Color.ofRon?_toRon {c : Color} : ofRon? c.toRon = some c := by
  rw [toRon, ofRon?, Ron.numbers?_ofNumbers]

theorem CyclePolicy.reads {p : CyclePolicy} : CyclePolicy.shape.Reads p.toRon := by
  cases p with
  | allow => exact .names (by decide) (by decide)
  | reject => exact .names (by decide) (by decide)

theorem CyclePolicy.ofRon?_toRon {p : CyclePolicy} : ofRon? p.toRon = some p := by
  cases p <;> rfl

/-- The word for a cycle policy. -/
def CyclePolicy.word : CyclePolicy → String
  | allow => "Allow"
  | reject => "Reject"

theorem CyclePolicy.ofList_write {p : CyclePolicy} {level : Nat} :
    String.ofList (Ron.write level p.toRon) = p.word := by
  cases p <;> exact String.ofList_toList

/-- The text of a colour. -/
def Color.text (c : Color) : String :=
  "(" ++ FloatNotation.saved.write c.red ++ ", " ++ FloatNotation.saved.write c.green ++ ", " ++
    FloatNotation.saved.write c.blue ++ ")"

theorem Color.ofList_write {c : Color} {level : Nat} :
    String.ofList (Ron.write level c.toRon) = c.text := by
  rw [← String.toList_inj, String.toList_ofList, text, toRon, Ron.ofNumbers, Ron.write_tuple]
  simp only [List.map_cons, List.map_nil, Ron.Shape.writeTuple_cons_cons, Ron.ofF32,
    Ron.write_number, String.toList_append, List.cons_append, List.append_assoc]
  rfl

variable {kept inner : String → Bool}

/-! ### Placeholders of evaluation -/

namespace EvaluatorSettings

variable {s : EvaluatorSettings}

/-- The placeholders of evaluation with some of their fields, and the standard values for the
others. -/
def keeping (kept : String → Bool) (s : EvaluatorSettings) : EvaluatorSettings where
  placeholderTexture :=
    if kept "placeholder_texture_id" then s.placeholderTexture else standard.placeholderTexture
  textureScalar :=
    if kept "texture_scalar_placeholder" then s.textureScalar else standard.textureScalar
  pendingColor :=
    if kept "pending_placeholder_color" then s.pendingColor else standard.pendingColor

/-- What remains of the text of the placeholders, which stands inside the text of settings, if some
of their fields are kept. -/
def remainingText (kept : String → Bool) (s : EvaluatorSettings) : String :=
  Ron.recordText "    " "EvaluatorSettings" kept
    [("placeholder_texture_id", Text.quote true s.placeholderTexture),
      ("texture_scalar_placeholder", FloatNotation.saved.write s.textureScalar),
      ("pending_placeholder_color", s.pendingColor.text)]

/-- The fields of the placeholders. -/
def fields (s : EvaluatorSettings) : List (String × Ron) :=
  [("placeholder_texture_id", .text s.placeholderTexture),
    ("texture_scalar_placeholder", .ofF32 s.textureScalar),
    ("pending_placeholder_color", s.pendingColor.toRon)]

/-- The record of the placeholders with some of their fields. -/
def remaining (kept : String → Bool) (s : EvaluatorSettings) : Ron :=
  .record "EvaluatorSettings" (s.fields.filter (kept ·.1))

theorem nodup_fields : (s.fields.map Prod.fst).Nodup := by simp [fields]

theorem remainingText_eq :
    s.remainingText kept = String.ofList (Ron.write 1 (s.remaining kept)) := by
  have hindent : "    ".toList = Ron.indentation 1 := rfl
  rw [remaining, ← Ron.recordText_eq hindent, remainingText, fields]
  simp only [List.map_cons, List.map_nil, Ron.write_text, Ron.ofF32, Ron.write_number,
    Color.ofList_write, String.ofList_toList]

theorem remaining_reads : shape.Reads (s.remaining kept) := by
  have hall : ∀ f ∈ s.fields, Ron.isPlainName f.1 = true ∧ ∃ shape,
      [("placeholder_texture_id", .text), ("texture_scalar_placeholder", .number),
        ("pending_placeholder_color", Color.shape)].lookup f.1 = some shape ∧ shape.Reads f.2 := by
    simp only [fields, List.forall_mem_cons]
    exact ⟨⟨by decide, _, rfl, .text⟩, ⟨by decide, _, rfl, .ofF32⟩,
      ⟨by decide, _, rfl, Color.reads⟩, by simp⟩
  exact .record (by decide) fun f hf => hall f (List.mem_of_mem_filter hf)

theorem ofRon?_remaining : ofRon? (s.remaining kept) = some (s.keeping kept) := by
  rw [remaining, ofRon?, Ron.fields?, if_pos rfl]
  simp only [Option.bind_eq_bind, Option.bind_some]
  rw [Ron.optional?_filter nodup_fields rfl Ron.text?_text, Option.bind_some,
    Ron.optional?_filter nodup_fields rfl Ron.f32?_ofF32, Option.bind_some,
    Ron.optional?_filter nodup_fields rfl Color.ofRon?_toRon, Option.bind_some]
  rfl

end EvaluatorSettings

/-! ### Settings -/

namespace GraphSettings

variable {s : GraphSettings}

/-- Settings with some of their fields, among them the placeholders of evaluation with some of
theirs, and the standard values for the others. -/
def keeping (kept inner : String → Bool) (s : GraphSettings) : GraphSettings where
  version := if kept "version" then s.version else standard.version
  rootDefinition := if kept "root_definition" then s.rootDefinition else standard.rootDefinition
  cyclePolicy := if kept "cycle_policy" then s.cyclePolicy else standard.cyclePolicy
  evaluation := if kept "evaluation" then s.evaluation.keeping inner else standard.evaluation

/-- What remains of the text of settings if some of their fields are kept, and some of the fields of
the placeholders of evaluation. -/
def remainingText (kept inner : String → Bool) (s : GraphSettings) : String :=
  Ron.recordText "" "GraphSettings" kept
    [("version", toString s.version), ("root_definition", Text.quote true s.rootDefinition),
      ("cycle_policy", s.cyclePolicy.word), ("evaluation", s.evaluation.remainingText inner)]

/-- The fields of settings, with some of the fields of the placeholders of evaluation. -/
def fields (inner : String → Bool) (s : GraphSettings) : List (String × Ron) :=
  [("version", .ofU32 s.version), ("root_definition", .text s.rootDefinition),
    ("cycle_policy", s.cyclePolicy.toRon), ("evaluation", s.evaluation.remaining inner)]

/-- The record of settings with some of their fields. -/
def remaining (kept inner : String → Bool) (s : GraphSettings) : Ron :=
  .record "GraphSettings" ((s.fields inner).filter (kept ·.1))

theorem nodup_fields : ((s.fields inner).map Prod.fst).Nodup := by simp [fields]

theorem remainingText_eq : s.remainingText kept inner = (s.remaining kept inner).toText := by
  have hindent : "".toList = Ron.indentation 0 := rfl
  rw [Ron.toText, remaining, ← Ron.recordText_eq hindent, remainingText, fields]
  simp only [List.map_cons, List.map_nil, Ron.ofU32, Ron.write_number, Ron.write_text,
    CyclePolicy.ofList_write, EvaluatorSettings.remainingText_eq, String.ofList_toList]
  rfl

theorem remaining_reads : shape.Reads (s.remaining kept inner) := by
  have hall : ∀ f ∈ s.fields inner, Ron.isPlainName f.1 = true ∧ ∃ shape,
      [("version", .number), ("root_definition", .text), ("cycle_policy", CyclePolicy.shape),
        ("evaluation", EvaluatorSettings.shape)].lookup f.1 = some shape ∧ shape.Reads f.2 := by
    simp only [fields, List.forall_mem_cons]
    exact ⟨⟨by decide, _, rfl, .ofU32⟩, ⟨by decide, _, rfl, .text⟩,
      ⟨by decide, _, rfl, CyclePolicy.reads⟩,
      ⟨by decide, _, rfl, EvaluatorSettings.remaining_reads⟩, by simp⟩
  exact .record (by decide) fun f hf => hall f (List.mem_of_mem_filter hf)

theorem ofRon?_remaining : ofRon? (s.remaining kept inner) = some (s.keeping kept inner) := by
  rw [remaining, ofRon?, Ron.fields?, if_pos rfl]
  simp only [Option.bind_eq_bind, Option.bind_some]
  rw [Ron.optional?_filter nodup_fields rfl Ron.u32?_ofU32, Option.bind_some,
    Ron.optional?_filter nodup_fields rfl Ron.text?_text, Option.bind_some,
    Ron.optional?_filter nodup_fields rfl CyclePolicy.ofRon?_toRon, Option.bind_some,
    Ron.optional?_filter nodup_fields rfl EvaluatorSettings.ofRon?_remaining, Option.bind_some]
  rfl

/-- The text that remains stands for the settings with the fields that are left in it, unless the
version is one of them and not known. Without anything taken out, it is the text of the settings and
stands for them. -/
theorem ofText_remainingText (s : GraphSettings) (kept inner : String → Bool) :
    s.remainingText (fun _ => true) (fun _ => true) = s.toText ∧
    s.keeping (fun _ => true) (fun _ => true) = s ∧
    ofText (s.remainingText kept inner) =
      if kept "version" = true ∧ formatVersion < s.version then
        .error (.unsupportedVersion s.version formatVersion)
      else .ok (s.keeping kept inner) := by
  have hread : (Ron.ofText? shape (s.remainingText kept inner)).bind ofRon? =
      some (s.keeping kept inner) := by
    rw [remainingText_eq, remaining_reads.ofText?_toText, Option.bind_some, ofRon?_remaining]
  refine ⟨?_, rfl, ?_⟩
  · rw [remainingText_eq, remaining, List.filter_true, fields, EvaluatorSettings.remaining,
      List.filter_true]
    rfl
  · rw [ofText, hread]
    dsimp only
    by_cases hkept : kept "version" = true
    · have hversion : (s.keeping kept inner).version = s.version := if_pos hkept
      rw [hversion]
      simp only [hkept, true_and]
    · have hversion : (s.keeping kept inner).version = formatVersion := if_neg hkept
      rw [hversion, if_neg (UInt32.lt_irrefl _), if_neg fun h => hkept h.1]

example : standard.remainingText (· == "evaluation") (· == "placeholder_texture_id") =
    "GraphSettings(\n" ++
    "    evaluation: EvaluatorSettings(\n" ++
    "        placeholder_texture_id: \"default_checker\",\n" ++
    "    ),\n" ++
    ")" := by decide

end GraphSettings

end ShaderGraph
