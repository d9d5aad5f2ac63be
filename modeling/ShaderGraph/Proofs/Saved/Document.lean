import Mathlib.Data.List.Basic
import ShaderGraph.Proofs.Ron.Decode
import ShaderGraph.Saved.Document

/-!
# Saved documents are read back

The text of a document holds the document: every part is read back from its written form, in the
shape of its type, and decoded to what was encoded. Only the version decides whether the document is
accepted.

## Main results

* `Literal.reads`, `Literal.ofRon?_toRon` — a literal is read back and decoded
* `NodeRecord.reads`, `NodeRecord.ofRon?_toRon` — so is a node record with its tables
* `GraphDocument.reads`, `GraphDocument.ofRon?_toRon` — so is a document
* `GraphDocument.ofText_toText` — the text of a document stands for it unless its version is unknown
-/

namespace ShaderGraph

/-! ### Literals, identifiers and positions -/

theorem Literal.reads {l : Literal} : Literal.shape.Reads l.toRon := by
  cases l with
  | bool b => exact .variants (by decide) rfl .bool
  | float x => exact .variants (by decide) rfl .ofF32
  | vector2 x y => exact .variants (by decide) rfl (.ofNumbers [x, y])
  | vector3 x y z => exact .variants (by decide) rfl (.ofNumbers [x, y, z])
  | vector4 x y z w => exact .variants (by decide) rfl (.ofNumbers [x, y, z, w])
  | text s => exact .variants (by decide) rfl .text

theorem Literal.ofRon?_toRon {l : Literal} : ofRon? l.toRon = some l := by
  cases l with
  | bool b => rfl
  | float x => rw [toRon, ofRon?, Ron.f32?_ofF32, Option.map_some]
  | vector2 x y => rw [toRon, ofRon?, Ron.numbers?_ofNumbers]
  | vector3 x y z => rw [toRon, ofRon?, Ron.numbers?_ofNumbers]
  | vector4 x y z w => rw [toRon, ofRon?, Ron.numbers?_ofNumbers]
  | text s => rfl

theorem NodeId.reads {n : NodeId} : NodeId.shape.Reads n.toRon := .wrapper (by decide) .text

theorem NodeId.ofRon?_toRon {n : NodeId} : ofRon? n.toRon = some n := by
  rw [toRon, ofRon?, Ron.wrapped?, if_pos rfl, Ron.uuid?_hyphenated, Option.map_some]

theorem LinkId.reads {l : LinkId} : LinkId.shape.Reads l.toRon := .wrapper (by decide) .text

theorem LinkId.ofRon?_toRon {l : LinkId} : ofRon? l.toRon = some l := by
  rw [toRon, ofRon?, Ron.wrapped?, if_pos rfl, Ron.uuid?_hyphenated, Option.map_some]

theorem Position.reads {p : Position} : Position.shape.Reads p.toRon :=
  .ofNumbers [p.x, p.y]

theorem Position.ofRon?_toRon {p : Position} : ofRon? p.toRon = some p := by
  rw [toRon, ofRon?, Ron.numbers?_ofNumbers]

theorem PinRef.reads {p : PinRef} : PinRef.shape.Reads p.toRon := by
  refine .record (by decide) ?_
  simp only [List.forall_mem_cons]
  exact ⟨⟨by decide, _, rfl, NodeId.reads⟩, ⟨by decide, _, rfl, .text⟩, by simp⟩

theorem PinRef.ofRon?_toRon {p : PinRef} : ofRon? p.toRon = some p := by
  have hnames : ([("node", p.node.toRon), ("pin", .text p.pin)].map Prod.fst).Nodup := by simp
  rw [toRon, ofRon?, Ron.fields?, if_pos rfl]
  simp only [Option.bind_eq_bind, Option.bind_some]
  rw [Ron.required?_of_lookup hnames rfl, NodeId.ofRon?_toRon, Option.bind_some,
    Ron.required?_of_lookup hnames rfl]
  rfl

/-! ### Records -/

theorem LinkRecord.reads {r : LinkRecord} : LinkRecord.shape.Reads r.toRon := by
  refine .record (by decide) ?_
  simp only [List.forall_mem_cons]
  exact ⟨⟨by decide, _, rfl, LinkId.reads⟩, ⟨by decide, _, rfl, PinRef.reads⟩,
    ⟨by decide, _, rfl, PinRef.reads⟩, by simp⟩

theorem LinkRecord.ofRon?_toRon {r : LinkRecord} : ofRon? r.toRon = some r := by
  have hnames : ([("id", r.id.toRon), ("from", r.source.toRon), ("to", r.target.toRon)].map
      Prod.fst).Nodup := by simp
  rw [toRon, ofRon?, Ron.fields?, if_pos rfl]
  simp only [Option.bind_eq_bind, Option.bind_some]
  rw [Ron.required?_of_lookup hnames rfl, LinkId.ofRon?_toRon, Option.bind_some,
    Ron.required?_of_lookup hnames rfl, PinRef.ofRon?_toRon, Option.bind_some,
    Ron.required?_of_lookup hnames rfl, PinRef.ofRon?_toRon, Option.bind_some]
  rfl

/-- The fields of a node record. -/
def NodeRecord.fields (r : NodeRecord) : List (String × Ron) :=
  [("id", r.id.toRon), ("definition_key", .text r.key), ("position", r.position.toRon),
      ("properties", .ofTable Literal.toRon r.properties)] ++
    if r.pinDefaults.isEmpty then []
    else [("pin_defaults", .ofTable (Ron.ofOption Literal.toRon) r.pinDefaults)]

theorem NodeRecord.toRon_eq {r : NodeRecord} : r.toRon = .record "NodeRecord" r.fields := rfl

theorem NodeRecord.nodup_fields {r : NodeRecord} : (r.fields.map Prod.fst).Nodup := by
  rw [fields]
  split <;> simp

theorem NodeRecord.reads {r : NodeRecord} : NodeRecord.shape.Reads r.toRon := by
  rw [toRon_eq]
  refine .record (by decide) ?_
  rw [fields, List.forall_mem_append]
  simp only [List.forall_mem_cons]
  refine ⟨⟨⟨by decide, _, rfl, NodeId.reads⟩, ⟨by decide, _, rfl, .text⟩,
    ⟨by decide, _, rfl, Position.reads⟩,
    ⟨by decide, _, rfl, .ofTable fun _ => Literal.reads⟩, by simp⟩, ?_⟩
  split
  · simp
  · simp only [List.forall_mem_cons]
    exact ⟨⟨by decide, _, rfl, .ofTable fun _ => .ofOption fun _ => Literal.reads⟩, by simp⟩

/-- Pin defaults that are left out are none. -/
theorem NodeRecord.optional?_pinDefaults {r : NodeRecord} :
    Ron.optional? r.fields "pin_defaults" [] (Ron.map? (Ron.option? Literal.ofRon?)) =
      some r.pinDefaults.entries := by
  by_cases hempty : r.pinDefaults.isEmpty = true
  · rw [Ron.optional?_of_lookup_eq_none (by simp [fields, hempty])]
    rw [Table.isEmpty, List.isEmpty_iff] at hempty
    rw [hempty]
  · have hlookup : r.fields.lookup "pin_defaults" =
        some (.ofTable (Ron.ofOption Literal.toRon) r.pinDefaults) := by
      rw [fields, if_neg hempty]
      rfl
    rw [Ron.optional?_of_lookup nodup_fields hlookup]
    exact Ron.map?_ofTable fun _ => Ron.option?_ofOption fun _ => Literal.ofRon?_toRon

theorem NodeRecord.ofRon?_toRon {r : NodeRecord} : ofRon? r.toRon = some r := by
  rw [toRon_eq, ofRon?, Ron.fields?, if_pos rfl]
  simp only [Option.bind_eq_bind, Option.bind_some]
  rw [Ron.required?_of_lookup nodup_fields rfl, NodeId.ofRon?_toRon, Option.bind_some,
    Ron.required?_of_lookup nodup_fields rfl, Ron.text?, Option.bind_some,
    Ron.required?_of_lookup nodup_fields rfl, Position.ofRon?_toRon, Option.bind_some,
    Ron.optional?_of_lookup nodup_fields rfl, Ron.map?_ofTable fun _ => Literal.ofRon?_toRon,
    Option.bind_some, optional?_pinDefaults, Option.bind_some, Table.ofList_entries,
    Table.ofList_entries]
  rfl

/-! ### Documents -/

namespace GraphDocument

variable {d : GraphDocument}

theorem reads : shape.Reads d.toRon := by
  refine .record (by decide) ?_
  simp only [List.forall_mem_cons]
  refine ⟨⟨by decide, _, rfl, .ofU32⟩, ⟨by decide, _, rfl, .text⟩,
    ⟨by decide, _, rfl, .ofOption fun _ => NodeId.reads⟩,
    ⟨by decide, _, rfl, .list fun v hv => ?_⟩, ⟨by decide, _, rfl, .list fun v hv => ?_⟩, by simp⟩
  · obtain ⟨r, -, rfl⟩ := List.mem_map.mp hv
    exact NodeRecord.reads
  · obtain ⟨r, -, rfl⟩ := List.mem_map.mp hv
    exact LinkRecord.reads

theorem ofRon?_toRon : ofRon? d.toRon = some d := by
  have hnames : ([("version", .ofU32 d.version), ("name", .text d.name),
      ("root", .ofOption NodeId.toRon d.root), ("nodes", .list (d.nodes.map NodeRecord.toRon)),
      ("links", Ron.list (d.links.map LinkRecord.toRon))].map Prod.fst).Nodup := by simp
  rw [toRon, ofRon?, Ron.fields?, if_pos rfl]
  simp only [Option.bind_eq_bind, Option.bind_some]
  rw [Ron.required?_of_lookup hnames rfl, Ron.u32?_ofU32, Option.bind_some,
    Ron.required?_of_lookup hnames rfl, Ron.text?, Option.bind_some,
    Ron.optional?_of_lookup hnames rfl, Ron.option?_ofOption fun _ => NodeId.ofRon?_toRon,
    Option.bind_some, Ron.optional?_of_lookup hnames rfl,
    Ron.list?_map fun _ => NodeRecord.ofRon?_toRon, Option.bind_some,
    Ron.optional?_of_lookup hnames rfl, Ron.list?_map fun _ => LinkRecord.ofRon?_toRon,
    Option.bind_some]
  rfl

/-- The text of a document stands for the document if its version is known, and else is not
accepted, with the version as the reason. -/
theorem ofText_toText : ofText d.toText =
    if d.version ≤ formatVersion then .ok d
    else .error (.unsupportedVersion d.version formatVersion) := by
  have hread : (Ron.ofText? shape d.toText).bind ofRon? = some d := by
    rw [toText, reads.ofText?_toText, Option.bind_some, ofRon?_toRon]
  rw [ofText, hread]
  dsimp only
  by_cases h : d.version ≤ formatVersion
  · rw [if_neg (UInt32.not_lt.mpr h), if_pos h]
  · rw [if_pos (UInt32.not_le.mp h), if_neg h]

end GraphDocument

end ShaderGraph
