import ShaderGraph.Document
import ShaderGraph.Ron.Reader
import ShaderGraph.Saved.Error
import ShaderGraph.Saved.Literal

/-!
# Saved documents

The text of a document and the document of a text.

## Main definitions

* `GraphDocument.shape` — what a saved document looks like
* `GraphDocument.toText` — the text in which a document is saved
* `GraphDocument.ofText` — the document that a text stands for, or why there is none
-/

namespace ShaderGraph

/-- A node record is a record. -/
def NodeRecord.shape : Ron.Shape :=
  .record "NodeRecord"
    [("id", NodeId.shape), ("definition_key", .text), ("position", Position.shape),
      ("properties", .map Literal.shape), ("pin_defaults", .map (.option Literal.shape))]

/-- A node record as a record; pin defaults are written only if there are any. -/
def NodeRecord.toRon (r : NodeRecord) : Ron :=
  .record "NodeRecord"
    ([("id", r.id.toRon), ("definition_key", .text r.key), ("position", r.position.toRon),
        ("properties", .ofTable Literal.toRon r.properties)] ++
      if r.pinDefaults.isEmpty then []
      else [("pin_defaults", .ofTable (Ron.ofOption Literal.toRon) r.pinDefaults)])

/-- The node record that a record stands for. -/
def NodeRecord.ofRon? (v : Ron) : Option NodeRecord := do
  let fs ← v.fields? "NodeRecord"
  let id ← Ron.required? fs "id" NodeId.ofRon?
  let key ← Ron.required? fs "definition_key" Ron.text?
  let position ← Ron.required? fs "position" Position.ofRon?
  let properties ← Ron.optional? fs "properties" [] (Ron.map? Literal.ofRon?)
  let pinDefaults ← Ron.optional? fs "pin_defaults" [] (Ron.map? (Ron.option? Literal.ofRon?))
  pure ⟨id, key, position, .ofList properties, .ofList pinDefaults⟩

/-- A link record is a record. -/
def LinkRecord.shape : Ron.Shape :=
  .record "LinkRecord" [("id", LinkId.shape), ("from", PinRef.shape), ("to", PinRef.shape)]

/-- A link record as a record. -/
def LinkRecord.toRon (r : LinkRecord) : Ron :=
  .record "LinkRecord" [("id", r.id.toRon), ("from", r.source.toRon), ("to", r.target.toRon)]

/-- The link record that a record stands for. -/
def LinkRecord.ofRon? (v : Ron) : Option LinkRecord := do
  let fs ← v.fields? "LinkRecord"
  let id ← Ron.required? fs "id" LinkId.ofRon?
  let source ← Ron.required? fs "from" PinRef.ofRon?
  let target ← Ron.required? fs "to" PinRef.ofRon?
  pure ⟨id, source, target⟩

namespace GraphDocument

/-- A document is a record. -/
def shape : Ron.Shape :=
  .record "GraphDocument"
    [("version", .number), ("name", .text), ("root", .option NodeId.shape),
      ("nodes", .list NodeRecord.shape), ("links", .list LinkRecord.shape)]

/-- A document as a record. -/
def toRon (d : GraphDocument) : Ron :=
  .record "GraphDocument"
    [("version", .ofU32 d.version), ("name", .text d.name),
      ("root", .ofOption NodeId.toRon d.root), ("nodes", .list (d.nodes.map NodeRecord.toRon)),
      ("links", .list (d.links.map LinkRecord.toRon))]

/-- The document that a record stands for. -/
def ofRon? (v : Ron) : Option GraphDocument := do
  let fs ← v.fields? "GraphDocument"
  let version ← Ron.required? fs "version" Ron.u32?
  let name ← Ron.required? fs "name" Ron.text?
  let root ← Ron.optional? fs "root" none (Ron.option? NodeId.ofRon?)
  let nodes ← Ron.optional? fs "nodes" [] (Ron.list? NodeRecord.ofRon?)
  let links ← Ron.optional? fs "links" [] (Ron.list? LinkRecord.ofRon?)
  pure ⟨version, name, root, nodes, links⟩

/-- The text in which a document is saved. -/
def toText (d : GraphDocument) : String := d.toRon.toText

/-- The document that a text stands for. -/
def ofText (s : String) : Except SavedTextError GraphDocument :=
  match (Ron.ofText? shape s).bind ofRon? with
  | none => .error .malformed
  | some d =>
    if formatVersion < d.version then .error (.unsupportedVersion d.version formatVersion)
    else .ok d

end GraphDocument

end ShaderGraph
