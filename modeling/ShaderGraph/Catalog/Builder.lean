import ShaderGraph.NodeDefinition

/-!
# Writing node definitions

Short forms for the catalogue: pins by direction, and definitions that are complete but for what
makes them special.

## Main definitions

* `Catalog.input`, `Catalog.output`, `Catalog.inputWith` — declared pins
* `Catalog.angled` — a template whose placeholders are written in angle brackets
* `Catalog.definition` — an expression without pins, properties and code
-/

namespace ShaderGraph.Catalog

/-- An input pin without a default. -/
def input (id name : String) (type : PinType) : PinSpec :=
  ⟨id, name, .input, type, none, none⟩

/-- An input pin with a default. -/
def inputWith (id name : String) (type : PinType) (default : Literal) : PinSpec :=
  ⟨id, name, .input, type, some default, none⟩

/-- An output pin. -/
def output (id name : String) (type : PinType) : PinSpec :=
  ⟨id, name, .output, type, none, none⟩

/-- A template whose placeholders are written in angle brackets. -/
def angled (s : String) : String :=
  s.map fun c => if c = '⟨' then Template.openBrace else if c = '⟩' then Template.closeBrace else c

theorem toList_angled (s : String) : (angled s).toList = s.toList.map fun c =>
    if c = '⟨' then Template.openBrace else if c = '⟩' then Template.closeBrace else c :=
  String.toList_map

/-- An expression without pins, properties and code. -/
def definition (key title category : String) : NodeDefinition where
  key
  title
  category
  kind := .expression
  pins := []
  properties := ∅
  template := ""
  rule := .generic
  keywords := ""
  hotkey := none
  singleton := false

end ShaderGraph.Catalog
