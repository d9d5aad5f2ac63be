import ShaderGraph.Catalog.Builder

/-!
# The catalogue: wiring and annotation

Nodes that compute nothing of their own: values side by side, a bend in a wire, a comment.
-/

namespace ShaderGraph.Catalog

/-- The components of two values side by side. -/
def appendVector : NodeDefinition :=
  { definition "AppendVector" "Append" "Utility" with
    pins := [input "A" "A" .wildcard, input "B" "B" .wildcard, output "Result" "" .wildcard]
    template := angled "auto ⟨OUTPUT⟩ = MaterialFloatAppend(⟨A⟩, ⟨B⟩);"
    rule := .append
    keywords := "combine merge concat" }

/-- A bend in a wire. -/
def rerouteNode : NodeDefinition :=
  { definition "Reroute" "Reroute" "Utility" with
    kind := .reroute
    pins := [input "Input" "" .wildcard, output "Output" "" .wildcard]
    template := angled "auto ⟨OUTPUT⟩ = ⟨Input⟩;"
    rule := .passthrough "Input"
    keywords := "wire knot route" }

/-- An annotation. -/
def commentNode : NodeDefinition :=
  { definition "Comment" "Comment" "Utility" with
    kind := .comment
    properties := .ofList [("Text", .text "Comment")]
    template := angled "// ⟨Text⟩"
    keywords := "note annotation"
    hotkey := some 'C' }

end ShaderGraph.Catalog
