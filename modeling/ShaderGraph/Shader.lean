import ShaderGraph.Graph.Dependency

/-!
# Shader code

Every node contributes the template of its definition with the placeholders filled in. An input pin
becomes the variable of the link that feeds it, or a literal if nothing is linked. Behind each node
the variables of its outgoing links are declared, so that consumers can refer to them.

## Main definitions

* `Shader.sanitize` — a text as an identifier
* `Shader.linkVariable`, `Shader.nodeVariable` — the variables of links and nodes
* `Shader.snippet?` — the code of one node
* `Shader.export` — the code of everything that a node depends on
-/

namespace ShaderGraph.Shader

/-- A text with everything but ASCII letters and digits replaced by `_`. -/
def sanitize (s : String) : String :=
  String.ofList (s.toList.map fun c => if c.isAlphanum then c else '_')

/-- The variable through which the value of a link is referred to. -/
def linkVariable (l : LinkId) : String := "var_" ++ sanitize l.text

/-- The variable that holds the result of a node. -/
def nodeVariable (n : NodeId) : String := "var_" ++ sanitize n.text

/-- The literal for an unlinked pin that has no default of its own. -/
def defaultLiteral : PinType → String
  | .float | .wildcard => "0.0"
  | .float2 => "float2(0,0)"
  | .float3 => "float3(0,0,0)"
  | .float4 => "float4(0,0,0,1)"
  | .bool => "false"
  | .texture => "DefaultTexture"
  | .materialAttributes => "DefaultMaterialAttributes"
  | .substrate => "GetInitialisedSubstrateData()"

/-- What stands for an input pin in the code of its node. -/
def inputText (p : Pin) : String :=
  match p.links with
  | l :: _ => linkVariable l
  | [] =>
    match p.default with
    | some l => l.shaderText
    | none => defaultLiteral p.type

/-- What stands for a placeholder in the code of a node: the variable of the result, the value of a
property, or an input pin. -/
def placeholderText? (n : Node) (placeholder : String) : Option String :=
  if placeholder = Template.outputName then some (nodeVariable n.id)
  else match n.properties.get? placeholder with
    | some l => some l.shaderText
    | none => (n.input? placeholder).map inputText

/-- The code of one node; nothing if the node or its definition is unknown. -/
def snippet? (g : Graph) (n : NodeId) : Option String := do
  let node ← g.node? n
  let d ← g.definition? node
  pure (Template.substitute d.template (placeholderText? node))

/-- The output pins that select components of the result, with the selection. -/
def selections : List (String × String) :=
  [("R", ".r"), ("G", ".g"), ("B", ".b"), ("A", ".a"), ("RG", ".rg"), ("RGB", ".rgb"),
    ("RGBA", ".rgba")]

/-- The selection of components that an output pin stands for. -/
def selection (pin : String) : String := (selections.lookup pin).getD ""

/-- The declaration of the variable of a link that leaves a pin. -/
def aliasLine (n : NodeId) (pin : String) (l : LinkId) : String :=
  "auto " ++ linkVariable l ++ " = " ++ nodeVariable n ++ selection pin ++ ";\n"

/-- The links that leave an output pin towards one of the given nodes. -/
def exportedLinks (g : Graph) (included : List NodeId) (p : PinRef) : List Link :=
  (g.linksFrom p).filter fun l => l.target.node ∈ included

/-- The declarations behind the code of a node. -/
def aliases (g : Graph) (included : List NodeId) (n : Node) : String :=
  String.join (n.outputs.flatMap fun p =>
    (exportedLinks g included ⟨n.id, p.id⟩).map fun l => aliasLine n.id p.id l.id)

/-- The section of a node: its heading, its code and the variables of its links. -/
def nodeSection (g : Graph) (included : List NodeId) (n : NodeId) : String :=
  match g.node? n, snippet? g n with
  | some node, some code =>
    "\n// " ++ node.title ++ " (" ++ node.id.text ++ ")\n" ++
      (if code.isEmpty then "" else Text.trimEnd code ++ "\n") ++ aliases g included node
  | _, _ => ""

/-- The code of everything that `root` depends on, producers before consumers. -/
def «export» (g : Graph) (root : NodeId) : String :=
  let order := g.dependencyOrder root
  "// Material: " ++ g.name ++ "\n" ++ String.join (order.map (nodeSection g order))

end ShaderGraph.Shader
