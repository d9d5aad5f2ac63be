import ShaderGraph.Catalog.Builder
import ShaderGraph.Settings

/-!
# The catalogue: where values come from

Constants, parameters and textures.
-/

namespace ShaderGraph.Catalog

/-- A node whose result is the vector of several properties. -/
def vectorSource (key title category : String) (type : PinType)
    (properties : List (String × Literal)) (components : List String) : NodeDefinition :=
  { definition key title category with
    pins := [output "Output" "" type]
    properties := .ofList properties
    rule := .vectorProperties components }

/-- Constants of one to four components. -/
def constants : List NodeDefinition :=
  [{ definition "Constant" "Constant" "Constants" with
      pins := [output "Output" "" .float]
      properties := .ofList [("R", .float 0)]
      template := angled "float ⟨OUTPUT⟩ = ⟨R⟩;"
      rule := .scalarProperty "R"
      keywords := "scalar float number value"
      hotkey := some '1' },
    { vectorSource "Constant2Vector" "Constant 2 Vector" "Constants" .float2
        [("R", .float 0), ("G", .float 0)] ["R", "G"] with
      template := angled "float2 ⟨OUTPUT⟩ = float2(⟨R⟩, ⟨G⟩);"
      keywords := "vector2 float2"
      hotkey := some '2' },
    { vectorSource "Constant3Vector" "Constant 3 Vector" "Constants" .float3
        [("R", .float 0), ("G", .float 0), ("B", .float 0)] ["R", "G", "B"] with
      template := angled "float3 ⟨OUTPUT⟩ = float3(⟨R⟩, ⟨G⟩, ⟨B⟩);"
      keywords := "color rgb vector3 float3"
      hotkey := some '3' },
    { vectorSource "Constant4Vector" "Constant 4 Vector" "Constants" .float4
        [("R", .float 0), ("G", .float 0), ("B", .float 0), ("A", .float 1)]
        ["R", "G", "B", "A"] with
      template := angled "float4 ⟨OUTPUT⟩ = float4(⟨R⟩, ⟨G⟩, ⟨B⟩, ⟨A⟩);"
      keywords := "rgba vector4 float4"
      hotkey := some '4' }]

/-- The code of a texture sample. -/
def sampleTemplate : String :=
  "float4 ⟨OUTPUT⟩ = Texture2DSample(⟨Texture⟩, ⟨Texture⟩Sampler, ⟨UVs⟩);"

/-- A node that samples a texture, as a whole or by channel. -/
def textureSource (key title category : String) (more : List (String × Literal)) :
    NodeDefinition :=
  { definition key title category with
    pins :=
      [input "UVs" "UVs" .float2, output "RGB" "RGB" .float3, output "R" "R" .float,
        output "G" "G" .float, output "B" "B" .float, output "A" "A" .float,
        output "RGBA" "RGBA" .float4]
    properties := .ofList (("Texture", .text defaultTextureId) :: more)
    rule := .textureSample }

/-- Values exposed to the user of a material. -/
def parameters : List NodeDefinition :=
  [{ definition "ScalarParameter" "Scalar Parameter" "Parameters" with
      kind := .parameter
      pins := [output "Output" "" .float]
      properties := .ofList [("ParameterName", .text "Scalar"), ("DefaultValue", .float 0)]
      template := angled "float ⟨OUTPUT⟩ = ⟨DefaultValue⟩; // ⟨ParameterName⟩"
      rule := .scalarProperty "DefaultValue"
      keywords := "float exposed instance"
      hotkey := some 'S' },
    { vectorSource "VectorParameter" "Vector Parameter" "Parameters" .float3
        [("ParameterName", .text "Color"), ("R", .float 1), ("G", .float 1), ("B", .float 1)]
        ["R", "G", "B"] with
      kind := .parameter
      template := angled "float3 ⟨OUTPUT⟩ = float3(⟨R⟩, ⟨G⟩, ⟨B⟩); // ⟨ParameterName⟩"
      keywords := "color exposed instance"
      hotkey := some 'V' },
    { textureSource "TextureParameter" "Texture Parameter" "Parameters"
        [("ParameterName", .text "Texture")] with
      kind := .parameter
      template := angled (sampleTemplate ++ " // ⟨ParameterName⟩")
      keywords := "texture exposed instance" }]

/-- Textures and their coordinates. -/
def textures : List NodeDefinition :=
  [{ textureSource "TextureSample" "Texture Sample" "Texture" [] with
      template := angled sampleTemplate
      keywords := "image sampler map"
      hotkey := some 'T' },
    { vectorSource "TextureCoordinate" "Texture Coordinate" "Texture" .float2
        [("UTiling", .float 1), ("VTiling", .float 1)] ["UTiling", "VTiling"] with
      template := angled
        "float2 ⟨OUTPUT⟩ = Parameters.TexCoords[0] * float2(⟨UTiling⟩, ⟨VTiling⟩);"
      keywords := "uv texcoord"
      hotkey := some 'U' }]

end ShaderGraph.Catalog
