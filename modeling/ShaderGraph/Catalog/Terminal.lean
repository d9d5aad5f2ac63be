import ShaderGraph.Catalog.Builder

/-!
# The catalogue: where a material ends

The material output, which collects the channels of a material, and the substrate slab.
-/

namespace ShaderGraph.Catalog

/-- The code of the material output: one assignment for each channel. -/
def materialOutputTemplate : String :=
  angled <| String.intercalate "\n"
    ["FMaterialAttributes ⟨OUTPUT⟩ = DefaultMaterialAttributes;",
      "⟨OUTPUT⟩.BaseColor = ⟨BaseColor⟩;",
      "⟨OUTPUT⟩.Metallic = ⟨Metallic⟩;",
      "⟨OUTPUT⟩.Specular = ⟨Specular⟩;",
      "⟨OUTPUT⟩.Roughness = ⟨Roughness⟩;",
      "⟨OUTPUT⟩.Anisotropy = ⟨Anisotropy⟩;",
      "⟨OUTPUT⟩.EmissiveColor = ⟨EmissiveColor⟩;",
      "⟨OUTPUT⟩.Opacity = ⟨Opacity⟩;",
      "⟨OUTPUT⟩.OpacityMask = ⟨OpacityMask⟩;",
      "⟨OUTPUT⟩.Normal = ⟨Normal⟩;",
      "⟨OUTPUT⟩.AmbientOcclusion = ⟨AmbientOcclusion⟩;",
      "⟨OUTPUT⟩.FrontMaterial = ⟨FrontMaterial⟩;"]

/-- The node that stands for a material. -/
def materialOutput : NodeDefinition :=
  { definition "MaterialOutput" "Material Output" "Output" with
    kind := .output
    pins :=
      [inputWith "BaseColor" "Base Color" .float3 (.vector3 0.8 0.8 0.8),
        inputWith "Metallic" "Metallic" .float (.float 0),
        inputWith "Specular" "Specular" .float (.float 0.5),
        inputWith "Roughness" "Roughness" .float (.float 0.5),
        inputWith "Anisotropy" "Anisotropy" .float (.float 0),
        inputWith "EmissiveColor" "Emissive Color" .float3 (.vector3 0 0 0),
        { inputWith "Opacity" "Opacity" .float (.float 1) with visibleWhen := some "translucent" },
        { inputWith "OpacityMask" "Opacity Mask" .float (.float 1) with
          visibleWhen := some "masked" },
        inputWith "Normal" "Normal" .float3 (.vector3 0 0 1),
        inputWith "AmbientOcclusion" "Ambient Occlusion" .float (.float 1),
        input "FrontMaterial" "Front Material" .substrate]
    template := materialOutputTemplate
    keywords := "result final material attributes"
    singleton := true }

/-- A slab of substrate. -/
def substrateSlab : NodeDefinition :=
  { definition "SubstrateSlabBSDF" "Substrate Slab BSDF" "Substrate" with
    kind := .substrateExpression
    pins :=
      [inputWith "DiffuseAlbedo" "Diffuse Albedo" .float3 (.vector3 0.18 0.18 0.18),
        inputWith "F0" "F0" .float3 (.vector3 0.04 0.04 0.04),
        inputWith "Roughness" "Roughness" .float (.float 0.5),
        input "Normal" "Normal" .float3,
        output "Output" "" .substrate]
    template := angled <| "FSubstrateData ⟨OUTPUT⟩ = " ++
      "GetSubstrateSlabBSDF(⟨DiffuseAlbedo⟩, ⟨F0⟩, ⟨Roughness⟩, ⟨Normal⟩);"
    keywords := "bsdf slab layer" }

end ShaderGraph.Catalog
