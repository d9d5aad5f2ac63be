import ShaderGraph.Catalog.Operator
import ShaderGraph.Catalog.Source
import ShaderGraph.Catalog.Terminal
import ShaderGraph.Catalog.Wiring
import ShaderGraph.Registry

/-!
# The catalogue of material nodes

The node definitions that come with the library, as data. A further kind of node is a further
record here and needs no code.

## Main definitions

* `Catalog.definitions` — all definitions in the order in which they are shown
* `Registry.material` — the registry that holds them
-/

namespace ShaderGraph

/-- All definitions in the order in which they are shown. -/
def Catalog.definitions : List NodeDefinition :=
  [materialOutput, appendVector, rerouteNode, commentNode, substrateSlab] ++
    constants ++ parameters ++ textures ++ binaryNodes ++ [lerpNode, clampNode] ++ unaryNodes

/-- The registry that holds the definitions of the catalogue. -/
def Registry.material : Registry := Registry.empty.registerAll Catalog.definitions

end ShaderGraph
