import ShaderGraph.Settings

/-!
# Textures and their composition

A texture library finds the image of a texture. A compositor carries out the operations that
evaluation left pending; the one defined here describes the composed image by its source and the
factor instead of computing texels.

## Main definitions

* `TextureLibrary` — the images of textures by identifier
* `resolvePending` — hands every pending operation of a material to a compositor
* `Compositor` — the textures composed so far
* `Compositor.compose` — describes the product of a texture and a factor
-/

namespace ShaderGraph

/-- The places of images by the identifiers of their textures. -/
abbrev TextureLibrary := Table String String

namespace TextureLibrary

/-- Where the image of the texture that is always present is found. -/
def checkerUrl : String :=
  "data:image/png;base64," ++
    "iVBORw0KGgoAAAANSUhEUgAAAAIAAAACCAAAAABX3VL4AAAADklEQVR4nGPYv38/AwMAB4YCgUbnIsUA" ++
    "AAAASUVORK5CYII="

/-- The library that holds the checker texture alone. -/
def builtin : TextureLibrary := (∅ : Table String String).insert defaultTextureId checkerUrl

end TextureLibrary

/-- Why a texture was not composed. -/
inductive CompositeError where
  /-- The factor is no number. -/
  | unsupportedOperand (v : Value)
  /-- The compositor failed in its own way. -/
  | backend (reason : String)
  deriving DecidableEq

/-- The message about a texture that was not composed. -/
def CompositeError.message : CompositeError → String
  | unsupportedOperand v => "Unsupported operand for texture compositing: " ++ v.describe
  | backend reason => "Compositing failed: " ++ reason

/-- Where a run over pending operations stands: the compositor, the material, the number of
textures composed and the first error. -/
structure Resolution (σ : Type) where
  state : σ
  attributes : MaterialAttributes
  resolved : Nat
  firstError : Option CompositeError

/-- Hands one pending operation to a compositor. A composed texture fills its channel; an error
leaves the channel as it is. -/
def Resolution.step {σ : Type}
    (compose : σ → PendingOperation → Except CompositeError TextureRef × σ)
    (r : Resolution σ) (e : Channel × PendingOperation) : Resolution σ :=
  match compose r.state e.2 with
  | (.ok t, state) =>
    { r with state, attributes := r.attributes.applyResolved e.1 t, resolved := r.resolved + 1 }
  | (.error err, state) => { r with state, firstError := r.firstError <|> some err }

/-- Hands every pending operation of a material to a compositor, in order. -/
def resolvePending {σ : Type}
    (compose : σ → PendingOperation → Except CompositeError TextureRef × σ)
    (state : σ) (a : MaterialAttributes) : Resolution σ :=
  a.pending.entries.foldl (Resolution.step compose) ⟨state, a, 0, none⟩

/-- The number of textures composed, or the first error. -/
def Resolution.result {σ : Type} (r : Resolution σ) : Except CompositeError Nat :=
  match r.firstError with
  | some e => .error e
  | none => .ok r.resolved

/-- The textures composed so far, each under the texture and factor that it was composed of. -/
structure Compositor where
  cache : Table String TextureRef
  deriving DecidableEq, Inhabited

namespace Compositor

/-- Nothing composed yet. -/
def empty : Compositor := ⟨∅⟩

/-- The components of a factor; a scalar counts three times. -/
def factors? : Value → Option (List Float32)
  | .scalar x => some [x, x, x]
  | .vector (x :: xs) => some (x :: xs)
  | .vector [] | .texture _ => none

/-- The text of a factor in the names of composed textures. -/
def tag (xs : List Float32) : String := String.intercalate "," (xs.map floatText)

/-- The description of the product of a texture and the factor with the given tag. -/
def describe (t : TextureRef) (tag : String) : TextureRef :=
  ⟨t.id ++ "*" ++ tag, t.url ++ "#multiply=" ++ tag⟩

/-- The product of a texture and a factor. A product with the same name is not composed twice. -/
def compose (c : Compositor) (op : PendingOperation) :
    Except CompositeError TextureRef × Compositor :=
  match factors? op.factor with
  | none => (.error (.unsupportedOperand op.factor), c)
  | some xs =>
    let composed := describe op.texture (tag xs)
    match c.cache.get? composed.id with
    | some hit => (.ok hit, c)
    | none => (.ok composed, ⟨c.cache.insert composed.id composed⟩)

end Compositor

end ShaderGraph
