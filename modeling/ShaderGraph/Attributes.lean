import ShaderGraph.Table
import ShaderGraph.Value

/-!
# Material attributes

The ten channels of a surface material, each filled from the root pin whose name mentions it. Three
channels hold a colour or a texture and may wait for a texture to be composed; the others hold a
number.

## Main definitions

* `Channel` — what a material consists of
* `Channel.ofPinName?` — the channel that the name of a pin mentions
* `MaterialAttributes` — the slots of the channels and the operations still pending
* `MaterialAttributes.slot` — the content of a channel's slot
* `MaterialAttributes.assign`, `MaterialAttributes.applyResolved` — the two ways to fill a slot
-/

namespace ShaderGraph

/-- A channel of a surface material. -/
inductive Channel where
  | baseColor
  | metallic
  | specular
  | roughness
  | anisotropy
  | emissiveColor
  | opacityMask
  | opacity
  | normal
  | ambientOcclusion
  deriving DecidableEq, Repr, Inhabited

namespace Channel

/-- What a pin's name, in lower case, mentions if it feeds a channel; the first mention counts. -/
def mentions : List (String × Channel) :=
  [("base color", baseColor), ("metallic", metallic), ("specular", specular),
    ("roughness", roughness), ("anisotropy", anisotropy), ("emissive", emissiveColor),
    ("opacity mask", opacityMask), ("opacity", opacity), ("normal", normal),
    ("ambient occlusion", ambientOcclusion)]

/-- The channel that the name of a pin mentions. -/
def ofPinName? (name : String) : Option Channel :=
  let lower := Text.lowercase name
  (mentions.find? fun m => Text.occursIn m.1 lower).map Prod.snd

/-- Whether a channel holds a colour rather than a number. -/
def isColor : Channel → Bool
  | baseColor | emissiveColor | normal => true
  | _ => false

end Channel

/-- A colour by its red, green and blue components. -/
structure Color where
  red : Float32
  green : Float32
  blue : Float32
  deriving DecidableEq, Inhabited

/-- The vector of a colour. -/
def Color.value (c : Color) : Value := .vector [c.red, c.green, c.blue]

/-- A value as a colour: a scalar three times, a longer vector without its tail, a texture as it
is. -/
def Value.asColor? : Value → Option Value
  | scalar x => some (vector [x, x, x])
  | vector (x :: y :: z :: _) => some (vector [x, y, z])
  | vector _ => none
  | texture t => some (texture t)

/-- The slots of the channels, empty where the renderer's default applies, and the operations that
still wait for a texture. -/
structure MaterialAttributes where
  baseColor : Option Value
  metallic : Option Float32
  specular : Option Float32
  roughness : Option Float32
  anisotropy : Option Float32
  emissiveColor : Option Value
  opacityMask : Option Float32
  opacity : Option Float32
  normal : Option Value
  ambientOcclusion : Option Float32
  pending : Table Channel PendingOperation
  deriving DecidableEq

namespace MaterialAttributes

/-- No slot filled and nothing pending. -/
def empty : MaterialAttributes :=
  ⟨none, none, none, none, none, none, none, none, none, none, ∅⟩

instance : EmptyCollection MaterialAttributes := ⟨empty⟩
instance : Inhabited MaterialAttributes := ⟨empty⟩

/-- The content of a channel's slot. -/
def slot (a : MaterialAttributes) : Channel → Option Value
  | .baseColor => a.baseColor
  | .metallic => a.metallic.map .scalar
  | .specular => a.specular.map .scalar
  | .roughness => a.roughness.map .scalar
  | .anisotropy => a.anisotropy.map .scalar
  | .emissiveColor => a.emissiveColor
  | .opacityMask => a.opacityMask.map .scalar
  | .opacity => a.opacity.map .scalar
  | .normal => a.normal
  | .ambientOcclusion => a.ambientOcclusion.map .scalar

/-- Whether a channel still waits for a texture. -/
def hasPending (a : MaterialAttributes) : Bool := !a.pending.isEmpty

/-- Writes a scalar channel; the colour channels stay as they are. -/
def setScalar (a : MaterialAttributes) (c : Channel) (x : Float32) : MaterialAttributes :=
  match c with
  | .metallic => { a with metallic := some x }
  | .specular => { a with specular := some x }
  | .roughness => { a with roughness := some x }
  | .anisotropy => { a with anisotropy := some x }
  | .opacityMask => { a with opacityMask := some x }
  | .opacity => { a with opacity := some x }
  | .ambientOcclusion => { a with ambientOcclusion := some x }
  | .baseColor | .emissiveColor | .normal => a

/-- Writes a value into a channel's slot. A colour channel takes it as a colour and is emptied by a
vector that is too short; a scalar channel takes scalars and disregards the rest. -/
def set (a : MaterialAttributes) (c : Channel) (v : Value) : MaterialAttributes :=
  match c, v with
  | .baseColor, v => { a with baseColor := v.asColor? }
  | .emissiveColor, v => { a with emissiveColor := v.asColor? }
  | .normal, v => { a with normal := v.asColor? }
  | c, .scalar x => a.setScalar c x
  | _, _ => a

/-- Stores what a pin evaluated to. A pending operation shows the placeholder until it is resolved;
channels that hold no colour disregard it. -/
def assign (a : MaterialAttributes) (c : Channel) (e : Evaluated) (placeholder : Color) :
    MaterialAttributes :=
  match e with
  | .resolved v => a.set c v
  | .pending op =>
    if c.isColor then
      let shown := a.set c placeholder.value
      { shown with pending := shown.pending.insert c op }
    else a

/-- Fills a channel with the texture that was composed for it. -/
def applyResolved (a : MaterialAttributes) (c : Channel) (t : TextureRef) : MaterialAttributes :=
  { a with pending := a.pending.swapErase c }.set c (.texture t)

@[simp] theorem pending_set {a : MaterialAttributes} {c : Channel} {v : Value} :
    (a.set c v).pending = a.pending := by cases c <;> cases v <;> rfl

/-- A write to one channel leaves the slots of the others alone. -/
theorem slot_set_of_ne {a : MaterialAttributes} {c d : Channel} {v : Value} (h : d ≠ c) :
    (a.set c v).slot d = a.slot d := by
  cases c <;> cases v <;> cases d <;> simp_all [set, slot, setScalar]

/-- What is written to a colour channel replaces what was there, if only by nothing. -/
theorem slot_set_color {a : MaterialAttributes} {c : Channel} {v : Value} (h : c.isColor = true) :
    (a.set c v).slot c = v.asColor? := by
  cases c with
  | baseColor | emissiveColor | normal => rfl
  | _ => cases h

end MaterialAttributes

end ShaderGraph
