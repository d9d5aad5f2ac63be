import ShaderGraph.PinType

/-!
# Compatibility of pin types

A `Compatibility` declares for each target type which source types may feed it. Equal types always
connect, a numeric type never feeds a numeric type with fewer components, and otherwise a
declaration in either direction suffices.

## Main definitions

* `Compatibility` — the declared pairs of source and target
* `Compatibility.reflexive`, `Compatibility.standard`, `Compatibility.allow`
* `Compatibility.canConnect`, `Compatibility.canConnectNames`, `Compatibility.canConnectPins`

## Main results

* `declares_allow_iff` — what one more declaration adds
-/

namespace ShaderGraph

/-- Which source types may feed which target types. -/
structure Compatibility where
  /-- The declared pairs of source and target, in order of declaration. -/
  declared : List (PinType × PinType)
  deriving DecidableEq, Repr, Inhabited

namespace Compatibility

/-- Whether `source` is declared for `target`. -/
def declares (c : Compatibility) (target source : PinType) : Bool :=
  c.declared.contains (source, target)

/-- The sources declared for a target, in order of declaration. -/
def sources (c : Compatibility) (target : PinType) : List PinType :=
  (c.declared.filter fun p => p.2 = target).map Prod.fst

/-- Declares that `source` may feed `target`. -/
def allow (c : Compatibility) (source target : PinType) : Compatibility :=
  if c.declares target source then c else ⟨c.declared ++ [(source, target)]⟩

/-- Every type feeds itself only. -/
def reflexive : Compatibility := ⟨PinType.all.map fun t => (t, t)⟩

/-- Scalars feed every vector, and wildcards feed and accept every type. -/
def standard : Compatibility :=
  let widened := [PinType.float2, .float3, .float4].foldl (fun c t => c.allow .float t) reflexive
  PinType.all.foldl (fun c t => (c.allow t .wildcard).allow .wildcard t) widened

/-- Whether an output of type `source` can feed an input of type `target`. -/
def canConnect (c : Compatibility) (source target : PinType) : Bool :=
  if source = target then true
  else if source.isNumeric && target.isNumeric && target.components < source.components then false
  else c.declares target source || c.declares source target

/-- `canConnect` by type names; a name that stands for no type connects with itself only. -/
def canConnectNames (c : Compatibility) (source target : String) : Bool :=
  match PinType.ofName? source, PinType.ofName? target with
  | some s, some t => c.canConnect s t
  | _, _ => PinType.normalizeName source == PinType.normalizeName target

/-- Whether two pins can be joined, given in either order. -/
def canConnectPins (c : Compatibility) (a b : PinDirection × PinType) : Bool :=
  match a.1, b.1 with
  | .output, .input => c.canConnect a.2 b.2
  | .input, .output => c.canConnect b.2 a.2
  | _, _ => false

theorem declares_iff {c : Compatibility} {s t : PinType} :
    c.declares t s = true ↔ (s, t) ∈ c.declared := by
  simp [declares]

theorem declares_allow_iff {c : Compatibility} {s t s' t' : PinType} :
    (c.allow s t).declares t' s' = true ↔ c.declares t' s' = true ∨ s' = s ∧ t' = t := by
  by_cases h : c.declares t s = true
  · simp only [allow, h, if_true]
    exact ⟨Or.inl, fun h' => h'.elim id fun ⟨hs, ht⟩ => hs ▸ ht ▸ h⟩
  · simp [allow, h, declares_iff]

@[simp] theorem canConnect_self {c : Compatibility} {t : PinType} : c.canConnect t t = true := by
  simp [canConnect]

end Compatibility

end ShaderGraph
