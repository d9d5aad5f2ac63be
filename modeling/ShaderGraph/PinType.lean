import ShaderGraph.Text.Blank
import ShaderGraph.Text.Lowercase

/-!
# Pin types

What can flow through a pin, and the names by which pin types are written.

## Main definitions

* `PinType`, `PinDirection` — the types and the two directions of pins
* `PinType.components`, `PinType.isNumeric` — the shape of a type
* `PinType.ofName?` — the type that a name stands for, blanks at the ends and case aside

## Main results

* `ofName?_eq_some_iff` — a name stands for a type exactly if it normalises to the type's name
-/

namespace ShaderGraph

/-- The direction of a pin. -/
inductive PinDirection where
  /-- Consumes the value of a link. -/
  | input
  /-- Produces the value of its links. -/
  | output
  deriving DecidableEq, Repr, Inhabited

/-- The type of what flows through a pin. -/
inductive PinType where
  | float
  | float2
  | float3
  | float4
  | bool
  | texture
  | materialAttributes
  | substrate
  /-- Accepts and feeds every type. -/
  | wildcard
  deriving DecidableEq, Repr, Inhabited

namespace PinType

/-- Every pin type. -/
def all : List PinType :=
  [float, float2, float3, float4, bool, texture, materialAttributes, substrate, wildcard]

theorem mem_all (t : PinType) : t ∈ all := by cases t <;> decide

/-- The canonical name. -/
def name : PinType → String
  | float => "float"
  | float2 => "float2"
  | float3 => "float3"
  | float4 => "float4"
  | bool => "bool"
  | texture => "texture"
  | materialAttributes => "materialattributes"
  | substrate => "substrate"
  | wildcard => "wildcard"

theorem name_injective {s t : PinType} (h : s.name = t.name) : s = t := by
  revert h; cases s <;> cases t <;> decide

/-- The number of numeric components; types that are no numbers have none. -/
def components : PinType → Nat
  | float | bool => 1
  | float2 => 2
  | float3 => 3
  | float4 => 4
  | texture | materialAttributes | substrate | wildcard => 0

/-- Whether a type is a scalar or a vector of scalars. -/
def isNumeric : PinType → Bool
  | float | float2 | float3 | float4 => true
  | _ => false

/-- The colour in which a pin of the type is drawn: red, green and blue up to 255. -/
def color : PinType → Nat × Nat × Nat
  | float => (80, 200, 80)
  | float2 => (200, 200, 80)
  | float3 => (200, 150, 80)
  | float4 => (200, 100, 200)
  | bool => (200, 80, 80)
  | texture => (100, 150, 200)
  | materialAttributes => (200, 100, 150)
  | substrate => (120, 220, 220)
  | wildcard => (150, 150, 150)

/-- A type name in the form in which names are compared: no blanks at the ends, lower case. -/
def normalizeName (name : String) : String := Text.lowercase (Text.trim name)

/-- The type that a name stands for. -/
def ofName? (s : String) : Option PinType := all.find? (·.name == normalizeName s)

theorem ofName?_eq_some_iff {s : String} {t : PinType} :
    ofName? s = some t ↔ normalizeName s = t.name := by
  constructor
  · intro h
    have ht := List.find?_some (p := fun u : PinType => u.name == normalizeName s) h
    exact (beq_iff_eq.1 ht).symm
  · intro h
    cases hf : ofName? s with
    | none => exact absurd (beq_iff_eq.2 h.symm) (List.find?_eq_none.1 hf t (mem_all t))
    | some u =>
      have hu : u.name = normalizeName s :=
        beq_iff_eq.1 (List.find?_some (p := fun u : PinType => u.name == normalizeName s) hf)
      rw [name_injective (hu.trans h)]

/-- The message about a name that stands for no type. -/
def unknownNameMessage (s : String) : String := "Unknown pin type: " ++ normalizeName s

end PinType

end ShaderGraph
