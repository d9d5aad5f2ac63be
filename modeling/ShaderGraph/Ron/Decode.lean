import ShaderGraph.Number.Notation
import ShaderGraph.Ron.Basic
import ShaderGraph.Ron.Numeral
import ShaderGraph.Table
import ShaderGraph.Uuid

/-!
# RON: what values stand for

The way from values of the notation to values of the domain, and back. A known field stands at most
once in a record.

## Main definitions

* `Ron.u32?`, `Ron.f32?`, `Ron.bool?`, `Ron.text?`, `Ron.uuid?` — values without parts
* `Ron.fields?`, `Ron.required?`, `Ron.optional?` — records and their fields
* `Ron.wrapped?` — what a wrapper holds
* `Ron.option?`, `Ron.list?`, `Ron.map?`, `Ron.numbers?` — values with parts
* `Ron.ofF32`, `Ron.ofU32`, `Ron.ofNumbers`, `Ron.ofOption`, `Ron.ofTable` — the way back
-/

namespace ShaderGraph.Ron

/-- An unsigned 32-bit integer. -/
def u32? : Ron → Option UInt32
  | number cs => Numeral.u32? cs
  | _ => none

/-- A single-precision number. -/
def f32? : Ron → Option Float32
  | number cs => Numeral.f32? cs
  | _ => none

/-- A truth value. -/
def bool? : Ron → Option Bool
  | bool b => some b
  | _ => none

/-- A text. -/
def text? : Ron → Option String
  | text s => some s
  | _ => none

/-- The fields of a record with the expected name. -/
def fields? (expected : String) : Ron → Option (List (String × Ron))
  | record name fs => if name = expected then some fs else none
  | _ => none

/-- The values of all fields with a name. -/
def valuesOf (name : String) (fs : List (String × Ron)) : List Ron :=
  (fs.filter (·.1 == name)).map Prod.snd

/-- The value of a field that has to be there. -/
def required? {α : Type} (fs : List (String × Ron)) (name : String) (decode : Ron → Option α) :
    Option α :=
  match valuesOf name fs with
  | [v] => decode v
  | _ => none

/-- The value of a field that may be left out. -/
def optional? {α : Type} (fs : List (String × Ron)) (name : String) (default : α)
    (decode : Ron → Option α) : Option α :=
  match valuesOf name fs with
  | [] => some default
  | [v] => decode v
  | _ => none

/-- What a wrapper with the expected name holds. -/
def wrapped? {α : Type} (expected : String) (decode : Ron → Option α) : Ron → Option α
  | wrapped name v => if name = expected then decode v else none
  | _ => none

/-- A value that may be absent. -/
def option? {α : Type} (decode : Ron → Option α) : Ron → Option (Option α)
  | absent => some none
  | present v => (decode v).map some
  | _ => none

/-- A list. -/
def list? {α : Type} (decode : Ron → Option α) : Ron → Option (List α)
  | list vs => vs.mapM decode
  | _ => none

/-- A map with texts as keys. -/
def map? {α : Type} (decode : Ron → Option α) : Ron → Option (List (String × α))
  | map es => es.mapM fun e => (decode e.2).map (e.1, ·)
  | _ => none

/-- A tuple of numbers. -/
def numbers? : Ron → Option (List Float32)
  | tuple vs => vs.mapM f32?
  | _ => none

/-- The identifier that a text stands for. -/
def uuid? (v : Ron) : Option Uuid := (text? v).bind Uuid.ofText?

/-- A number as it is saved. -/
def ofF32 (x : Float32) : Ron := number (FloatNotation.saved.write x).toList

/-- A list of numbers as a tuple. -/
def ofNumbers (xs : List Float32) : Ron := tuple (xs.map ofF32)

/-- An integer as it is saved. -/
def ofU32 (n : UInt32) : Ron := number (Nat.toDigits 10 n.toNat)

/-- A value that may be absent. -/
def ofOption {α : Type} (encode : α → Ron) : Option α → Ron
  | none => absent
  | some a => present (encode a)

/-- A map with texts as keys. -/
def ofTable {α : Type} (encode : α → Ron) (t : Table String α) : Ron :=
  map (t.entries.map fun e => (e.1, encode e.2))

end ShaderGraph.Ron
