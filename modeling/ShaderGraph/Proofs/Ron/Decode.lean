import Mathlib.Data.List.Basic
import ShaderGraph.Proofs.Ron.Shape
import ShaderGraph.Proofs.Table
import ShaderGraph.Proofs.Traversal
import ShaderGraph.Ron.Decode

/-!
# RON: what is encoded is read back and decoded

Numbers, tuples of numbers, values that may be absent and tables have an encoding each. The shape
for it reads what is written of the encoding, and decoding gives the value that was encoded. A field
of a record is found by its name as long as no two fields have the same one.

## Main results

* `Shape.Reads.ofNumbers`, `Shape.Reads.ofOption`, `Shape.Reads.ofTable` — encodings are read back
* `Ron.numbers?_ofNumbers`, `Ron.option?_ofOption`, `Ron.map?_ofTable` — encodings are decoded
* `Ron.required?_of_lookup`, `Ron.optional?_of_lookup` — fields are found by their names
* `Ron.optional?_filter` — fields that are left out have their defaults
-/

namespace ShaderGraph.Ron

variable {α : Type} {s : Shape} {x : Float32} {xs : List Float32} {n : UInt32} {u : Uuid}
  {encode : α → Ron} {decode : Ron → Option α} {o : Option α} {t : Table String α} {as : List α}
  {fs : List (String × Ron)} {name : String} {v : Ron} {default : α}

/-! ### Reading -/

namespace Shape

theorem Reads.ofF32 : Shape.number.Reads (.ofF32 x) := .number isSpelling_saved

theorem Reads.ofU32 : Shape.number.Reads (.ofU32 n) := .number isSpelling_toDigits

theorem Reads.ofNumbers (xs : List Float32) :
    (Shape.numbers xs.length).Reads (.ofNumbers xs) := by
  have hspellings : ∀ cs ∈ xs.map fun x => (FloatNotation.saved.write x).toList, IsSpelling cs := by
    intro cs hcs
    obtain ⟨x, -, rfl⟩ := List.mem_map.mp hcs
    exact isSpelling_saved
  have hreads := Reads.numbers hspellings
  rwa [List.length_map, List.map_map] at hreads

theorem Reads.ofOption (h : ∀ a, s.Reads (encode a)) :
    (Shape.option s).Reads (.ofOption encode o) := by
  cases o with
  | none => exact .absent
  | some a => exact .present (h a)

theorem Reads.ofTable (h : ∀ a, s.Reads (encode a)) : (Shape.map s).Reads (.ofTable encode t) := by
  refine .map fun e he => ?_
  obtain ⟨e', -, rfl⟩ := List.mem_map.mp he
  exact h e'.2

end Shape

/-! ### Decoding -/

theorem f32?_ofF32 : f32? (.ofF32 x) = some x := by
  rw [ofF32, f32?, Numeral.f32?_saved]

theorem u32?_ofU32 : u32? (.ofU32 n) = some n := by
  rw [ofU32, u32?, Numeral.u32?_toDigits]

theorem text?_text {s : String} : text? (.text s) = some s := rfl

theorem uuid?_hyphenated : uuid? (.text u.hyphenated) = some u := by
  rw [uuid?, text?, Option.bind_some, Uuid.ofText?_hyphenated]

/-- A list of encodings is decoded if each encoding is. -/
theorem mapM_encode {β : Type} {encode : α → β} {decode : β → Option α}
    (h : ∀ a, decode (encode a) = some a) : (as.map encode).mapM decode = some as :=
  mapM_eq_pure (List.forall₂_map_left_iff.mpr (List.forall₂_same.mpr fun a _ => h a))

theorem numbers?_ofNumbers : numbers? (.ofNumbers xs) = some xs := mapM_encode fun _ => f32?_ofF32

theorem option?_ofOption (h : ∀ a, decode (encode a) = some a) :
    option? decode (.ofOption encode o) = some o := by
  cases o with
  | none => rfl
  | some a => rw [ofOption, option?, h, Option.map_some]

theorem list?_map (h : ∀ a, decode (encode a) = some a) :
    list? decode (.list (as.map encode)) = some as := mapM_encode h

theorem map?_ofTable (h : ∀ a, decode (encode a) = some a) :
    map? decode (.ofTable encode t) = some t.entries :=
  mapM_encode fun e => by rw [h, Option.map_some]

/-! ### Fields -/

theorem valuesOf_of_lookup_eq_none (h : fs.lookup name = none) : valuesOf name fs = [] := by
  rw [valuesOf, List.map_eq_nil_iff, List.filter_eq_nil_iff]
  intro f hf heq
  exact bne_iff_ne.mp (List.lookup_eq_none_iff.mp h f hf) (eq_of_beq heq).symm

/-- A field is found by its name as long as no two fields have the same one. -/
theorem valuesOf_of_lookup_eq_some (hnodup : (fs.map Prod.fst).Nodup)
    (h : fs.lookup name = some v) : valuesOf name fs = [v] := by
  obtain ⟨before, after, rfl, hbefore⟩ := List.lookup_eq_some_iff.mp h
  rw [List.map_append, List.map_cons] at hnodup
  have hbefore : valuesOf name before = [] :=
    valuesOf_of_lookup_eq_none (List.lookup_eq_none_iff.mpr hbefore)
  have hafter : valuesOf name after = [] := by
    refine valuesOf_of_lookup_eq_none (List.lookup_eq_none_iff.mpr fun f hf => bne_iff_ne.mpr ?_)
    have hfirst := (List.nodup_cons.mp (List.nodup_append.mp hnodup).2.1).1
    exact fun heq => hfirst (List.mem_map.mpr ⟨f, hf, heq.symm⟩)
  rw [valuesOf, List.filter_append, List.map_append, ← valuesOf, hbefore, List.nil_append,
    List.filter_cons_of_pos (by simp), List.map_cons, ← valuesOf, hafter]

theorem required?_of_lookup (hnodup : (fs.map Prod.fst).Nodup) (h : fs.lookup name = some v) :
    required? fs name decode = decode v := by
  rw [required?, valuesOf_of_lookup_eq_some hnodup h]

theorem optional?_of_lookup (hnodup : (fs.map Prod.fst).Nodup) (h : fs.lookup name = some v) :
    optional? fs name default decode = decode v := by
  rw [optional?, valuesOf_of_lookup_eq_some hnodup h]

theorem optional?_of_lookup_eq_none (h : fs.lookup name = none) :
    optional? fs name default decode = some default := by
  rw [optional?, valuesOf_of_lookup_eq_none h]

/-- Of the fields that are kept, those with a name are all that have it, or none. -/
theorem valuesOf_filter {kept : String → Bool} : valuesOf name (fs.filter (kept ·.1)) =
    if kept name then valuesOf name fs else [] := by
  rw [valuesOf, List.filter_filter]
  by_cases hkept : kept name = true
  · rw [if_pos hkept, valuesOf]
    refine congrArg (List.map Prod.snd) (List.filter_congr fun f _ => ?_)
    by_cases hf : f.1 = name
    · rw [hf, hkept, Bool.and_true]
    · rw [beq_false_of_ne hf, Bool.false_and]
  · rw [if_neg hkept, List.map_eq_nil_iff, List.filter_eq_nil_iff]
    intro f _ hf
    rw [Bool.and_eq_true, beq_iff_eq] at hf
    exact hkept (hf.1 ▸ hf.2)

/-- A field that may be left out has its value if it is kept, and else the default. -/
theorem optional?_filter {kept : String → Bool} {a : α} (hnodup : (fs.map Prod.fst).Nodup)
    (h : fs.lookup name = some v) (hdecode : decode v = some a) :
    optional? (fs.filter (kept ·.1)) name default decode =
      some (if kept name then a else default) := by
  rw [optional?, valuesOf_filter, valuesOf_of_lookup_eq_some hnodup h]
  by_cases hkept : kept name = true
  · rw [if_pos hkept, if_pos hkept]
    exact hdecode
  · rw [if_neg hkept, if_neg hkept]

end ShaderGraph.Ron
