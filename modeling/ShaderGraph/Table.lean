/-!
# Insertion-ordered tables

A `Table` files one value under each of finitely many keys and remembers the order in which the
keys came. Writing to a key that is present replaces its value and keeps its place; a new key goes
to the end. There are two ways to erase: `erase` closes the gap, `swapErase` fills it with the
last entry.

## Main definitions

* `Table` — the entries in order, with the proof that no key stands twice
* `Table.get?`, `Table.insert`, `Table.erase`, `Table.swapErase`, `Table.modify`
* `Table.ofList` — the table that results from inserting the pairs of a list in order
-/

namespace ShaderGraph

universe u v w

/-- Finitely many values filed under distinct keys, in order of insertion. -/
structure Table (α : Type u) (β : Type v) where
  /-- The entries in order. -/
  entries : List (α × β)
  /-- No key stands twice. -/
  nodup : (entries.map Prod.fst).Nodup

namespace Table

variable {α : Type u} {β : Type v} {γ : Type w}

@[ext] theorem ext {s t : Table α β} (h : s.entries = t.entries) : s = t := by
  cases s; cases t; cases h; rfl

instance [DecidableEq α] [DecidableEq β] : DecidableEq (Table α β) := fun s t =>
  decidable_of_iff (s.entries = t.entries) ⟨ext, fun h => h ▸ rfl⟩

/-- The table without entries. -/
def empty : Table α β := ⟨[], List.nodup_nil⟩

instance : EmptyCollection (Table α β) := ⟨empty⟩
instance : Inhabited (Table α β) := ⟨empty⟩

@[simp] theorem entries_empty : (∅ : Table α β).entries = [] := rfl

/-- The keys in order. -/
def keys (t : Table α β) : List α := t.entries.map Prod.fst

/-- The values in order. -/
def values (t : Table α β) : List β := t.entries.map Prod.snd

/-- The number of entries. -/
def size (t : Table α β) : Nat := t.entries.length

/-- Whether there is no entry. -/
def isEmpty (t : Table α β) : Bool := t.entries.isEmpty

/-- Keeps the entries that satisfy `p`, in order. -/
def filter (t : Table α β) (p : α → β → Bool) : Table α β :=
  ⟨t.entries.filter fun e => p e.1 e.2,
    (List.filter_sublist.map Prod.fst).nodup t.nodup⟩

/-- Applies `f` to every value. -/
def mapValues (t : Table α β) (f : α → β → γ) : Table α γ :=
  ⟨t.entries.map fun e => (e.1, f e.1 e.2), by
    have : (t.entries.map fun e => (e.1, f e.1 e.2)).map Prod.fst = t.entries.map Prod.fst := by
      simp [List.map_map, Function.comp_def]
    exact this ▸ t.nodup⟩

variable [DecidableEq α]

/-- The value filed first under `k` in a list of pairs. -/
def lookupIn (k : α) : List (α × β) → Option β
  | [] => none
  | e :: es => if e.1 = k then some e.2 else lookupIn k es

/-- Writes to the place of `k` in a list of pairs, or to its end. -/
def insertIn (k : α) (b : β) : List (α × β) → List (α × β)
  | [] => [(k, b)]
  | e :: es => if e.1 = k then (k, b) :: es else e :: insertIn k b es

/-- Applies `f` to each value filed under `k` in a list of pairs. -/
def modifyIn (k : α) (f : β → β) (es : List (α × β)) : List (α × β) :=
  es.map fun e => if e.1 = k then (e.1, f e.2) else e

theorem mem_keys_insertIn {k a : α} {b : β} {es : List (α × β)} :
    a ∈ (insertIn k b es).map Prod.fst ↔ a = k ∨ a ∈ es.map Prod.fst := by
  induction es with
  | nil => simp [insertIn]
  | cons e es ih =>
    by_cases h : e.1 = k
    · simp [insertIn, h]
    · simp only [insertIn, h, if_false, List.map_cons, List.mem_cons, ih]
      constructor
      · rintro (h | h | h) <;> simp [h]
      · rintro (h | h | h) <;> simp [h]

theorem nodup_keys_insertIn {k : α} {b : β} {es : List (α × β)}
    (h : (es.map Prod.fst).Nodup) : ((insertIn k b es).map Prod.fst).Nodup := by
  induction es with
  | nil => simp [insertIn]
  | cons e es ih =>
    rw [List.map_cons, List.nodup_cons] at h
    by_cases hk : e.1 = k
    · rw [insertIn, if_pos hk, List.map_cons, List.nodup_cons]
      exact ⟨hk ▸ h.1, h.2⟩
    · simp only [insertIn, hk, if_false, List.map_cons, List.nodup_cons]
      refine ⟨fun hm => ?_, ih h.2⟩
      rcases mem_keys_insertIn.1 hm with hm | hm
      · exact hk hm
      · exact h.1 hm

@[simp] theorem keys_modifyIn {k : α} {f : β → β} {es : List (α × β)} :
    (modifyIn k f es).map Prod.fst = es.map Prod.fst := by
  rw [modifyIn, List.map_map]
  apply List.map_congr_left
  intro e _
  by_cases h : e.1 = k <;> simp [h]

/-- The value filed under `k`. -/
def get? (t : Table α β) (k : α) : Option β := lookupIn k t.entries

/-- Whether some value is filed under `k`. -/
def contains (t : Table α β) (k : α) : Bool := (t.get? k).isSome

/-- Files `b` under `k`: in place if `k` is present, at the end otherwise. -/
def insert (t : Table α β) (k : α) (b : β) : Table α β :=
  ⟨insertIn k b t.entries, nodup_keys_insertIn t.nodup⟩

/-- Applies `f` to the value filed under `k`, if there is one. -/
def modify (t : Table α β) (k : α) (f : β → β) : Table α β :=
  ⟨modifyIn k f t.entries, by rw [keys_modifyIn]; exact t.nodup⟩

/-- Removes `k`; the later entries move up. -/
def erase (t : Table α β) (k : α) : Table α β :=
  t.filter fun a _ => a ≠ k

/-- Removes `k` from a list of pairs and puts the last entry into the gap. -/
def swapEraseIn (k : α) : List (α × β) → List (α × β)
  | [] => []
  | e :: es =>
    if e.1 = k then
      match es.getLast? with
      | some last => last :: es.dropLast
      | none => []
    else e :: swapEraseIn k es

theorem swapEraseIn_perm {k : α} (es : List (α × β)) :
    (swapEraseIn k es).Perm (es.eraseP fun e => e.1 = k) := by
  induction es with
  | nil => exact .nil
  | cons e es ih =>
    by_cases h : e.1 = k
    · simp only [swapEraseIn, h, if_true, decide_true, List.eraseP_cons_of_pos]
      cases hl : es.getLast? with
      | none => rw [List.getLast?_eq_none_iff.1 hl]
      | some last =>
        obtain ⟨es', rfl⟩ := List.getLast?_eq_some_iff.1 hl
        have hp : ([last] ++ es').Perm (es' ++ [last]) := List.perm_append_comm
        simpa using hp
    · simpa [swapEraseIn, h] using ih

/-- Removes `k`; the last entry moves into the gap. -/
def swapErase (t : Table α β) (k : α) : Table α β :=
  ⟨swapEraseIn k t.entries,
    (((swapEraseIn_perm t.entries).map Prod.fst).nodup_iff).2
      ((List.eraseP_sublist.map Prod.fst).nodup t.nodup)⟩

/-- Inserts the pairs of a list in order. -/
def ofList (es : List (α × β)) : Table α β :=
  es.foldl (fun t e => t.insert e.1 e.2) ∅

@[simp] theorem entries_insert {t : Table α β} {k : α} {b : β} :
    (t.insert k b).entries = insertIn k b t.entries := rfl

@[simp] theorem entries_modify {t : Table α β} {k : α} {f : β → β} :
    (t.modify k f).entries = modifyIn k f t.entries := rfl

theorem get?_insert {t : Table α β} {k a : α} {b : β} :
    (t.insert k b).get? a = if a = k then some b else t.get? a := by
  simp only [get?, entries_insert]
  induction t.entries with
  | nil => simp [insertIn, lookupIn, eq_comm]
  | cons e es ih => grind [insertIn, lookupIn]

theorem get?_modify {t : Table α β} {k a : α} {f : β → β} :
    (t.modify k f).get? a = if a = k then (t.get? a).map f else t.get? a := by
  simp only [get?, entries_modify]
  induction t.entries with
  | nil => simp [modifyIn, lookupIn]
  | cons e es ih => grind [modifyIn, lookupIn]

end Table

end ShaderGraph
