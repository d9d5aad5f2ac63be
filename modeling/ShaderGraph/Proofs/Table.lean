import Mathlib.Data.List.Nodup
import ShaderGraph.Table

/-!
# Laws of tables

What the operations on tables do to look-ups, and what they do to the entries as a list.

## Main results

* `Table.get?_eq_some_iff` — looking up is membership of the entry
* `Table.get?_filter`, `Table.get?_erase`, `Table.get?_mapValues` — look-ups after an operation
* `Table.entries_insert_of_get?_eq_none` — a new key goes to the end
* `Table.modify_eq_mapValues` — a change to one value as a change to all values
* `Table.foldl_modify` — a sequence of changes as one change to all values
* `Table.entries_ofList` — a list without repeated keys is a table as it stands
-/

namespace ShaderGraph

/-- Lists that have the same image under two maps have the same image under any two maps that agree
as far as the first ones do. -/
theorem map_eq_map_of_map_eq {α β γ δ : Type*} {u : α → γ} {v : β → γ} {f : α → δ} {g : β → δ}
    {xs : List α} {ys : List β} (h : xs.map u = ys.map v)
    (hfg : ∀ x ∈ xs, ∀ y ∈ ys, u x = v y → f x = g y) : xs.map f = ys.map g := by
  induction xs generalizing ys with
  | nil =>
    rw [List.map_nil, eq_comm, List.map_eq_nil_iff] at h
    rw [h, List.map_nil, List.map_nil]
  | cons x xs ih =>
    cases ys with
    | nil => cases h
    | cons y ys =>
      rw [List.map_cons, List.map_cons, List.cons.injEq] at h
      have hhead := hfg x List.mem_cons_self y List.mem_cons_self h.1
      have htail := ih h.2 fun x hx y hy =>
        hfg x (List.mem_cons_of_mem _ hx) y (List.mem_cons_of_mem _ hy)
      rw [List.map_cons, List.map_cons, hhead, htail]

/-- A place in a list with one more element at the end is the end or a place in the list. -/
theorem append_singleton_eq_append_cons {α : Type*} {xs before after : List α} {x y : α}
    (h : xs ++ [x] = before ++ y :: after) :
    before = xs ∧ y = x ∧ after = [] ∨
      ∃ after', after = after' ++ [x] ∧ xs = before ++ y :: after' := by
  rcases List.eq_nil_or_concat after with rfl | ⟨after, x', rfl⟩
  · obtain ⟨rfl, hx⟩ := List.append_inj' h rfl
    exact Or.inl ⟨rfl, (List.singleton_inj.mp hx).symm, rfl⟩
  · have heq : xs ++ [x] = (before ++ y :: after) ++ [x'] := by
      rw [h, List.concat_eq_append, List.append_assoc, List.cons_append]
    obtain ⟨rfl, hx⟩ := List.append_inj' heq rfl
    obtain rfl := List.singleton_inj.mp hx
    exact Or.inr ⟨after, List.concat_eq_append, rfl⟩

theorem exists_append_singleton_iff {α : Type*} {xs : List α} {x : α}
    {P : List α → α → List α → Prop} :
    (∃ before y after, xs ++ [x] = before ++ y :: after ∧ P before y after) ↔
      P xs x [] ∨ ∃ before y after, xs = before ++ y :: after ∧ P before y (after ++ [x]) := by
  constructor
  · rintro ⟨before, y, after, heq, h⟩
    rcases append_singleton_eq_append_cons heq with ⟨rfl, rfl, rfl⟩ | ⟨after, rfl, rfl⟩
    · exact Or.inl h
    · exact Or.inr ⟨before, y, after, rfl, h⟩
  · rintro (h | ⟨before, y, after, rfl, h⟩)
    · exact ⟨xs, x, [], rfl, h⟩
    · exact ⟨before, y, after ++ [x], by rw [List.append_assoc, List.cons_append], h⟩

/-- Where no two elements of a list have the same name, a name finds the element that has it. -/
theorem find?_name_eq_some_iff {α : Type*} {name : α → String} {id : String} {x : α} {xs : List α}
    (h : (xs.map name).Nodup) : xs.find? (name · == id) = some x ↔ x ∈ xs ∧ name x = id := by
  constructor
  · intro hx
    exact ⟨List.mem_of_find?_eq_some hx, by simpa using List.find?_some hx⟩
  · rintro ⟨hx, rfl⟩
    cases hy : xs.find? (name · == name x) with
    | none => exact absurd (List.find?_eq_none.mp hy x hx) (by simp)
    | some y =>
      have hname : name y = name x := by simpa using List.find?_some hy
      rw [List.inj_on_of_nodup_map h (List.mem_of_find?_eq_some hy) hx hname]

namespace Table

universe u v w

variable {α : Type u} {β : Type v} {γ : Type w} {δ : Type*}

@[simp] theorem entries_filter {t : Table α β} {p : α → β → Bool} :
    (t.filter p).entries = t.entries.filter fun e => p e.1 e.2 := rfl

@[simp] theorem entries_mapValues {t : Table α β} {f : α → β → γ} :
    (t.mapValues f).entries = t.entries.map fun e => (e.1, f e.1 e.2) := rfl

@[simp] theorem keys_mapValues {t : Table α β} {f : α → β → γ} :
    (t.mapValues f).keys = t.keys := by
  simp [keys, Function.comp_def]

theorem mapValues_mapValues {t : Table α β} {f : α → β → γ} {g : α → γ → δ} :
    (t.mapValues f).mapValues g = t.mapValues fun a b => g a (f a b) := by
  apply ext
  simp [Function.comp_def]

theorem filter_filter {t : Table α β} {p q : α → β → Bool} :
    (t.filter p).filter q = t.filter fun a b => p a b && q a b := by
  apply ext
  simp [List.filter_filter, Bool.and_comm]

theorem filter_eq_self {t : Table α β} {p : α → β → Bool} (h : ∀ e ∈ t.entries, p e.1 e.2 = true) :
    t.filter p = t := by
  apply ext
  exact List.filter_eq_self.mpr h

variable [DecidableEq α] {t : Table α β} {k a : α} {b : β}

/-! ### Look-ups and entries -/

theorem lookupIn_eq_some_iff {es : List (α × β)} (h : (es.map Prod.fst).Nodup) :
    lookupIn k es = some b ↔ (k, b) ∈ es := by
  induction es with
  | nil => simp [lookupIn]
  | cons e es ih =>
    obtain ⟨a, c⟩ := e
    rw [List.map_cons, List.nodup_cons] at h
    -- The search stops at the first entry of a key, which is the only one.
    by_cases hk : a = k
    · subst hk
      have hnot : (a, b) ∉ es := fun hm => h.1 (List.mem_map.mpr ⟨(a, b), hm, rfl⟩)
      simp [lookupIn, hnot, eq_comm]
    · have hne : ¬ k = a := fun he => hk he.symm
      simp [lookupIn, hk, hne, ih h.2]

theorem lookupIn_eq_none_of_notMem {es : List (α × β)} (h : k ∉ es.map Prod.fst) :
    lookupIn k es = none := by
  induction es with
  | nil => rfl
  | cons e es ih =>
    rw [List.map_cons, List.mem_cons, not_or] at h
    rw [lookupIn, if_neg (Ne.symm h.1), ih h.2]

theorem get?_eq_some_iff : t.get? k = some b ↔ (k, b) ∈ t.entries :=
  lookupIn_eq_some_iff t.nodup

/-- The entries that come before another one are filed under other keys. -/
theorem get?_of_entries_eq {done rest : List (α × β)} {e : α × β}
    (h : t.entries = done ++ e :: rest) :
    t.get? e.1 = some e.2 ∧ ∀ e' ∈ done, t.get? e'.1 = some e'.2 ∧ e'.1 ≠ e.1 := by
  have hnodup := t.nodup
  rw [h, List.map_append, List.map_cons] at hnodup
  refine ⟨get?_eq_some_iff.mpr (h ▸ List.mem_append_right _ List.mem_cons_self), fun e' he' => ?_⟩
  refine ⟨get?_eq_some_iff.mpr (h ▸ List.mem_append_left _ he'), ?_⟩
  exact (List.nodup_append.mp hnodup).2.2 _ (List.mem_map_of_mem he') _ List.mem_cons_self

theorem get?_eq_none_iff : t.get? k = none ↔ k ∉ t.keys := by
  rw [Option.eq_none_iff_forall_not_mem]
  simp only [Option.mem_def, get?_eq_some_iff, keys, List.mem_map, Prod.exists, exists_and_right,
    exists_eq_right, not_exists]

theorem mem_values_iff : b ∈ t.values ↔ ∃ k, t.get? k = some b := by
  simp [values, get?_eq_some_iff]

@[simp] theorem get?_empty : (∅ : Table α β).get? k = none := rfl

theorem get?_filter {p : α → β → Bool} :
    (t.filter p).get? k = some b ↔ t.get? k = some b ∧ p k b = true := by
  simp [get?_eq_some_iff]

theorem get?_filter_key {p : α → Bool} :
    (t.filter fun a _ => p a).get? k = if p k = true then t.get? k else none := by
  apply Option.ext
  intro b
  rw [get?_filter]
  by_cases h : p k = true <;> simp [h]

theorem get?_erase : (t.erase k).get? a = if a = k then none else t.get? a := by
  rw [erase, get?_filter_key]
  by_cases h : a = k <;> simp [h]

theorem mem_eraseP_key_iff {es : List (α × β)} (h : (es.map Prod.fst).Nodup) :
    (a, b) ∈ es.eraseP (fun e => decide (e.1 = k)) ↔ (a, b) ∈ es ∧ a ≠ k := by
  induction es with
  | nil => simp
  | cons e es ih =>
    rw [List.map_cons, List.nodup_cons] at h
    by_cases hk : e.1 = k
    -- The other entries have other keys.
    · have hnot (hm : (a, b) ∈ es) : a ≠ k :=
        fun he => h.1 (List.mem_map.mpr ⟨(a, b), hm, he.trans hk.symm⟩)
      rw [List.eraseP_cons_of_pos (by simpa using hk), List.mem_cons]
      constructor
      · exact fun hm => ⟨Or.inr hm, hnot hm⟩
      · rintro ⟨rfl | hm, hne⟩
        · exact absurd hk hne
        · exact hm
    · rw [List.eraseP_cons_of_neg (by simpa using hk), List.mem_cons, List.mem_cons, ih h.2]
      constructor
      · rintro (rfl | ⟨hm, hne⟩)
        · exact ⟨Or.inl rfl, hk⟩
        · exact ⟨Or.inr hm, hne⟩
      · rintro ⟨rfl | hm, hne⟩
        · exact Or.inl rfl
        · exact Or.inr ⟨hm, hne⟩

theorem get?_swapErase : (t.swapErase k).get? a = if a = k then none else t.get? a := by
  apply Option.ext
  intro b
  -- The entries are those without `k` in another order.
  rw [get?_eq_some_iff, swapErase, (swapEraseIn_perm t.entries).mem_iff, mem_eraseP_key_iff t.nodup,
    ← get?_eq_some_iff]
  by_cases ha : a = k <;> simp [ha]

theorem eq_empty_of_get? (h : ∀ k, t.get? k = none) : t = ∅ := by
  apply ext
  rw [entries_empty, List.eq_nil_iff_forall_not_mem]
  rintro ⟨k, b⟩ hmem
  rw [← get?_eq_some_iff, h k] at hmem
  cases hmem

@[simp] theorem get?_mapValues {f : α → β → γ} : (t.mapValues f).get? k = (t.get? k).map (f k) := by
  apply Option.ext
  intro c
  simp only [get?_eq_some_iff, entries_mapValues, List.mem_map, Prod.mk.injEq,
    Option.map_eq_some_iff]
  constructor
  · rintro ⟨⟨a, b⟩, hm, rfl, rfl⟩
    exact ⟨b, hm, rfl⟩
  · rintro ⟨b, hm, rfl⟩
    exact ⟨(k, b), hm, rfl, rfl⟩

theorem mapValues_congr {f g : α → β → γ} (h : ∀ k b, t.get? k = some b → f k b = g k b) :
    t.mapValues f = t.mapValues g := by
  apply ext
  apply List.map_congr_left
  rintro ⟨k, b⟩ hm
  rw [h k b (get?_eq_some_iff.mpr hm)]

theorem mapValues_eq_self {f : α → β → β} (h : ∀ k b, t.get? k = some b → f k b = b) :
    t.mapValues f = t := by
  rw [mapValues_congr (g := fun _ b => b) h]
  apply ext
  simp

/-! ### Entries after an operation -/

theorem insertIn_of_notMem {es : List (α × β)} (h : k ∉ es.map Prod.fst) :
    insertIn k b es = es ++ [(k, b)] := by
  induction es with
  | nil => rfl
  | cons e es ih =>
    rw [List.map_cons, List.mem_cons, not_or] at h
    rw [insertIn, if_neg (Ne.symm h.1), ih h.2, List.cons_append]

theorem entries_insert_of_get?_eq_none (h : t.get? k = none) :
    (t.insert k b).entries = t.entries ++ [(k, b)] := by
  rw [entries_insert]
  exact insertIn_of_notMem (get?_eq_none_iff.mp h)

theorem keys_insert_of_get?_eq_none (h : t.get? k = none) :
    (t.insert k b).keys = t.keys ++ [k] := by
  rw [keys, entries_insert_of_get?_eq_none h, List.map_append]
  rfl

theorem values_insert_of_get?_eq_none (h : t.get? k = none) :
    (t.insert k b).values = t.values ++ [b] := by
  rw [values, entries_insert_of_get?_eq_none h, List.map_append]
  rfl

/-- A selection of values does not miss an erased value that it would not have taken. -/
theorem filter_erase {q : β → Bool} (h : ∀ b, t.get? k = some b → q b = false) :
    ((t.erase k).filter fun _ => q) = t.filter fun _ => q := by
  apply ext
  rw [erase, filter_filter, entries_filter, entries_filter]
  refine List.filter_congr fun e he => ?_
  by_cases hk : e.1 = k
  · have hq := h e.2 (hk ▸ get?_eq_some_iff.mpr he)
    simp [hk, hq]
  · simp [hk]

/-- Nor does it take a new value that it is not meant for. -/
theorem filter_insert_of_get?_eq_none {q : β → Bool} (h : t.get? k = none) (hb : q b = false) :
    ((t.insert k b).filter fun _ => q) = t.filter fun _ => q := by
  apply ext
  rw [entries_filter, entries_filter, entries_insert_of_get?_eq_none h, List.filter_append]
  simp [hb]

/-- Where the key of an entry can be read off its value, dropping keys is dropping values. -/
theorem values_filter_key {p : α → Bool} {key : β → α}
    (h : ∀ k b, t.get? k = some b → key b = k) :
    (t.filter fun a _ => p a).values = t.values.filter fun b => p (key b) := by
  rw [values, values, List.filter_map, entries_filter]
  refine congrArg _ (List.filter_congr fun e he => ?_)
  rw [Function.comp_apply, h e.1 e.2 (get?_eq_some_iff.mpr he)]

theorem modify_eq_mapValues {f : β → β} :
    t.modify k f = t.mapValues fun a b => if a = k then f b else b := by
  apply ext
  rw [entries_modify, entries_mapValues, modifyIn]
  apply List.map_congr_left
  intro e _
  by_cases h : e.1 = k <;> simp [h]

/-- Values that are overwritten one after the other are overwritten at once. -/
theorem foldl_modify {es : List (α × β)} (h : (es.map Prod.fst).Nodup) :
    es.foldl (fun t e => t.modify e.1 fun _ => e.2) t =
      t.mapValues fun a b => (lookupIn a es).getD b := by
  induction es generalizing t with
  | nil => exact (mapValues_eq_self fun _ _ _ => rfl).symm
  | cons e es ih =>
    rw [List.map_cons, List.nodup_cons] at h
    rw [List.foldl_cons, ih h.2, modify_eq_mapValues, mapValues_mapValues]
    refine mapValues_congr fun a b _ => ?_
    by_cases ha : a = e.1
    -- No later value is meant for the same key.
    · rw [lookupIn, ha, lookupIn_eq_none_of_notMem h.1, if_pos rfl, if_pos rfl]
      rfl
    · rw [lookupIn, if_neg ha, if_neg (Ne.symm ha)]

/-- A table whose values are all overwritten by those of another with the same keys is the other. -/
theorem mapValues_getD_eq {s : Table α β} (h : t.keys = s.keys) :
    (t.mapValues fun a b => (s.get? a).getD b) = s := by
  apply ext
  rw [entries_mapValues, ← List.map_id s.entries]
  refine map_eq_map_of_map_eq h ?_
  rintro ⟨a, b⟩ _ ⟨a', b'⟩ hs rfl
  rw [get?_eq_some_iff.mpr hs]
  rfl

theorem entries_ofList {es : List (α × β)} (h : (es.map Prod.fst).Nodup) :
    (ofList es).entries = es := by
  -- For the induction, the pairs are inserted into any table that has none of their keys.
  have hfoldl (t : Table α β) (ht : ((t.entries ++ es).map Prod.fst).Nodup) :
      (es.foldl (fun t e => t.insert e.1 e.2) t).entries = t.entries ++ es := by
    clear h
    induction es generalizing t with
    | nil => exact (List.append_nil _).symm
    | cons e es ih =>
      have hnew : t.get? e.1 = none := by
        rw [get?_eq_none_iff]
        rw [List.map_append, List.map_cons] at ht
        exact fun hmem => (List.nodup_append.mp ht).2.2 _ hmem _ List.mem_cons_self rfl
      have hinsert := entries_insert_of_get?_eq_none (b := e.2) hnew
      have hentries : t.entries ++ e :: es = (t.insert e.1 e.2).entries ++ es := by
        rw [hinsert, List.append_assoc]
        rfl
      rw [List.foldl_cons, ih _ (hentries ▸ ht), hentries]
  exact hfoldl ∅ h

/-- The entries of a table make up the table. -/
theorem ofList_entries : ofList t.entries = t := ext (entries_ofList t.nodup)

end Table

end ShaderGraph
