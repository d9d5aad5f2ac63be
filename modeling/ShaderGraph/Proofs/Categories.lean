import ShaderGraph.Proofs.Catalog

/-!
# The index of categories

A registry keeps, beside its definitions, the keys of each category. Both are edited by hand: a
definition that is registered anew may change its category and leave an empty one behind, which the
same edit may fill again. Taking a key out of its category and adding one to a category each keep
the index in step with the look-up of definitions, and every edit is made of these two.

## Main definitions

* `Registry.Edit`, `Registry.apply` — the edits of a registry
* `Registry.keysIn` — the keys that an index has for a category
* `Registry.Indexes` — an index in step with a look-up of definitions

## Main results

* `Registry.Indexes.dropFromCategory`, `Registry.Indexes.addToCategory` — the two steps of an edit
* `Registry.Built.indexes` — whatever is registered and unregistered, the index is in step
* `Registry.categories_exactly` — what the index says about the definitions
-/

namespace ShaderGraph.Registry

/-- An edit of a registry. -/
inductive Edit where
  | register (d : NodeDefinition)
  | registerAll (ds : List NodeDefinition)
  | unregister (key : String)

/-- A registry after an edit. -/
def apply (r : Registry) : Edit → Registry
  | .register d => r.register d
  | .registerAll ds => r.registerAll ds
  | .unregister key => r.unregister key

/-- The keys that an index has for a category. -/
def keysIn (categories : Table String (List String)) (category : String) : List String :=
  (categories.get? category).getD []

/-- An index has keys for the categories in use alone, each key once, namely those under which a
definition of the category is found. -/
structure Indexes (categories : Table String (List String))
    (find? : String → Option NodeDefinition) : Prop where
  ne_nil : ∀ ⦃category keys⦄, categories.get? category = some keys → keys ≠ []
  nodup : ∀ category, (keysIn categories category).Nodup
  mem_iff : ∀ key category, key ∈ keysIn categories category ↔
    ∃ d, find? key = some d ∧ d.category = category

variable {categories : Table String (List String)} {find? : String → Option NodeDefinition}
  {d : NodeDefinition} {r : Registry} {category key a : String} {keys : List String}

/-- A definition that is found has its key in its category alone. -/
theorem Indexes.mem_keysIn_iff (h : Indexes categories find?) (hd : find? key = some d) :
    key ∈ keysIn categories category ↔ d.category = category := by
  rw [h.mem_iff, hd]
  constructor
  · rintro ⟨e, he, hcategory⟩
    obtain rfl := Option.some_inj.mp he
    exact hcategory
  · exact fun hcategory => ⟨d, rfl, hcategory⟩

theorem Indexes.not_mem_keysIn (h : Indexes categories find?) (hnone : find? key = none) :
    key ∉ keysIn categories category := by
  rw [h.mem_iff, hnone]
  rintro ⟨d, hd, -⟩
  cases hd

/-! ### The two steps of an edit -/

theorem get?_dropFromCategory : (dropFromCategory categories category key).get? a =
    if a = category then
      ((categories.get? category).map (List.filter (· != key))).filter (!·.isEmpty)
    else categories.get? a := by
  rw [dropFromCategory]
  cases hkeys : categories.get? category with
  | none =>
    by_cases ha : a = category
    · rw [if_pos ha, ha]
      exact hkeys
    · rw [if_neg ha]
  | some keys =>
    rw [Option.map_some, Option.filter_some]
    -- A category whose last key is taken out is dropped.
    cases hrest : keys.filter (· != key) with
    | nil => simp only [hrest]; exact Table.get?_erase
    | cons k rest => simp only [hrest]; exact Table.get?_insert

theorem keysIn_dropFromCategory : keysIn (dropFromCategory categories category key) a =
    if a = category then (keysIn categories category).filter (· != key)
    else keysIn categories a := by
  rw [keysIn, get?_dropFromCategory]
  split
  · rw [keysIn]
    cases categories.get? category with
    | none => rfl
    | some keys =>
      rw [Option.map_some, Option.filter_some, Option.getD_some]
      split
      · rfl
      · rename_i hempty
        rw [Option.getD_none]
        exact (List.isEmpty_iff.mp (by simpa using hempty)).symm
  · rfl

theorem keysIn_addToCategory : keysIn (addToCategory categories category key) a =
    if a = category then keysIn categories category ++ [key] else keysIn categories a := by
  rw [keysIn, addToCategory, Table.get?_insert]
  split <;> rfl

/-- Taking the key of a definition out of its category. -/
theorem Indexes.dropFromCategory (h : Indexes categories find?) (hd : find? key = some d) :
    Indexes (dropFromCategory categories d.category key)
      fun k => if k = key then none else find? k where
  ne_nil c keys hkeys := by
    rw [get?_dropFromCategory] at hkeys
    split at hkeys
    · exact List.isEmpty_eq_false_iff.mp (by simpa using (Option.filter_eq_some_iff.mp hkeys).2)
    · exact h.ne_nil hkeys
  nodup c := by
    rw [keysIn_dropFromCategory]
    split
    · exact (h.nodup _).filter _
    · exact h.nodup c
  mem_iff k c := by
    rw [keysIn_dropFromCategory]
    by_cases hk : k = key
    · -- The key is found in no category: it was in that of its definition alone.
      subst hk
      rw [if_pos rfl]
      refine iff_of_false ?_ (by simp)
      split
      · simp
      · rename_i hc
        exact fun hmem => hc ((h.mem_keysIn_iff hd).mp hmem).symm
    · rw [if_neg hk, ← h.mem_iff]
      split
      · rename_i hc
        rw [hc, List.mem_filter, bne_iff_ne]
        exact and_iff_left hk
      · rfl

/-- Adding the key of a new definition to its category. -/
theorem Indexes.addToCategory (h : Indexes categories find?) (hnone : find? key = none) :
    Indexes (addToCategory categories d.category key)
      fun k => if k = key then some d else find? k where
  ne_nil c keys hkeys := by
    rw [Registry.addToCategory, Table.get?_insert] at hkeys
    split at hkeys
    · rw [← Option.some_inj.mp hkeys]
      exact List.append_ne_nil_of_right_ne_nil _ (List.cons_ne_nil _ _)
    · exact h.ne_nil hkeys
  nodup c := by
    rw [keysIn_addToCategory]
    split
    · refine List.nodup_append.mpr ⟨h.nodup _, List.nodup_singleton _, ?_⟩
      rintro k hk k' hk' rfl
      exact h.not_mem_keysIn hnone (List.mem_singleton.mp hk' ▸ hk)
    · exact h.nodup c
  mem_iff k c := by
    rw [keysIn_addToCategory]
    by_cases hk : k = key
    · subst hk
      rw [if_pos rfl]
      split
      · rename_i hc
        exact iff_of_true (List.mem_append_right _ List.mem_cons_self) ⟨d, rfl, hc.symm⟩
      · rename_i hc
        refine iff_of_false (h.not_mem_keysIn hnone) ?_
        rintro ⟨e, he, rfl⟩
        exact hc (congrArg NodeDefinition.category (Option.some_inj.mp he)).symm
    · rw [if_neg hk, ← h.mem_iff]
      split
      · rename_i hc
        rw [hc, List.mem_append, List.mem_singleton]
        exact or_iff_left hk
      · rfl

/-! ### Edits -/

theorem Indexes.congr {found? : String → Option NodeDefinition} (h : Indexes categories find?)
    (he : ∀ k, found? k = find? k) : Indexes categories found? := by
  obtain rfl : found? = find? := funext he
  exact h

theorem Indexes.register (h : Indexes r.categories r.get?) (d : NodeDefinition) :
    Indexes (r.register d).categories (r.register d).get? := by
  rw [Registry.register]
  cases hold : r.get? d.key with
  | none => exact (h.addToCategory hold).congr fun k => get?_register
  | some old =>
    refine ((h.dropFromCategory hold).addToCategory (if_pos rfl)).congr fun k => ?_
    refine get?_register.trans ?_
    by_cases hk : k = d.key
    · rw [if_pos hk, if_pos hk]
    · rw [if_neg hk, if_neg hk, if_neg hk]

theorem Indexes.unregister (h : Indexes r.categories r.get?) (key : String) :
    Indexes (r.unregister key).categories (r.unregister key).get? := by
  cases hd : r.get? key with
  | none =>
    -- A key without a definition is left alone.
    have hsame : r.unregister key = r := by rw [Registry.unregister, hd]
    rwa [hsame]
  | some d =>
    have hindex : (r.unregister key).categories =
        Registry.dropFromCategory r.categories d.category key := by rw [Registry.unregister, hd]
    rw [hindex]
    exact (h.dropFromCategory hd).congr fun k => get?_unregister

theorem Built.indexes (h : r.Built) : Indexes r.categories r.get? := by
  induction h with
  | withCompatibility c =>
    refine ⟨fun _ _ hkeys => absurd hkeys (Option.some_ne_none _).symm, fun _ => List.nodup_nil,
      fun key category => ?_⟩
    refine iff_of_false List.not_mem_nil ?_
    rintro ⟨d, hd, -⟩
    cases hd
  | register _ d ih => exact ih.register d
  | unregister _ key ih => exact ih.unregister key

theorem Built.foldl_apply (h : r.Built) (edits : List Edit) : (edits.foldl apply r).Built := by
  induction edits generalizing r with
  | nil => exact h
  | cons e edits ih =>
    refine ih ?_
    cases e with
    | register d => exact h.register d
    | registerAll ds => exact built_registerAll h
    | unregister key => exact h.unregister key

/-! ### What the index says -/

theorem Filed.nodup_values (h : r.Filed) : r.definitions.values.Nodup := by
  have hkeys : r.definitions.values.map NodeDefinition.key = r.definitions.keys := by
    rw [Table.values, Table.keys, List.map_map]
    exact List.map_congr_left fun e he => h (Table.get?_eq_some_iff.mpr he)
  refine List.Nodup.of_map NodeDefinition.key ?_
  rw [hkeys]
  exact r.definitions.nodup

theorem Indexes.mem_byCategory_iff (h : Indexes r.categories r.get?) :
    d ∈ r.byCategory category ↔ d ∈ r.definitions.values ∧ d.category = category := by
  have hmem : d ∈ r.byCategory category ↔
      ∃ key ∈ keysIn r.categories category, r.get? key = some d := List.mem_filterMap
  rw [hmem, Table.mem_values_iff]
  constructor
  · rintro ⟨key, hkey, hd⟩
    exact ⟨⟨key, hd⟩, (h.mem_keysIn_iff hd).mp hkey⟩
  · rintro ⟨⟨key, hd⟩, hcategory⟩
    exact ⟨key, (h.mem_keysIn_iff hd).mpr hcategory, hd⟩

theorem Indexes.nodup_byCategory (h : Indexes r.categories r.get?) (hfiled : r.Filed) :
    (r.byCategory category).Nodup := by
  refine (h.nodup category).filterMap fun k k' d hd hd' => ?_
  rw [← hfiled hd, ← hfiled hd']

theorem Indexes.byCategory_perm (h : Indexes r.categories r.get?) (hfiled : r.Filed) :
    (r.byCategory category).Perm (r.definitions.values.filter (·.category == category)) := by
  rw [List.perm_ext_iff_of_nodup (h.nodup_byCategory hfiled) (hfiled.nodup_values.filter _)]
  intro d
  rw [h.mem_byCategory_iff, List.mem_filter, beq_iff_eq]

theorem Indexes.mem_keys_iff (h : Indexes r.categories r.get?) :
    category ∈ r.categories.keys ↔ ∃ d ∈ r.definitions.values, d.category = category := by
  constructor
  · intro hcategory
    obtain ⟨keys, hkeys⟩ := Option.ne_none_iff_exists'.mp
      (mt Table.get?_eq_none_iff.mp (not_not_intro hcategory))
    obtain ⟨key, hkey⟩ := List.exists_mem_of_ne_nil _ (h.ne_nil hkeys)
    have hin : key ∈ keysIn r.categories category := by rwa [keysIn, hkeys]
    obtain ⟨d, hd, hcategory⟩ := (h.mem_iff _ _).mp hin
    exact ⟨d, Table.mem_values_iff.mpr ⟨key, hd⟩, hcategory⟩
  · rintro ⟨d, hd, rfl⟩
    obtain ⟨key, hkey⟩ := Table.mem_values_iff.mp hd
    have hin := (h.mem_keysIn_iff hkey).mpr rfl
    by_contra hnone
    rw [keysIn, Table.get?_eq_none_iff.mpr hnone] at hin
    exact List.not_mem_nil hin

/-- Whatever is registered, registered anew and unregistered from a new registry on: definitions are
found under their own keys; the index has each category that is in use once, with keys of which none
is repeated, and no other; a category gives exactly the definitions that belong to it, each once; so
each definition is given by one category alone. -/
theorem categories_exactly (c : Compatibility) (edits : List Edit) :
    let r := edits.foldl apply (withCompatibility c)
    (∀ key d, r.get? key = some d → d.key = key) ∧
      (∀ category keys, r.categories.get? category = some keys → keys ≠ [] ∧ keys.Nodup) ∧
      (∀ category, (r.byCategory category).Nodup ∧
        (r.byCategory category).Perm (r.definitions.values.filter (·.category == category))) ∧
      r.categories.keys.Nodup ∧
      (∀ category, category ∈ r.categories.keys ↔
        ∃ d ∈ r.definitions.values, d.category = category) ∧
      ∀ d ∈ r.definitions.values, ∃! category, d ∈ r.byCategory category := by
  intro r
  have hbuilt : r.Built := (Built.withCompatibility c).foldl_apply edits
  have hindex := hbuilt.indexes
  refine ⟨fun key d hd => hbuilt.filed hd, fun category keys hkeys => ⟨hindex.ne_nil hkeys, ?_⟩,
    fun category => ⟨hindex.nodup_byCategory hbuilt.filed, hindex.byCategory_perm hbuilt.filed⟩,
    r.categories.nodup, fun category => hindex.mem_keys_iff, fun d hd => ?_⟩
  · have hnodup := hindex.nodup category
    rwa [keysIn, hkeys] at hnodup
  · refine ⟨d.category, hindex.mem_byCategory_iff.mpr ⟨hd, rfl⟩, fun category hcategory => ?_⟩
    exact (hindex.mem_byCategory_iff.mp hcategory).2.symm

end ShaderGraph.Registry
