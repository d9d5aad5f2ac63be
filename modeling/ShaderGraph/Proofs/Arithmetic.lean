import ShaderGraph.Arithmetic
import ShaderGraph.Proofs.Traversal

/-!
# Component by component

Operations on values are functions of numbers that are applied to the components that the operands
have at one index after the other. That index never leads outside of an operand: scalars have a
component at every index, vectors are combined only if they are of one width, and textures not at
all. Within that width a scalar and the vector that repeats it have the same components, so that
either may stand for the other beside a vector.

## Main definitions

* `Corresponds` — the components of the operands at an index
* `broadcastChecked` — the same extension of a function where a missing component is an error
* `Combinable`, `Combines` — when operands have a result, and which
* `Value.Widens` — a scalar and the vector that repeats it

## Main results

* `commonWidth?_eq_some_some_iff` — what the common width of operands is
* `broadcast_eq_some_iff` — which result operands have
* `broadcast_of_widens` — scalars may be repeated beside a vector
* `Arithmetic.broadcast_exactly` — all about the combination of operands
-/

namespace ShaderGraph

variable {n i w : Nat} {operands operands' : Vector Value n} {f : Vector Float32 n → Option Float32}
  {xs xs' : Vector Float32 n} {v : Value} {vs : List Value} {y : Float32}

/-! ### Components -/

/-- `xs` are the components of the operands at an index. -/
def Corresponds (operands : Vector Value n) (i : Nat) (xs : Vector Float32 n) : Prop :=
  ∀ k (hk : k < n), operands[k].component? i = some xs[k]

theorem corresponds_iff : Corresponds operands i xs ↔
    List.Forall₂ (fun v x => v.component? i = some x) operands.toList xs.toList := by
  rw [List.forall₂_iff_get]
  simp [Corresponds]

theorem atComponent_eq_some_iff : atComponent operands f i = some y ↔
    ∃ xs, Corresponds operands i xs ∧ f xs = some y := by
  have hmapM (xs : Vector Float32 n) :
      (operands.mapM (m := Option) fun v => v.component? i) = some xs ↔
        Corresponds operands i xs := by
    rw [corresponds_iff, ← mapM_eq_some_iff, ← toList_mapM, Option.map_eq_map,
      Option.map_eq_some_iff]
    constructor
    · exact fun h => ⟨xs, h, rfl⟩
    · rintro ⟨xs', h, heq⟩
      rwa [← Vector.toList_inj.mp heq]
  rw [atComponent, Option.bind_eq_some_iff]
  simp only [hmapM]

theorem Corresponds.unique (h : Corresponds operands i xs) (h' : Corresponds operands i xs') :
    xs = xs' := by
  ext k hk
  exact Option.some_inj.mp ((h k hk).symm.trans (h' k hk))

theorem exists_corresponds (h : ∀ v ∈ operands.toList, (v.component? i).isSome = true) :
    ∃ xs, Corresponds operands i xs := by
  refine ⟨operands.map fun v => (v.component? i).getD 0, fun k hk => ?_⟩
  have hsome := h operands[k] (Vector.mem_toList_iff.mpr (Vector.getElem_mem hk))
  obtain ⟨x, hx⟩ := Option.isSome_iff_exists.mp hsome
  rw [Vector.getElem_map, hx, Option.getD_some]

/-! ### Widths -/

/-- Every value is a scalar. -/
def AllScalars (vs : List Value) : Prop := ∀ v ∈ vs, ∃ x, v = .scalar x

/-- Some value is a vector, `w` is the width of every vector, and no value is a texture. -/
structure OfWidth (vs : List Value) (w : Nat) : Prop where
  isNumeric : ∀ v ∈ vs, v.isNumeric = true
  exists_width : ∃ v ∈ vs, v.width? = some w
  unique : ∀ v ∈ vs, ∀ w', v.width? = some w' → w' = w

/-- No value is a texture, and all vectors are of one width. -/
structure Combinable (vs : List Value) : Prop where
  isNumeric : ∀ v ∈ vs, v.isNumeric = true
  width : ∀ u ∈ vs, ∀ v ∈ vs, ∀ w w', u.width? = some w → v.width? = some w' → w = w'

theorem commonMember?_eq_some_none_iff {ns : List Nat} :
    commonMember? ns = some none ↔ ns = [] := by
  cases ns with
  | nil => simp [commonMember?]
  | cons n ns => simp [commonMember?]

theorem commonMember?_eq_some_some_iff {ns : List Nat} :
    commonMember? ns = some (some w) ↔ w ∈ ns ∧ ∀ n ∈ ns, n = w := by
  cases ns with
  | nil => simp [commonMember?]
  | cons n ns =>
    simp only [commonMember?, Option.ite_none_right_eq_some, Option.some.injEq, List.all_eq_true,
      beq_iff_eq, List.forall_mem_cons]
    constructor
    · rintro ⟨hall, rfl⟩
      exact ⟨List.mem_cons_self, rfl, hall⟩
    · rintro ⟨-, rfl, hall⟩
      exact ⟨hall, rfl⟩

theorem allScalars_iff : AllScalars vs ↔
    (∀ v ∈ vs, v.isNumeric = true) ∧ ∀ v ∈ vs, v.width? = none := by
  rw [← forall₂_and]
  refine forall₂_congr fun v _ => ?_
  cases v <;> simp [Value.isNumeric, Value.width?]

theorem commonWidth?_eq_some_none_iff : commonWidth? vs = some none ↔ AllScalars vs := by
  rw [commonWidth?, Option.ite_none_right_eq_some, commonMember?_eq_some_none_iff,
    List.all_eq_true, List.filterMap_eq_nil_iff, allScalars_iff]

theorem commonWidth?_eq_some_some_iff : commonWidth? vs = some (some w) ↔ OfWidth vs w := by
  rw [commonWidth?, Option.ite_none_right_eq_some, commonMember?_eq_some_some_iff,
    List.all_eq_true]
  simp only [List.mem_filterMap]
  constructor
  · rintro ⟨hnumeric, hsome, hall⟩
    exact ⟨hnumeric, hsome, fun v hv w' hw' => hall w' ⟨v, hv, hw'⟩⟩
  · rintro ⟨hnumeric, hsome, hall⟩
    exact ⟨hnumeric, hsome, fun w' ⟨v, hv, hw'⟩ => hall v hv w' hw'⟩

theorem combinable_iff : Combinable vs ↔ AllScalars vs ∨ ∃ w, OfWidth vs w := by
  constructor
  · intro h
    by_cases hwidth : ∃ v ∈ vs, ∃ w, v.width? = some w
    · obtain ⟨v, hv, w, hw⟩ := hwidth
      exact Or.inr ⟨w, h.isNumeric, ⟨v, hv, hw⟩, fun u hu w' hw' => h.width u hu v hv w' w hw' hw⟩
    · refine Or.inl (allScalars_iff.mpr ⟨h.isNumeric, fun v hv => ?_⟩)
      exact Option.eq_none_iff_forall_ne_some.mpr fun w hw => hwidth ⟨v, hv, w, hw⟩
  · rintro (h | ⟨w, h⟩)
    · obtain ⟨hnumeric, hnone⟩ := allScalars_iff.mp h
      refine ⟨hnumeric, fun u hu v hv w w' hw hw' => ?_⟩
      rw [hnone u hu] at hw
      cases hw
    · exact ⟨h.isNumeric, fun u hu v hv w₁ w₂ h₁ h₂ =>
        (h.unique u hu w₁ h₁).trans (h.unique v hv w₂ h₂).symm⟩

/-- A scalar has the same component at every index. -/
theorem AllScalars.component?_eq (h : AllScalars vs) (hv : v ∈ vs) (i j : Nat) :
    (v.component? i).isSome = true ∧ v.component? i = v.component? j := by
  obtain ⟨x, rfl⟩ := h v hv
  exact ⟨rfl, rfl⟩

/-- Within the common width every operand has components. -/
theorem OfWidth.isSome_component? (h : OfWidth vs w) (hv : v ∈ vs) (hi : i < w) :
    (v.component? i).isSome = true := by
  cases v with
  | scalar x => rfl
  | vector xs =>
    have hw : xs.length = w := h.unique _ hv _ rfl
    simp [Value.component?, hw, hi]
  | texture t => cases h.isNumeric _ hv

/-- There is no component outside of a vector. -/
theorem lt_of_component?_eq_some {x : Float32} (hw : v.width? = some w)
    (hx : v.component? i = some x) : i < w := by
  cases v with
  | vector xs =>
    obtain rfl := Option.some_inj.mp hw
    exact (List.getElem?_eq_some_iff.mp hx).1
  | scalar _ | texture _ => cases hw

theorem OfWidth.lt_of_corresponds (h : OfWidth operands.toList w)
    (hxs : Corresponds operands i xs) : i < w := by
  obtain ⟨v, hv, hw⟩ := h.exists_width
  obtain ⟨k, hk, rfl⟩ := Vector.getElem_of_mem (Vector.mem_toList_iff.mp hv)
  exact lt_of_component?_eq_some hw (hxs k hk)

/-! ### Combination -/

/-- What a function makes of operands: a scalar of scalars, and otherwise a vector of the common
width, each component of which is what the function makes of the components at its index. -/
inductive Combines (operands : Vector Value n) (f : Vector Float32 n → Option Float32) :
    Value → Prop
  | scalar {xs : Vector Float32 n} {y : Float32} (hall : AllScalars operands.toList)
      (hxs : Corresponds operands 0 xs) (hy : f xs = some y) : Combines operands f (.scalar y)
  | vector {ys : List Float32} (hwidth : OfWidth operands.toList ys.length)
      (h : ∀ i (hi : i < ys.length), ∃ xs, Corresponds operands i xs ∧ f xs = some ys[i]) :
      Combines operands f (.vector ys)

theorem broadcast_of_allScalars (h : AllScalars operands.toList) :
    broadcast operands f = (atComponent operands f 0).map .scalar := by
  rw [broadcast, commonWidth?_eq_some_none_iff.mpr h]

theorem broadcast_of_ofWidth (h : OfWidth operands.toList w) :
    broadcast operands f = ((List.range w).mapM (atComponent operands f)).map .vector := by
  rw [broadcast, commonWidth?_eq_some_some_iff.mpr h]

theorem mapM_atComponent_eq_some_iff {ys : List Float32} :
    (List.range w).mapM (atComponent operands f) = some ys ↔
      ys.length = w ∧ ∀ i (hi : i < ys.length), ∃ xs, Corresponds operands i xs ∧
        f xs = some ys[i] := by
  rw [mapM_eq_some_iff, List.forall₂_iff_get]
  simp only [List.length_range, List.get_eq_getElem, List.getElem_range, atComponent_eq_some_iff]
  constructor
  · rintro ⟨rfl, h⟩
    exact ⟨rfl, fun i hi => h i hi hi⟩
  · rintro ⟨rfl, h⟩
    exact ⟨rfl, fun i _ hi => h i hi⟩

theorem broadcast_eq_some_iff : broadcast operands f = some v ↔ Combines operands f v := by
  constructor
  · intro h
    rw [broadcast] at h
    split at h
    · cases h
    · rename_i hwidth
      obtain ⟨y, hy, rfl⟩ := Option.map_eq_some_iff.mp h
      obtain ⟨xs, hxs, hy⟩ := atComponent_eq_some_iff.mp hy
      exact .scalar (commonWidth?_eq_some_none_iff.mp hwidth) hxs hy
    · rename_i w hwidth
      obtain ⟨ys, hys, rfl⟩ := Option.map_eq_some_iff.mp h
      obtain ⟨rfl, hcomponents⟩ := mapM_atComponent_eq_some_iff.mp hys
      exact .vector (commonWidth?_eq_some_some_iff.mp hwidth) hcomponents
  · rintro (⟨hall, hxs, hy⟩ | ⟨hwidth, hys⟩)
    · rw [broadcast_of_allScalars hall, atComponent_eq_some_iff.mpr ⟨_, hxs, hy⟩, Option.map_some]
    · rw [broadcast_of_ofWidth hwidth, mapM_atComponent_eq_some_iff.mpr ⟨rfl, hys⟩,
        Option.map_some]

/-- Operands have a result if they can be combined and the function accepts all components that
correspond to each other. -/
theorem isSome_broadcast_iff : (broadcast operands f).isSome = true ↔
    Combinable operands.toList ∧ ∀ i xs, Corresponds operands i xs → (f xs).isSome = true := by
  rw [Option.isSome_iff_exists]
  simp only [broadcast_eq_some_iff]
  constructor
  · rintro ⟨_, ⟨hall, hxs, hy⟩ | ⟨hwidth, hys⟩⟩
    · refine ⟨combinable_iff.mpr (Or.inl hall), fun i xs' hxs' => ?_⟩
      -- The components of scalars are the same at every index.
      have hzero : Corresponds operands 0 xs' := fun k hk => by
        rw [← hxs' k hk]
        exact (hall.component?_eq (Vector.mem_toList_iff.mpr (Vector.getElem_mem hk)) 0 i).2
      rw [hzero.unique hxs, hy]
      rfl
    · refine ⟨combinable_iff.mpr (Or.inr ⟨_, hwidth⟩), fun i xs' hxs' => ?_⟩
      obtain ⟨xs, hxs, hy⟩ := hys i (hwidth.lt_of_corresponds hxs')
      rw [hxs'.unique hxs, hy]
      rfl
  · rintro ⟨hcombinable, haccepts⟩
    rcases combinable_iff.mp hcombinable with hall | ⟨w, hwidth⟩
    · obtain ⟨xs, hxs⟩ := exists_corresponds fun v hv => (hall.component?_eq hv 0 0).1
      obtain ⟨y, hy⟩ := Option.isSome_iff_exists.mp (haccepts 0 xs hxs)
      exact ⟨_, .scalar hall hxs hy⟩
    · have hexists (i : Nat) (hi : i < w) :
          ∃ y xs, Corresponds operands i xs ∧ f xs = some y := by
        obtain ⟨xs, hxs⟩ := exists_corresponds fun v hv => hwidth.isSome_component? hv hi
        obtain ⟨y, hy⟩ := Option.isSome_iff_exists.mp (haccepts i xs hxs)
        exact ⟨y, xs, hxs, hy⟩
      choose! y hy using hexists
      refine ⟨.vector ((List.range w).map y), .vector (by simpa using hwidth) fun i hi => ?_⟩
      have hlt : i < w := by simpa using hi
      rw [List.getElem_map, List.getElem_range]
      exact hy i hlt

/-! ### Missing components -/

/-- What happens where a component is asked for that a value does not have. -/
structure MissingComponent where
  value : Value
  index : Nat
  deriving DecidableEq

/-- The component of a value at an index, or an error if there is none. -/
def Value.componentChecked (v : Value) (i : Nat) : Except MissingComponent Float32 :=
  match v.component? i with
  | some x => .ok x
  | none => .error ⟨v, i⟩

/-- A function applied to components of which none may be missing. -/
def atComponentChecked (operands : Vector Value n) (f : Vector Float32 n → Option Float32)
    (i : Nat) : Except MissingComponent (Option Float32) :=
  f <$> operands.mapM fun v => v.componentChecked i

/-- The extension of a function to values, where a missing component is an error and no absence. -/
def broadcastChecked (operands : Vector Value n) (f : Vector Float32 n → Option Float32) :
    Except MissingComponent (Option Value) :=
  match commonWidth? operands.toList with
  | none => .ok none
  | some none => Option.map .scalar <$> atComponentChecked operands f 0
  | some (some w) =>
    (fun ys => (ys.mapM id).map .vector) <$> (List.range w).mapM (atComponentChecked operands f)

theorem atComponentChecked_eq (h : ∀ v ∈ operands.toList, (v.component? i).isSome = true) :
    atComponentChecked operands f i = .ok (atComponent operands f i) := by
  obtain ⟨xs, hxs⟩ := exists_corresponds h
  have hchecked : (operands.mapM fun v => v.componentChecked i) = .ok xs := by
    refine vector_mapM_eq_pure ((corresponds_iff.mp hxs).imp fun v x hx => ?_)
    rw [Value.componentChecked, hx]
    rfl
  have hcomponents : (operands.mapM (m := Option) fun v => v.component? i) = some xs :=
    vector_mapM_eq_pure (corresponds_iff.mp hxs)
  rw [atComponentChecked, hchecked, atComponent, hcomponents]
  rfl

/-- No component is ever missing. -/
theorem broadcastChecked_eq : broadcastChecked operands f = .ok (broadcast operands f) := by
  rw [broadcastChecked, broadcast]
  rcases hwidth : commonWidth? operands.toList with _ | _ | w
  · rfl
  · have hall := commonWidth?_eq_some_none_iff.mp hwidth
    have hchecked : atComponentChecked operands f 0 = .ok (atComponent operands f 0) :=
      atComponentChecked_eq fun v hv => (hall.component?_eq hv 0 0).1
    simp only [hchecked]
    rfl
  · have hofWidth := commonWidth?_eq_some_some_iff.mp hwidth
    have hchecked : (List.range w).mapM (atComponentChecked operands f) =
        .ok ((List.range w).map (atComponent operands f)) :=
      mapM_eq_pure_map fun i hi => atComponentChecked_eq fun v hv =>
        hofWidth.isSome_component? hv (List.mem_range.mp hi)
    have hmapM : ((List.range w).map (atComponent operands f)).mapM id =
        (List.range w).mapM (atComponent operands f) := List.mapM_map
    simp only [hchecked, ← hmapM]
    rfl

/-! ### Repeated scalars -/

/-- A value as it is, or the vector that repeats a scalar. -/
def Value.Widens (w : Nat) (v v' : Value) : Prop :=
  v' = v ∨ ∃ x, v = .scalar x ∧ v' = .vector (List.replicate w x)

/-- A value that does not keep others from being combined to vectors of a width. -/
def Value.Suits (w : Nat) (v : Value) : Prop :=
  v.isNumeric = true ∧ ∀ w', v.width? = some w' → w' = w

theorem ofWidth_iff :
    OfWidth vs w ↔ (∀ v ∈ vs, v.Suits w) ∧ ∃ v ∈ vs, v.width? = some w :=
  ⟨fun h => ⟨fun v hv => ⟨h.isNumeric v hv, h.unique v hv⟩, h.exists_width⟩,
    fun h => ⟨fun v hv => (h.1 v hv).1, h.2, fun v hv => (h.1 v hv).2⟩⟩

namespace Value.Widens

variable {v' : Value} {vs' : List Value}

theorem suits_iff (h : v.Widens w v') : v'.Suits w ↔ v.Suits w := by
  rcases h with rfl | ⟨x, rfl, rfl⟩
  · exact Iff.rfl
  · simp [Value.Suits, Value.isNumeric, Value.width?]

theorem component?_eq (h : v.Widens w v') (hi : i < w) : v'.component? i = v.component? i := by
  rcases h with rfl | ⟨x, rfl, rfl⟩
  · rfl
  · simp [Value.component?, hi]

theorem forall_suits_iff (h : List.Forall₂ (Value.Widens w) vs vs') :
    (∀ v ∈ vs', v.Suits w) ↔ ∀ v ∈ vs, v.Suits w := by
  induction h with
  | nil => simp
  | cons hv _ ih => rw [List.forall_mem_cons, List.forall_mem_cons, hv.suits_iff, ih]

theorem exists_width (h : List.Forall₂ (Value.Widens w) vs vs')
    (hw : ∃ v ∈ vs, v.width? = some w) : ∃ v ∈ vs', v.width? = some w := by
  induction h with
  | nil => exact hw
  | cons hv _ ih =>
    rw [List.exists_mem_cons_iff] at hw ⊢
    refine hw.imp (fun hw => ?_) ih
    -- A vector stays as it is.
    rcases hv with rfl | ⟨x, rfl, rfl⟩
    · exact hw
    · cases hw

theorem ofWidth_iff (h : List.Forall₂ (Value.Widens w) vs vs')
    (hw : ∃ v ∈ vs, v.width? = some w) : OfWidth vs' w ↔ OfWidth vs w := by
  rw [ShaderGraph.ofWidth_iff, ShaderGraph.ofWidth_iff, forall_suits_iff h,
    and_iff_left (exists_width h hw), and_iff_left hw]

end Value.Widens

/-- Where an operand is a vector of some width, it decides whether the operands can be combined,
and the result has that width. -/
theorem combines_iff_of_width (hw : ∃ v ∈ operands.toList, v.width? = some w) :
    Combines operands f v ↔ OfWidth operands.toList w ∧ ∃ ys, ys.length = w ∧ v = .vector ys ∧
      ∀ i (hi : i < ys.length), ∃ xs, Corresponds operands i xs ∧ f xs = some ys[i] := by
  obtain ⟨u, hu, huw⟩ := hw
  constructor
  · rintro (⟨hall, -, -⟩ | ⟨hwidth, hys⟩)
    · obtain ⟨x, rfl⟩ := hall u hu
      cases huw
    · obtain rfl := hwidth.unique u hu w huw
      exact ⟨hwidth, _, rfl, rfl, hys⟩
  · rintro ⟨hwidth, ys, rfl, rfl, hys⟩
    exact .vector hwidth hys

/-- Scalars may be repeated to the width of a vector beside them. -/
theorem broadcast_of_widens (h : List.Forall₂ (Value.Widens w) operands.toList operands'.toList)
    (hw : ∃ v ∈ operands.toList, v.width? = some w) :
    broadcast operands' f = broadcast operands f := by
  -- No index outside of the width is looked at, and within it the components are the same.
  have hcorresponds (i : Nat) (hi : i < w) (xs : Vector Float32 n) :
      Corresponds operands' i xs ↔ Corresponds operands i xs := by
    refine forall₂_congr fun k hk => ?_
    have hk' := (List.forall₂_iff_get.mp h).2 k (by simpa using hk) (by simpa using hk)
    have hwidens : operands[k].Widens w operands'[k] := by simpa using hk'
    rw [hwidens.component?_eq hi]
  ext v
  rw [broadcast_eq_some_iff, broadcast_eq_some_iff, combines_iff_of_width hw,
    combines_iff_of_width (Value.Widens.exists_width h hw), Value.Widens.ofWidth_iff h hw]
  refine and_congr_right fun _ => exists_congr fun ys => and_congr_right fun hlength =>
    and_congr_right fun _ => forall₂_congr fun i hi => exists_congr fun xs => ?_
  rw [hcorresponds i (hlength ▸ hi)]

/-! ### Division -/

theorem not_combinable_pair_iff {a b : Value} : ¬ Combinable [a, b] ↔
    (∃ t, a = .texture t ∨ b = .texture t) ∨
    ∃ xs ys, a = .vector xs ∧ b = .vector ys ∧ xs.length ≠ ys.length := by
  have hpair : Combinable [a, b] ↔ (a.isNumeric = true ∧ b.isNumeric = true) ∧
      ∀ w w', a.width? = some w → b.width? = some w' → w = w' := by
    constructor
    · intro h
      exact ⟨⟨h.isNumeric a (by simp), h.isNumeric b (by simp)⟩, h.width a (by simp) b (by simp)⟩
    · rintro ⟨⟨ha, hb⟩, hwidth⟩
      refine ⟨by simp [ha, hb], fun u hu v hv w w' hw hw' => ?_⟩
      rcases List.mem_pair.mp hu with rfl | rfl <;> rcases List.mem_pair.mp hv with rfl | rfl
      · exact Option.some_inj.mp (hw.symm.trans hw')
      · exact hwidth w w' hw hw'
      · exact (hwidth w' w hw' hw).symm
      · exact Option.some_inj.mp (hw.symm.trans hw')
  rw [hpair]
  cases a <;> cases b <;> simp [Value.isNumeric, Value.width?]

theorem corresponds_pair {a b : Value} {x y : Float32} (ha : a.component? i = some x)
    (hb : b.component? i = some y) : Corresponds #v[a, b] i #v[x, y] := by
  intro k hk
  rcases k with _ | _ | k
  · exact ha
  · exact hb
  · omega

/-- A quotient is absent exactly if an operand is a texture, two vectors differ in width, or a
component of the divisor that meets one of the dividend is zero. -/
theorem onValues?_divide_eq_none_iff {a b : Value} :
    BinaryOperation.divide.onValues? a b = none ↔
      ((∃ t, a = .texture t ∨ b = .texture t) ∨
        ∃ xs ys, a = .vector xs ∧ b = .vector ys ∧ xs.length ≠ ys.length) ∨
      ∃ i x y, a.component? i = some x ∧ b.component? i = some y ∧ (y == 0) = true := by
  rw [← Option.not_isSome_iff_eq_none, BinaryOperation.onValues?, isSome_broadcast_iff,
    Classical.not_and_iff_not_or_not]
  refine or_congr not_combinable_pair_iff ?_
  simp only [BinaryOperation.onNumbers?, not_forall, exists_prop]
  constructor
  · rintro ⟨i, xs, hxs, hnone⟩
    refine ⟨i, xs[0], xs[1], hxs 0 Nat.zero_lt_two, hxs 1 Nat.one_lt_two, ?_⟩
    by_contra hzero
    simp [hzero] at hnone
  · rintro ⟨i, x, y, ha, hb, hzero⟩
    exact ⟨i, #v[x, y], corresponds_pair ha hb, by simp [hzero]⟩

namespace Arithmetic

/-- Whatever the function and the operands, no component is asked for that there is not. There is a
result exactly if no operand is a texture, the vectors are of one width and the function accepts all
components that correspond to each other; it is a scalar of scalars, and otherwise the vector of
what the function makes of them. Beside a vector, scalars may be repeated to its width, and a
quotient is absent for a texture, for vectors that differ in width, and for a zero that is used. -/
theorem broadcast_exactly :
    (∀ (n : Nat) (operands : Vector Value n) (f : Vector Float32 n → Option Float32),
      broadcastChecked operands f = .ok (broadcast operands f) ∧
      ((broadcast operands f).isSome = true ↔ Combinable operands.toList ∧
        ∀ i xs, Corresponds operands i xs → (f xs).isSome = true) ∧
      ∀ v, broadcast operands f = some v ↔ Combines operands f v) ∧
    (∀ (op : BinaryOperation) (w : Nat) (a b a' b' : Value), a.Widens w a' → b.Widens w b' →
      (∃ v ∈ [a, b], v.width? = some w) → op.onValues? a' b' = op.onValues? a b) ∧
    (∀ (w : Nat) (a b alpha a' b' alpha' : Value), a.Widens w a' → b.Widens w b' →
      alpha.Widens w alpha' → (∃ v ∈ [a, b, alpha], v.width? = some w) →
      lerp? a' b' alpha' = lerp? a b alpha) ∧
    (∀ (w : Nat) (a low high a' low' high' : Value), a.Widens w a' → low.Widens w low' →
      high.Widens w high' → (∃ v ∈ [a, low, high], v.width? = some w) →
      clamp? a' low' high' = clamp? a low high) ∧
    ∀ a b, BinaryOperation.divide.onValues? a b = none ↔
      ((∃ t, a = .texture t ∨ b = .texture t) ∨
        ∃ xs ys, a = .vector xs ∧ b = .vector ys ∧ xs.length ≠ ys.length) ∨
      ∃ i x y, a.component? i = some x ∧ b.component? i = some y ∧ (y == 0) = true := by
  refine ⟨fun n operands f => ⟨broadcastChecked_eq, isSome_broadcast_iff,
    fun v => broadcast_eq_some_iff⟩, fun op w a b a' b' ha hb hw => ?_,
    fun w a b alpha a' b' alpha' ha hb halpha hw => ?_,
    fun w a low high a' low' high' ha hlow hhigh hw => ?_,
    fun a b => onValues?_divide_eq_none_iff⟩
  · exact broadcast_of_widens (.cons ha (.cons hb .nil)) hw
  · exact broadcast_of_widens (.cons ha (.cons hb (.cons halpha .nil))) hw
  · exact broadcast_of_widens (.cons ha (.cons hlow (.cons hhigh .nil))) hw

/-- The sum of a vector and a scalar, and what the scalar may be replaced by. -/
theorem broadcast_exactly_pair :
    let a := Value.vector [1, 2]
    let b := Value.scalar 3
    let b' := Value.vector [3, 3]
    (a.Widens 2 a ∧ b.Widens 2 b' ∧ ∃ v ∈ [a, b], v.width? = some 2) ∧
    BinaryOperation.add.onValues? a b = some (.vector [1 + 3, 2 + 3]) ∧
    BinaryOperation.add.onValues? a b' = BinaryOperation.add.onValues? a b ∧
    lerp? b' a b' = lerp? b a b ∧ clamp? a b' b = clamp? a b b := by
  intro a b b'
  obtain ⟨hall, hbinary, hlerp, hclamp, -⟩ := broadcast_exactly
  have ha : a.Widens 2 a := Or.inl rfl
  have hb : b.Widens 2 b := Or.inl rfl
  have hb' : b.Widens 2 b' := Or.inr ⟨3, rfl, rfl⟩
  have hsum : Combines #v[a, b] (fun v => BinaryOperation.add.onNumbers? v[0] v[1])
      (.vector [1 + 3, 2 + 3]) := by
    have hwidth : OfWidth [a, b] 2 :=
      ⟨by simp [a, b, Value.isNumeric], ⟨a, by simp, rfl⟩, by simp [a, b, Value.width?]⟩
    refine .vector hwidth fun i hi => ?_
    rcases i with _ | _ | i
    · exact ⟨#v[1, 3], corresponds_pair rfl rfl, rfl⟩
    · exact ⟨#v[2, 3], corresponds_pair rfl rfl, rfl⟩
    · exact absurd hi (by simp)
  exact ⟨⟨ha, hb', a, by simp, rfl⟩, ((hall _ _ _).2.2 _).mpr hsum,
    hbinary .add 2 a b a b' ha hb' ⟨a, by simp, rfl⟩,
    hlerp 2 b a b b' a b' hb' ha hb' ⟨a, by simp, rfl⟩,
    hclamp 2 a b b a b' b ha hb' hb ⟨a, by simp, rfl⟩⟩

end Arithmetic

end ShaderGraph
