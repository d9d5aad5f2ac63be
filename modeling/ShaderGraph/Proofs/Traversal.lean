import Mathlib.Data.List.Forall2

/-!
# Actions element by element

An action on every element of a list or of a vector comes to the list of what it gives if it gives
something for each element and does nothing else. For actions that may only fail, nothing else is
possible.

## Main results

* `mapM_eq_pure` — actions that give something for each element
* `mapM_eq_some_iff` — actions that may only fail
* `vector_mapM_eq_pure` — the same along a vector
-/

namespace ShaderGraph

variable {α β : Type} {m : Type → Type} [Monad m] [LawfulMonad m] {n : Nat}

theorem mapM_eq_pure {f : α → m β} {l : List α} {l' : List β}
    (h : List.Forall₂ (fun a b => f a = pure b) l l') : l.mapM f = pure l' := by
  induction h with
  | nil => rfl
  | cons hab _ ih => rw [List.mapM_cons, hab, ih, pure_bind, pure_bind]

theorem mapM_eq_pure_map {f : α → m β} {g : α → β} {l : List α}
    (h : ∀ a ∈ l, f a = pure (g a)) : l.mapM f = pure (l.map g) :=
  mapM_eq_pure (List.forall₂_map_right_iff.mpr (List.forall₂_same.mpr h))

theorem mapM_eq_some_iff {f : α → Option β} {l : List α} {l' : List β} :
    l.mapM f = some l' ↔ List.Forall₂ (fun a b => f a = some b) l l' := by
  refine ⟨fun h => ?_, mapM_eq_pure⟩
  induction l generalizing l' with
  | nil =>
    obtain rfl := Option.some_inj.mp h
    exact .nil
  | cons a l ih =>
    rw [List.mapM_cons, Option.bind_eq_bind, Option.bind_eq_some_iff] at h
    obtain ⟨b, hb, h⟩ := h
    rw [Option.bind_eq_bind, Option.bind_eq_some_iff] at h
    obtain ⟨bs, hbs, h⟩ := h
    obtain rfl := Option.some_inj.mp h
    exact .cons hb (ih hbs)

theorem toList_mapM {f : α → m β} {as : Vector α n} :
    Vector.toList <$> as.mapM f = as.toList.mapM f :=
  calc Vector.toList <$> as.mapM f = Array.toList <$> Vector.toArray <$> as.mapM f := by
        rw [Functor.map_map]
        rfl
    _ = as.toList.mapM f := by rw [Vector.toArray_mapM, Array.toList_mapM]; rfl

theorem vector_mapM_eq_pure {f : α → m β} {as : Vector α n} {bs : Vector β n}
    (h : List.Forall₂ (fun a b => f a = pure b) as.toList bs.toList) : as.mapM f = pure bs := by
  apply Vector.map_toArray_inj.mp
  rw [Vector.toArray_mapM, Array.mapM_eq_mapM_toList, map_pure]
  have hlist : as.toArray.toList.mapM f = pure bs.toList := mapM_eq_pure h
  rw [hlist, map_pure]
  rfl

end ShaderGraph
