import Mathlib.Data.List.Basic
import ShaderGraph.Proofs.Traversal
import ShaderGraph.Template

/-!
# Templates in pieces

A template is a list of pieces, each an ordinary character or a placeholder. The placeholders are
found and replaced by two searches that go on in different ways behind a placeholder without a text:
one behind the closing brace, the other behind the opening one. As no name holds an opening brace,
both come to the same pieces.

Substitution leaves a placeholder as it is if there is no text for it. What a template becomes when
this must not happen is said by itself, with nothing as the result if some placeholder has no text.

## Main definitions

* `Template.Piece`, `Template.pieces` — a template cut into pieces
* `Template.remaining` — the placeholders that stay in the text
* `Template.fill?` — a template with every placeholder replaced
* `Template.piecesWithin` — a template cut into pieces in a bounded number of steps

## Main results

* `name?_eq_some_iff` — what stands behind the opening brace of a placeholder
* `text_pieces` — the pieces together are the template
* `placeholders_eq_pieces`, `substituteM_eq_pieces` — both searches go by the pieces
* `fill?_eq_some_iff` — substitution replaces every placeholder if none remains
* `pieces_eq_piecesWithin` — as many steps as there are characters are enough
-/

namespace ShaderGraph.Template

universe v

/-- A character of ordinary text, or a placeholder by its name. -/
inductive Piece where
  | char (c : Char)
  | placeholder (name : List Char)
  deriving DecidableEq, Repr

namespace Piece

/-- The text of a piece in the template. -/
def text : Piece → List Char
  | char c => [c]
  | placeholder name => openBrace :: (name ++ [closeBrace])

/-- The name that a piece asks for. -/
def name? : Piece → Option String
  | char _ => none
  | placeholder name => some (String.ofList name)

/-- The text of a piece, with a placeholder replaced if there is a text for it. -/
def replace (lookup : String → Option String) : Piece → List Char
  | char c => [c]
  | placeholder name =>
    match lookup (String.ofList name) with
    | some s => s.toList
    | none => (placeholder name).text

/-- The text of a piece, with a placeholder replaced if `lookup`, which is asked once, gives a text
for it. -/
def replaceM {m : Type → Type v} [Monad m] (lookup : String → m (Option String)) :
    Piece → m (List Char)
  | char c => pure [c]
  | placeholder name => do
    match ← lookup (String.ofList name) with
    | some s => return s.toList
    | none => return (placeholder name).text

end Piece

/-- A template cut into ordinary characters and placeholders. -/
def pieces (cs : List Char) : List Piece :=
  match cs with
  | [] => []
  | c :: cs =>
    if c = openBrace then
      match _h : name? cs with
      | some (name, rest) => .placeholder name :: pieces rest
      | none => .char c :: pieces cs
    else .char c :: pieces cs
termination_by cs.length
decreasing_by
  · exact Nat.lt_succ_of_lt (length_lt_of_name?_eq_some _h)
  · exact Nat.lt_succ_self _
  · exact Nat.lt_succ_self _

variable {template : String} {lookup : String → Option String} {ps : List Piece}
  {c : Char} {cs name rest : List Char}

/-! ### Names -/

/-- A name is not empty and holds letters, digits and `_` only. -/
def IsName (name : List Char) : Prop := name ≠ [] ∧ ∀ c ∈ name, isNameChar c = true

theorem name?_append (h : IsName name) :
    name? (name ++ closeBrace :: rest) = some (name, rest) := by
  have hclose : isNameChar closeBrace = false := by decide
  rw [name?, List.takeWhile_append_of_pos h.2, List.dropWhile_append_of_pos h.2,
    List.takeWhile_cons_of_neg (by simp [hclose]), List.dropWhile_cons_of_neg (by simp [hclose]),
    List.append_nil]
  obtain ⟨c, name, rfl⟩ := List.exists_cons_of_ne_nil h.1
  rfl

theorem isName_of_name?_eq_some (h : name? cs = some (name, rest)) : IsName name := by
  rw [name?] at h
  split at h
  · rename_i c name' d rest' htake hdrop
    split at h
    · obtain ⟨rfl, -⟩ := Prod.mk.inj (Option.some_inj.mp h)
      rw [← htake]
      exact ⟨htake ▸ List.cons_ne_nil _ _, fun c hc => List.all_eq_true.mp List.all_takeWhile c hc⟩
    · cases h
  · cases h

/-- A placeholder is completed by a name and the closing brace. -/
theorem name?_eq_some_iff :
    name? cs = some (name, rest) ↔ cs = name ++ closeBrace :: rest ∧ IsName name := by
  constructor
  · exact fun h => ⟨eq_of_name?_eq_some h, isName_of_name?_eq_some h⟩
  · rintro ⟨rfl, h⟩
    exact name?_append h

theorem IsName.ne_openBrace (h : IsName name) : ∀ c ∈ name ++ [closeBrace], c ≠ openBrace := by
  rintro c hc rfl
  rcases List.mem_append.mp hc with hc | hc
  · exact absurd (h.2 _ hc) (by decide)
  · exact absurd (List.mem_singleton.mp hc) (by decide)

/-! ### Both searches go by the pieces -/

theorem text_pieces (cs : List Char) : (pieces cs).flatMap Piece.text = cs := by
  fun_induction pieces cs with
  | case1 => rfl
  | case2 cs name rest h ih => simp [Piece.text, ih, eq_of_name?_eq_some h]
  | case3 cs h ih => simp [Piece.text, ih]
  | case4 c cs h ih => simp [Piece.text, ih]

theorem placeholdersIn_eq_pieces (cs : List Char) :
    placeholdersIn cs = (pieces cs).filterMap Piece.name? := by
  fun_induction pieces cs with
  | case1 => rw [placeholdersIn]; rfl
  | case2 cs name rest h ih => rw [placeholdersIn, if_pos rfl, h]; exact congrArg _ ih
  | case3 cs h ih => rw [placeholdersIn, if_pos rfl, h]; exact ih
  | case4 c cs h ih => rw [placeholdersIn, if_neg h]; exact ih

theorem placeholders_eq_pieces :
    placeholders template = (pieces template.toList).filterMap Piece.name? :=
  placeholdersIn_eq_pieces _

section Effects

variable {m : Type → Type v} [Monad m] [LawfulMonad m] {ask : String → m (Option String)}

theorem substituteIn_cons (h : c = openBrace → name? cs = none) :
    substituteIn ask (c :: cs) = (c :: ·) <$> substituteIn ask cs := by
  rw [substituteIn]
  split
  · rename_i hc
    rw [h hc]
    exact bind_pure_comp _ _
  · exact bind_pure_comp _ _

/-- Characters that open no placeholder are copied. -/
theorem substituteIn_append (h : ∀ c ∈ cs, c ≠ openBrace) :
    substituteIn ask (cs ++ rest) = (cs ++ ·) <$> substituteIn ask rest := by
  induction cs with
  | nil => exact (id_map _).symm
  | cons c cs ih =>
    rw [List.forall_mem_cons] at h
    rw [List.cons_append, substituteIn_cons fun hc => absurd hc h.1, ih h.2, Functor.map_map]
    rfl

/-- Behind a placeholder that is not replaced the search comes to its closing brace again. -/
theorem substituteIn_placeholder (h : name? cs = some (name, rest)) :
    substituteIn ask (openBrace :: cs) =
      Piece.replaceM ask (.placeholder name) >>= fun s => (s ++ ·) <$> substituteIn ask rest := by
  have hcopy : substituteIn ask cs = (name ++ [closeBrace] ++ ·) <$> substituteIn ask rest := by
    rw [← substituteIn_append (isName_of_name?_eq_some h).ne_openBrace, eq_of_name?_eq_some h,
      List.append_assoc, List.singleton_append]
  rw [substituteIn, if_pos rfl, h, Piece.replaceM, bind_assoc]
  refine bind_congr fun answer => ?_
  cases answer with
  | some s =>
    dsimp only
    rw [pure_bind, bind_pure_comp]
  | none =>
    dsimp only
    rw [pure_bind, bind_pure_comp, hcopy, Functor.map_map]
    rfl

theorem substituteIn_eq_pieces (cs : List Char) :
    substituteIn ask cs = List.flatten <$> (pieces cs).mapM (Piece.replaceM ask) := by
  have hcons (p : Piece) (ps : List Piece) :
      List.flatten <$> (p :: ps).mapM (Piece.replaceM ask) =
        p.replaceM ask >>= fun s =>
          (s ++ ·) <$> (List.flatten <$> ps.mapM (Piece.replaceM ask)) := by
    simp [List.mapM_cons]
  fun_induction pieces cs with
  | case1 => rw [substituteIn, List.mapM_nil, map_pure]; rfl
  | case2 cs name rest h ih => rw [substituteIn_placeholder h, hcons, ih]
  | case3 cs h ih =>
    rw [substituteIn_cons fun _ => h, hcons, ih, Piece.replaceM, pure_bind]
    rfl
  | case4 c cs h ih =>
    rw [substituteIn_cons fun hc => absurd hc h, hcons, ih, Piece.replaceM, pure_bind]
    rfl

theorem substituteM_eq_pieces : substituteM template ask =
    (fun texts => String.ofList texts.flatten) <$>
      (pieces template.toList).mapM (Piece.replaceM ask) := by
  rw [substituteM, substituteIn_eq_pieces, bind_pure_comp, Functor.map_map]

end Effects

theorem substitute_eq_pieces : substitute template lookup =
    String.ofList ((pieces template.toList).flatMap (Piece.replace lookup)) := by
  have hreplace (p : Piece) : p.replaceM (m := Id) (fun name => pure (lookup name)) =
      pure (p.replace lookup) := by
    cases p with
    | char c => rfl
    | placeholder name =>
      rw [Piece.replaceM, Piece.replace, pure_bind]
      cases lookup (String.ofList name) <;> rfl
  rw [substitute, substituteM_eq_pieces, List.flatMap_def]
  simp [hreplace]

/-! ### Complete templates -/

/-- The placeholders for which there is no text, in order, with repetitions. -/
def remaining (template : String) (lookup : String → Option String) : List String :=
  (placeholders template).filter fun name => (lookup name).isNone

/-- The text of a piece with a placeholder replaced; nothing if there is no text for it. -/
def Piece.fill? (lookup : String → Option String) : Piece → Option (List Char)
  | char c => some [c]
  | placeholder name => (lookup (String.ofList name)).map String.toList

/-- A template with every placeholder replaced; nothing if there is no text for one of them. -/
def fill? (template : String) (lookup : String → Option String) : Option String :=
  ((pieces template.toList).mapM (Piece.fill? lookup)).map fun texts => String.ofList texts.flatten

theorem mem_remaining_iff {name : String} :
    name ∈ remaining template lookup ↔ name ∈ placeholders template ∧ lookup name = none := by
  rw [remaining, List.mem_filter, Option.isNone_iff_eq_none]

theorem Piece.fill?_eq_replace {p : Piece} (h : ∀ name ∈ p.name?, (lookup name).isSome = true) :
    p.fill? lookup = some (p.replace lookup) := by
  cases p with
  | char c => rfl
  | placeholder name =>
    obtain ⟨s, hs⟩ := Option.isSome_iff_exists.mp (h _ rfl)
    rw [fill?, replace, hs, Option.map_some]

theorem Piece.fill?_eq_none {p : Piece} {name : String} (hname : p.name? = some name)
    (h : lookup name = none) : p.fill? lookup = none := by
  cases p with
  | char c => cases hname
  | placeholder cs =>
    obtain rfl := Option.some_inj.mp hname
    rw [fill?, h, Option.map_none]

theorem mapM_fill?_eq_replace (h : ∀ name ∈ ps.filterMap Piece.name?, (lookup name).isSome = true) :
    ps.mapM (Piece.fill? lookup) = some (ps.map (Piece.replace lookup)) :=
  mapM_eq_pure_map fun p hp => Piece.fill?_eq_replace fun name hname =>
    h name (List.mem_filterMap.mpr ⟨p, hp, hname⟩)

theorem mapM_fill?_eq_none {name : String} (hname : name ∈ ps.filterMap Piece.name?)
    (h : lookup name = none) : ps.mapM (Piece.fill? lookup) = none := by
  obtain ⟨p, hp, hpname⟩ := List.mem_filterMap.mp hname
  obtain ⟨before, after, rfl⟩ := List.append_of_mem hp
  rw [List.mapM_append, List.mapM_cons, Piece.fill?_eq_none hpname h]
  cases before.mapM (Piece.fill? lookup) <;> rfl

/-- A template is filled in completely if and only if no placeholder remains, and then by
substitution. -/
theorem fill?_eq_some_iff {s : String} :
    fill? template lookup = some s ↔
      remaining template lookup = [] ∧ s = substitute template lookup := by
  by_cases hremaining : remaining template lookup = []
  · have hall : ∀ name ∈ placeholders template, (lookup name).isSome = true := by
      intro name hname
      rw [Option.isSome_iff_ne_none]
      intro hnone
      exact List.not_mem_nil (hremaining ▸ mem_remaining_iff.mpr ⟨hname, hnone⟩)
    rw [placeholders_eq_pieces] at hall
    rw [fill?, mapM_fill?_eq_replace hall, Option.map_some, Option.some_inj, substitute_eq_pieces,
      List.flatMap_def]
    exact ⟨fun he => ⟨hremaining, he.symm⟩, fun he => he.2.symm⟩
  · obtain ⟨name, hname⟩ := List.exists_mem_of_ne_nil _ hremaining
    obtain ⟨hmem, hnone⟩ := mem_remaining_iff.mp hname
    rw [placeholders_eq_pieces] at hmem
    rw [fill?, mapM_fill?_eq_none hmem hnone, Option.map_none]
    constructor
    · rintro ⟨⟩
    · exact fun he => absurd he.1 hremaining

/-! ### Evaluation -/

/-- A template cut into pieces in a bounded number of steps. -/
def piecesWithin : Nat → List Char → List Piece
  | 0, _ | _, [] => []
  | bound + 1, c :: cs =>
    if c = openBrace then
      match name? cs with
      | some (name, rest) => .placeholder name :: piecesWithin bound rest
      | none => .char c :: piecesWithin bound cs
    else .char c :: piecesWithin bound cs

/-- As many steps as there are characters are enough. -/
theorem pieces_eq_piecesWithin {bound : Nat} (h : cs.length ≤ bound) :
    pieces cs = piecesWithin bound cs := by
  fun_induction pieces cs generalizing bound with
  | case1 => cases bound <;> rfl
  | case2 cs name rest hname ih =>
    obtain _ | bound := bound
    · cases h
    · have hlength : cs.length = name.length + (rest.length + 1) := by
        rw [eq_of_name?_eq_some hname, List.length_append, List.length_cons]
      have hrest : rest.length ≤ bound := by
        rw [List.length_cons] at h
        omega
      rw [piecesWithin, if_pos rfl, hname, ih hrest]
  | case3 cs hname ih =>
    obtain _ | bound := bound
    · cases h
    · rw [piecesWithin, if_pos rfl, hname, ih (Nat.le_of_succ_le_succ h)]
  | case4 c cs hc ih =>
    obtain _ | bound := bound
    · cases h
    · rw [piecesWithin, if_neg hc, ih (Nat.le_of_succ_le_succ h)]

theorem placeholders_eq : placeholders template =
    (piecesWithin template.toList.length template.toList).filterMap Piece.name? := by
  rw [placeholders_eq_pieces, pieces_eq_piecesWithin (Nat.le_refl _)]

theorem substitute_eq : substitute template lookup = String.ofList
    ((piecesWithin template.toList.length template.toList).flatMap (Piece.replace lookup)) := by
  rw [substitute_eq_pieces, pieces_eq_piecesWithin (Nat.le_refl _)]

end ShaderGraph.Template
