import ShaderGraph.Proofs.Template

/-!
# What substitution does to a template

A text is spelt in one way by ordinary characters and placeholders if no placeholder may be left
among the characters. Substitution asks for the placeholders of this spelling, in order and each
once, and for nothing else; those for which it is given a text are replaced by it, and all other
pieces are copied. It makes no difference whether the look-up has effects: it may count, fail or
answer a second request for a name in another way.

## Main definitions

* `Template.Plain` — a text in which no placeholder stands
* `Template.Spells` — pieces that spell a text
* `Template.noting` — a look-up that notes what it is asked

## Main results

* `Template.Spells.pieces_eq`, `Template.spells_pieces` — a text is spelt by its pieces alone
* `Template.run_substituteM_noting` — substitution asks for the placeholders of a template
* `Template.substitution_exactly` — all about substitution
-/

namespace ShaderGraph.Template

universe v

/-- Nowhere in a text does a placeholder stand. -/
def Plain (cs : List Char) : Prop :=
  ∀ before name after, IsName name → cs ≠ before ++ openBrace :: (name ++ closeBrace :: after)

/-- Pieces spell a text if their texts together are the text, the placeholders have names, and no
placeholder is left in a run of ordinary characters. -/
structure Spells (ps : List Piece) (cs : List Char) : Prop where
  text : ps.flatMap Piece.text = cs
  isName : ∀ name, .placeholder name ∈ ps → IsName name
  plain : ∀ run, run.map Piece.char <:+: ps → Plain run

/-- A look-up that notes what it is asked. -/
def noting {m : Type → Type v} [Monad m] (lookup : String → m (Option String)) (name : String) :
    StateT (List String) m (Option String) := do
  modify (· ++ [name])
  lookup name

variable {ps before after : List Piece} {p : Piece} {c : Char} {cs xs name rest : List Char}

/-! ### The spelling of a text -/

theorem pieces_placeholder (h : name? cs = some (name, rest)) :
    pieces (openBrace :: cs) = .placeholder name :: pieces rest := by
  rw [pieces, if_pos rfl, h]

theorem pieces_char (h : c = openBrace → name? cs = none) :
    pieces (c :: cs) = .char c :: pieces cs := by
  rw [pieces]
  split
  · rename_i hc
    rw [h hc]
  · rfl

/-- Characters other than the opening brace are ordinary wherever they come first. -/
theorem exists_chars (hxs : ∀ c ∈ xs, c ≠ openBrace) (h : ps.flatMap Piece.text = xs ++ rest) :
    ∃ qs, ps = xs.map Piece.char ++ qs := by
  induction xs generalizing ps with
  | nil => exact ⟨ps, rfl⟩
  | cons x xs ih =>
    rw [List.forall_mem_cons] at hxs
    match ps with
    | [] => cases h
    | .char c :: ps =>
      obtain ⟨rfl, hrest⟩ : c = x ∧ ps.flatMap Piece.text = xs ++ rest := List.cons.inj h
      obtain ⟨qs, rfl⟩ := ih hxs.2 hrest
      exact ⟨qs, rfl⟩
    | .placeholder name :: ps => exact absurd (List.cons.inj h).1.symm hxs.1

theorem text_chars : (xs.map Piece.char).flatMap Piece.text = xs := by
  rw [List.flatMap_map]
  exact List.flatMap_singleton' xs

theorem Spells.tail (h : Spells (p :: ps) cs) : Spells ps (ps.flatMap Piece.text) where
  text := rfl
  isName name hname := h.isName name (List.mem_cons_of_mem p hname)
  plain run hrun := h.plain run (hrun.trans (List.suffix_cons p ps).isInfix)

/-- No other pieces spell a text. -/
theorem Spells.pieces_eq (h : Spells ps cs) : pieces cs = ps := by
  induction ps generalizing cs with
  | nil =>
    rw [← h.text]
    exact pieces.eq_1
  | cons p ps ih =>
    have htail := ih h.tail
    rw [← h.text, List.flatMap_cons]
    cases p with
    | char c =>
      rw [Piece.text, List.singleton_append, pieces_char, htail]
      -- A name behind the brace would stand in a run of ordinary characters.
      rintro rfl
      rw [Option.eq_none_iff_forall_ne_some]
      rintro ⟨name, rest⟩ hsome
      obtain ⟨htext, hname⟩ := name?_eq_some_iff.mp hsome
      rw [← List.singleton_append (l := rest), ← List.append_assoc] at htext
      obtain ⟨qs, rfl⟩ := exists_chars hname.ne_openBrace htext
      refine h.plain (openBrace :: (name ++ [closeBrace])) ?_ [] name [] hname rfl
      exact (List.prefix_append (.char openBrace :: (name ++ [closeBrace]).map .char) qs).isInfix
    | placeholder name =>
      have hname := h.isName name List.mem_cons_self
      rw [Piece.text, List.cons_append, List.append_assoc, List.singleton_append,
        pieces_placeholder (name?_append hname), htail]

theorem isName_of_mem_pieces (h : .placeholder name ∈ pieces cs) : IsName name := by
  fun_induction pieces cs with
  | case1 => cases h
  | case2 cs name' rest hname ih =>
    rcases List.mem_cons.mp h with h | h
    · cases h
      exact isName_of_name?_eq_some hname
    · exact ih h
  | case3 cs hname ih => exact ih (List.mem_of_ne_of_mem Piece.noConfusion h)
  | case4 c cs hc ih => exact ih (List.mem_of_ne_of_mem Piece.noConfusion h)

/-- Behind an opening brace that is an ordinary character no placeholder is completed. -/
theorem exists_of_pieces_eq (h : pieces cs = before ++ .char openBrace :: after) :
    ∃ rest, name? rest = none ∧ pieces rest = after := by
  fun_induction pieces cs generalizing before with
  | case1 => exact absurd h.symm (List.append_ne_nil_of_right_ne_nil _ (List.cons_ne_nil _ _))
  | case2 cs name rest hname ih =>
    cases before with
    | nil => cases h
    | cons q before => exact ih (List.cons.inj h).2
  | case3 cs hname ih =>
    cases before with
    | nil => exact ⟨cs, hname, (List.cons.inj h).2⟩
    | cons q before => exact ih (List.cons.inj h).2
  | case4 c cs hc ih =>
    cases before with
    | nil => exact absurd (Piece.char.inj (List.cons.inj h).1) hc
    | cons q before => exact ih (List.cons.inj h).2

theorem spells_pieces (cs : List Char) : Spells (pieces cs) cs where
  text := text_pieces cs
  isName _ := isName_of_mem_pieces
  plain := by
    rintro run ⟨before, after, hpieces⟩ front name back hname rfl
    rw [List.map_append, List.map_cons, ← List.append_assoc, List.append_assoc,
      List.cons_append] at hpieces
    obtain ⟨rest, hnone, hrest⟩ := exists_of_pieces_eq hpieces.symm
    have htext := text_pieces rest
    rw [hrest, List.flatMap_append, text_chars, List.append_assoc, List.cons_append] at htext
    rw [← htext, name?_append hname] at hnone
    cases hnone

/-! ### What is asked -/

section Effects

variable {m : Type → Type v} [Monad m] [LawfulMonad m] {lookup : String → m (Option String)}
  {log : List String}

theorem run_noting {name : String} : (noting lookup name).run log =
    (fun answer => (answer, log ++ [name])) <$> lookup name := by
  simp [noting]

theorem run_replaceM_noting : (p.replaceM (noting lookup)).run log =
    (fun text => (text, log ++ p.name?.toList)) <$> p.replaceM lookup := by
  cases p with
  | char c => simp [Piece.replaceM, Piece.name?]
  | placeholder name =>
    rw [Piece.replaceM, Piece.replaceM, StateT.run_bind, run_noting, bind_map_left, map_bind]
    refine bind_congr fun answer => ?_
    cases answer <;> simp [Piece.name?]

theorem run_mapM_noting : (ps.mapM (Piece.replaceM (noting lookup))).run log =
    (fun texts => (texts, log ++ ps.filterMap Piece.name?)) <$>
      ps.mapM (Piece.replaceM lookup) := by
  induction ps generalizing log with
  | nil => simp
  | cons p ps ih =>
    have hnames : (p :: ps).filterMap Piece.name? =
        p.name?.toList ++ ps.filterMap Piece.name? := by cases p <;> rfl
    simp [List.mapM_cons, run_replaceM_noting, ih, hnames]

/-- Substitution asks for the placeholders of a template, in order and each once. -/
theorem run_substituteM_noting {template : String} :
    (substituteM template (noting lookup)).run log =
      (fun s => (s, log ++ placeholders template)) <$> substituteM template lookup := by
  rw [substituteM_eq_pieces, substituteM_eq_pieces, StateT.run_map, run_mapM_noting,
    placeholders_eq_pieces, Functor.map_map, Functor.map_map]

end Effects

/-- Without any text for a placeholder the template remains. -/
theorem substitute_none (template : String) : substitute template (fun _ => none) = template := by
  have h : Piece.replace (fun _ => none) = Piece.text := by
    funext p
    cases p <;> rfl
  rw [substitute_eq_pieces, h, text_pieces, String.ofList_toList]

/-- A template is spelt in one way by ordinary characters and placeholders. The placeholders that it
is said to have are those of this spelling. Whatever effects a look-up has, substitution copies the
ordinary characters and puts what the look-up gives for a placeholder in its place, or else the
placeholder itself, and the look-up is asked for the placeholders, in order and each once. A look-up
that gives nothing leaves the template. -/
theorem substitution_exactly (template : String) :
    ∃ ps, Spells ps template.toList ∧ (∀ qs, Spells qs template.toList → qs = ps) ∧
      placeholders template = ps.filterMap Piece.name? ∧
      (∀ {m : Type → Type v} [Monad m] [LawfulMonad m] (lookup : String → m (Option String)),
        substituteM template lookup =
            (fun texts => String.ofList texts.flatten) <$> ps.mapM (Piece.replaceM lookup) ∧
          ∀ log, (substituteM template (noting lookup)).run log =
            (fun s => (s, log ++ placeholders template)) <$> substituteM template lookup) ∧
      (∀ lookup, substitute template lookup =
        String.ofList (ps.flatMap (Piece.replace lookup))) ∧
      substitute template (fun _ => none) = template :=
  ⟨pieces template.toList, spells_pieces _, fun _ hqs => hqs.pieces_eq.symm, placeholders_eq_pieces,
    fun _ => ⟨substituteM_eq_pieces, fun _ => run_substituteM_noting⟩,
    fun _ => substitute_eq_pieces, substitute_none template⟩

end ShaderGraph.Template
