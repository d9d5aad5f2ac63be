import Mathlib.Data.List.Basic
import ShaderGraph.Proofs.Number.Notation
import ShaderGraph.Proofs.Ron.Printer
import ShaderGraph.Ron.Bracket

/-!
# RON: blanks and names between values

What the printer puts between values is passed over by the reader, and nothing else is: blanks end
at a character that opens a value, a name ends at a bracket or another mark, and the items of a list
that stand one a line are read one by one.

## Main definitions

* `Ron.isOpening` — the characters that a value may begin with
* `Ron.isMark` — the marks that end a name
* `Ron.isPlainName` — the names that are written as they are
* `Ron.Opens` — a text that begins like a value

## Main results

* `Ron.skipBlank_indentation` — the blanks in front of a line are passed over
* `Ron.name?_append` — a name in front of a mark is read back
* `Ron.items?_lines`, `Ron.items?_block` — items one a line are read back if each of them is
-/

namespace ShaderGraph.Ron

/-- Whether a character may begin a value: it is neither blank, nor does it begin a comment or the
attributes of a text, separate values or close brackets. -/
def isOpening (c : Char) : Bool :=
  !isSeparator c && !(['/', '#', ',', ')', ']', '\x7d'].contains c)

/-- Whether a character is one of the marks that end a name. -/
def isMark (c : Char) : Bool := ['(', ')', ':', ','].contains c

/-- Whether a name is written as it is: it begins like a value and goes on like an identifier. -/
def isPlainName (name : String) : Bool :=
  name.toList.head?.any (fun c => isOpening c && Text.isIdentifierStart c) &&
    name.toList.all Text.isIdentifierPart

/-- A text that begins like a value. -/
def Opens (cs : List Char) : Prop := ∃ c rest, cs = c :: rest ∧ isOpening c = true

variable {α β : Type} {c close : Char} {cs cs' rest : List Char} {name word : String}
  {level fuel : Nat} {ready : Bool} {state : BlankState}
  {item : List Char → Option (α × List Char)}

/-! ### Blanks -/

theorem skipBlank_cons (h : c ≠ '/') :
    skipBlank (c :: cs) = if isSeparator c then skipBlank cs else some (c :: cs) := by
  rw [skipBlank, skipBlankFrom, if_neg h]
  · rfl
  · exact fun _ hc => absurd hc h
  · exact fun _ hc => absurd hc h

theorem skipBlank_newline : skipBlank ('\n' :: cs) = skipBlank cs := by
  rw [skipBlank_cons (by decide), if_pos (by decide)]

theorem skipBlank_space : skipBlank (' ' :: cs) = skipBlank cs := by
  rw [skipBlank_cons (by decide), if_pos (by decide)]

theorem skipBlank_nil : skipBlank [] = some [] := rfl

/-- The blanks in front of a line are passed over. -/
theorem skipBlank_indentation : skipBlank (indentation level ++ cs) = skipBlank cs := by
  rw [indentation]
  induction 4 * level with
  | zero => rfl
  | succ k ih =>
    rw [List.replicate_succ, List.cons_append, skipBlank_space, ih]

theorem skipBlank_of_skipBlankFrom (h : skipBlankFrom state cs = some cs') :
    skipBlank cs' = some cs' := by
  fun_induction skipBlankFrom state cs
  case case6 c cs _ _ hslash hsep =>
    obtain rfl := Option.some_inj.mp h
    rw [skipBlank_cons hslash, if_neg hsep]
  all_goals simp_all [skipBlank_nil]

/-- What follows blanks does not begin with blanks. -/
theorem skipBlank_idem (h : skipBlank cs = some cs') : skipBlank cs' = some cs' :=
  skipBlank_of_skipBlankFrom h

theorem Opens.append (h : Opens cs) (rest : List Char) : Opens (cs ++ rest) := by
  obtain ⟨c, cs, rfl, hc⟩ := h
  exact ⟨c, cs ++ rest, rfl, hc⟩

theorem ne_of_isOpening {mark : Char} (h : isOpening c = true)
    (hmark : isOpening mark = false) : c ≠ mark := by
  rintro rfl
  rw [h] at hmark
  cases hmark

/-- Blanks end where a value begins. -/
theorem Opens.skipBlank (h : Opens cs) : skipBlank cs = some cs := by
  obtain ⟨c, cs, rfl, hc⟩ := h
  have hsep : ¬isSeparator c = true := by
    intro hsep
    rw [isOpening, hsep] at hc
    cases hc
  rw [skipBlank_cons (ne_of_isOpening hc (by decide)), if_neg hsep]

theorem Opens.expect (h : Opens cs) (hclose : isOpening close = false) :
    expect close cs = none := by
  obtain ⟨c, cs, rfl, hc⟩ := h
  exact if_neg (ne_of_isOpening hc hclose).symm

theorem isOpening_close (hclose : close ∈ [')', ']', '\x7d']) : isOpening close = false := by
  simp only [List.mem_cons, List.not_mem_nil, or_false] at hclose
  rcases hclose with rfl | rfl | rfl <;> decide

/-- A mark that closes brackets is not passed over. -/
theorem skipBlank_close (hclose : close ∈ [')', ']', '\x7d']) :
    Ron.skipBlank (close :: rest) = some (close :: rest) := by
  have hmark : close ≠ '/' ∧ ¬isSeparator close = true := by
    simp only [List.mem_cons, List.not_mem_nil, or_false] at hclose
    rcases hclose with rfl | rfl | rfl <;> decide
  rw [skipBlank_cons hmark.1, if_neg hmark.2]

/-! ### Commas -/

theorem comma_comma : comma (',' :: cs) = (Ron.skipBlank cs).map (true, ·) := by
  have hcomma : Ron.skipBlank (',' :: cs) = some (',' :: cs) := by
    rw [skipBlank_cons (by decide), if_neg (by decide)]
  simp only [comma, hcomma, Option.bind_eq_bind, Option.bind_some]
  cases Ron.skipBlank cs <;> rfl

theorem comma_close : comma (')' :: cs) = some (false, ')' :: cs) := by
  rw [comma, skipBlank_close (by decide)]
  rfl

/-! ### Items -/

/-- A reader of items passes over blanks first. -/
theorem itemsFrom?_congr (h : Ron.skipBlank cs = Ron.skipBlank cs') :
    itemsFrom? item close fuel ready cs = itemsFrom? item close fuel ready cs' := by
  cases fuel with
  | zero => rfl
  | succ fuel => rw [itemsFrom?, itemsFrom?, h]

theorem exists_skipBlank_of_itemsFrom? {r : List α × List Char}
    (h : itemsFrom? item close fuel ready cs = some r) :
    ∃ cs', Ron.skipBlank cs = some cs' := by
  cases fuel with
  | zero => cases h
  | succ fuel =>
    rw [itemsFrom?] at h
    cases hblank : Ron.skipBlank cs with
    | some cs' => exact ⟨cs', rfl⟩
    | none =>
      rw [hblank] at h
      cases h

/-- Items one a line are read back if each of them is, as many of them as there is fuel. -/
theorem itemsFrom?_lines {write : β → List Char} {value : β → α} {bs : List β} {level' : Nat}
    (hitem : ∀ b ∈ bs, Opens (write b) ∧
      ∀ rest, item (write b ++ ',' :: rest) = some (value b, ',' :: rest))
    (hclose : close ∈ [')', ']', '\x7d']) (hfuel : bs.length < fuel) :
    itemsFrom? item close fuel true
      (lines level write bs ++ (indentation level' ++ close :: rest)) =
        some (bs.map value, rest) := by
  induction bs generalizing fuel with
  | nil =>
    obtain ⟨fuel, rfl⟩ := Nat.exists_eq_add_one_of_ne_zero (Nat.ne_of_gt hfuel)
    rw [lines, List.flatMap_nil, List.nil_append, itemsFrom?, skipBlank_indentation,
      skipBlank_close hclose]
    simp [Ron.expect]
  | cons b bs ih =>
    obtain ⟨fuel, rfl⟩ := Nat.exists_eq_add_one_of_ne_zero (Nat.ne_zero_of_lt hfuel)
    obtain ⟨hopens, hread⟩ := hitem b List.mem_cons_self
    have hlast : itemsFrom? item close fuel true
        (lines level write bs ++ (indentation level' ++ close :: rest)) =
          some (bs.map value, rest) := by
      refine ih (fun b hb => hitem b (List.mem_cons_of_mem _ hb)) ?_
      rwa [List.length_cons, Nat.add_lt_add_iff_right] at hfuel
    generalize hrest : lines level write bs ++ (indentation level' ++ close :: rest) = tail at hlast
    have hline : lines level write (b :: bs) ++ (indentation level' ++ close :: rest) =
        indentation level ++ (write b ++ ',' :: '\n' :: tail) := by
      rw [← hrest, lines_cons]
      simp only [List.append_assoc, List.cons_append]
    -- The blanks between two items are passed over behind the comma, and not a second time.
    obtain ⟨tail', htail⟩ := exists_skipBlank_of_itemsFrom? hlast
    have hnext : itemsFrom? item close fuel true tail' = itemsFrom? item close fuel true tail :=
      itemsFrom?_congr ((skipBlank_idem htail).trans htail.symm)
    have hcomma : comma (',' :: '\n' :: tail) = some (true, tail') := by
      rw [comma_comma, skipBlank_newline, htail, Option.map_some]
    rw [hline, itemsFrom?, skipBlank_indentation, (hopens.append _).skipBlank]
    simp only [Option.bind_eq_bind, Option.bind_some, if_true, hread, hcomma, hnext, hlast,
      (hopens.append _).expect (isOpening_close hclose)]
    rfl

/-- Items one a line are read back if each of them is. -/
theorem items?_lines {write : β → List Char} {value : β → α} {bs : List β} {level' : Nat}
    (hitem : ∀ b ∈ bs, Opens (write b) ∧
      ∀ rest, item (write b ++ ',' :: rest) = some (value b, ',' :: rest))
    (hclose : close ∈ [')', ']', '\x7d']) :
    items? item close ('\n' :: (lines level write bs ++ (indentation level' ++ close :: rest))) =
      some (bs.map value, rest) := by
  have hlength := length_le_length_lines level write bs
  rw [items?, itemsFrom?_congr skipBlank_newline]
  refine itemsFrom?_lines hitem hclose ?_
  rw [List.length_cons, List.length_append]
  omega

theorem items?_nil (hclose : close ∈ [')', ']', '\x7d']) :
    items? item close (close :: rest) = some ([], rest) := by
  rw [items?, itemsFrom?, skipBlank_close hclose]
  simp [Ron.expect]

/-- What a list or a map holds is read back if each item is. -/
theorem items?_block {write : β → List Char} {value : β → α} {bs : List β}
    (hitem : ∀ b ∈ bs, Opens (write b) ∧
      ∀ rest, item (write b ++ ',' :: rest) = some (value b, ',' :: rest))
    (hclose : close ∈ [')', ']', '\x7d']) :
    items? item close (block level write bs ++ close :: rest) = some (bs.map value, rest) := by
  rw [block]
  split
  case isTrue hempty =>
    rw [List.isEmpty_iff.mp hempty]
    exact items?_nil hclose
  case isFalse =>
    rw [List.cons_append, List.append_assoc]
    exact items?_lines hitem hclose

/-- A single item in front of a closing parenthesis is read back. -/
theorem single?_close {a : α} (hopens : Opens cs)
    (hread : item (cs ++ ')' :: rest) = some (a, ')' :: rest)) :
    single? item (cs ++ ')' :: rest) = some (a, rest) := by
  rw [single?, (hopens.append _).skipBlank]
  simp [hread, comma_close, Ron.expect]

theorem colon?_colon (hopens : Opens cs) : colon? (':' :: ' ' :: cs) = some cs := by
  rw [colon?, skipBlank_cons (by decide), if_neg (by decide)]
  simp only [Option.bind_eq_bind, Option.bind_some, Ron.expect, if_true]
  rw [skipBlank_space, hopens.skipBlank]

/-! ### Names -/

theorem isIdentifierPart_of_isMark (h : isMark c = true) : Text.isIdentifierPart c = false := by
  rw [isMark, List.contains_iff_mem] at h
  simp only [List.mem_cons, List.not_mem_nil, or_false] at h
  rcases h with rfl | rfl | rfl | rfl <;> decide

/-- What looks like the beginning of bytes or of raw text is no name in front of a mark. -/
theorem not_quotedOpening (hname : ∀ c ∈ cs, Text.isIdentifierPart c = true)
    (hrest : ∀ c ∈ rest.head?, isMark c = true) :
    quotedOpenings.any (·.isPrefixOf (cs ++ rest)) = false := by
  have hopenings : (quotedOpenings.all fun o =>
      (o.dropWhile Text.isIdentifierPart).head?.any fun c => !isMark c) = true := by decide
  have hrun := (run_append hname fun c hc => isIdentifierPart_of_isMark (hrest c hc)).2
  rw [List.any_eq_false]
  intro o ho hp
  obtain ⟨c, hc, hmark⟩ := (Option.any_eq_true _ _).mp (List.all_eq_true.mp hopenings o ho)
  obtain ⟨tail, htail⟩ := List.isPrefixOf_iff_prefix.mp hp
  -- The first character that is not of an identifier is the same in the opening and the text.
  have hnonempty : ¬(o.dropWhile Text.isIdentifierPart).isEmpty = true := by
    intro hempty
    rw [List.isEmpty_iff.mp hempty] at hc
    cases hc
  rw [← htail, List.dropWhile_append, if_neg hnonempty] at hrun
  have hhead : c ∈ rest.head? := by
    rw [← hrun, List.head?_append_of_ne_nil _ fun hnil => hnonempty (List.isEmpty_iff.mpr hnil)]
    exact hc
  rw [hrest c hhead] at hmark
  cases hmark

theorem exists_cons_of_isPlainName (h : isPlainName name = true) :
    ∃ c cs, name.toList = c :: cs ∧ isOpening c = true ∧ Text.isIdentifierStart c = true ∧
      ∀ d ∈ c :: cs, Text.isIdentifierPart d = true := by
  rw [isPlainName, Bool.and_eq_true, List.all_eq_true, Option.any_eq_true] at h
  obtain ⟨⟨c, hc, hstart⟩, hpart⟩ := h
  obtain ⟨cs, hcs⟩ := List.head?_eq_some_iff.mp hc
  rw [Bool.and_eq_true] at hstart
  rw [hcs] at hpart
  exact ⟨c, cs, hcs, hstart.1, hstart.2, hpart⟩

theorem opens_of_isPlainName (h : isPlainName name = true) : Opens (name.toList ++ rest) := by
  obtain ⟨c, cs, hcs, hopening, -, -⟩ := exists_cons_of_isPlainName h
  exact ⟨c, cs ++ rest, by rw [hcs, List.cons_append], hopening⟩

/-- A name in front of a mark is read back. -/
theorem name?_append (hname : isPlainName name = true)
    (hrest : ∀ c ∈ rest.head?, isMark c = true) :
    name? (name.toList ++ rest) = some (⟨false, name⟩, rest) := by
  obtain ⟨c, cs, hcs, -, hstart, hpart⟩ := exists_cons_of_isPlainName hname
  have hrun := run_append (fun d hd => hpart d (List.mem_cons_of_mem c hd)) fun c hc =>
    isIdentifierPart_of_isMark (hrest c hc)
  rw [hcs, name?.eq_def, not_quotedOpening hpart hrest, if_neg Bool.false_ne_true, List.cons_append]
  split
  case h_1 cs' heq =>
    -- A number sign would have to stand in the name or right behind it.
    obtain ⟨rfl, htail⟩ := List.cons.inj heq
    rw [htail, List.dropWhile_cons_of_neg (by decide)] at hrun
    exact absurd (hrest '#' (by rw [← hrun.2]; rfl)) (by decide)
  case h_2 c' cs' _ heq =>
    obtain ⟨rfl, rfl⟩ := List.cons.inj heq
    rw [if_pos hstart, hrun.1, hrun.2, ← hcs, String.ofList_toList]
  case h_3 heq => cases heq

/-- A word is read if it comes next. -/
theorem word?_append (hname : isPlainName name = true)
    (hrest : ∀ c ∈ rest.head?, isMark c = true) :
    word? word (name.toList ++ rest) = if name = word then some rest else none := by
  rw [word?, name?_append hname hrest]
  simp only [Name.isWord, Bool.not_false, Bool.true_and, beq_iff_eq]

end ShaderGraph.Ron
