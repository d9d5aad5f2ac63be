import Mathlib.Data.List.Basic
import ShaderGraph.Proofs.Ron.Numeral
import ShaderGraph.Proofs.Ron.Quoted
import ShaderGraph.Proofs.Ron.Scan
import ShaderGraph.Ron.Reader

/-!
# RON: shapes read back what is written

A shape reads a value back if it takes exactly the written form of the value off a text, whatever
follows it, in a text that has claimed no liberties. Every way to put shapes together preserves
this, so that what a shape is put together from decides which values it reads back.

## Main definitions

* `Ron.Ends` — what may follow a value
* `Ron.Shape.Reads` — a shape reads a value back

## Main results

* `Shape.Reads.list`, `Shape.Reads.map`, `Shape.Reads.record` — several values are read back if each
  of them is
* `Shape.Reads.present`, `Shape.Reads.wrapper`, `Shape.Reads.variants` — so are values behind a name
* `Shape.Reads.ofText?_toText` — the text of a value that is read back holds this value
-/

namespace ShaderGraph.Ron

/-- What may follow a value: nothing, a comma or a closing parenthesis. -/
def Ends (rest : List Char) : Prop := ∀ c ∈ rest.head?, c = ',' ∨ c = ')'

/-- The circumstances in a text that has claimed no liberties. -/
def Context.plain (depth : Nat) : Context := ⟨.none, depth, false⟩

@[simp] theorem Context.extensions_plain {depth : Nat} : (plain depth).extensions = .none := rfl

@[simp] theorem Context.bare_plain {depth : Nat} : (plain depth).bare = false := rfl

@[simp] theorem Context.alone_plain {depth : Nat} : (plain depth).alone = plain (depth - 1) := rfl

@[simp] theorem Context.inWrapper_plain {depth : Nat} :
    (plain depth).inWrapper = plain (depth - 1) := rfl

@[simp] theorem Context.inBrackets_plain {depth : Nat} :
    (plain depth).inBrackets = plain (depth - 2) := rfl

/-- A shape reads a value back: the written form begins like a value, and the shape takes it off
whatever may follow. -/
structure Shape.Reads (s : Shape) (v : Ron) : Prop where
  opens : ∀ level, Opens (write level v)
  read : ∀ depth level rest, Ends rest →
    s (.plain depth) (write level v ++ rest) = some (v, rest)

variable {s : Shape} {v : Ron} {name : String} {rest cs : List Char} {c : Char} {level depth : Nat}
  {shapes : List (String × Shape)}

theorem ends_nil : Ends [] := fun _ hc => by cases hc

theorem ends_comma : Ends (',' :: rest) := fun _ hc => by
  cases hc
  exact Or.inl rfl

theorem ends_close : Ends (')' :: rest) := fun _ hc => by
  cases hc
  exact Or.inr rfl

theorem Ends.isMark (h : Ends rest) : ∀ c ∈ rest.head?, isMark c = true := by
  intro c hc
  rcases h c hc with rfl | rfl <;> decide

theorem Ends.isNumberChar (h : Ends rest) : ∀ c ∈ rest.head?, isNumberChar c = false := by
  intro c hc
  rcases h c hc with rfl | rfl <;> decide

/-! ### Values without parts -/

theorem toNat_lt_of_isNumberChar (h : isNumberChar c = true) : c.toNat < 128 := by
  -- Letters and digits come in ranges, each of which ends with a character of ASCII.
  have hrange (last : Char) (hlast : last.toNat < 128) (hle : c.val ≤ last.val) : c.toNat < 128 :=
    Nat.lt_of_le_of_lt (UInt32.le_iff_toNat_le.mp hle) hlast
  delta isNumberChar Char.isAlphanum Char.isAlpha Char.isUpper Char.isLower Char.isDigit at h
  simp only [Bool.or_eq_true, Bool.and_eq_true, decide_eq_true_eq, beq_iff_eq] at h
  rcases h with (((((h | h) | h) | rfl) | rfl) | rfl) | rfl
  · exact hrange 'Z' (by decide) h.2
  · exact hrange 'z' (by decide) h.2
  · exact hrange '9' (by decide) h.2
  all_goals decide

/-- A character that a number is spelt with begins a value, as the characters of ASCII show. -/
theorem isOpening_of_isNumberChar (h : isNumberChar c = true) : isOpening c = true := by
  have hall : ∀ n < 128, isNumberChar (Char.ofNat n) = true → isOpening (Char.ofNat n) = true := by
    decide
  rw [← Char.ofNat_toNat c] at h ⊢
  exact hall c.toNat (toNat_lt_of_isNumberChar (Char.ofNat_toNat c ▸ h)) h

theorem IsSpelling.opens (h : IsSpelling cs) : Opens cs := by
  obtain ⟨c, cs, rfl⟩ := List.exists_cons_of_ne_nil h.ne_nil
  exact ⟨c, cs, rfl, isOpening_of_isNumberChar (h.isNumberChar c List.mem_cons_self)⟩

theorem IsSpelling.numberRun (h : IsSpelling cs) (hrest : Ends rest) :
    numberRun (cs ++ rest) = (cs, rest) :=
  Prod.ext (run_append h.isNumberChar hrest.isNumberChar).1
    (run_append h.isNumberChar hrest.isNumberChar).2

namespace Shape

theorem Reads.number (h : IsSpelling cs) : Shape.number.Reads (.number cs) where
  opens level := h.opens
  read depth level rest hrest := by
    rw [write_number, Shape.number, h.numberRun hrest]

theorem Reads.bool {b : Bool} : Shape.bool.Reads (.bool b) where
  opens level := by
    rw [write_bool]
    cases b
    · exact ⟨'f', _, rfl, by decide⟩
    · exact ⟨'t', _, rfl, by decide⟩
  read depth level rest hrest := by
    have hfalse := name?_append (show isPlainName "false" = true by decide) hrest.isMark
    have htrue := name?_append (show isPlainName "true" = true by decide) hrest.isMark
    rw [write_bool, Shape.bool]
    cases b
    · rw [if_neg Bool.false_ne_true, hfalse]
      rfl
    · rw [if_pos rfl, htrue]
      rfl

theorem Reads.names {expected : List String} (hname : isPlainName name = true)
    (hexpected : name ∈ expected) : (Shape.names expected).Reads (.unit name) where
  opens level := by
    rw [write_unit, ← List.append_nil name.toList]
    exact opens_of_isPlainName hname
  read depth level rest hrest := by
    rw [write_unit, Shape.names, name?_append hname hrest.isMark]
    simp only [Option.bind_eq_bind, Option.bind_some]
    exact if_pos (List.contains_iff_mem.mpr hexpected)

theorem opens_writeText {t : String} : Opens (writeText t) := by
  rw [writeText_eq]
  exact ⟨'"', _, rfl, by decide⟩

theorem text_writeText {context : Context} {t : String} :
    Shape.text context (writeText t ++ rest) = some (.text t, rest) := by
  rw [writeText_eq, List.cons_append, List.append_assoc, List.singleton_append, Shape.text,
    quoted?_flatMap, Option.map_some]
  dsimp only
  rw [String.ofList_toList]

theorem Reads.text {t : String} : Shape.text.Reads (.text t) where
  opens _ := opens_writeText
  read _ _ _ _ := text_writeText

/-! ### Single values behind a name -/

theorem Reads.absent : (Shape.option s).Reads .absent where
  opens level := by
    rw [write_absent, ← List.append_nil "None".toList]
    exact opens_of_isPlainName (by decide)
  read depth level rest hrest := by
    rw [write_absent, Shape.option, word?_append (by decide) hrest.isMark, if_pos rfl]

theorem isMark_open : ∀ c ∈ ('(' :: rest).head?, isMark c = true := by
  intro c hc
  cases hc
  decide

theorem skipBlank_open : skipBlank ('(' :: rest) = some ('(' :: rest) :=
  Opens.skipBlank ⟨'(', rest, rfl, by decide⟩

/-- A value in parentheses is read back. -/
theorem Reads.single? (h : s.Reads v) (depth level : Nat) (rest : List Char) :
    Ron.single? (s (.plain depth)) (write level v ++ ')' :: rest) = some (v, rest) :=
  single?_close (h.opens level) (h.read depth level _ ends_close)

theorem Reads.present (h : s.Reads v) : (Shape.option s).Reads (.present v) where
  opens level := by
    rw [write_present]
    exact opens_of_isPlainName (by decide)
  read depth level rest _ := by
    rw [write_present, List.append_assoc, List.cons_append, List.append_assoc,
      List.singleton_append, Shape.option, word?_append (by decide) isMark_open,
      if_neg (by decide), word?_append (by decide) isMark_open, if_pos rfl]
    simp only [Option.bind_eq_bind, Option.bind_some, skipBlank_open, Ron.expect, if_true]
    have hread := h.single? (depth - 1) level rest
    rw [Context.alone_plain, hread, Option.map_some]

theorem opening?_append (hname : isPlainName name = true) :
    opening? .none name (name.toList ++ '(' :: rest) = some rest := by
  rw [opening?, recordName?, name?_append hname isMark_open]
  simp only [if_true, Option.bind_eq_bind, Option.bind_some, skipBlank_open, Ron.expect]

theorem Reads.wrapper (hname : isPlainName name = true) (h : s.Reads v) :
    (Shape.wrapper name s).Reads (.wrapped name v) where
  opens level := by
    rw [write_wrapped]
    exact opens_of_isPlainName hname
  read depth level rest _ := by
    have hread := h.single? (depth - 1) level rest
    rw [write_wrapped_append, Shape.wrapper, if_neg (by simp [Extensions.none]),
      Context.extensions_plain, opening?_append hname, Context.inWrapper_plain]
    simp only [Option.bind_eq_bind, Option.bind_some, hread, Option.map_some]

theorem Reads.variants (hname : isPlainName name = true) (hs : shapes.lookup name = some s)
    (h : s.Reads v) : (Shape.variants shapes).Reads (.wrapped name v) where
  opens level := by
    rw [write_wrapped]
    exact opens_of_isPlainName hname
  read depth level rest _ := by
    have hread := h.single? (depth - 1) level rest
    rw [write_wrapped_append, Shape.variants, name?_append hname isMark_open]
    simp only [Option.bind_eq_bind, Option.bind_some, hs, skipBlank_open, Ron.expect, if_true]
    rw [Context.alone_plain, hread, Option.map_some]

/-! ### Several values -/

theorem writeTuple_cons_cons {v w : Ron} {vs : List Ron} : writeTuple level (v :: w :: vs) =
    write level v ++ ',' :: ' ' :: writeTuple level (w :: vs) := rfl

theorem opens_writeTuple {cs : List Char} (h : IsSpelling cs) (level : Nat)
    (spellings : List (List Char)) :
    Opens (writeTuple level ((cs :: spellings).map .number)) := by
  cases spellings with
  | nil => exact h.opens
  | cons cs' spellings =>
    rw [List.map_cons, List.map_cons, writeTuple_cons_cons]
    exact h.opens.append _

/-- As many numbers as are asked for are read up to a closing parenthesis. -/
theorem numbersFrom?_writeTuple {spellings : List (List Char)}
    (h : ∀ cs ∈ spellings, IsSpelling cs) :
    numbersFrom? spellings.length true
        (writeTuple level (spellings.map .number) ++ ')' :: rest) =
      some (spellings.map .number, ')' :: rest) := by
  induction spellings with
  | nil => rfl
  | cons cs spellings ih =>
    have hcs := h cs List.mem_cons_self
    have hopens := (opens_writeTuple hcs level spellings).append (')' :: rest)
    rw [List.length_cons, numbersFrom?, if_pos rfl, hopens.skipBlank]
    -- A comma follows every number but the last, behind which the parenthesis is closed.
    cases spellings with
    | nil =>
      have hwrite {v} : writeTuple level [v] = write level v := rfl
      rw [List.map_singleton, hwrite, write_number]
      simp only [Option.bind_eq_bind, Option.bind_some, hcs.numberRun ends_close, comma_close]
      rfl
    | cons cs' spellings =>
      have hcs' := h cs' (List.mem_cons_of_mem _ List.mem_cons_self)
      have hopens' := (opens_writeTuple hcs' level spellings).append (')' :: rest)
      have hrest := ih fun cs hcs => h cs (List.mem_cons_of_mem _ hcs)
      rw [List.map_cons] at hopens' hrest
      rw [List.map_cons, List.map_cons, writeTuple_cons_cons, write_number, List.append_assoc]
      simp only [Option.bind_eq_bind, Option.bind_some, List.cons_append, hcs.numberRun ends_comma,
        comma_comma]
      rw [skipBlank_space, hopens'.skipBlank, Option.map_some, Option.bind_some, hrest]
      rfl

theorem Reads.numbers {spellings : List (List Char)} (h : ∀ cs ∈ spellings, IsSpelling cs) :
    (Shape.numbers spellings.length).Reads (.tuple (spellings.map .number)) where
  opens level := by
    rw [write_tuple]
    exact ⟨'(', _, rfl, by decide⟩
  read depth level rest _ := by
    rw [write_tuple, List.cons_append, List.append_assoc, List.singleton_append, Shape.numbers,
      if_neg (by simp)]
    simp only [Ron.expect, if_true, Option.bind_eq_bind, Option.bind_some,
      numbersFrom?_writeTuple h, skipBlank_close List.mem_cons_self]
    rfl

theorem Reads.list {vs : List Ron} (h : ∀ v ∈ vs, s.Reads v) :
    (Shape.list s).Reads (.list vs) where
  opens level := ⟨'[', _, write_list, by decide⟩
  read depth level rest _ := by
    have hitem : ∀ v ∈ vs, Opens (write (level + 1) v) ∧ ∀ rest,
        s (.plain (depth - 2)) (write (level + 1) v ++ ',' :: rest) = some (v, ',' :: rest) :=
      fun v hv => ⟨(h v hv).opens _, fun rest => (h v hv).read _ _ _ ends_comma⟩
    rw [Shape.list, Context.inBrackets_plain, write_list]
    simp only [List.cons_append, List.append_assoc, List.nil_append, Ron.expect, if_true,
      Option.bind_eq_bind, Option.bind_some]
    rw [items?_block hitem (by decide), List.map_id']
    rfl

/-- An entry of a map is read back. -/
theorem Reads.keyed? {e : String × Ron} (h : s.Reads e.2) :
    Shape.keyed? s (.plain depth) (writeEntry level e ++ ',' :: rest) = some (e, ',' :: rest) := by
  have hopens := (h.opens level).append (',' :: rest)
  rw [Shape.keyed?, writeEntry, List.append_assoc, text_writeText]
  simp only [Option.bind_eq_bind, Option.bind_some, List.cons_append, colon?_colon hopens,
    h.read depth level _ ends_comma]
  rfl

theorem Reads.map {es : List (String × Ron)} (h : ∀ e ∈ es, s.Reads e.2) :
    (Shape.map s).Reads (.map es) where
  opens level := ⟨'\x7b', _, write_map, by decide⟩
  read depth level rest _ := by
    have hitem : ∀ e ∈ es, Opens (writeEntry (level + 1) e) ∧ ∀ rest,
        Shape.keyed? s (.plain (depth - 2)) (writeEntry (level + 1) e ++ ',' :: rest) =
          some (e, ',' :: rest) :=
      fun e he => ⟨opens_writeText.append _, fun rest => (h e he).keyed?⟩
    rw [Shape.map, Context.inBrackets_plain, write_map]
    simp only [List.cons_append, List.append_assoc, List.nil_append, Ron.expect, if_true,
      Option.bind_eq_bind, Option.bind_some]
    rw [items?_block hitem (by decide), List.map_id']
    rfl

/-- A known field of a record is read back. -/
theorem Reads.field? {f : String × Ron} (hname : isPlainName f.1 = true)
    (hs : shapes.lookup f.1 = some s) (h : s.Reads f.2) :
    Shape.field? shapes (.plain depth) (writeField level f ++ ',' :: rest) =
      some (some f, ',' :: rest) := by
  have hopens := (h.opens level).append (',' :: rest)
  have hmark : ∀ c ∈ (':' :: ' ' :: (write level f.2 ++ ',' :: rest)).head?, isMark c = true := by
    intro c hc
    cases hc
    decide
  rw [Shape.field?, writeField, List.append_assoc, List.cons_append, List.cons_append,
    name?_append hname hmark]
  simp only [Option.bind_eq_bind, Option.bind_some, colon?_colon hopens, hs,
    h.read depth level _ ends_comma, Option.map_some]

theorem Reads.record {fs : List (String × Ron)} (hname : isPlainName name = true)
    (h : ∀ f ∈ fs, isPlainName f.1 = true ∧ ∃ s, shapes.lookup f.1 = some s ∧ s.Reads f.2) :
    (Shape.record name shapes).Reads (.record name fs) where
  opens level := by
    rw [write_record]
    exact opens_of_isPlainName hname
  read depth level rest _ := by
    have hitem : ∀ f ∈ fs, Opens (writeField (level + 1) f) ∧ ∀ rest,
        Shape.field? shapes (.plain (depth - 2)) (writeField (level + 1) f ++ ',' :: rest) =
          some (some f, ',' :: rest) := by
      intro f hf
      obtain ⟨hplain, s, hs, hreads⟩ := h f hf
      exact ⟨opens_of_isPlainName hplain, fun rest => hreads.field? hplain hs⟩
    rw [Shape.record, write_record, Context.extensions_plain, Context.inBrackets_plain]
    simp only [List.cons_append, List.append_assoc, List.nil_append, opening?_append hname,
      Option.bind_eq_bind, Option.bind_some, items?_lines hitem List.mem_cons_self]
    rw [List.filterMap_map]
    simp

end Shape

/-! ### Whole texts -/

/-- A text that begins like a value claims no liberties. -/
theorem extensions?_of_opens {fuel : Nat} {e : Extensions} (h : Opens cs) :
    extensions? (fuel + 1) e cs = some (e, cs) := by
  have hattributes : ¬cs.head? = some '#' := by
    obtain ⟨c, cs, rfl, hc⟩ := h
    rw [List.head?_cons, Option.some_inj]
    exact ne_of_isOpening hc (by decide)
  rw [extensions?, h.skipBlank]
  exact if_neg hattributes

/-- The text of a value that is read back holds this value. -/
theorem Shape.Reads.ofText?_toText (h : s.Reads v) : ofText? s v.toText = some v := by
  have hread : s ⟨.none, maxDepth, false⟩ (write 0 v) = some (v, []) := by
    have hread := h.read maxDepth 0 [] ends_nil
    rwa [List.append_nil] at hread
  rw [ofText?, toText, String.toList_ofList, extensions?_of_opens (h.opens 0)]
  simp only [Option.bind_eq_bind, Option.bind_some, hread, skipBlank_nil]
  rfl

end ShaderGraph.Ron
