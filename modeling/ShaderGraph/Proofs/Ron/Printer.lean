import ShaderGraph.Ron.Printer

/-!
# RON: the written form of a value

What is written of each kind of value, in terms of its parts. Lists, maps and records are written
alike: their items stand one a line, set in and followed by commas. Only the brackets of a list or a
map without items stand next to each other.

## Main definitions

* `Ron.lines` — items one a line
* `Ron.block` — what stands between the brackets of a list or a map

## Main results

* `Ron.write_list`, `Ron.write_map`, `Ron.write_record` — items between brackets stand one a line
-/

namespace ShaderGraph.Ron

/-- Items one a line, set in and followed by commas. -/
def lines {β : Type} (level : Nat) (write : β → List Char) (bs : List β) : List Char :=
  bs.flatMap fun b => indentation level ++ write b ++ [',', '\n']

/-- What stands between the brackets of a list or a map: nothing, or items one a line. -/
def block {β : Type} (level : Nat) (write : β → List Char) (bs : List β) : List Char :=
  if bs.isEmpty then [] else '\n' :: (lines (level + 1) write bs ++ indentation level)

/-- An entry of a map: a text and a value with a colon between them. -/
def writeEntry (level : Nat) (e : String × Ron) : List Char :=
  writeText e.1 ++ ':' :: ' ' :: write level e.2

/-- A field of a record: a name and a value with a colon between them. -/
def writeField (level : Nat) (f : String × Ron) : List Char :=
  f.1.toList ++ ':' :: ' ' :: write level f.2

variable {level : Nat} {name s : String} {v : Ron} {vs : List Ron} {es : List (String × Ron)}
  {spelling rest : List Char} {b : Bool}

theorem lines_cons {β : Type} {write : β → List Char} {b : β} {bs : List β} :
    lines level write (b :: bs) =
      indentation level ++ (write b ++ ',' :: '\n' :: lines level write bs) := by
  rw [lines, List.flatMap_cons, ← lines]
  simp only [List.append_assoc, List.cons_append, List.nil_append]

theorem length_le_length_lines {β : Type} (level : Nat) (write : β → List Char) (bs : List β) :
    bs.length ≤ (lines level write bs).length := by
  induction bs with
  | nil => exact Nat.zero_le _
  | cons b bs ih =>
    rw [lines_cons, List.length_append, List.length_append, List.length_cons (a := b),
      List.length_cons, List.length_cons]
    omega

/-- What writes items one after the other as lines writes lines. -/
theorem eq_lines {β : Type} {write : β → List Char} {f : List β → List Char} (hnil : f [] = [])
    (hcons : ∀ b bs, f (b :: bs) = indentation level ++ (write b ++ ',' :: '\n' :: f bs))
    (bs : List β) : f bs = lines level write bs := by
  induction bs with
  | nil => exact hnil
  | cons b bs ih => rw [hcons, ih, lines_cons]

theorem write_bool : write level (.bool b) = if b then "true".toList else "false".toList := rfl

theorem write_number : write level (.number spelling) = spelling := rfl

theorem write_text : write level (.text s) = (Text.quote true s).toList := rfl

theorem writeText_eq : writeText s = '"' :: (s.toList.flatMap (Text.escapeChar true) ++ ['"']) := by
  rw [writeText, Text.quote, String.toList_ofList]

theorem write_absent : write level .absent = "None".toList := rfl

theorem write_present :
    write level (.present v) = "Some".toList ++ '(' :: (write level v ++ [')']) := rfl

theorem write_unit : write level (.unit name) = name.toList := rfl

theorem write_tuple : write level (.tuple vs) = '(' :: (writeTuple level vs ++ [')']) := rfl

theorem write_wrapped :
    write level (.wrapped name v) = name.toList ++ '(' :: (write level v ++ [')']) := rfl

theorem write_wrapped_append : write level (.wrapped name v) ++ rest =
    name.toList ++ '(' :: (write level v ++ ')' :: rest) := by
  rw [write_wrapped, List.append_assoc, List.cons_append, List.append_assoc, List.singleton_append]

/-- The items of a list stand one a line. -/
theorem write_list :
    write level (.list vs) = '[' :: (block level (write (level + 1)) vs ++ [']']) := by
  have hitems {k : Nat} : ∀ vs, writeItems k vs = lines k (write k) vs :=
    eq_lines rfl fun v vs => List.append_assoc _ _ _
  cases vs with
  | nil => rfl
  | cons v vs =>
    rw [block, if_neg (by simp), ← hitems]
    rfl

/-- The entries of a map stand one a line. -/
theorem write_map :
    write level (.map es) = '\x7b' :: (block level (writeEntry (level + 1)) es ++ ['\x7d']) := by
  have hentries {k : Nat} : ∀ es, writeEntries k es = lines k (writeEntry k) es := by
    refine eq_lines rfl fun e es => ?_
    have hcons : writeEntries k (e :: es) = indentation k ++ writeText e.1 ++ ':' :: ' ' ::
        (write k e.2 ++ ',' :: '\n' :: writeEntries k es) := rfl
    rw [hcons, writeEntry]
    simp only [List.append_assoc, List.cons_append]
  cases es with
  | nil => rfl
  | cons e es =>
    rw [block, if_neg (by simp), ← hentries]
    rfl

/-- The fields of a record stand one a line. -/
theorem write_record : write level (.record name es) = name.toList ++ '(' :: '\n' ::
    (lines (level + 1) (writeField (level + 1)) es ++ (indentation level ++ [')'])) := by
  have hfields {k : Nat} : ∀ es, writeFields k es = lines k (writeField k) es := by
    refine eq_lines rfl fun e es => ?_
    have hcons : writeFields k (e :: es) = indentation k ++ e.1.toList ++ ':' :: ' ' ::
        (write k e.2 ++ ',' :: '\n' :: writeFields k es) := rfl
    rw [hcons, writeField]
    simp only [List.append_assoc, List.cons_append]
  rw [← hfields, ← List.append_assoc]
  rfl

end ShaderGraph.Ron
