import ShaderGraph.Ron.Basic
import ShaderGraph.Ron.Bracket

/-!
# RON: values of any form

A field that is not known may hold any value of the notation. Nothing of it is kept, but it has to
be well formed, and where it ends has to be known. Values nest up to a fixed depth: parentheses,
brackets and braces count once for themselves and once for what they hold, and `Some` counts once.

Where `Some` is let hold several values or fields without further parentheses, a look ahead tells
which of these it holds.

## Main definitions

* `Ron.Skip` — from what stands in front of a value to what follows it
* `Ron.arrangement?` — whether `Some` holds fields, several values or a single one
* `Ron.skipValue?` — what follows a value of any form
-/

namespace ShaderGraph.Ron

/-- From what stands in front of a value to what follows it, if there is a value. -/
abbrev Skip := List Char → Option (List Char)

/-- What follows items between brackets, given how to skip one of them. -/
def skipItems? (item : Skip) (close : Char) : Skip := fun cs =>
  (items? (fun cs => (item cs).map ((), ·)) close cs).map Prod.snd

/-- What follows two values with a colon between them. -/
def skipKeyed? (value : Skip) : Skip := fun cs => do
  value (← colon? (← value cs))

/-- What follows a name and a value with a colon between them. -/
def skipField? (value : Skip) : Skip := fun cs => do
  let (_, cs) ← name? cs
  value (← colon? cs)

/-- Whether a name and a colon come next. -/
def startsField (cs : List Char) : Bool :=
  match name? cs with
  | some (_, cs) => ((skipBlank cs).bind (expect ':')).isSome
  | none => false

/-- What follows a closing parenthesis, read behind the opening one: it closes fields if a name and
a colon come first, and values otherwise. -/
def skipBody? (value : Skip) : Skip := fun cs => do
  let cs ← skipBlank cs
  skipItems? (if startsField cs then skipField? value else value) ')' cs

/-- What follows a text, if one comes next. -/
def skipText? : Skip
  | '"' :: cs => (quoted? .text cs).map Prod.snd
  | 'r' :: cs => (rawQuoted? cs).map Prod.snd
  | _ => none

/-- What follows a character between single quotes, if one comes next. -/
def skipChar? : Skip
  | '\x27' :: cs => (charLiteral? cs).map Prod.snd
  | _ => none

/-- What follows a string of bytes, if one comes next. -/
def skipBytes? : Skip
  | 'b' :: '"' :: cs => (quoted? .bytes cs).map Prod.snd
  | 'b' :: 'r' :: cs => (rawQuoted? cs).map Prod.snd
  | _ => none

/-- Whether a text opens and comes to no end. -/
def textUnclosed : List Char → Bool
  | '"' :: cs => quotedUnclosed .text cs
  | 'r' :: cs => rawUnclosed cs
  | _ => false

/-- Whether a string of bytes opens and comes to no end. -/
def bytesUnclosed : List Char → Bool
  | 'b' :: '"' :: cs => quotedUnclosed .bytes cs
  | 'b' :: 'r' :: cs => rawUnclosed cs
  | _ => false

/-- What follows a literal if one comes next, and else the same characters; none if the literal
opens and comes to no end. -/
def pastLiteral? (skip : Skip) (unclosed : List Char → Bool) : Skip := fun cs =>
  match skip cs with
  | some rest => some rest
  | none => if unclosed cs then none else some cs

/-- What stands in the parentheses behind `Some`. -/
inductive Arrangement where
  | fields
  | several
  | single
  deriving DecidableEq, Repr

/-- Whether a comma is followed by another value before a parenthesis closes, given what follows
the comma. -/
def arrangementBehindComma? (cs : List Char) : Option Arrangement := do
  let cs ← skipBlank cs
  pure (if cs.head? = some ')' then .single else .several)

/-- Whether there is more than one value before a parenthesis closes, `depth` brackets being open
within. Brackets and commas in comments and literals do not count. Every step takes a character, so
that `fuel` need not exceed their number. -/
def arrangementFrom? : (fuel depth : Nat) → List Char → Option Arrangement
  | 0, _, _ => none
  | fuel + 1, depth, cs => do
    let cs ← skipBlank cs
    -- No blanks are skipped behind a literal, so that a comment there is not recognised.
    let cs := (skipChar? cs).getD cs
    let cs ← pastLiteral? skipText? textUnclosed cs
    let cs ← pastLiteral? skipBytes? bytesUnclosed cs
    match cs with
    | [] => none
    | c :: cs =>
      if c = '(' ∨ c = '[' ∨ c = '\x7b' then arrangementFrom? fuel (depth + 1) cs
      else if c = ')' ∨ c = ']' ∨ c = '\x7d' then
        if depth = 0 then pure .single else arrangementFrom? fuel (depth - 1) cs
      else if c = ',' ∧ depth = 0 then arrangementBehindComma? cs
      else arrangementFrom? fuel depth cs

/-- What stands in the parentheses behind `Some`. A name that is followed by a colon starts fields;
a single name may also be all there is. -/
def arrangement? (cs : List Char) : Option Arrangement :=
  match name? cs with
  | none => arrangementFrom? (cs.length + 1) 0 cs
  | some (_, cs) => do
    match ← skipBlank cs with
    | ':' :: _ => pure .fields
    | ',' :: cs => arrangementBehindComma? cs
    | ')' :: _ => pure .single
    | cs => arrangementFrom? (cs.length + 1) 0 cs

/-- The words that stand for numbers. -/
def numberWords : List String := ["inf", "inff32", "inff64", "NaN", "NaNf32", "NaNf64"]

/-- What follows a number of any type. -/
def skipNumber? : Skip := fun cs =>
  let (spelling, rest) := numberRun cs
  if Numeral.isNumeral spelling then some rest else none

/-- How to skip what brackets hold, if there is room for brackets. `below` has a way to skip values
for every smaller depth, the greatest first. -/
def inBrackets? (below : List Skip) : Option Skip :=
  match below with
  | [] => none
  | _ :: below => some fun cs => below.head?.bind (· cs)

/-- What follows a value in parentheses behind the word `Some`, read behind the opening one and
blanks. -/
def skipPresent? (e : Extensions) (inner : Skip) (nested : Option Skip) : Skip := fun cs =>
  if e.unwrapVariantNewtypes then
    match cs with
    -- Nothing in parentheses is a value, too.
    | ')' :: cs => some cs
    | cs => do
      match ← arrangement? cs with
      | .fields => skipItems? (skipField? (← nested)) ')' cs
      | .several => skipItems? (← nested) ')' cs
      | .single => skipSingle cs
  else skipSingle cs
where
  /-- What follows a single value and a closing parenthesis. -/
  skipSingle (cs : List Char) : Option (List Char) :=
    (single? (fun cs => (inner cs).map ((), ·)) cs).map Prod.snd

/-- What follows the value that the word `Some` announces. -/
def skipSome? (e : Extensions) (below : List Skip) : Skip := fun cs => do
  let inner ← below.head?
  let cs ← skipBlank cs
  match expect '(' cs with
  | some cs => skipPresent? e inner (inBrackets? below.tail) (← skipBlank cs)
  | none => if e.implicitSome then inner cs else none

/-- What follows a value that begins with a name, given what follows the name. -/
def skipNamed? (e : Extensions) (below : List Skip) (name : Name) : Skip := fun cs =>
  if name.isWord "true" || name.isWord "false" || name.isWord "None" then some cs
  else if name.isWord "Some" then skipSome? e below cs
  else if numberWords.any name.isWord then some cs
  else do
    let cs ← skipBlank cs
    match expect '(' cs with
    | some cs => skipBody? (← inBrackets? below) cs
    | none => pure cs

/-- What follows a value that begins with a mark of its own. -/
def skipMarked? (below : List Skip) : Skip
  | '(' :: ')' :: cs => some cs
  | '(' :: cs => do skipBody? (← inBrackets? below) cs
  | '[' :: cs => do skipItems? (← inBrackets? below) ']' cs
  | '\x7b' :: cs => do skipItems? (skipKeyed? (← inBrackets? below)) '\x7d' cs
  | 'b' :: '\x27' :: cs => byteLiteral? cs
  | cs => skipText? cs <|> skipChar? cs <|> skipBytes? cs <|> skipNumber? cs

/-- What follows a value of any form, given ways to skip values for every smaller depth. -/
def skipWith? (e : Extensions) (below : List Skip) : Skip := fun cs =>
  match name? cs with
  | some (name, cs) => skipNamed? e below name cs
  | none => skipMarked? below cs

/-- Ways to skip values for every depth below a given one, the greatest first. -/
def skipsBelow (e : Extensions) : (depth : Nat) → List Skip
  | 0 => []
  | depth + 1 =>
    let below := skipsBelow e depth
    skipWith? e below :: below

/-- What follows a value of any form, given how much deeper values may nest. -/
def skipValue? (e : Extensions) (depth : Nat) : Skip := skipWith? e (skipsBelow e depth)

end ShaderGraph.Ron
