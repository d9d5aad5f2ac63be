import ShaderGraph.Ron.Anything

/-!
# RON: expected shapes

What is expected at a place of a text decides how it is read there: whether a name stands in front
of parentheses, whether `Some` may be left out, and which parentheses are spared by the liberties
that the text claims. A shape reads what it expects and gives it as it is written without any
liberties, so that a shape reads back what is written of it.

A shape goes only so deep as it is put together. The depth that is left matters where a record
holds fields that are not known.

## Main definitions

* `Ron.Context` — under which circumstances a value is read
* `Ron.Shape` — what is expected at a place
* `Ron.Shape.bool`, `Ron.Shape.number`, `Ron.Shape.text`, `Ron.Shape.names` — values without parts
* `Ron.Shape.numbers`, `Ron.Shape.list`, `Ron.Shape.map` — several values of one shape
* `Ron.Shape.option`, `Ron.Shape.wrapper`, `Ron.Shape.variants` — single values behind a name
* `Ron.Shape.record` — fields by their names
-/

namespace ShaderGraph.Ron

/-- Under which circumstances a value is read. -/
structure Context where
  extensions : Extensions
  /-- How much deeper values may nest. -/
  depth : Nat
  /-- The value is all that a variant or `Some` holds, and the text has claimed to write such values
  without name and parentheses of their own. -/
  bare : Bool
  deriving DecidableEq, Repr

namespace Context

/-- Inside brackets. -/
def inBrackets (c : Context) : Context := ⟨c.extensions, c.depth - 2, false⟩

/-- As all that a variant or `Some` holds. -/
def alone (c : Context) : Context :=
  ⟨c.extensions, c.depth - 1, c.extensions.unwrapVariantNewtypes⟩

/-- Inside a wrapper. -/
def inWrapper (c : Context) : Context := ⟨c.extensions, c.depth - 1, false⟩

end Context

/-- What is expected at a place: reads it and yields it together with the characters that follow. -/
abbrev Shape := Context → List Char → Option (Ron × List Char)

/-- What follows the name in front of parentheses. It may be left out unless the text has claimed
that names are not. -/
def recordName? (e : Extensions) (expected : String) (cs : List Char) : Option (List Char) :=
  match name? cs with
  | some (name, cs) => if name.text = expected then some cs else none
  | none => if e.explicitStructNames then none else some cs

/-- What follows an opening parenthesis with an optional name in front of it. -/
def opening? (e : Extensions) (name : String) (cs : List Char) : Option (List Char) := do
  let cs ← skipBlank (← recordName? e name cs)
  expect '(' cs

namespace Shape

/-- A truth value. -/
def bool : Shape := fun _ cs =>
  match name? cs with
  | some (name, cs) =>
    if name.isWord "true" then some (.bool true, cs)
    else if name.isWord "false" then some (.bool false, cs)
    else none
  | none => none

/-- A number as it is spelt. Which numbers will do is left to those who take its value. -/
def number : Shape := fun _ cs =>
  let (spelling, cs) := numberRun cs
  some (.number spelling, cs)

/-- A text between quotes. -/
def text : Shape := fun _ cs =>
  match cs with
  | '"' :: cs => (quoted? .text cs).map fun (s, cs) => (.text (String.ofList s), cs)
  | 'r' :: cs => (rawQuoted? cs).map fun (s, cs) => (.text (String.ofList s), cs)
  | _ => none

/-- One of several names. -/
def names (expected : List String) : Shape := fun _ cs => do
  let (name, cs) ← name? cs
  if expected.contains name.text then pure (.unit name.text, cs) else none

/-- So many numbers separated by commas; a comma may also stand behind the last one. `ready` tells
whether a number may come next. -/
def numbersFrom? : (count : Nat) → (ready : Bool) → List Char → Option (List Ron × List Char)
  | 0, _, cs => some ([], cs)
  | count + 1, ready, cs =>
    if ready then do
      let cs ← skipBlank cs
      let (spelling, cs) := numberRun cs
      let (ready, cs) ← comma cs
      let (vs, cs) ← numbersFrom? count ready cs
      pure (.number spelling :: vs, cs)
    else none

/-- A tuple of so many numbers. -/
def numbers (count : Nat) : Shape := fun c cs =>
  if c.bare then do
    let (vs, cs) ← numbersFrom? count true cs
    pure (.tuple vs, cs)
  else do
    let (vs, cs) ← numbersFrom? count true (← expect '(' cs)
    let cs ← skipBlank cs
    pure (.tuple vs, ← expect ')' cs)

/-- A value that may be absent. The word `Some` may be left out, or stand without parentheses, if
the text has claimed so. -/
def option (s : Shape) : Shape := fun c cs =>
  match word? "None" cs with
  | some cs => some (.absent, cs)
  | none =>
    match word? "Some" cs with
    | some cs => do
      let cs ← skipBlank cs
      match expect '(' cs with
      | some cs => (single? (s c.alone) cs).map fun (v, cs) => (.present v, cs)
      -- The word is spent even if no parenthesis follows it.
      | none => implicit c cs
    | none => implicit c cs
where
  /-- A value that is there without being announced. -/
  implicit (c : Context) (cs : List Char) : Option (Ron × List Char) :=
    if c.extensions.implicitSome then (s c.inWrapper cs).map fun (v, cs) => (.present v, cs)
    else none

/-- A wrapper with a name around a single value. -/
def wrapper (name : String) (s : Shape) : Shape := fun c cs =>
  if c.extensions.unwrapNewtypes || c.bare then
    (s c.inWrapper cs).map fun (v, cs) => (.wrapped name v, cs)
  else do
    let cs ← opening? c.extensions name cs
    (single? (s c.inWrapper) cs).map fun (v, cs) => (.wrapped name v, cs)

/-- One of several variants, each around a single value of its shape. -/
def variants (shapes : List (String × Shape)) : Shape := fun c cs => do
  let (name, cs) ← name? cs
  let s ← shapes.lookup name.text
  let cs ← skipBlank cs
  (single? (s c.alone) (← expect '(' cs)).map fun (v, cs) => (.wrapped name.text v, cs)

/-- Values of one shape. -/
def list (s : Shape) : Shape := fun c cs => do
  let (vs, cs) ← items? (s c.inBrackets) ']' (← expect '[' cs)
  pure (.list vs, cs)

/-- A text between quotes and a value of a shape with a colon between them. -/
def keyed? (s : Shape) (c : Context) (cs : List Char) : Option ((String × Ron) × List Char) := do
  let (key, cs) ← text c cs
  match key with
  | .text key => do
    let (v, cs) ← s c (← colon? cs)
    pure ((key, v), cs)
  | _ => none

/-- Values of one shape by texts. -/
def map (s : Shape) : Shape := fun c cs => do
  let (es, cs) ← items? (keyed? s c.inBrackets) '\x7d' (← expect '\x7b' cs)
  pure (.map es, cs)

/-- A field with its value; none if the field is not known. -/
def field? (shapes : List (String × Shape)) (c : Context) (cs : List Char) :
    Option (Option (String × Ron) × List Char) := do
  let (name, cs) ← name? cs
  let cs ← colon? cs
  match shapes.lookup name.text with
  | some s => (s c cs).map fun (v, cs) => (some (name.text, v), cs)
  | none => (skipValue? c.extensions c.depth cs).map (none, ·)

/-- Fields by their names, in any order. Fields that are not known are disregarded. -/
def record (name : String) (shapes : List (String × Shape)) : Shape := fun c cs => do
  let cs ← opening? c.extensions name cs
  let (fs, cs) ← items? (field? shapes c.inBrackets) ')' cs
  pure (.record name (fs.filterMap id), cs)

end Shape

end ShaderGraph.Ron
