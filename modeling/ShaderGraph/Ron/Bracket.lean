import ShaderGraph.Ron.Scan

/-!
# RON: brackets

What stands between brackets, whatever the items are: items are separated by commas, and a comma
may also stand behind the last one.

## Main definitions

* `Ron.items?` — items up to a closing mark
* `Ron.single?` — one item and a closing parenthesis
* `Ron.colon?` — what follows a colon between blanks
-/

namespace ShaderGraph.Ron

/-- Items separated by commas up to a closing mark; a comma may also stand behind the last one.
`ready` tells whether an item may come next. Every step takes a character, so that `fuel` need not
exceed their number. -/
def itemsFrom? {α : Type} (item : List Char → Option (α × List Char)) (close : Char) :
    (fuel : Nat) → (ready : Bool) → List Char → Option (List α × List Char)
  | 0, _, _ => none
  | fuel + 1, ready, cs => do
    let cs ← skipBlank cs
    match expect close cs with
    | some cs => pure ([], cs)
    | none =>
      if ready then
        let (a, cs) ← item cs
        let (ready, cs) ← comma cs
        let (as, cs) ← itemsFrom? item close fuel ready cs
        pure (a :: as, cs)
      else none

/-- Items separated by commas up to a closing mark. -/
def items? {α : Type} (item : List Char → Option (α × List Char)) (close : Char)
    (cs : List Char) : Option (List α × List Char) :=
  itemsFrom? item close (cs.length + 1) true cs

/-- One item up to a closing parenthesis, read behind the opening one; a comma may stand behind
it. -/
def single? {α : Type} (item : List Char → Option (α × List Char)) (cs : List Char) :
    Option (α × List Char) := do
  let (a, cs) ← item (← skipBlank cs)
  let (_, cs) ← comma cs
  pure (a, ← expect ')' cs)

/-- What follows a colon between blanks. -/
def colon? (cs : List Char) : Option (List Char) := do
  let cs ← skipBlank cs
  skipBlank (← expect ':' cs)

end ShaderGraph.Ron
