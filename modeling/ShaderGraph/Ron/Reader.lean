import ShaderGraph.Ron.Shape

/-!
# RON: whole texts

A text may claim liberties in attributes in front of its value.

## Main definitions

* `Ron.extensions?` — the liberties claimed in front of the value
* `Ron.ofText?` — the value of a whole text
-/

namespace ShaderGraph.Ron

/-- How deep values may nest. -/
def maxDepth : Nat := 128

/-- The names in an attribute that claims liberties, up to its closing parenthesis. Every step
takes a character, so that `fuel` need not exceed their number. -/
def extensionNames? : (fuel : Nat) → Extensions → List Char → Option (Extensions × List Char)
  | 0, _, _ => none
  | fuel + 1, e, cs => do
    let (name, cs) ← name? cs
    let e ← e.claim? name.text
    let (more, cs) ← comma cs
    if cs.head?.any Text.isIdentifierPart then
      if more then extensionNames? fuel e cs else none
    else pure (e, cs)

/-- Tokens that follow each other, blanks aside. -/
def tokens? : List String → List Char → Option (List Char)
  | [], cs => some cs
  | t :: ts, cs => do
    if t.toList.isPrefixOf cs then
      let cs ← skipBlank (cs.drop t.length)
      tokens? ts cs
    else none

/-- The liberties claimed by attributes in front of a value. Every step takes a character, so that
`fuel` need not exceed their number. -/
def extensions? : (fuel : Nat) → Extensions → List Char → Option (Extensions × List Char)
  | 0, _, _ => none
  | fuel + 1, e, cs => do
    let cs ← skipBlank cs
    if cs.head? = some '#' then
      let cs ← tokens? ["#", "!", "[", "enable", "("] cs
      let (e, cs) ← extensionNames? (cs.length + 1) e cs
      let cs ← tokens? [")", "]"] cs
      extensions? fuel e cs
    else pure (e, cs)

/-- The value of the expected shape that a whole text holds. -/
def ofText? (shape : Shape) (s : String) : Option Ron := do
  let cs := s.toList
  let (e, cs) ← extensions? (cs.length + 1) .none cs
  let (v, cs) ← shape ⟨e, maxDepth, false⟩ cs
  let cs ← skipBlank cs
  if cs.isEmpty then pure v else none

end ShaderGraph.Ron
