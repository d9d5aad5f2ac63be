import ShaderGraph.Text.Casing

/-!
# Lower case

The full lower-case mapping of the Unicode standard. It replaces characters one by one, except
that a capital sigma at the end of a word takes its final form, and that the dotted capital I
becomes an `i` with a combining dot.

## Main definitions

* `Text.lowerChar` — the lower-case form of one character away from any context
* `Text.endsWord` — whether a sigma between two texts is the last letter of a word
* `Text.lowercase` — a text in lower case
* `Text.equalsIgnoringAsciiCase` — equality up to the case of ASCII letters
-/

namespace ShaderGraph.Text

/-- The lower-case form of one character away from any context. -/
def lowerChar (c : Char) : List Char :=
  if c.toNat < 0x80 then [c.toLower]
  else if c.toNat = 0x130 then ['i', '\u0307']
  else match lowercaseRuns.find? (·.contains c.toNat) with
    | some r => [Char.ofNat (c.toNat + r.offset).toNat]
    | none => [c]

/-- Whether a text, case-ignorable characters aside, starts with a cased character. -/
def startsCased (cs : List Char) : Bool :=
  match cs.dropWhile caseIgnorableRanges.contains with
  | c :: _ => casedRanges.contains c
  | [] => false

/-- Whether a sigma ends a word, given what stands before it (nearest character first) and what
stands behind it. -/
def endsWord (before after : List Char) : Bool :=
  startsCased before && !startsCased after

/-- The rest of a text in lower case, given what stands before it (nearest character first). -/
def lowerChars (before : List Char) : List Char → List Char
  | [] => []
  | c :: cs =>
    (if c.toNat = 0x3a3 then [if endsWord before cs then '\u03c2' else '\u03c3']
      else lowerChar c) ++ lowerChars (c :: before) cs

/-- A text in lower case. -/
def lowercase (s : String) : String := String.ofList (lowerChars [] s.toList)

/-- Whether two texts are equal up to the case of ASCII letters. -/
def equalsIgnoringAsciiCase (s t : String) : Bool :=
  s.toList.map Char.toLower == t.toList.map Char.toLower

/-- Whether the characters of one text stand one after the other somewhere in another. -/
def isInfix (part : List Char) : List Char → Bool
  | [] => part.isEmpty
  | c :: cs => part.isPrefixOf (c :: cs) || isInfix part cs

/-- Whether one text stands somewhere in another. -/
def occursIn (part s : String) : Bool := isInfix part.toList s.toList

end ShaderGraph.Text
