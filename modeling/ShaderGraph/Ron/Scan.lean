import ShaderGraph.Ron.Numeral
import ShaderGraph.Text.Identifier
import ShaderGraph.Uuid

/-!
# RON: blanks, names, numbers and quoted text

The parts of a text that hold no other values. Each reader takes characters and yields what it read
together with the characters that follow.

## Main definitions

* `Ron.skipBlank` — what follows blank characters and comments
* `Ron.comma` — whether a comma comes next, and what follows it
* `Ron.name?`, `Ron.word?` — a name, plain or marked as raw, and a given plain one
* `Ron.numberRun` — the characters that spell a number
* `Ron.escape?`, `Ron.quoted?`, `Ron.rawQuoted?`, `Ron.charLiteral?` — text and characters
* `Ron.quotedUnclosed`, `Ron.rawUnclosed` — whether text fails because it comes to no end
-/

namespace ShaderGraph.Ron

/-- Whether a character separates tokens: the property `Pattern_White_Space`. -/
def isSeparator (c : Char) : Bool :=
  Text.CodeRanges.contains
    [(0x9, 0xd), (0x20, 0x20), (0x85, 0x85), (0x200e, 0x200f), (0x2028, 0x2029)] c

/-- Where a reader of blanks stands. -/
inductive BlankState where
  | outside
  /-- In a comment up to the end of the line. -/
  | lineComment
  /-- In a comment between marks, inside so many others. -/
  | blockComment (depth : Nat)
  deriving DecidableEq, Repr

/-- What follows blank characters and comments; comments between marks nest and have to end. -/
def skipBlankFrom : BlankState → List Char → Option (List Char)
  | .outside, [] => some []
  | .outside, '/' :: '/' :: cs => skipBlankFrom .lineComment cs
  | .outside, '/' :: '*' :: cs => skipBlankFrom (.blockComment 0) cs
  | .outside, c :: cs =>
    if c = '/' then none
    else if isSeparator c then skipBlankFrom .outside cs
    else some (c :: cs)
  | .lineComment, [] => some []
  | .lineComment, c :: cs =>
    if c = '\n' then skipBlankFrom .outside cs else skipBlankFrom .lineComment cs
  | .blockComment _, [] => none
  | .blockComment 0, '*' :: '/' :: cs => skipBlankFrom .outside cs
  | .blockComment (depth + 1), '*' :: '/' :: cs => skipBlankFrom (.blockComment depth) cs
  | .blockComment depth, '/' :: '*' :: cs => skipBlankFrom (.blockComment (depth + 1)) cs
  | .blockComment depth, _ :: cs => skipBlankFrom (.blockComment depth) cs

/-- What follows blank characters and comments. -/
def skipBlank (cs : List Char) : Option (List Char) := skipBlankFrom .outside cs

/-- What follows a given character, if it comes next. -/
def expect (c : Char) : List Char → Option (List Char)
  | d :: cs => if c = d then some cs else none
  | [] => none

/-- Whether a comma comes next, blanks aside, and what follows it and further blanks. -/
def comma (cs : List Char) : Option (Bool × List Char) := do
  let cs ← skipBlank cs
  match cs with
  | ',' :: cs => do
    let cs ← skipBlank cs
    pure (true, cs)
  | cs => pure (false, cs)

/-- A name, and whether it was marked as raw. -/
structure Name where
  raw : Bool
  text : String
  deriving DecidableEq, Repr

/-- Whether a name is a given word; a name marked as raw is none. -/
def Name.isWord (name : Name) (word : String) : Bool := !name.raw && name.text == word

/-- Whether a character can stand in a name marked as raw. -/
def isRawNameChar (c : Char) : Bool :=
  c == '.' || c == '+' || c == '-' || Text.isIdentifierPart c

/-- The openings of bytes and of raw text, which look like the beginnings of names. -/
def quotedOpenings : List (List Char) :=
  ["b\"".toList, ['b', '\x27'], "br#".toList, "br\"".toList, "r\"".toList, "r#\"".toList,
    "r##".toList]

/-- A name, if one comes next. -/
def name? (cs : List Char) : Option (Name × List Char) :=
  if quotedOpenings.any (·.isPrefixOf cs) then none
  else match cs with
    | 'r' :: '#' :: cs =>
      match cs.takeWhile isRawNameChar with
      | [] => none
      | name => some (⟨true, String.ofList name⟩, cs.dropWhile isRawNameChar)
    | c :: cs =>
      if Text.isIdentifierStart c then
        some (⟨false, String.ofList (c :: cs.takeWhile Text.isIdentifierPart)⟩,
          cs.dropWhile Text.isIdentifierPart)
      else none
    | [] => none

/-- What an escape stands in. -/
inductive EscapeContext where
  | text
  | char
  | bytes
  deriving DecidableEq, Repr

/-- The number of two hexadecimal digits. -/
def hexByte? : List Char → Option (Nat × List Char)
  | c :: d :: cs => do pure (16 * (← Uuid.hexValue? c) + (← Uuid.hexValue? d), cs)
  | _ => none

/-- The character that is encoded by the given bytes, if they encode exactly one. -/
def utf8Char? (bytes : List Nat) : Option Char :=
  let code := match bytes with
    | [a] => a
    | [a, b] => (a - 0xc0) * 0x40 + (b - 0x80)
    | [a, b, c] => (a - 0xe0) * 0x1000 + (b - 0x80) * 0x40 + (c - 0x80)
    | [a, b, c, d] =>
      (a - 0xf0) * 0x40000 + (b - 0x80) * 0x1000 + (c - 0x80) * 0x40 + (d - 0x80)
    | _ => 0x110000
  if (String.utf8EncodeChar (Char.ofNat code)).map UInt8.toNat = bytes then some (Char.ofNat code)
  else none

/-- The rest of a character that is written byte by byte, given the bytes so far and how many may
still come. -/
def escapedBytes? (bytes : List Nat) : (more : Nat) → List Char → Option (Char × List Char)
  | more, cs =>
    match utf8Char? bytes, more with
    | some c, _ => some (c, cs)
    | none, 0 => none
    | none, more + 1 => do
      let (b, cs) ← hexByte? (← expect 'x' (← expect '\\' cs))
      escapedBytes? (bytes ++ [b]) more cs

/-- A character by its code point: one to six hexadecimal digits between braces. -/
def escapedCode? (cs : List Char) : Option (Char × List Char) := do
  let cs ← expect '\x7b' cs
  let digits := (cs.take 6).takeWhile (· != '\x7d')
  let cs ← expect '\x7d' (cs.drop digits.length)
  let n ← Uuid.hexNumber? 0 digits
  if digits ≠ [] ∧ n.isValidChar then pure (Char.ofNat n, cs) else none

/-- The character that an escape behind a backslash stands for. -/
def escape? (context : EscapeContext) : List Char → Option (Char × List Char)
  | 'n' :: cs => some ('\n', cs)
  | 'r' :: cs => some ('\r', cs)
  | 't' :: cs => some ('\t', cs)
  | '0' :: cs => some ('\x00', cs)
  | 'x' :: cs => do
    let (b, cs) ← hexByte? cs
    match context with
    | .bytes => pure (Char.ofNat b, cs)
    | .char => escapedBytes? [b] 0 cs
    | .text => escapedBytes? [b] 3 cs
  | 'u' :: cs => escapedCode? cs
  | c :: cs => if c = '\\' ∨ c = '"' ∨ c = '\x27' then some (c, cs) else none
  | [] => none

/-- The text up to the closing quote. Every step takes a character, so that `fuel` need not exceed
their number. -/
def quotedRest? (context : EscapeContext) : (fuel : Nat) → List Char →
    Option (List Char × List Char)
  | 0, _ => none
  | _ + 1, [] => none
  | fuel + 1, c :: cs =>
    if c = '"' then some ([], cs)
    else if c = '\\' then do
      let (c, cs) ← escape? context cs
      let (chars, cs) ← quotedRest? context fuel cs
      pure (c :: chars, cs)
    else do
      let (chars, cs) ← quotedRest? context fuel cs
      pure (c :: chars, cs)

/-- The text behind an opening quote. -/
def quoted? (context : EscapeContext) (cs : List Char) : Option (List Char × List Char) :=
  quotedRest? context (cs.length + 1) cs

/-- Whether the text behind an opening quote comes to no end: no quote is left at its beginning or
behind one of its escapes. An escape that stands for nothing is another fault. Every step takes a
character, so that `fuel` need not exceed their number. -/
def quotedUnclosedFrom (context : EscapeContext) : (fuel : Nat) → List Char → Bool
  | 0, _ => false
  | fuel + 1, cs =>
    if !cs.contains '"' then true
    else match cs.dropWhile fun c => c != '"' && c != '\\' with
      | '\\' :: cs =>
        match escape? context cs with
        | some (_, cs) => quotedUnclosedFrom context fuel cs
        | none => false
      | _ => false

/-- Whether the text behind an opening quote comes to no end. -/
def quotedUnclosed (context : EscapeContext) (cs : List Char) : Bool :=
  quotedUnclosedFrom context (cs.length + 1) cs

/-- The text up to a given ending. -/
def upTo? (ending : List Char) : List Char → Option (List Char × List Char)
  | [] => if ending = [] then some ([], []) else none
  | c :: cs =>
    if ending.isPrefixOf (c :: cs) then some ([], (c :: cs).drop ending.length)
    else do
      let (chars, cs) ← upTo? ending cs
      pure (c :: chars, cs)

/-- Text without escapes, between as many number signs in front as behind, read from the first
number sign or quote. -/
def rawQuoted? (cs : List Char) : Option (List Char × List Char) := do
  let hashes := cs.takeWhile (· == '#')
  let cs ← expect '"' (cs.dropWhile (· == '#'))
  upTo? ('"' :: hashes) cs

/-- Whether text without escapes opens and comes to no end. -/
def rawUnclosed (cs : List Char) : Bool :=
  (expect '"' (cs.dropWhile (· == '#'))).isSome && (rawQuoted? cs).isNone

/-- A character behind an opening single quote. -/
def charLiteral? : List Char → Option (Char × List Char)
  | '\\' :: cs => do
    let (c, cs) ← escape? .char cs
    pure (c, ← expect '\x27' cs)
  | c :: cs => do pure (c, ← expect '\x27' cs)
  | [] => none

/-- What follows a byte behind an opening single quote: an ASCII character or an escape other than
a code point. -/
def byteLiteral? : List Char → Option (List Char)
  | '\\' :: 'u' :: _ => none
  | '\\' :: cs => do
    let (_, cs) ← escape? .bytes cs
    expect '\x27' cs
  | c :: cs => if c.toNat < 0x80 then expect '\x27' cs else none
  | [] => none

/-- What follows a given word, if it comes next. -/
def word? (word : String) (cs : List Char) : Option (List Char) :=
  match name? cs with
  | some (name, cs) => if name.isWord word then some cs else none
  | none => none

/-- Whether a character can stand in the spelling of a number. -/
def isNumberChar (c : Char) : Bool :=
  c.isAlphanum || c == '_' || c == '.' || c == '+' || c == '-'

/-- The characters that spell a number, if one comes next, and what follows them. -/
def numberRun (cs : List Char) : List Char × List Char :=
  (cs.takeWhile isNumberChar, cs.dropWhile isNumberChar)

end ShaderGraph.Ron
