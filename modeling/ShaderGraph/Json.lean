import ShaderGraph.Number.Notation

/-!
# JSON: its data and its printer

The notation of reports that other programs read. Lists and records have one item a line, set in by
two spaces; an empty one stays on its line.

## Main definitions

* `Json` — a value of the notation
* `Json.escapeChar` — the written form of a character between quotes
* `Json.write` — the characters of a value at a level of indentation
* `Json.toText` — the text of a value
-/

namespace ShaderGraph

/-- A value of the notation. -/
inductive Json where
  | null
  | natural (n : Nat)
  /-- A number; one that is not finite is written as `null`. -/
  | number (x : Float32)
  | text (s : String)
  | list (items : List Json)
  | record (fields : List (String × Json))
  deriving Inhabited

namespace Json

/-- A value that may be absent. -/
def ofOption {α : Type} (f : α → Json) : Option α → Json
  | none => null
  | some a => f a

/-- The written form of a character between quotes. Control characters without a letter of their
own are written by their code point in four hexadecimal digits. -/
def escapeChar (c : Char) : List Char :=
  if c = '"' then ['\\', '"']
  else if c = '\\' then ['\\', '\\']
  else if c = '\x08' then ['\\', 'b']
  else if c = '\x0c' then ['\\', 'f']
  else if c = '\n' then ['\\', 'n']
  else if c = '\r' then ['\\', 'r']
  else if c = '\t' then ['\\', 't']
  else if c.toNat < 32 then
    '\\' :: 'u' :: '0' :: '0' :: [Nat.digitChar (c.toNat / 16), Nat.digitChar (c.toNat % 16)]
  else [c]

/-- A text between quotes. -/
def writeText (s : String) : List Char := '"' :: (s.toList.flatMap escapeChar ++ ['"'])

/-- The blanks in front of a line. -/
def indentation (level : Nat) : List Char := List.replicate (2 * level) ' '

mutual

/-- The characters of a value at a level of indentation. -/
def write (level : Nat) : Json → List Char
  | null => "null".toList
  | natural n => Decimal.digitChars n
  | number x => (FloatNotation.json.write x).toList
  | text s => writeText s
  | list items =>
    if items.isEmpty then ['[', ']']
    else '[' :: '\n' :: (writeItems (level + 1) items ++ indentation level ++ [']'])
  | record fields =>
    if fields.isEmpty then ['\x7b', '\x7d']
    else '\x7b' :: '\n' :: (writeFields (level + 1) fields ++ indentation level ++ ['\x7d'])

/-- Items of a list, one a line, with a comma behind each but the last. -/
def writeItems (level : Nat) : List Json → List Char
  | [] => []
  | [v] => indentation level ++ write level v ++ ['\n']
  | v :: vs => indentation level ++ write level v ++ ',' :: '\n' :: writeItems level vs

/-- Fields of a record, one a line, with a comma behind each but the last. -/
def writeFields (level : Nat) : List (String × Json) → List Char
  | [] => []
  | [(name, v)] => indentation level ++ writeText name ++ ':' :: ' ' :: (write level v ++ ['\n'])
  | (name, v) :: fs =>
    indentation level ++ writeText name ++ ':' :: ' ' :: (write level v ++
      ',' :: '\n' :: writeFields level fs)

end

/-- The text of a value. -/
def toText (v : Json) : String := String.ofList (write 0 v)

end Json

end ShaderGraph
