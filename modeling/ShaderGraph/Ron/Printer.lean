import ShaderGraph.Ron.Basic
import ShaderGraph.Text.Quoted

/-!
# RON: the printer

Writes a value of the notation over several lines. Lists, maps and records have one item a line, set
in by four spaces and followed by a comma; tuples stay on their line.

## Main definitions

* `Ron.write` — the characters of a value at a level of indentation
* `Ron.toText` — the text of a value
-/

namespace ShaderGraph.Ron

/-- The blanks in front of a line. -/
def indentation (level : Nat) : List Char := List.replicate (4 * level) ' '

/-- A text between quotes. -/
def writeText (s : String) : List Char := (Text.quote true s).toList

mutual

/-- The characters of a value at a level of indentation. -/
def write (level : Nat) : Ron → List Char
  | bool b => if b then "true".toList else "false".toList
  | number spelling => spelling
  | text s => writeText s
  | absent => "None".toList
  | present v => "Some(".toList ++ write level v ++ [')']
  | unit name => name.toList
  | list items =>
    if items.isEmpty then ['[', ']']
    else '[' :: '\n' :: (writeItems (level + 1) items ++ indentation level ++ [']'])
  | map entries =>
    if entries.isEmpty then ['\x7b', '\x7d']
    else '\x7b' :: '\n' :: (writeEntries (level + 1) entries ++ indentation level ++ ['\x7d'])
  | tuple items => '(' :: (writeTuple level items ++ [')'])
  | wrapped name v => name.toList ++ '(' :: (write level v ++ [')'])
  | record name fields =>
    name.toList ++ '(' :: '\n' :: (writeFields (level + 1) fields ++ indentation level ++ [')'])

/-- Items of a list, one a line. -/
def writeItems (level : Nat) : List Ron → List Char
  | [] => []
  | v :: vs => indentation level ++ write level v ++ ',' :: '\n' :: writeItems level vs

/-- Entries of a map, one a line. -/
def writeEntries (level : Nat) : List (String × Ron) → List Char
  | [] => []
  | (key, v) :: es =>
    indentation level ++ writeText key ++ ':' :: ' ' :: (write level v ++
      ',' :: '\n' :: writeEntries level es)

/-- Items of a tuple on one line. -/
def writeTuple (level : Nat) : List Ron → List Char
  | [] => []
  | [v] => write level v
  | v :: vs => write level v ++ ',' :: ' ' :: writeTuple level vs

/-- Fields of a record, one a line. -/
def writeFields (level : Nat) : List (String × Ron) → List Char
  | [] => []
  | (name, v) :: fs =>
    indentation level ++ name.toList ++ ':' :: ' ' :: (write level v ++
      ',' :: '\n' :: writeFields level fs)

end

/-- The text of a value. -/
def toText (v : Ron) : String := String.ofList (write 0 v)

end ShaderGraph.Ron
