import ShaderGraph.Text.Printable

/-!
# Quoted text

A quoted text stands between double quotes. Characters that do not stand for themselves are
escaped by a backslash: five of them by a letter or by themselves, the others by their code point
in hexadecimal.

## Main definitions

* `Text.escapeChar` — the written form of one character; the single quote is escaped on demand
* `Text.quote` — a text between double quotes with its characters escaped
-/

namespace ShaderGraph.Text

/-- The hexadecimal digits of a number in lower case. -/
def hexChars (n : Nat) : List Char := Nat.toDigits 16 n

/-- The escape of a character by its code point. -/
def escapeCode (c : Char) : List Char := '\\' :: 'u' :: '\x7b' :: (hexChars c.toNat ++ ['\x7d'])

/-- The written form of a character in quoted text. -/
def escapeChar (escapeSingleQuote : Bool) (c : Char) : List Char :=
  if c = '\x00' then ['\\', '0']
  else if c = '\t' then ['\\', 't']
  else if c = '\r' then ['\\', 'r']
  else if c = '\n' then ['\\', 'n']
  else if c = '\\' then ['\\', '\\']
  else if c = '"' then ['\\', '"']
  else if c = '\x27' && escapeSingleQuote then ['\\', '\x27']
  else if isPlain c then [c]
  else escapeCode c

/-- A text between double quotes with its characters escaped. -/
def quote (escapeSingleQuote : Bool) (s : String) : String :=
  String.ofList ('"' :: (s.toList.flatMap (escapeChar escapeSingleQuote) ++ ['"']))

end ShaderGraph.Text
