import ShaderGraph.Text.CodeRange

/-!
# White space

The characters with the Unicode property `White_Space`, and texts without such characters at
their ends.

## Main definitions

* `Text.isBlank` — the characters with the property
* `Text.trim`, `Text.trimEnd` — a text without the blank characters at its ends
-/

namespace ShaderGraph.Text

/-- The code points with the property `White_Space`. -/
def blankRanges : CodeRanges :=
  [(0x9, 0xd), (0x20, 0x20), (0x85, 0x85), (0xa0, 0xa0), (0x1680, 0x1680), (0x2000, 0x200a),
    (0x2028, 0x2029), (0x202f, 0x202f), (0x205f, 0x205f), (0x3000, 0x3000)]

/-- Whether a character is white space. -/
def isBlank (c : Char) : Bool := blankRanges.contains c

/-- A text without the blank characters at its end. -/
def trimEndChars (cs : List Char) : List Char := (cs.reverse.dropWhile isBlank).reverse

/-- A text without the blank characters at its end. -/
def trimEnd (s : String) : String := String.ofList (trimEndChars s.toList)

/-- A text without the blank characters at both ends. -/
def trim (s : String) : String := String.ofList (trimEndChars (s.toList.dropWhile isBlank))

end ShaderGraph.Text
