/-!
# Ranges of code points

A character class of the Unicode standard is given by a list of ranges of code points, both ends
included.
-/

namespace ShaderGraph.Text

/-- Ranges of code points, each with its first and its last member. -/
abbrev CodeRanges := List (Nat × Nat)

/-- Whether a character lies in one of the ranges. -/
def CodeRanges.contains (rs : CodeRanges) (c : Char) : Bool :=
  rs.any fun r => r.1 ≤ c.toNat && c.toNat ≤ r.2

end ShaderGraph.Text
