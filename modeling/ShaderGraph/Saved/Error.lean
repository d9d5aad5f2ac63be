/-!
# Why saved text was not accepted

## Main definitions

* `SavedTextError` — what is wrong with a saved text
* `SavedTextError.message` — the message about it
-/

namespace ShaderGraph

/-- What is wrong with a saved text. -/
inductive SavedTextError where
  /-- The text does not have the expected form. Where it departs from it is not told. -/
  | malformed
  /-- The text was saved in a version of the format later than the latest known one. -/
  | unsupportedVersion (found supported : UInt32)
  deriving DecidableEq, Repr

/-- The message about a text that was not accepted; `what` names what it should hold. -/
def SavedTextError.message (what : String) : SavedTextError → String
  | malformed => "Parse error: malformed text"
  | unsupportedVersion found supported =>
    what ++ " version " ++ toString found.toNat ++ " is newer than supported version " ++
      toString supported.toNat

end ShaderGraph
