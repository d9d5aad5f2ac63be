/-!
# Templates

A template is text with placeholders: an identifier between braces. Braces around anything else
are ordinary text.

## Main definitions

* `Template.placeholders` — the names of the placeholders in order, with repetitions
* `Template.substituteM` — a template with the placeholders replaced for which a look-up that may
  have effects gives a text
* `Template.substitute` — the same for a look-up without effects
-/

namespace ShaderGraph.Template

universe v

/-- The brace before a placeholder's name. -/
def openBrace : Char := '\x7b'

/-- The brace behind a placeholder's name. -/
def closeBrace : Char := '\x7d'

/-- Whether a character can stand in a placeholder's name: ASCII letters and digits, and `_`. -/
def isNameChar (c : Char) : Bool := c.isAlphanum || c == '_'

/-- The name of a placeholder and what follows it, if the text behind an opening brace completes
one. -/
def name? (cs : List Char) : Option (List Char × List Char) :=
  match cs.takeWhile isNameChar, cs.dropWhile isNameChar with
  | c :: name, d :: rest => if d = closeBrace then some (c :: name, rest) else none
  | _, _ => none

theorem eq_of_name?_eq_some {cs name rest : List Char} (h : name? cs = some (name, rest)) :
    cs = name ++ closeBrace :: rest := by
  rw [name?] at h
  split at h
  next c name' d rest' ht hd =>
    split at h
    next he =>
      rw [Option.some.injEq, Prod.mk.injEq] at h
      rw [← List.takeWhile_append_dropWhile (p := isNameChar) (l := cs), ht, hd, ← h.1, ← h.2, he]
    next => exact absurd h (by simp)
  next => exact absurd h (by simp)

theorem length_lt_of_name?_eq_some {cs name rest : List Char} (h : name? cs = some (name, rest)) :
    rest.length < cs.length := by
  rw [eq_of_name?_eq_some h, List.length_append, List.length_cons]
  omega

/-- The names of the placeholders in a text. The search goes on behind the closing brace. -/
def placeholdersIn (cs : List Char) : List String :=
  match cs with
  | [] => []
  | c :: cs =>
    if c = openBrace then
      match _h : name? cs with
      | some (name, rest) => String.ofList name :: placeholdersIn rest
      | none => placeholdersIn cs
    else placeholdersIn cs
termination_by cs.length
decreasing_by
  · exact Nat.lt_succ_of_lt (length_lt_of_name?_eq_some _h)
  · exact Nat.lt_succ_self _
  · exact Nat.lt_succ_self _

/-- The names of the placeholders of a template in order, with repetitions. -/
def placeholders (template : String) : List String := placeholdersIn template.toList

section Substitution

variable {m : Type → Type v} [Monad m]

/-- A text with the placeholders replaced for which `lookup` gives a text. Behind a placeholder that
is replaced the search goes on after the closing brace, else after the opening one. -/
def substituteIn (lookup : String → m (Option String)) (cs : List Char) : m (List Char) :=
  match cs with
  | [] => pure []
  | c :: cs =>
    if c = openBrace then
      match _h : name? cs with
      | some (name, rest) => do
        match ← lookup (String.ofList name) with
        | some s => return s.toList ++ (← substituteIn lookup rest)
        | none => return c :: (← substituteIn lookup cs)
      | none => return c :: (← substituteIn lookup cs)
    else return c :: (← substituteIn lookup cs)
termination_by cs.length
decreasing_by
  · exact Nat.lt_succ_of_lt (length_lt_of_name?_eq_some _h)
  all_goals exact Nat.lt_succ_self _

/-- A template with the placeholders replaced for which `lookup` gives a text. -/
def substituteM (template : String) (lookup : String → m (Option String)) : m String :=
  return String.ofList (← substituteIn lookup template.toList)

end Substitution

/-- A template with the placeholders replaced for which `lookup` has a text. -/
def substitute (template : String) (lookup : String → Option String) : String :=
  Id.run (substituteM template fun name => pure (lookup name))

end ShaderGraph.Template
