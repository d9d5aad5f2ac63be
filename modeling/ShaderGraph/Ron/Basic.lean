/-!
# RON: its data

The notation in which documents and settings are saved. A `Ron` is what a text of the notation
says where a certain shape is expected. Numbers are kept as they are spelt. The liberties that a
text takes leave no trace: names and parentheses are there whether they were written or not.

## Main definitions

* `Ron` — a value of the notation
* `Ron.Extensions` — the liberties that a text can claim in front of its value
-/

namespace ShaderGraph

/-- A value of the notation. -/
inductive Ron where
  | bool (b : Bool)
  /-- A number as it is spelt. -/
  | number (spelling : List Char)
  | text (s : String)
  /-- The word `None`. -/
  | absent
  /-- The word `Some` with a value in parentheses. -/
  | present (v : Ron)
  /-- Any other name by itself. -/
  | unit (name : String)
  | list (items : List Ron)
  /-- Values by their texts. -/
  | map (entries : List (String × Ron))
  /-- Values in parentheses. -/
  | tuple (items : List Ron)
  /-- A single value in parentheses behind a name. -/
  | wrapped (name : String) (v : Ron)
  /-- Named fields in parentheses behind a name. -/
  | record (name : String) (fields : List (String × Ron))
  deriving Inhabited

/-- The liberties that a text can claim in front of its value. -/
structure Ron.Extensions where
  /-- A wrapper around a single value is left out together with its parentheses. -/
  unwrapNewtypes : Bool
  /-- A value that may be absent is written without `Some`. -/
  implicitSome : Bool
  /-- What is all that a variant or `Some` holds is written without name and parentheses of its
  own. -/
  unwrapVariantNewtypes : Bool
  /-- Names in front of parentheses are not left out. -/
  explicitStructNames : Bool
  deriving DecidableEq, Repr, Inhabited

namespace Ron.Extensions

/-- No liberty. -/
def none : Extensions := ⟨false, false, false, false⟩

/-- The liberty with a name, in addition to others. -/
def claim? (e : Extensions) (name : String) : Option Extensions :=
  match name with
  | "unwrap_newtypes" => some { e with unwrapNewtypes := true }
  | "implicit_some" => some { e with implicitSome := true }
  | "unwrap_variant_newtypes" => some { e with unwrapVariantNewtypes := true }
  | "explicit_struct_names" => some { e with explicitStructNames := true }
  | _ => Option.none

end Ron.Extensions

end ShaderGraph
