import ShaderGraph.Compatibility
import ShaderGraph.Node

/-!
# Registry of node definitions

The definitions from which nodes are made, with an index of their categories and with the
compatibility of pin types under which their nodes are linked.

## Main definitions

* `Registry` — definitions by key, keys by category, compatibility
* `Registry.register`, `Registry.unregister` — the two edits; both keep the index in step
* `Registry.byCategory`, `Registry.search`, `Registry.byHotkey?` — the ways to find a definition
* `Registry.createInstance?` — a new node by the key of its definition
-/

namespace ShaderGraph

/-- The definitions from which nodes are made. -/
structure Registry where
  /-- The definitions under their keys. -/
  definitions : Table String NodeDefinition
  /-- The keys of each category that is in use. -/
  categories : Table String (List String)
  compatibility : Compatibility
  deriving DecidableEq, Inhabited

namespace Registry

/-- No definition, under the given compatibility. -/
def withCompatibility (c : Compatibility) : Registry := ⟨∅, ∅, c⟩

/-- No definition, under the standard compatibility. -/
def empty : Registry := withCompatibility .standard

/-- The definition with a key. -/
def get? (r : Registry) (key : String) : Option NodeDefinition := r.definitions.get? key

/-- Whether a key has a definition. -/
def contains (r : Registry) (key : String) : Bool := (r.get? key).isSome

/-- The index without a key in a category; a category without keys is dropped. -/
def dropFromCategory (categories : Table String (List String)) (category key : String) :
    Table String (List String) :=
  match categories.get? category with
  | none => categories
  | some keys =>
    match keys.filter (· != key) with
    | [] => categories.erase category
    | rest => categories.insert category rest

/-- The index with a key at the end of a category. -/
def addToCategory (categories : Table String (List String)) (category key : String) :
    Table String (List String) :=
  categories.insert category ((categories.get? category).getD [] ++ [key])

/-- Files a definition under its key, in place of an earlier one with the same key. -/
def register (r : Registry) (d : NodeDefinition) : Registry :=
  let cleared := match r.get? d.key with
    | some old => dropFromCategory r.categories old.category d.key
    | none => r.categories
  { r with
    definitions := r.definitions.insert d.key d
    categories := addToCategory cleared d.category d.key }

/-- Files several definitions in order. -/
def registerAll (r : Registry) (ds : List NodeDefinition) : Registry := ds.foldl register r

/-- Removes the definition with a key. -/
def unregister (r : Registry) (key : String) : Registry :=
  match r.get? key with
  | none => r
  | some d =>
    { r with
      definitions := r.definitions.erase key
      categories := dropFromCategory r.categories d.category key }

/-- The definitions of a category, in the order of its keys. -/
def byCategory (r : Registry) (category : String) : List NodeDefinition :=
  ((r.categories.get? category).getD []).filterMap r.get?

/-- The definitions whose title, key or keywords mention the query, case and outer blanks aside;
all definitions for the blank query. -/
def search (r : Registry) (query : String) : List NodeDefinition :=
  let query := Text.lowercase (Text.trim query)
  r.definitions.values.filter fun d =>
    [d.title, d.key, d.keywords].any fun s => Text.occursIn query (Text.lowercase s)

/-- The first definition with a hotkey, the case of ASCII letters aside. -/
def byHotkey? (r : Registry) (key : Char) : Option NodeDefinition :=
  r.definitions.values.find? fun d => d.hotkey.any (·.toLower == key.toLower)

/-- A new node by the key of its definition. -/
def createInstance? (r : Registry) (key : String) (id : NodeId) (position : Position) :
    Option Node :=
  (r.get? key).map (·.instantiate id position)

end Registry

end ShaderGraph
