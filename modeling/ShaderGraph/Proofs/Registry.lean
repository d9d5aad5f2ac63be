import ShaderGraph.Registry
import ShaderGraph.Proofs.Table

/-!
# Registries as they are built

## Main definitions

* `Registry.Built` — made from an empty registry by registering and unregistering
* `Registry.Filed` — definitions are filed under their own keys
* `Registry.UniquePins` — the pins of each definition differ in their identifiers

## Main results

* `Registry.Built.filed` — the two edits keep definitions under their own keys
-/

namespace ShaderGraph.Registry

/-- A registry made from an empty one by registering and unregistering definitions. -/
inductive Built : Registry → Prop
  | withCompatibility (c : Compatibility) : Built (.withCompatibility c)
  | register {r : Registry} (h : Built r) (d : NodeDefinition) : Built (r.register d)
  | unregister {r : Registry} (h : Built r) (key : String) : Built (r.unregister key)

/-- Definitions are filed under their own keys. -/
def Filed (r : Registry) : Prop := ∀ ⦃key d⦄, r.get? key = some d → d.key = key

/-- The pins of each definition differ in their identifiers. -/
def UniquePins (r : Registry) : Prop :=
  ∀ ⦃key d⦄, r.get? key = some d → (d.pins.map PinSpec.id).Nodup

variable {r : Registry} {d : NodeDefinition} {key k : String}

theorem get?_register : (r.register d).get? k = if k = d.key then some d else r.get? k :=
  Table.get?_insert

theorem get?_unregister : (r.unregister key).get? k = if k = key then none else r.get? k := by
  rw [unregister]
  split
  -- A key without a definition is left alone.
  · rename_i hnone
    by_cases hk : k = key
    · rw [if_pos hk, hk, hnone]
    · rw [if_neg hk]
  · exact Table.get?_erase

theorem Built.filed (h : r.Built) : r.Filed := by
  induction h with
  | withCompatibility c =>
    intro key d hd
    cases hd
  | register _ d ih =>
    intro key e he
    rw [get?_register] at he
    split at he
    · rename_i hk
      rw [← Option.some_inj.mp he, hk]
    · exact ih he
  | unregister _ key ih =>
    intro k e he
    rw [get?_unregister] at he
    split at he
    · cases he
    · exact ih he

end ShaderGraph.Registry
