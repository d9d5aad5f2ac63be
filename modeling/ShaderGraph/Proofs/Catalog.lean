import ShaderGraph.Catalog
import ShaderGraph.Proofs.Registry

/-!
# The catalogue as a registry

## Main results

* `Registry.built_registerAll` — a list of definitions is registered one by one
* `Registry.uniquePins_material` — the pins of each material node differ in their identifiers
-/

namespace ShaderGraph.Registry

theorem built_registerAll {r : Registry} {ds : List NodeDefinition} (h : r.Built) :
    (r.registerAll ds).Built := by
  rw [registerAll]
  induction ds generalizing r with
  | nil => exact h
  | cons d ds ih => exact ih (h.register d)

theorem built_material : Registry.material.Built := built_registerAll (.withCompatibility _)

/-- Unique pins are a matter of the finitely many definitions. -/
theorem uniquePins_iff {r : Registry} :
    r.UniquePins ↔ ∀ e ∈ r.definitions.entries, (e.2.pins.map PinSpec.id).Nodup :=
  ⟨fun h _ he => h (Table.get?_eq_some_iff.mpr he),
    fun h _ _ hd => h _ (Table.get?_eq_some_iff.mp hd)⟩

instance {r : Registry} : Decidable r.UniquePins := decidable_of_iff _ uniquePins_iff.symm

theorem uniquePins_material : Registry.material.UniquePins := by decide

end ShaderGraph.Registry
