import ShaderGraph.Catalog
import ShaderGraph.Proofs.Catalog
import ShaderGraph.Proofs.Graph.CycleCheck

/-!
# A bend in a wire

Any wire can be led around a bend, whatever the types at its ends and whether cycles are refused or
not: the bend accepts and feeds every type, nothing depends on it while it is new, and once the wire
leads into it, a path back to it from the consumer would have been a cycle before.

## Main definitions

* `Graph.Bends` — a wire leads around a bend, and all else is as it was

## Main results

* `Agrees.mem_links_relinked` — the links after one has taken the place of those into its target
* `Agrees.exists_bends` — a new bend is added and linked at both ends
-/

namespace ShaderGraph.Graph

/-- `g'` is `g` with a new bend `r` in the wire of a link. -/
structure Bends (g : Graph) (link : Link) (r : NodeId) (g' : Graph) : Prop where
  wire : link ∈ g.links.values
  fresh : g.node? r = none
  agrees : g'.Agrees
  acyclic : g'.Acyclic
  bend : ∃ node, g'.node? r = some node ∧ node.key = "Reroute"
  /-- The other nodes are the same but for the links at their pins. -/
  node : ∀ ⦃n⦄, n ≠ r → (g'.node? n).map (·.mapPins Pin.unlinked) =
    (g.node? n).map (·.mapPins Pin.unlinked)
  entering : ∃ link' ∈ g'.links.values, link'.source = link.source ∧ link'.target = ⟨r, "Input"⟩
  leaving : ∃ link' ∈ g'.links.values, link'.source = ⟨r, "Output"⟩ ∧ link'.target = link.target
  /-- What leads neither into the bend nor to where the wire ends is as it was. -/
  other : ∀ link', link'.target ≠ link.target → link'.target.node ≠ r →
    (link' ∈ g'.links.values ↔ link' ∈ g.links.values)

variable {g : Graph} {a b : PinRef} {link link' : Link} {l l₁ l₂ : LinkId} {n r : NodeId}
  {p q : Pin} {position : Position}

/-! ### New links -/

/-- `g'` is `g` with a new link in place of those into its target, and has no cycles. -/
structure Joined (g : Graph) (link : Link) (g' : Graph) : Prop where
  agrees : g'.Agrees
  acyclic : g'.Acyclic
  unlinked : g'.unlinked = g.unlinked
  mem_links : ∀ link', link' ∈ g'.links.values ↔
    link' = link ∨ link' ∈ g.links.values ∧ link'.target ≠ link.target

theorem unlinked_relinked : (g.relinked link).unlinked = g.unlinked :=
  unlinked_insertLink.trans unlinked_breakPin

/-- A new link takes the place of those into its target. -/
theorem Agrees.mem_links_relinked (h : g.Agrees) (hp : g.input? link.target = some p)
    (hfresh : g.link? link.id = none) : link' ∈ (g.relinked link).links.values ↔
      link' = link ∨ link' ∈ g.links.values ∧ link'.target ≠ link.target := by
  rw [Table.mem_values_iff, Table.mem_values_iff]
  constructor
  · rintro ⟨l, hl⟩
    rcases (h.link?_relinked hp).mp hl with ⟨-, rfl⟩ | ⟨-, hl, hne⟩
    · exact Or.inl rfl
    · exact Or.inr ⟨⟨l, hl⟩, hne⟩
  · rintro (rfl | ⟨⟨l, hl⟩, hne⟩)
    · exact ⟨link'.id, (h.link?_relinked hp).mpr (Or.inl ⟨rfl, rfl⟩)⟩
    · refine ⟨l, (h.link?_relinked hp).mpr (Or.inr ⟨?_, hl, hne⟩)⟩
      rintro rfl
      have hl : g.link? link.id = some link' := hl
      rw [hfresh] at hl
      cases hl

/-- An output is connected to an input of a type that goes with its own if no path leads back. -/
theorem Agrees.exists_joined (h : g.Agrees) (hpins : g.WellPinned) (hacyclic : g.Acyclic)
    (hs : g.output? a = some p) (ht : g.input? b = some q)
    (hc : g.registry.compatibility.canConnect p.type q.type = true) (hfresh : g.link? l = none)
    (hback : ¬ Relation.ReflTransGen g.Feeds b.node a.node) :
    ∃ g', g.connect a b l = .ok g' ∧ g.Joined ⟨l, a, b, p.type⟩ g' := by
  have hfits : g.Fits a b a b p.type q.type :=
    ⟨Or.inl ⟨rfl, rfl⟩,
      ⟨p, (hpins.pin?_direction_output.mpr hs).1, hpins.sided.direction_of_output? hs, rfl⟩,
      ⟨q, ht, hpins.sided.direction_of_input? ht, rfl⟩, hc⟩
  refine ⟨_, hfits.connect_eq_ok hback, ?_, hacyclic.relink hback, unlinked_relinked,
    fun _ => h.mem_links_relinked ht hfresh⟩
  refine h.relink hpins hs ht fun link' hl => ?_
  rw [hfresh] at hl
  cases hl

/-- An identifier that no link has is left free by a link under another one. -/
theorem Joined.link?_eq_none {g' : Graph} (hj : g.Joined link g') (h : g.Agrees)
    (hl : g.link? l = none) (hne : link.id ≠ l) : g'.link? l = none := by
  rw [Option.eq_none_iff_forall_not_mem]
  intro link' hl'
  have hid : link'.id = l := hj.agrees.link_id hl'
  rcases (hj.mem_links link').mp (Table.mem_values_iff.mpr ⟨l, hl'⟩) with rfl | ⟨hmem, -⟩
  · exact hne hid
  · rw [mem_values_links h.link_id, hid, hl] at hmem
    cases hmem

/-! ### The new bend -/

/-- A graph with a further bend, to which nothing is linked yet. -/
def withBend (g : Graph) (position : Position) (r : NodeId) : Graph :=
  g.insertNode (Catalog.rerouteNode.instantiate r position)

theorem get?_reroute : Registry.material.get? "Reroute" = some Catalog.rerouteNode := rfl

theorem addNode?_reroute (hr : g.registry = .material) :
    g.addNode? "Reroute" position r = some (g.withBend position r) := by
  refine addNode?_eq_some_iff.mpr ⟨?_, Catalog.rerouteNode, ?_, rfl⟩
  · rw [isTaken, hr, get?_reroute]
    rfl
  · rw [hr, get?_reroute]

/-- What can be linked is what a bend accepts and feeds. -/
theorem canConnect_wildcard (t : PinType) :
    Registry.material.compatibility.canConnect t .wildcard = true ∧
      Registry.material.compatibility.canConnect .wildcard t = true := by
  cases t <;> decide

theorem node?_withBend : (g.withBend position r).node? n =
    if n = r then some (Catalog.rerouteNode.instantiate r position) else g.node? n :=
  node?_insertNode

theorem input?_withBend : (g.withBend position r).input? ⟨r, "Input"⟩ =
    some (.ofSpec (Catalog.input "Input" "" .wildcard)) := by
  rw [input?, node?_withBend, if_pos rfl]
  rfl

theorem output?_withBend : (g.withBend position r).output? ⟨r, "Output"⟩ =
    some (.ofSpec (Catalog.output "Output" "" .wildcard)) := by
  rw [output?, node?_withBend, if_pos rfl]
  rfl

theorem Agrees.withBend (h : g.Agrees) (hr : g.node? r = none) : (g.withBend position r).Agrees :=
  h.insertNode hr fun _ => NodeDefinition.links_instantiate

theorem Instantiated.withBend (hi : g.Instantiated) (hr : g.registry = .material) :
    (g.withBend position r).Instantiated := by
  have hd : g.registry.get? "Reroute" = some Catalog.rerouteNode := by rw [hr, get?_reroute]
  exact hi.insertNode hd rfl

/-- Nothing leads out of a new bend. -/
theorem Agrees.not_reflTransGen_of_fresh (h : g.Agrees) (hr : g.node? r = none) (hn : n ≠ r) :
    ¬ Relation.ReflTransGen g.Feeds r n := by
  intro hpath
  rcases hpath.cases_head with rfl | ⟨m, hstep, -⟩
  · exact hn rfl
  · obtain ⟨l, link, hl, hsource, -⟩ := feeds_iff_link?.mp hstep
    exact h.source_node_ne hr hl hsource

theorem canConnect_of_material (hr : g.registry = .material) (t : PinType) :
    g.registry.compatibility.canConnect t .wildcard = true ∧
      g.registry.compatibility.canConnect .wildcard t = true := by
  rw [hr]
  exact canConnect_wildcard t

/-- With a wire into a bend out of which nothing leads, no path leads from the consumer of the wire
to the bend. -/
theorem Joined.not_reflTransGen {k g' : Graph} {t : PinType}
    (hj : k.Joined ⟨l₁, link.source, ⟨r, "Input"⟩, t⟩ g') (hmem : link ∈ k.links.values)
    (hnew : ∀ link' ∈ k.links.values, link'.target.node ≠ r) :
    ¬ Relation.ReflTransGen g'.Feeds link.target.node r := by
  have hkept : link ∈ g'.links.values := by
    refine (hj.mem_links link).mpr (Or.inr ⟨hmem, fun he => ?_⟩)
    exact hnew link hmem (congrArg PinRef.node he)
  intro hpath
  rcases hpath.cases_tail with he | ⟨m, hpath, link', hmem', rfl, hlast⟩
  · exact hnew link hmem he.symm
  · rcases (hj.mem_links link').mp hmem' with rfl | ⟨hmem', -⟩
    -- The path would end where the wire begins, and the wire closes a cycle.
    · exact hj.acyclic _ (Relation.TransGen.tail' hpath ⟨link, hkept, rfl, rfl⟩)
    · exact hnew link' hmem' hlast

/-- A wire is led around a new bend, whether cycles are refused or not. -/
theorem Agrees.exists_bends (h : g.Agrees) (hacyclic : g.Acyclic) (hr : g.registry = .material)
    (hi : g.Instantiated) (hl : g.link? l = some link) (hnode : g.node? r = none)
    (h₁ : g.link? l₁ = none) (h₂ : g.link? l₂ = none) (hne : l₁ ≠ l₂) :
    ∃ g₁ g₂ g₃, g.addNode? "Reroute" position r = some g₁ ∧
      g₁.connect link.source ⟨r, "Input"⟩ l₁ = .ok g₂ ∧
      g₂.connect ⟨r, "Output"⟩ link.target l₂ = .ok g₃ ∧ g.Bends link r g₃ := by
  have hmem : link ∈ g.links.values := Table.mem_values_iff.mpr ⟨l, hl⟩
  have hsource {link' : Link} (hmem' : link' ∈ g.links.values) : link'.source.node ≠ r :=
    h.source_node_ne hnode ((mem_values_links h.link_id).mp hmem')
  have htarget : ∀ link' ∈ g.links.values, link'.target.node ≠ r := fun link' hmem' =>
    h.target_node_ne hnode ((mem_values_links h.link_id).mp hmem')
  obtain ⟨p, hp⟩ := h.source hl
  obtain ⟨q, hq⟩ := h.target hl
  -- The wire leads into the bend, out of which nothing leads yet.
  have hagrees : (g.withBend position r).Agrees := h.withBend hnode
  have hreg : (g.withBend position r).registry = .material := hr
  have hpins : (g.withBend position r).WellPinned :=
    (hi.withBend hr).wellPinned (hr ▸ Registry.uniquePins_material)
  obtain ⟨g₂, hc₁, hj₁⟩ := hagrees.exists_joined hpins hacyclic (output?_insertNode hnode hp)
    input?_withBend (canConnect_of_material hreg p.type).1 h₁
    (h.not_reflTransGen_of_fresh hnode (hsource hmem))
  -- The bend leads to where the wire ends, in place of the wire.
  have hreg₂ : g₂.registry = .material := (unlinked_congr hj₁.unlinked).2.trans hr
  have hpins₂ : g₂.WellPinned := hpins.of_skeletons (unlinked_congr hj₁.unlinked).1
  obtain ⟨p₂, hp₂, hpp₂⟩ := exists_output?_of_unlinked hj₁.unlinked output?_withBend
  obtain ⟨q₂, hq₂, -⟩ := exists_input?_of_unlinked hj₁.unlinked (input?_insertNode hnode hq)
  have htype : p₂.type = .wildcard := (congrArg Pin.type hpp₂ :)
  obtain ⟨g₃, hc₂, hj₂⟩ := hj₁.agrees.exists_joined hpins₂ hj₁.acyclic hp₂ hq₂
    (htype ▸ (canConnect_of_material hreg₂ q₂.type).2) (hj₁.link?_eq_none hagrees h₂ hne)
    (hj₁.not_reflTransGen hmem htarget)
  have hunlinked : g₃.unlinked = (g.withBend position r).unlinked :=
    hj₂.unlinked.trans hj₁.unlinked
  refine ⟨_, g₂, g₃, addNode?_reroute hr, hc₁, hc₂, hmem, hnode, hj₂.agrees, hj₂.acyclic, ?_,
    fun n hn => ?_, ?_, ?_, fun link' hlink' hbend => ?_⟩
  · have hnode := map_node?_of_unlinked hunlinked (n := r)
    rw [node?_withBend, if_pos rfl, Option.map_some, Option.map_eq_some_iff] at hnode
    obtain ⟨node, hn, hkey⟩ := hnode
    exact ⟨node, hn, (congrArg Node.key hkey :)⟩
  · rw [map_node?_of_unlinked hunlinked, node?_withBend, if_neg hn]
  · have hentering := (hj₁.mem_links _).mpr (Or.inl rfl)
    refine ⟨_, (hj₂.mem_links _).mpr (Or.inr ⟨hentering, fun he => ?_⟩), rfl, rfl⟩
    exact htarget link hmem (congrArg PinRef.node he).symm
  · exact ⟨_, (hj₂.mem_links _).mpr (Or.inl rfl), rfl, rfl⟩
  · rw [hj₂.mem_links, hj₁.mem_links]
    constructor
    · rintro (rfl | ⟨rfl | ⟨hmem', -⟩, -⟩)
      · exact absurd rfl hlink'
      · exact absurd rfl hbend
      · exact hmem'
    · exact fun hmem' => Or.inr ⟨Or.inr ⟨hmem', fun he => hbend (congrArg PinRef.node he)⟩, hlink'⟩

end ShaderGraph.Graph
