import ShaderGraph.Proofs.Graph.Removal

/-!
# What a document keeps

Loading a document goes through its records one by one, and a record of a link may undo what an
earlier one did. Where no identifier comes twice and cycles are allowed, what is left in the end can
be read off the document: the first node of every singleton definition and all nodes of the others,
and of the links that fit into these nodes the last one into every pin.

The induction is on the document read from its beginning: one more record adds a node, or nothing;
or it adds a link and takes away the one into the same pin, or nothing. This needs that pins list
what leads into them. It is shown for pins as their addresses mean them, as a registry may have
definitions whose pins share an identifier.

## Main definitions

* `NodeRecord.nodeOf` — the node that a record makes of a definition
* `Registry.KeepsNode` — a node is that of a record which is kept
* `Graph.Asks`, `Graph.KeepsLink` — a link is that of a record, and of one which is kept
* `Graph.Mirrored` — pins list the links that end there, as far as addresses mean the pins

## Main results

* `KeepsNodes.loadNode`, `KeepsLinks.loadLink` — the step: one more record
* `keepsNodes_foldl`, `keepsLinks_foldl` — the run: all records
* `GraphDocument.toGraph_exactly` — what a document keeps
-/

namespace ShaderGraph

/-- The node that a record makes of a definition: an instance with the values of the record in place
of those of its properties, and with the defaults of the record in place of those of its pins, as
far as it has such properties and pins. -/
def NodeRecord.nodeOf (rec : NodeRecord) (d : NodeDefinition) : Node :=
  { (d.instantiate rec.id rec.position).mapAddressed fun p =>
      { p with default := (rec.pinDefaults.get? p.id).getD p.default } with
    properties := d.properties.mapValues fun name value => (rec.properties.get? name).getD value }

/-- A node is that of a record whose key is registered and which is no further one of a singleton
definition. Of the records with the key of such a definition the first one is kept. -/
def Registry.KeepsNode (r : Registry) (recs : List NodeRecord) (node : Node) : Prop :=
  ∃ before rec after, recs = before ++ rec :: after ∧ ∃ d, r.get? rec.key = some d ∧
    (d.singleton = true → ∀ earlier ∈ before, earlier.key ≠ rec.key) ∧ rec.nodeOf d = node

namespace Graph

/-- A link is that of a record whose ends, in either order, are an output and an input of the graph
of types that go together. -/
def Asks (g : Graph) (rec : LinkRecord) (link : Link) : Prop :=
  link.id = rec.id ∧
    ∃ input, g.Fits rec.source rec.target link.source link.target link.type input

/-- A link is that of a record behind which no other one is for a link into the same input. -/
def KeepsLink (g : Graph) (recs : List LinkRecord) (link : Link) : Prop :=
  ∃ before rec after, recs = before ++ rec :: after ∧ g.Asks rec link ∧
    ∀ later ∈ after, ∀ link', g.Asks later link' → link'.target ≠ link.target

/-- Links leave outputs, and the pins that addresses mean list the links that end there. -/
structure Mirrored (g : Graph) : Prop where
  source : ∀ {l link}, g.link? l = some link → g.input? link.source = none
  mem : ∀ {r p l}, g.pin? r = some p →
    (l ∈ p.links ↔ ∃ link, g.link? l = some link ∧ (link.source = r ∨ link.target = r))

/-- A graph over `r` has the nodes that are kept of some records. -/
structure KeepsNodes (r : Registry) (recs : List NodeRecord) (g : Graph) : Prop where
  registry : g.registry = r
  keys : g.nodes.keys.Sublist (recs.map NodeRecord.id)
  node?_iff : ∀ {n node}, g.node? n = some node ↔ node.id = n ∧ r.KeepsNode recs node
  root : g.root = none

/-- A graph is another one with the links that are kept of some records. -/
structure KeepsLinks (k : Graph) (recs : List LinkRecord) (g : Graph) : Prop where
  unlinked : g.unlinked = k.unlinked
  mirrored : g.Mirrored
  keys : g.links.keys.Sublist (recs.map LinkRecord.id)
  link?_iff : ∀ {l link}, g.link? l = some link ↔ link.id = l ∧ k.KeepsLink recs link

/-! ### Records of nodes -/

section Nodes

variable {g : Graph} {r : Registry} {rec : NodeRecord} {recs : List NodeRecord} {d : NodeDefinition}
  {node : Node} {n : NodeId}

theorem applyTo_instantiate :
    rec.applyTo (d.instantiate rec.id rec.position) = rec.nodeOf d :=
  NodeRecord.applyTo_eq_mapAddressed

theorem keepsNode_append_singleton :
    r.KeepsNode (recs ++ [rec]) node ↔ r.KeepsNode recs node ∨ ∃ d, r.get? rec.key = some d ∧
      (d.singleton = true → ∀ earlier ∈ recs, earlier.key ≠ rec.key) ∧ rec.nodeOf d = node :=
  exists_append_singleton_iff.trans or_comm

/-- While nodes are loaded, a definition is taken if it is a singleton and the key of an earlier
record. -/
theorem KeepsNodes.isTaken_iff (h : KeepsNodes r recs g) (hf : r.Filed)
    (hd : r.get? rec.key = some d) :
    g.isTaken rec.key = true ↔
      d.singleton = true ∧ ∃ earlier ∈ recs, earlier.key = rec.key := by
  rw [isTaken, h.registry, hd, Option.any_some, Bool.and_eq_true, List.any_eq_true]
  refine and_congr_right fun _ => ⟨?_, ?_⟩
  · rintro ⟨node, hmem, hkey⟩
    obtain ⟨n, hn⟩ := Table.mem_values_iff.mp hmem
    obtain ⟨-, before, earlier, after, rfl, d', hd', -, rfl⟩ := h.node?_iff.mp hn
    have hkey' : d'.key = rec.key := beq_iff_eq.mp hkey
    exact ⟨earlier, List.mem_append_right _ List.mem_cons_self, (hf hd').symm.trans hkey'⟩
  -- The first record with the key is kept.
  · rintro ⟨earlier, hmem, hkey⟩
    have hsome : (recs.find? (·.key == rec.key)).isSome = true :=
      List.find?_isSome.mpr ⟨earlier, hmem, by simpa using hkey⟩
    obtain ⟨first, hfirst⟩ := Option.isSome_iff_exists.mp hsome
    obtain ⟨hkey, before, after, rfl, hbefore⟩ := List.find?_eq_some_iff_append.mp hfirst
    have hkey : first.key = rec.key := by simpa using hkey
    have hkept : r.KeepsNode (before ++ first :: after) (first.nodeOf d) := by
      refine ⟨before, first, after, rfl, d, hkey ▸ hd, fun _ other hother => ?_, rfl⟩
      rw [hkey]
      simpa using hbefore other hother
    have hn : g.node? first.id = some (first.nodeOf d) := h.node?_iff.mpr ⟨rfl, hkept⟩
    have hkey' : (first.nodeOf d).key = rec.key := hf hd
    exact ⟨_, Table.mem_values_iff.mpr ⟨_, hn⟩, beq_iff_eq.mpr hkey'⟩

/-- While nodes are loaded, a record brings one if its key is registered and it is no further one of
a singleton definition. -/
theorem KeepsNodes.load?_eq_some_iff (h : KeepsNodes r recs g) (hf : r.Filed) :
    rec.load? g = some node ↔ ∃ d, r.get? rec.key = some d ∧
      (d.singleton = true → ∀ earlier ∈ recs, earlier.key ≠ rec.key) ∧ rec.nodeOf d = node := by
  have htaken {d : NodeDefinition} (hd : r.get? rec.key = some d) :
      g.isTaken rec.key = false ↔
        (d.singleton = true → ∀ earlier ∈ recs, earlier.key ≠ rec.key) := by
    rw [← Bool.not_eq_true, h.isTaken_iff hf hd, not_and]
    simp
  simp only [NodeRecord.load?_eq_some_iff, h.registry, applyTo_instantiate]
  constructor
  · rintro ⟨hfree, d, hd, rfl⟩
    exact ⟨d, hd, (htaken hd).mp hfree, rfl⟩
  · rintro ⟨d, hd, hfirst, rfl⟩
    exact ⟨(htaken hd).mpr hfirst, d, hd, rfl⟩

/-- One more record of a node, under a new identifier. -/
theorem KeepsNodes.loadNode (h : KeepsNodes r recs g) (hf : r.Filed)
    (hnew : rec.id ∉ recs.map NodeRecord.id) :
    KeepsNodes r (recs ++ [rec]) (g.loadNode rec) := by
  have hkept {node : Node} : r.KeepsNode (recs ++ [rec]) node ↔
      r.KeepsNode recs node ∨ rec.load? g = some node := by
    rw [keepsNode_append_singleton, h.load?_eq_some_iff hf]
  rw [Graph.loadNode]
  cases hload : rec.load? g with
  | none =>
    refine ⟨h.registry, ?_, ?_, h.root⟩
    · rw [List.map_append]
      exact h.keys.trans (List.sublist_append_left _ _)
    · intro n node
      rw [h.node?_iff, hkept, hload, or_iff_left (Option.some_ne_none node).symm]
  | some made =>
    have hmade : made.id = rec.id := by
      obtain ⟨d, -, -, rfl⟩ := (h.load?_eq_some_iff hf).mp hload
      rfl
    have hfree : g.node? made.id = none :=
      Table.get?_eq_none_iff.mpr fun hmem => hnew (hmade ▸ h.keys.subset hmem)
    refine ⟨h.registry, ?_, ?_, h.root⟩
    · have hend : (g.insertNode made).nodes.keys = g.nodes.keys ++ [made.id] :=
        Table.keys_insert_of_get?_eq_none hfree
      rw [hend, hmade, List.map_append]
      exact h.keys.append (List.Sublist.refl _)
    · intro n node
      rw [node?_insertNode, hkept, hload, Option.some_inj]
      split
      -- No earlier record has brought a node under this identifier.
      · rename_i he
        have hearlier : ¬ (node.id = n ∧ r.KeepsNode recs node) := by
          rw [← h.node?_iff, he, hfree]
          exact (Option.some_ne_none node).symm
        constructor
        · intro hnode
          obtain rfl := Option.some_inj.mp hnode
          exact ⟨he.symm, Or.inr rfl⟩
        · rintro ⟨hid, hold | rfl⟩
          · exact absurd ⟨hid, hold⟩ hearlier
          · rfl
      · rename_i hne
        rw [h.node?_iff]
        refine and_congr_right fun hid => (or_iff_left ?_).symm
        rintro rfl
        exact hne hid.symm

/-- The nodes that are left when all records are loaded. -/
theorem keepsNodes_foldl (hf : r.Filed) (hids : (recs.map NodeRecord.id).Nodup) (name : String)
    (policy : CyclePolicy) :
    KeepsNodes r recs
      (recs.foldl Graph.loadNode { Graph.empty name r with cyclePolicy := policy }) := by
  induction recs using List.reverseRecOn with
  | nil =>
    refine ⟨rfl, List.nil_sublist _, ?_, rfl⟩
    intro n node
    refine iff_of_false (fun hn => by cases hn) ?_
    rintro ⟨-, before, rec, after, heq, -⟩
    exact List.append_ne_nil_of_right_ne_nil before (List.cons_ne_nil rec after) heq.symm
  | append_singleton recs rec ih =>
    rw [List.map_append, List.nodup_append_comm, List.map_singleton, List.singleton_append,
      List.nodup_cons] at hids
    rw [List.foldl_append]
    exact (ih hids.2).loadNode hf hids.1

end Nodes

/-! ### Pins that list what ends there -/

section Pins

variable {g : Graph} {ref : PinRef} {p : Pin} {l : LinkId} {link : Link}

theorem Mirrored.noted (h : g.Mirrored) : g.Noted := fun _ _ _ hp hl => (h.mem hp).mp hl

theorem Loose.mirrored (h : g.Loose) : g.Mirrored where
  source hl := by
    rw [link?, h.links] at hl
    cases hl
  mem {r p l} hp := by
    obtain ⟨node, hn, hp⟩ := Option.bind_eq_some_iff.mp hp
    rw [h.free hn (Node.mem_pins_of_pin? hp)]
    refine iff_of_false List.not_mem_nil ?_
    rintro ⟨link, hl, -⟩
    rw [link?, h.links] at hl
    cases hl

theorem Mirrored.mem_linksAt_iff (h : g.Mirrored) (hp : g.input? ref = some p) :
    l ∈ g.linksAt ref ↔ ∃ link, g.link? l = some link ∧ link.target = ref := by
  have hp' := pin?_of_input? hp
  rw [linksAt, hp', h.mem hp']
  refine exists_congr fun link => and_congr_right fun hl => or_iff_right ?_
  rintro rfl
  rw [h.source hl] at hp
  cases hp

/-- Pins go on to list what ends there when a fresh link takes the place of those into its
target. -/
theorem Mirrored.relinked (h : g.Mirrored) (hfresh : g.link? link.id = none)
    (hsource : g.input? link.source = none) (hp : g.input? link.target = some p) :
    (g.relinked link).Mirrored := by
  have hne : link.source ≠ link.target := by
    intro he
    rw [he, hp] at hsource
    cases hsource
  have hat (l : LinkId) := h.mem_linksAt_iff (l := l) hp
  have hbreak : g.breakPin link.target = g.forget (g.linksAt link.target).contains :=
    h.noted.disconnectAll_eq
  have hunlinked : (g.relinked link).unlinked = g.unlinked :=
    unlinked_insertLink.trans unlinked_breakPin
  constructor
  · intro l link' hl
    have hold : g.input? link'.source = none := by
      rcases (link?_relinked hat).mp hl with ⟨-, rfl⟩ | ⟨-, hl, -⟩
      · exact hsource
      · exact h.source hl
    rw [← Option.map_eq_none_iff (f := Pin.unlinked), ← input?_unlinked, hunlinked, input?_unlinked,
      hold, Option.map_none]
  · intro r p l hp'
    rw [pin?_relinked hbreak hne, Option.map_eq_some_iff] at hp'
    obtain ⟨q, hq, rfl⟩ := hp'
    have hlisted : l ∈ ((q.without (g.linksAt link.target).contains).noting link r).links ↔
        (l ∈ q.links ∧ l ∉ g.linksAt link.target) ∨
          (link.source = r ∨ link.target = r) ∧ l = link.id := by
      rw [Pin.links_noting, List.mem_append, Pin.without, List.mem_filter]
      split <;> simp_all
    simp only [hlisted, h.mem hq, hat, link?_relinked hat]
    constructor
    · rintro (⟨⟨link', hl, hends⟩, hdead⟩ | ⟨hends, rfl⟩)
      · refine ⟨link', Or.inr ⟨?_, hl, fun ht => hdead ⟨link', hl, ht⟩⟩, hends⟩
        rintro rfl
        rw [hfresh] at hl
        cases hl
      · exact ⟨link, Or.inl ⟨rfl, rfl⟩, hends⟩
    · rintro ⟨link', ⟨rfl, rfl⟩ | ⟨-, hl, ht⟩, hends⟩
      · exact Or.inr ⟨hends, rfl⟩
      · refine Or.inl ⟨⟨link', hl, hends⟩, ?_⟩
        rintro ⟨link'', hl', ht'⟩
        obtain rfl := Option.some_inj.mp (hl.symm.trans hl')
        exact ht ht'

end Pins

/-! ### Records of links -/

section Links

variable {g g' k : Graph} {a b source target source' target' : PinRef}
  {output input output' input' : PinType} {rec : LinkRecord} {recs : List LinkRecord}
  {link link' : Link}

/-- Two pins fit in one order only. -/
theorem Fits.eq_of_fits (h : g.Fits a b source target output input)
    (h' : g.Fits a b source' target' output' input') :
    source' = source ∧ target' = target ∧ output' = output := by
  have hends : source' = source ∧ target' = target := by
    rcases h.order with ⟨rfl, rfl⟩ | ⟨rfl, rfl⟩
    · rcases h'.order with ⟨rfl, rfl⟩ | ⟨rfl, rfl⟩
      · exact ⟨rfl, rfl⟩
      · exact absurd rfl (h.source_ne_target h')
    · rcases h'.order with ⟨rfl, rfl⟩ | ⟨rfl, rfl⟩
      · exact absurd rfl (h.source_ne_target h')
      · exact ⟨rfl, rfl⟩
  obtain ⟨rfl, rfl⟩ := hends
  obtain ⟨p, hp, -, rfl⟩ := h.source
  obtain ⟨q, hq, -, rfl⟩ := h'.source
  exact ⟨rfl, rfl, by rw [Option.some_inj.mp (hp.symm.trans hq)]⟩

/-- A record asks for one link at most. -/
theorem Asks.unique (h : g.Asks rec link) (h' : g.Asks rec link') : link' = link := by
  obtain ⟨hid, input, hfits⟩ := h
  obtain ⟨hid', input', hfits'⟩ := h'
  obtain ⟨hs, ht, htype⟩ := hfits.eq_of_fits hfits'
  cases link
  cases link'
  simp_all

/-- What a record asks for does not depend on what is linked. -/
theorem Asks.of_unlinked (h : g.Asks rec link) (hu : g'.unlinked = g.unlinked) :
    g'.Asks rec link := by
  obtain ⟨hid, input, hfits⟩ := h
  exact ⟨hid, input, hfits.of_unlinked hu⟩

theorem asks_congr (hu : g'.unlinked = g.unlinked) : g'.Asks rec link ↔ g.Asks rec link :=
  ⟨fun h => h.of_unlinked hu.symm, fun h => h.of_unlinked hu⟩

theorem keepsLink_congr (hu : g'.unlinked = g.unlinked) :
    g'.KeepsLink recs link ↔ g.KeepsLink recs link := by
  simp only [KeepsLink, asks_congr hu]

theorem keepsLink_append_singleton :
    k.KeepsLink (recs ++ [rec]) link ↔ k.Asks rec link ∨
      k.KeepsLink recs link ∧ ∀ link', k.Asks rec link' → link'.target ≠ link.target := by
  have hlast (after : List LinkRecord) :
      (∀ later ∈ after ++ [rec], ∀ link', k.Asks later link' → link'.target ≠ link.target) ↔
        (∀ later ∈ after, ∀ link', k.Asks later link' → link'.target ≠ link.target) ∧
          ∀ link', k.Asks rec link' → link'.target ≠ link.target := by
    rw [List.forall_mem_append, List.forall_mem_singleton]
  rw [KeepsLink, exists_append_singleton_iff]
  refine or_congr (by simp) ?_
  simp only [hlast, KeepsLink, ← and_assoc, exists_and_right]

/-- Where cycles are allowed, a record brings the link that it asks for in place of those into the
same input. -/
theorem Asks.loadLink_eq (h : g.Asks rec link) (hallow : g.cyclePolicy = .allow) :
    g.loadLink rec = g.relinked link := by
  obtain ⟨hid, input, hfits⟩ := h
  have hlink : (⟨rec.id, link.source, link.target, link.type⟩ : Link) = link := by rw [← hid]
  rw [loadLink, hfits.connect_eq, hallow, if_neg (by simp), hlink]

/-- A record that does not ask for a link brings none. -/
theorem loadLink_eq_self (hs : g.Sided) (h : ∀ link, ¬ g.Asks rec link) : g.loadLink rec = g := by
  rw [loadLink]
  split
  · rename_i g' hc
    obtain ⟨source, target, output, input, hfits, -⟩ := hs.connect_eq_ok_iff.mp hc
    exact absurd ⟨rfl, input, hfits⟩ (h ⟨rec.id, source, target, output⟩)
  · rfl

theorem Noted.keys_breakPin_sublist (h : g.Noted) (ref : PinRef) :
    (g.breakPin ref).links.keys.Sublist g.links.keys := by
  rw [breakPin, h.disconnectAll_eq]
  exact List.filter_sublist.map Prod.fst

/-- One more record that asks for a link, under a new identifier. -/
theorem KeepsLinks.relinked (h : KeepsLinks k recs g) (hs : g.Sided) (hask : k.Asks rec link)
    (hnew : rec.id ∉ recs.map LinkRecord.id) :
    KeepsLinks k (recs ++ [rec]) (g.relinked link) := by
  obtain ⟨hid, input, hfits⟩ := hask.of_unlinked h.unlinked
  obtain ⟨p, hp, -⟩ := hfits.target
  obtain ⟨q, hq, hdirection, -⟩ := hfits.source
  have hfresh : g.link? link.id = none :=
    Table.get?_eq_none_iff.mpr fun hmem => hnew (hid ▸ h.keys.subset hmem)
  refine ⟨unlinked_insertLink.trans (unlinked_breakPin.trans h.unlinked),
    h.mirrored.relinked hfresh (hs.input?_eq_none hq hdirection) hp, ?_, ?_⟩
  · have hbroken := h.mirrored.noted.keys_breakPin_sublist link.target
    have hfresh' : (g.breakPin link.target).links.get? link.id = none :=
      Table.get?_eq_none_iff.mpr fun hmem =>
        Table.get?_eq_none_iff.mp hfresh (hbroken.subset hmem)
    have hend : (g.relinked link).links.keys =
        (g.breakPin link.target).links.keys ++ [link.id] :=
      Table.keys_insert_of_get?_eq_none hfresh'
    rw [hend, hid, List.map_append]
    exact (hbroken.trans h.keys).append (List.Sublist.refl _)
  · intro l link'
    rw [link?_relinked fun _ => h.mirrored.mem_linksAt_iff hp, keepsLink_append_singleton,
      h.link?_iff]
    constructor
    · rintro (⟨rfl, rfl⟩ | ⟨-, ⟨rfl, hkept⟩, ht⟩)
      · exact ⟨rfl, Or.inl hask⟩
      · refine ⟨rfl, Or.inr ⟨hkept, fun link'' hask'' => ?_⟩⟩
        rw [hask.unique hask'']
        exact Ne.symm ht
    · rintro ⟨rfl, hask' | ⟨hkept, hlast⟩⟩
      · obtain rfl := hask.unique hask'
        exact Or.inl ⟨rfl, rfl⟩
      · have hold : g.link? link'.id = some link' := h.link?_iff.mpr ⟨rfl, hkept⟩
        refine Or.inr ⟨?_, ⟨rfl, hkept⟩, Ne.symm (hlast link hask)⟩
        intro he
        rw [he, hfresh] at hold
        cases hold

/-- One more record that asks for no link. -/
theorem KeepsLinks.skip (h : KeepsLinks k recs g) (hnone : ∀ link, ¬ k.Asks rec link) :
    KeepsLinks k (recs ++ [rec]) g := by
  refine ⟨h.unlinked, h.mirrored, ?_, ?_⟩
  · rw [List.map_append]
    exact h.keys.trans (List.sublist_append_left _ _)
  · intro l link
    rw [h.link?_iff, keepsLink_append_singleton]
    refine and_congr_right fun _ => ?_
    constructor
    · exact fun hkept => Or.inr ⟨hkept, fun link' h' => absurd h' (hnone link')⟩
    · rintro (h' | ⟨hkept, -⟩)
      · exact absurd h' (hnone link)
      · exact hkept

/-- One more record of a link, under a new identifier. -/
theorem KeepsLinks.loadLink (h : KeepsLinks k recs g) (hi : k.Instantiated)
    (hallow : k.cyclePolicy = .allow) (hnew : rec.id ∉ recs.map LinkRecord.id) :
    KeepsLinks k (recs ++ [rec]) (g.loadLink rec) := by
  obtain ⟨hskeletons, hregistry⟩ := unlinked_congr h.unlinked
  have hs : g.Sided := (hi.of_eq hskeletons hregistry).sided
  by_cases hask : ∃ link, k.Asks rec link
  · obtain ⟨link, hask⟩ := hask
    have hload : g.loadLink rec = g.relinked link :=
      (hask.of_unlinked h.unlinked).loadLink_eq ((cyclePolicy_congr h.unlinked).trans hallow)
    exact hload ▸ h.relinked hs hask hnew
  · rw [not_exists] at hask
    have hload : g.loadLink rec = g :=
      loadLink_eq_self hs fun link h' => hask link (h'.of_unlinked h.unlinked.symm)
    exact hload.symm ▸ h.skip hask

/-- The links that are left when all records are loaded. -/
theorem keepsLinks_foldl (hk : k.Loose) (hi : k.Instantiated) (hallow : k.cyclePolicy = .allow)
    (hids : (recs.map LinkRecord.id).Nodup) :
    KeepsLinks k recs (recs.foldl Graph.loadLink k) := by
  induction recs using List.reverseRecOn with
  | nil =>
    have hkeys : k.links.keys = [] := by rw [hk.links]; rfl
    refine ⟨rfl, hk.mirrored, by rw [List.foldl_nil, hkeys]; exact List.nil_sublist _, ?_⟩
    intro l link
    refine iff_of_false (fun hl => ?_) ?_
    · rw [List.foldl_nil, link?, hk.links] at hl
      cases hl
    · rintro ⟨-, before, rec, after, heq, -⟩
      exact List.append_ne_nil_of_right_ne_nil before (List.cons_ne_nil rec after) heq.symm
  | append_singleton recs rec ih =>
    rw [List.map_append, List.nodup_append_comm, List.map_singleton, List.singleton_append,
      List.nodup_cons] at hids
    rw [List.foldl_append]
    exact (ih hids.2).loadLink hi hallow hids.1

end Links

/-! ### Documents -/

section Loaded

variable {g : Graph} {n : NodeId} {root : Option NodeId}

theorem Loose.unlinked_eq_self (h : g.Loose) : g.unlinked = g := by
  have hpins : (g.mapPins fun _ => Pin.unlinked) = g := by
    refine mapPins_eq_self fun n node hn p hp => ?_
    have hfree := h.free hn hp
    cases p
    simp_all [Pin.unlinked]
  rw [unlinked, hpins, ← h.links]

theorem nodes_loadRoot : (g.loadRoot root).nodes = g.nodes := by
  cases root with
  | none => rfl
  | some n =>
    rw [loadRoot]
    split <;> rfl

theorem root_loadRoot_eq_some_iff (h : g.root = none) :
    (g.loadRoot root).root = some n ↔ root = some n ∧ g.hasNode n = true := by
  cases root with
  | none => simp [loadRoot, h]
  | some m =>
    rw [loadRoot]
    by_cases hm : g.hasNode m = true
    · rw [if_pos hm]
      exact ⟨fun he => ⟨he, Option.some_inj.mp he ▸ hm⟩, And.left⟩
    · rw [if_neg hm, h]
      refine iff_of_false (fun he => by cases he) ?_
      rintro ⟨he, hn⟩
      exact hm (Option.some_inj.mp he ▸ hn)

theorem hasNode_unlinked : g.unlinked.hasNode n = g.hasNode n := by
  have hnode : g.unlinked.node? n = (g.node? n).map (·.mapPins Pin.unlinked) :=
    node?_mapPins (f := fun _ => Pin.unlinked)
  rw [hasNode, hasNode, Table.contains, Table.contains, ← node?, ← node?, hnode, Option.isSome_map]

end Loaded

end Graph

namespace GraphDocument

variable {d : GraphDocument} {r : Registry} {s : GraphSettings}

/-- The links of a document are kept on the graph that has its nodes. -/
theorem keepsLinks_toGraph (hallow : s.cyclePolicy = .allow)
    (hlinks : (d.links.map LinkRecord.id).Nodup) :
    Graph.KeepsLinks ((d.upTo 0).toGraph r s) d.links (d.toGraph r s) := by
  have hloading : Graph.Loading r ((d.upTo 0).toGraph r s) := loading_upTo_zero
  have hpolicy : ((d.upTo 0).toGraph r s).cyclePolicy = s.cyclePolicy :=
    Graph.cyclePolicy_loadRoot.trans Graph.cyclePolicy_foldl_loadNode
  exact Graph.keepsLinks_foldl hloading.loose hloading.instantiated (hpolicy.trans hallow) hlinks

/-- Where no identifier of a document comes twice and cycles are allowed, loading it keeps, each in
order, the nodes of the records whose keys are registered and which are no further ones of a
singleton definition, and the links of the records that fit into these nodes and are not followed by
another one into the same input. The root is that of the document, if its node was kept. -/
theorem toGraph_exactly (hr : r.Built) (hallow : s.cyclePolicy = .allow)
    (hnodes : (d.nodes.map NodeRecord.id).Nodup) (hlinks : (d.links.map LinkRecord.id).Nodup) :
    (d.toGraph r s).nodes.keys.Sublist (d.nodes.map NodeRecord.id) ∧
    (∀ n node, (d.toGraph r s).unlinked.node? n = some node ↔
      node.id = n ∧ r.KeepsNode d.nodes node) ∧
    (d.toGraph r s).links.keys.Sublist (d.links.map LinkRecord.id) ∧
    (∀ l link, (d.toGraph r s).link? l = some link ↔
      link.id = l ∧ (d.toGraph r s).KeepsLink d.links link) ∧
    ∀ n, (d.toGraph r s).root = some n ↔ d.root = some n ∧ (d.toGraph r s).hasNode n = true := by
  have hlinked := keepsLinks_toGraph (r := r) hallow hlinks
  have hkept := Graph.keepsNodes_foldl hr.filed hnodes d.name s.cyclePolicy
  -- Without its links, the graph is the one from before the first link.
  have hunlinked : (d.toGraph r s).unlinked =
      (d.nodes.foldl Graph.loadNode
        { Graph.empty d.name r with cyclePolicy := s.cyclePolicy }).loadRoot d.root :=
    hlinked.unlinked.trans loading_upTo_zero.loose.unlinked_eq_self
  have hloaded : (d.toGraph r s).unlinked.nodes =
      (d.nodes.foldl Graph.loadNode
        { Graph.empty d.name r with cyclePolicy := s.cyclePolicy }).nodes := by
    rw [hunlinked, Graph.nodes_loadRoot]
  refine ⟨?_, fun n node => ?_, hlinked.keys, fun l link => ?_, fun n => ?_⟩
  · have hkeys : (d.toGraph r s).unlinked.nodes.keys = (d.toGraph r s).nodes.keys :=
      Table.keys_mapValues
    rw [← hkeys, hloaded]
    exact hkept.keys
  · rw [Graph.node?, hloaded]
    exact hkept.node?_iff
  · rw [hlinked.link?_iff, Graph.keepsLink_congr hlinked.unlinked]
  · have hroot : (d.toGraph r s).root = (d.toGraph r s).unlinked.root := rfl
    rw [hroot, ← Graph.hasNode_unlinked, Graph.hasNode, hloaded, hunlinked,
      Graph.root_loadRoot_eq_some_iff hkept.root]
    rfl

/-- A document with a definition that is unknown, a second material output, and a second link into
the same channel. -/
def surplus : GraphDocument where
  version := formatVersion
  name := "surplus"
  root := some ⟨⟨4⟩⟩
  nodes := [⟨⟨⟨1⟩⟩, "Constant", ⟨0, 0⟩, .ofList [("R", .float 2), ("Hue", .float 1)], ∅⟩,
    ⟨⟨⟨2⟩⟩, "Gradient", ⟨0, 0⟩, ∅, ∅⟩, ⟨⟨⟨3⟩⟩, "MaterialOutput", ⟨0, 0⟩, ∅, ∅⟩,
    ⟨⟨⟨4⟩⟩, "MaterialOutput", ⟨0, 0⟩, ∅, ∅⟩]
  links := [⟨⟨⟨1⟩⟩, ⟨⟨⟨1⟩⟩, "Output"⟩, ⟨⟨⟨3⟩⟩, "Metallic"⟩⟩,
    ⟨⟨⟨2⟩⟩, ⟨⟨⟨3⟩⟩, "Metallic"⟩, ⟨⟨⟨1⟩⟩, "Output"⟩⟩,
    ⟨⟨⟨3⟩⟩, ⟨⟨⟨2⟩⟩, "Output"⟩, ⟨⟨⟨3⟩⟩, "Metallic"⟩⟩,
    ⟨⟨⟨4⟩⟩, ⟨⟨⟨1⟩⟩, "Output"⟩, ⟨⟨⟨4⟩⟩, "Metallic"⟩⟩]

/-- The second link is kept, whose ends stand in the other order. -/
theorem toGraph_exactly_surplus : Registry.material.Built ∧
    GraphSettings.standard.cyclePolicy = .allow ∧
    (surplus.nodes.map NodeRecord.id).Nodup ∧ (surplus.links.map LinkRecord.id).Nodup ∧
    (surplus.toGraph .material .standard).nodes.keys = [⟨⟨1⟩⟩, ⟨⟨3⟩⟩] ∧
    (surplus.toGraph .material .standard).links.keys = [⟨⟨2⟩⟩] ∧
    (surplus.toGraph .material .standard).KeepsLink surplus.links
      ⟨⟨⟨2⟩⟩, ⟨⟨⟨1⟩⟩, "Output"⟩, ⟨⟨⟨3⟩⟩, "Metallic"⟩, .float⟩ ∧
    (surplus.toGraph .material .standard).root = none := by
  have hnodes : (surplus.nodes.map NodeRecord.id).Nodup := by decide
  have hlinks : (surplus.links.map LinkRecord.id).Nodup := by decide
  obtain ⟨-, -, -, hlink, -⟩ :=
    toGraph_exactly (s := .standard) Registry.built_material rfl hnodes hlinks
  have hkept := (hlink ⟨⟨2⟩⟩ ⟨⟨⟨2⟩⟩, ⟨⟨⟨1⟩⟩, "Output"⟩, ⟨⟨⟨3⟩⟩, "Metallic"⟩, .float⟩).mp (by decide)
  exact ⟨Registry.built_material, rfl, hnodes, hlinks, by decide, by decide, hkept.2, by decide⟩

end GraphDocument

end ShaderGraph
