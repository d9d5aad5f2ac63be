import ShaderGraph.Proofs.Graph.Conformity
import ShaderGraph.Proofs.Graph.Refusal
import ShaderGraph.Proofs.Graph.Reload
import ShaderGraph.Proofs.Number.Binary32

/-!
# Loading and saving a document

Any document can be loaded, whatever it says: records that do not fit are left out, a link makes way
for a later one into the same pin or under the same identifier. What is saved afterwards is in
normal form: loading and saving it again changes nothing.

A loaded graph may have pins that list links which the table knows elsewhere, so it cannot be loaded
back as it is. But a document tells nothing of what pins list. The links of the table are in order
all the same, and with the lists of the pins made anew from the table the graph is well-linked, so
that it is loaded back.

## Main definitions

* `GraphDocument.normalised` — a document that was loaded and saved
* `Graph.Orderly` — the links of the table fit their pins, and no pin has two
* `Graph.relisted` — a graph whose pins list what the table has for them

## Main results

* `toDocument_congr`, `toDocument_restored` — what the document of a graph depends on
* `Orderly.loadLink` — the step: any record of a link keeps a graph orderly
* `Orderly.wellLinked_relisted` — an orderly graph is well-linked but for the lists of its pins
* `GraphDocument.normalised_normalised` — a normal form
-/

namespace ShaderGraph

/-- A document that was loaded and saved. -/
def GraphDocument.normalised (d : GraphDocument) (r : Registry) (s : GraphSettings) :
    GraphDocument := (d.toGraph r s).toDocument

/-! ### What a document tells -/

/-- A number that is equal to another as a number is equal to itself. -/
theorem Binary32.beq_self_of_beq {x y : Float32} (h : (x == y) = true) : (x == x) = true := by
  rcases eq_or_zeros_of_beq h with rfl | ⟨rfl, -⟩ | ⟨rfl, -⟩
  · exact h
  · decide
  · decide

theorem Literal.agrees_self_of_agrees {a b : Literal} (h : a.agrees b = true) :
    a.agrees a = true := by
  cases a <;> cases b <;> grind [agrees, Binary32.beq_self_of_beq]

theorem defaultsAgree_self_of_defaultsAgree {a b : Option Literal}
    (h : defaultsAgree a b = true) : defaultsAgree a a = true := by
  cases a with
  | none => rfl
  | some a =>
    cases b with
    | none => cases h
    | some b => exact Literal.agrees_self_of_agrees h

namespace Node

variable {n : Node} {d : Option NodeDefinition}

/-- A record tells nothing of the links at the pins. -/
theorem toRecord_unlinked : (n.mapPins Pin.unlinked).toRecord d = n.toRecord d := by
  have hpins : (n.mapPins Pin.unlinked).pins = n.pins.map Pin.unlinked := List.map_append.symm
  rw [toRecord, toRecord, hpins, List.filter_map, List.map_map]
  rfl

/-- A default that agrees with the declared one is not written down, before and after the declared
one has taken its place. -/
theorem toRecord_restored : (n.restored d).toRecord d = n.toRecord d := by
  have hdeclared (p : Pin) : hasDeclaredDefault d (p.restored d) = hasDeclaredDefault d p := by
    rw [Pin.restored]
    split
    · rename_i h
      rw [h]
      exact defaultsAgree_self_of_defaultsAgree h
    · rfl
  have hwritten : (((n.restored d).pins.filter fun p => !hasDeclaredDefault d p).map
      fun p => (p.id, p.default)) =
      (n.pins.filter fun p => !hasDeclaredDefault d p).map fun p => (p.id, p.default) := by
    have hpins : (n.restored d).pins = n.pins.map (Pin.restored d) := List.map_append.symm
    rw [hpins, List.filter_map, List.map_map]
    simp only [Function.comp_def, hdeclared]
    refine List.map_congr_left fun p hp => ?_
    have hkept : hasDeclaredDefault d p = false := by simpa using (List.mem_filter.mp hp).2
    simp [Pin.restored, hkept]
  rw [toRecord, hwritten]
  rfl

end Node

namespace Graph

variable {g g' : Graph} {r : Registry} {s : GraphSettings} {ref : PinRef} {p : Pin} {l : LinkId}
  {ls : List LinkId} {link : Link} {rec : LinkRecord}

theorem toDocument_unlinked : g.toDocument =
    { g.unlinked.toDocument with links := g.links.values.map Link.toRecord } := by
  have hrecords : (g.unlinked.nodes.values.map fun n => n.toRecord (g.unlinked.definition? n)) =
      g.nodes.values.map fun n => n.toRecord (g.definition? n) := by
    simp only [Table.values, unlinked, mapPins, Table.entries_mapValues, List.map_map]
    exact List.map_congr_left fun _ _ => Node.toRecord_unlinked
  rw [toDocument, toDocument, hrecords]
  rfl

/-- The document of a graph depends on the links of the table and on the graph without links. -/
theorem toDocument_congr (hu : g'.unlinked = g.unlinked) (hl : g'.links = g.links) :
    g'.toDocument = g.toDocument := by
  rw [toDocument_unlinked, hu, hl, ← toDocument_unlinked]

/-- It is the same when the declared defaults take the place of those that agree with them. -/
theorem toDocument_restored : (g.restored s).toDocument = g.toDocument := by
  have hrecords : ((g.restored s).nodes.values.map fun n =>
      n.toRecord ((g.restored s).definition? n)) =
      g.nodes.values.map fun n => n.toRecord (g.definition? n) := by
    simp only [Table.values, restored, Table.entries_mapValues, List.map_map]
    exact List.map_congr_left fun _ _ => Node.toRecord_restored
  rw [toDocument, toDocument, hrecords]
  rfl

/-! ### Links in order -/

/-- A link is listed at an input pin. -/
def Lists (g : Graph) (ref : PinRef) (l : LinkId) : Prop := ∃ p, g.input? ref = some p ∧ l ∈ p.links

/-- Every link of the table joins an output pin to an input pin that accepts its type and lists it,
and no two lead into the same pin. What else the pins list is left open. -/
structure Orderly (g : Graph) : Prop where
  link_id : ∀ {l link}, g.link? l = some link → link.id = l
  source : ∀ {l link}, g.link? l = some link →
    ∃ p, g.output? link.source = some p ∧ p.type = link.type
  target : ∀ {l link}, g.link? l = some link →
    ∃ p, g.input? link.target = some p ∧
      g.registry.compatibility.canConnect link.type p.type = true
  listed : ∀ {l link}, g.link? l = some link → g.Lists link.target l
  single : ∀ {l l' link link'}, g.link? l = some link → g.link? l' = some link' →
    link.target = link'.target → l = l'

/-- A change of pins that drops no entry for a link leaves it listed. -/
theorem Lists.modifyPin {f : Pin → Pin} {ref' : PinRef} (h : g.Lists ref l)
    (hid : ∀ p, (f p).id = p.id) (hkeep : ∀ p, l ∈ p.links → l ∈ (f p).links) :
    (g.modifyPin ref' f).Lists ref l := by
  obtain ⟨p, hp, hl⟩ := h
  rw [Lists, input?_modifyPin hid]
  split
  · rename_i he
    exact ⟨f p, by rw [← he, hp, Option.map_some], hkeep p hl⟩
  · exact ⟨p, hp, hl⟩

theorem Lists.disconnect {l' : LinkId} (h : g.Lists ref l) (hne : l ≠ l') :
    (g.disconnect l').Lists ref l := by
  rw [Graph.disconnect]
  split
  · exact h
  · rename_i link _
    have herased : { g with links := g.links.erase l' }.Lists ref l := h
    have hkeep (p : Pin) (hl : l ∈ p.links) : l ∈ (p.detach l').links :=
      List.mem_filter.mpr ⟨hl, by simpa using hne⟩
    exact (herased.modifyPin (fun _ => by rfl) hkeep).modifyPin (fun _ => by rfl) hkeep

theorem Lists.disconnectAll (h : g.Lists ref l) (hl : l ∉ ls) :
    (g.disconnectAll ls).Lists ref l := by
  induction ls generalizing g with
  | nil => exact h
  | cons l' ls ih =>
    rw [List.mem_cons, not_or] at hl
    exact ih (h.disconnect hl.1) hl.2

theorem Lists.insertLink (h : g.Lists ref l) : (g.insertLink link).Lists ref l := by
  have hkeep (p : Pin) (hl : l ∈ p.links) : l ∈ (p.attach link.id).links :=
    List.mem_append_left _ hl
  exact (h.modifyPin (fun _ => by rfl) hkeep).modifyPin (fun _ => by rfl) hkeep

/-- A new link is listed at its target. -/
theorem lists_insertLink (hp : g.input? link.target = some p) :
    (g.insertLink link).Lists link.target link.id := by
  have htarget : ∃ q, (g.modifyPin link.source (·.attach link.id)).input? link.target = some q := by
    rw [input?_modifyPin fun _ => by rfl]
    split
    · rename_i he
      exact ⟨p.attach link.id, by rw [← he, hp, Option.map_some]⟩
    · exact ⟨p, hp⟩
  obtain ⟨q, hq⟩ := htarget
  have hinput : (g.insertLink link).input? link.target = some (q.attach link.id) := by
    have hpins : (g.insertLink link).input? link.target =
        ((g.modifyPin link.source (·.attach link.id)).modifyPin link.target
          (·.attach link.id)).input? link.target := rfl
    rw [hpins, input?_modifyPin fun _ => by rfl, if_pos rfl, hq, Option.map_some]
  exact ⟨q.attach link.id, hinput, List.mem_append_right _ (List.mem_singleton_self _)⟩

/-- Every link into a pin goes when the pin is broken. -/
theorem Orderly.link?_of_breakPin (h : g.Orderly) (hl : (g.breakPin ref).link? l = some link) :
    g.link? l = some link ∧ link.target ≠ ref ∧ l ∉ g.linksAt ref := by
  rw [breakPin, link?_disconnectAll] at hl
  split at hl
  · cases hl
  · rename_i hkept
    refine ⟨hl, ?_, hkept⟩
    rintro rfl
    obtain ⟨p, hp, hlisted⟩ := h.listed hl
    exact hkept (linksAt_of_input? hp ▸ hlisted)

/-- A connection keeps a graph orderly, whatever identifier it comes under. -/
theorem Orderly.connect {a b : PinRef} {id : LinkId} (h : g.Orderly) (hp : g.WellPinned)
    (hc : g.connect a b id = .ok g') : g'.Orderly := by
  have hu := unlinked_connect hc
  obtain ⟨source, target, output, input, hends, hcan, -, rfl⟩ := (connect_eq_ok_iff hp).mp hc
  -- A link of the new graph is the new one or one that leads elsewhere, under another identifier.
  have hcases {l : LinkId} {link : Link} (hl : ((g.breakPin target).insertLink
      ⟨id, source, target, output.type⟩).link? l = some link) :
      l = id ∧ link = ⟨id, source, target, output.type⟩ ∨
        l ≠ id ∧ g.link? l = some link ∧ link.target ≠ target ∧ l ∉ g.linksAt target := by
    rw [link?_insertLink] at hl
    split at hl
    · rename_i he
      exact Or.inl ⟨he, (Option.some_inj.mp hl).symm⟩
    · rename_i he
      exact Or.inr ⟨he, h.link?_of_breakPin hl⟩
  refine ⟨fun {l link} hl => ?_, fun {l link} hl => ?_, fun {l link} hl => ?_,
    fun {l link} hl => ?_, fun {l l' link link'} hl hl' ht => ?_⟩
  · rcases hcases hl with ⟨rfl, rfl⟩ | ⟨-, hl, -⟩
    · rfl
    · exact h.link_id hl
  · obtain ⟨p, hp, htype⟩ : ∃ p, g.output? link.source = some p ∧ p.type = link.type := by
      rcases hcases hl with ⟨-, rfl⟩ | ⟨-, hl, -⟩
      · exact ⟨output, hends.output, rfl⟩
      · exact h.source hl
    obtain ⟨q, hq, hqp⟩ := exists_output?_of_unlinked hu hp
    exact ⟨q, hq, (congrArg Pin.type hqp :).trans htype⟩
  · obtain ⟨p, hp, hcan⟩ : ∃ p, g.input? link.target = some p ∧
        g.registry.compatibility.canConnect link.type p.type = true := by
      rcases hcases hl with ⟨-, rfl⟩ | ⟨-, hl, -⟩
      · exact ⟨input, hends.input, hcan⟩
      · exact h.target hl
    obtain ⟨q, hq, hqp⟩ := exists_input?_of_unlinked hu hp
    have htype : q.type = p.type := (congrArg Pin.type hqp :)
    exact ⟨q, hq, by rw [(unlinked_congr hu).2, htype]; exact hcan⟩
  · rcases hcases hl with ⟨rfl, rfl⟩ | ⟨-, hl, -, hkept⟩
    · have hbroken : (g.breakPin target).unlinked = g.unlinked := unlinked_breakPin
      obtain ⟨q, hq, -⟩ := exists_input?_of_unlinked hbroken hends.input
      exact lists_insertLink hq
    · exact ((h.listed hl).disconnectAll hkept).insertLink
  · rcases hcases hl with ⟨rfl, rfl⟩ | ⟨-, hl, hne, -⟩
    · rcases hcases hl' with ⟨rfl, -⟩ | ⟨-, -, hne', -⟩
      · rfl
      · exact absurd ht.symm hne'
    · rcases hcases hl' with ⟨-, rfl⟩ | ⟨-, hl', -, -⟩
      · exact absurd ht hne
      · exact h.single hl hl' ht

/-- So does any record of a link. -/
theorem Orderly.loadLink (h : g.Orderly) (hp : g.WellPinned) : (g.loadLink rec).Orderly := by
  rw [Graph.loadLink]
  split
  · rename_i hc
    exact h.connect hp hc
  · exact h

theorem Loose.orderly (h : g.Loose) : g.Orderly := by
  have hnone {l : LinkId} {link : Link} (hl : g.link? l = some link) : False := by
    rw [link?, h.links] at hl
    cases hl
  exact ⟨fun hl => (hnone hl).elim, fun hl => (hnone hl).elim, fun hl => (hnone hl).elim,
    fun hl => (hnone hl).elim, fun hl => (hnone hl).elim⟩

/-! ### Lists made anew -/

/-- A pin at an address that lists what the table has for it. -/
def listing (g : Graph) (ref : PinRef) (p : Pin) : Pin :=
  { p with
    links := match p.direction with
      | .input => (g.linksInto ref).map Link.id
      | .output => (g.linksFrom ref).map Link.id }

/-- A graph whose pins list what the table has for them. -/
def relisted (g : Graph) : Graph := g.mapPins g.listing

theorem unlinked_relisted : g.relisted.unlinked = g.unlinked := by
  have hpins : g.relisted.mapPins (fun _ => Pin.unlinked) = g.mapPins fun _ => Pin.unlinked :=
    mapPins_mapPins fun _ _ => by rfl
  rw [unlinked, hpins]
  rfl

/-- An input pin has one link at most. -/
theorem Orderly.length_linksInto (h : g.Orderly) : (g.linksInto ref).length ≤ 1 := by
  have hnodup : ((g.linksInto ref).map Link.id).Nodup :=
    (List.filter_sublist.map Link.id).nodup (nodup_map_id h.link_id)
  have hsame : ∀ link ∈ g.linksInto ref, ∀ link' ∈ g.linksInto ref, link.id = link'.id := by
    intro link hlink link' hlink'
    rw [linksInto, List.mem_filter, mem_values_links h.link_id, beq_iff_eq] at hlink hlink'
    exact h.single hlink.1 hlink'.1 (hlink.2.trans hlink'.2.symm)
  rcases hlinks : g.linksInto ref with _ | ⟨link, _ | ⟨link', rest⟩⟩
  · exact Nat.zero_le 1
  · exact Nat.le_refl 1
  · rw [hlinks] at hnodup hsame
    have hid := hsame link List.mem_cons_self link' (List.mem_cons_of_mem _ List.mem_cons_self)
    simp [hid] at hnodup

/-- An orderly graph is well-linked but for the lists of its pins. -/
theorem Orderly.wellLinked_relisted (h : g.Orderly) (hi : g.Instantiated) (hp : g.WellPinned) :
    g.relisted.WellLinked where
  node_id hn := by
    rw [relisted, node?_mapPins, Option.map_eq_some_iff] at hn
    obtain ⟨node, hn, rfl⟩ := hn
    rw [Node.id_mapPins, hi.node_id hn]
  link_id := h.link_id
  source {l link} hl := by
    obtain ⟨p, hp, ht⟩ := h.source hl
    refine ⟨g.listing link.source p, ?_, ht⟩
    rw [relisted, output?_mapPins fun _ _ => by rfl, hp, Option.map_some]
  target {l link} hl := by
    obtain ⟨p, hp, hc⟩ := h.target hl
    refine ⟨g.listing link.target p, ?_, hc⟩
    rw [relisted, input?_mapPins fun _ _ => by rfl, hp, Option.map_some]
  links_output hn hmem := by
    obtain ⟨node, q, hn, hq, rfl⟩ := exists_of_mem_outputs_mapPins hn hmem
    simp only [listing, (hp hn).direction_output q hq]
    rfl
  links_input hn hmem := by
    obtain ⟨node, q, hn, hq, rfl⟩ := exists_of_mem_inputs_mapPins hn hmem
    simp only [listing, (hp hn).direction_input q hq]
    rfl
  length_input hn hmem := by
    obtain ⟨node, q, hn, hq, rfl⟩ := exists_of_mem_inputs_mapPins hn hmem
    simp only [listing, (hp hn).direction_input q hq, List.length_map]
    exact h.length_linksInto

end Graph

namespace GraphDocument

variable {d : GraphDocument} {r : Registry} {s : GraphSettings} {k : Nat}

theorem orderly_upTo (hr : r.UniquePins) : ((d.upTo k).toGraph r s).Orderly := by
  induction k with
  | zero => exact loading_upTo_zero.loose.orderly
  | succ k ih =>
    cases hrec : d.links[k]? with
    | none => rw [upTo_succ_eq hrec]; exact ih
    | some rec =>
      rw [toGraph_upTo_succ hrec]
      exact ih.loadLink (wellPinned_upTo hr)

theorem cyclePolicy_upTo : ((d.upTo k).toGraph r s).cyclePolicy = s.cyclePolicy :=
  (Graph.cyclePolicy_congr unlinked_upTo).trans
    (Graph.cyclePolicy_loadRoot.trans Graph.cyclePolicy_foldl_loadNode)

/-- A graph that is loaded where cycles are refused has none. -/
theorem acyclic_upTo (hs : s.cyclePolicy = .reject) : ((d.upTo k).toGraph r s).Acyclic := by
  induction k with
  | zero =>
    refine Graph.acyclic_of_rank (fun _ => 0) fun link hlink => ?_
    rw [loading_upTo_zero.loose.links] at hlink
    cases hlink
  | succ k ih =>
    cases hrec : d.links[k]? with
    | none => rw [upTo_succ_eq hrec]; exact ih
    | some rec =>
      rw [toGraph_upTo_succ hrec, Graph.loadLink]
      split
      · rename_i hc
        exact ih.connect (cyclePolicy_upTo.trans hs) hc
      · exact ih

/-- A loaded graph is kept as if by edits when its pins list what the table has for them. -/
theorem kept_relisted (hf : r.Filed) (hu : r.UniquePins) :
    Graph.Kept r (d.toGraph r s).relisted := by
  have hshaped : Graph.Shaped r (d.toGraph r s) := (Graph.Begun.loaded d s).shaped hf
  have hrelisted := hshaped.of_unlinked Graph.unlinked_relisted
  have horderly := orderly_upTo (d := d) (s := s) (k := d.links.length) hu
  rw [upTo_length] at horderly
  exact ⟨hrelisted.registry, hrelisted.instantiated,
    horderly.wellLinked_relisted hshaped.instantiated (wellPinned_toGraph hu),
    fun _ => hrelisted.sound⟩

/-- What was loaded and saved is loaded and saved unchanged, whatever the document says and whether
cycles are refused or not. -/
theorem normalised_normalised (hb : r.Built) (hu : r.UniquePins) (d : GraphDocument)
    (s : GraphSettings) : (d.normalised r s).normalised r s = d.normalised r s := by
  have hdocument : (d.toGraph r s).relisted.toDocument = d.normalised r s :=
    Graph.toDocument_congr Graph.unlinked_relisted rfl
  have hcycle : s.cyclePolicy = .reject → (d.toGraph r s).relisted.Acyclic := by
    intro hs
    have hacyclic := acyclic_upTo (d := d) (r := r) (k := d.links.length) hs
    rw [upTo_length] at hacyclic
    exact hacyclic
  rw [← hdocument, normalised, (kept_relisted hb.filed hu).toGraph_toDocument hb.filed hu hcycle,
    Graph.toDocument_restored]

/-- Of the nodes, one is of an unknown kind and one a second material output. Of the links, the
second takes the identifier of the first, the next two close a cycle, the fifth takes the place of
the third, and the last leads nowhere. -/
def muddled : GraphDocument where
  version := 7
  name := "muddled"
  root := some ⟨⟨2⟩⟩
  nodes := [⟨⟨⟨1⟩⟩, "Constant", ⟨0, 0⟩, .ofList [("R", .float 2), ("Hue", .float 1)],
      .ofList [("Shade", none)]⟩,
    ⟨⟨⟨2⟩⟩, "Gradient", ⟨0, 0⟩, ∅, ∅⟩, ⟨⟨⟨3⟩⟩, "MaterialOutput", ⟨0, 0⟩, ∅, ∅⟩,
    ⟨⟨⟨4⟩⟩, "MaterialOutput", ⟨0, 0⟩, ∅, ∅⟩, ⟨⟨⟨5⟩⟩, "Reroute", ⟨0, 0⟩, ∅, ∅⟩,
    ⟨⟨⟨6⟩⟩, "Reroute", ⟨0, 0⟩, ∅, ∅⟩]
  links := [⟨⟨⟨1⟩⟩, ⟨⟨⟨1⟩⟩, "Output"⟩, ⟨⟨⟨3⟩⟩, "Metallic"⟩⟩,
    ⟨⟨⟨1⟩⟩, ⟨⟨⟨1⟩⟩, "Output"⟩, ⟨⟨⟨3⟩⟩, "Roughness"⟩⟩,
    ⟨⟨⟨2⟩⟩, ⟨⟨⟨5⟩⟩, "Output"⟩, ⟨⟨⟨6⟩⟩, "Input"⟩⟩,
    ⟨⟨⟨3⟩⟩, ⟨⟨⟨6⟩⟩, "Output"⟩, ⟨⟨⟨5⟩⟩, "Input"⟩⟩,
    ⟨⟨⟨4⟩⟩, ⟨⟨⟨1⟩⟩, "Output"⟩, ⟨⟨⟨6⟩⟩, "Input"⟩⟩,
    ⟨⟨⟨5⟩⟩, ⟨⟨⟨2⟩⟩, "Output"⟩, ⟨⟨⟨3⟩⟩, "Opacity"⟩⟩]

end GraphDocument

/-- Settings under which cycles are refused. -/
def GraphSettings.strict : GraphSettings := { GraphSettings.standard with cyclePolicy := .reject }

theorem GraphDocument.normalised_normalised_muddled :
    Registry.material.Built ∧ Registry.material.UniquePins ∧
    (muddled.normalised .material .strict).nodes.map NodeRecord.id =
      [⟨⟨1⟩⟩, ⟨⟨3⟩⟩, ⟨⟨5⟩⟩, ⟨⟨6⟩⟩] ∧
    (muddled.normalised .material .strict).links.map LinkRecord.id = [⟨⟨1⟩⟩, ⟨⟨4⟩⟩] ∧
    (muddled.normalised .material .strict).normalised .material .strict =
      muddled.normalised .material .strict :=
  ⟨Registry.built_material, Registry.uniquePins_material, by decide, by decide,
    normalised_normalised Registry.built_material Registry.uniquePins_material muddled .strict⟩

end ShaderGraph
