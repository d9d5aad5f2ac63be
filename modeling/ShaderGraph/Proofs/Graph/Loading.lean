import ShaderGraph.Proofs.Graph.Edits
import ShaderGraph.Proofs.Record

/-!
# Loading documents

The nodes of a document are loaded before its links, so that the first link meets a graph in which
nothing is linked. From there each record of a link is a connection under the identifier that the
record brings along. This goes well as long as no record brings the identifier of a link that leads
elsewhere: the earlier link then vanishes from the table while its pins go on to list it.

## Main definitions

* `Graph.Loose` — nothing is linked
* `Graph.Steals` — a record would be connected under the identifier of a link that leads elsewhere
* `GraphDocument.upTo` — a document with its first links only

## Main results

* `GraphDocument.loading_upTo_zero` — nothing is linked when all nodes are loaded
* `WellLinked.loadLink`, `Agrees.not_agrees_of_steals` — what one record of a link does
* `GraphDocument.agrees_iff_not_steals` — when the loaded graphs agree
-/

namespace ShaderGraph

namespace Graph

/-- Nothing is linked. -/
structure Loose (g : Graph) : Prop where
  node_id : ∀ {n node}, g.node? n = some node → node.id = n
  links : g.links = ∅
  free : ∀ {n node p}, g.node? n = some node → p ∈ node.pins → p.links = []

/-- A record would be connected, and under the identifier of a link that leads elsewhere. -/
def Steals (g : Graph) (rec : LinkRecord) : Prop :=
  (∃ g', g.connect rec.source rec.target rec.id = .ok g') ∧
    ∃ link, g.link? rec.id = some link ∧ link.target ≠ rec.source ∧ link.target ≠ rec.target

variable {g g' : Graph} {r : Registry} {node : Node}

/-! ### Loading nodes -/

theorem Loose.wellLinked (h : g.Loose) : g.WellLinked := by
  have hnone (l : LinkId) : g.link? l = none := by rw [link?, h.links, Table.get?_empty]
  have hvalues : g.links.values = [] := by rw [h.links]; rfl
  refine ⟨h.node_id, fun hl => ?_, fun hl => ?_, fun hl => ?_, fun hn hp => ?_, fun hn hp => ?_,
    fun hn hp => ?_⟩
  · rw [hnone] at hl
    cases hl
  · rw [hnone] at hl
    cases hl
  · rw [hnone] at hl
    cases hl
  · rw [h.free hn (List.mem_append_right _ hp), linksFrom, hvalues]
    rfl
  · rw [h.free hn (List.mem_append_left _ hp), linksInto, hvalues]
    rfl
  · rw [h.free hn (List.mem_append_left _ hp)]
    exact Nat.zero_le 1

theorem Loose.insertNode (h : g.Loose) (hfree : ∀ p ∈ node.pins, p.links = []) :
    (g.insertNode node).Loose where
  node_id hn := by
    rw [node?_insertNode] at hn
    split at hn
    · rename_i he
      rw [← Option.some_inj.mp hn, he]
    · exact h.node_id hn
  links := h.links
  free hn hp := by
    rw [node?_insertNode] at hn
    split at hn
    · obtain rfl := Option.some_inj.mp hn
      exact hfree _ hp
    · exact h.free hn hp

/-- What holds of a graph over `r` while nodes are loaded. -/
structure Loading (r : Registry) (g : Graph) : Prop where
  registry : g.registry = r
  instantiated : g.Instantiated
  loose : g.Loose
  sound : r.Filed → g.Sound

theorem Loading.loadNode (h : Loading r g) (rec : NodeRecord) : Loading r (g.loadNode rec) := by
  rw [Graph.loadNode]
  split
  · rename_i node hload
    obtain ⟨htaken, d, hd, rfl⟩ := NodeRecord.load?_eq_some_iff.mp hload
    -- But for values, the node is the instance, which is free of links.
    have hw : (rec.applyTo (d.instantiate rec.id rec.position)).wiring =
        (d.instantiate rec.id rec.position).wiring := NodeRecord.wiring_applyTo
    have hs := Node.skeleton_eq_of_wiring hw
    have hid : (rec.applyTo (d.instantiate rec.id rec.position)).id = rec.id :=
      (congrArg Node.id hs :)
    have hkey : (rec.applyTo (d.instantiate rec.id rec.position)).key = d.key :=
      (congrArg Node.key hs :)
    refine ⟨h.registry, h.instantiated.insertNode hd (by rw [hid]; exact hs), ?_, fun hf => ?_⟩
    · refine h.loose.insertNode fun p hp => ?_
      obtain ⟨q, hq, hlinks⟩ := Node.exists_pin_of_wiring hw hp
      rw [← hlinks]
      exact NodeDefinition.links_instantiate hq
    · refine (h.sound hf).insertNode ?_
      rw [hkey, hf (h.registry ▸ hd)]
      exact htaken
  · exact h

theorem Loading.loadRoot (h : Loading r g) (root : Option NodeId) :
    Loading r (g.loadRoot root) := by
  cases root with
  | none => exact h
  | some n =>
    rw [Graph.loadRoot]
    split
    · rename_i hn
      have hloose : Loose { g with root := some n } :=
        ⟨h.loose.node_id, h.loose.links, h.loose.free⟩
      refine ⟨h.registry, h.instantiated, hloose, fun hf => ?_⟩
      refine (h.sound hf).of_eq rfl rfl fun m hm => ?_
      obtain rfl := Option.some_inj.mp hm
      obtain ⟨node, hnode⟩ := Option.isSome_iff_exists.mp hn
      exact ⟨node.skeleton, get?_skeletons_of_node? hnode⟩
    · exact h

theorem loading_empty {name : String} {policy : CyclePolicy} :
    Loading r ((Graph.empty name r).setPolicy policy) where
  registry := rfl
  instantiated n s hs := by cases hs
  loose := {
    node_id := fun hn => by cases hn
    links := rfl
    free := fun hn => by cases hn }
  sound _ := {
    single := fun n m s t hs => by cases hs
    root := fun n hn => by cases hn }

end Graph

namespace GraphDocument

/-- A document with its first `k` links. -/
def upTo (d : GraphDocument) (k : Nat) : GraphDocument := { d with links := d.links.take k }

variable {d : GraphDocument} {r : Registry} {s : GraphSettings} {k : Nat} {rec : LinkRecord}

theorem toGraph_upTo_succ (h : d.links[k]? = some rec) :
    (d.upTo (k + 1)).toGraph r s = ((d.upTo k).toGraph r s).loadLink rec := by
  simp only [toGraph, upTo, List.take_add_one, h, Option.toList_some, List.foldl_append,
    List.foldl_cons, List.foldl_nil]

theorem upTo_succ_eq (h : d.links[k]? = none) : d.upTo (k + 1) = d.upTo k := by
  rw [upTo, upTo, List.take_add_one, h, Option.toList_none, List.append_nil]

theorem upTo_length : d.upTo d.links.length = d := by rw [upTo, List.take_length]

/-- When all nodes are loaded, nothing is linked yet. -/
theorem loading_upTo_zero : Graph.Loading r ((d.upTo 0).toGraph r s) := by
  have hnodes (recs : List NodeRecord) (g : Graph) (h : Graph.Loading r g) :
      Graph.Loading r (recs.foldl Graph.loadNode g) := by
    induction recs generalizing g with
    | nil => exact h
    | cons rec recs ih => exact ih _ (h.loadNode rec)
  exact (hnodes d.nodes _ Graph.loading_empty).loadRoot d.root

end GraphDocument

namespace Graph

variable {g g' : Graph} {r : Registry} {rec : LinkRecord}

/-! ### Loading links -/

theorem unlinked_loadLink : (g.loadLink rec).unlinked = g.unlinked := by
  rw [loadLink]
  split
  · rename_i g' hc
    exact unlinked_connect hc
  · rfl

/-- A record whose identifier is not that of a link elsewhere keeps a graph well-linked. -/
theorem WellLinked.loadLink (h : g.WellLinked) (hp : g.WellPinned) (hs : ¬ g.Steals rec) :
    (g.loadLink rec).WellLinked := by
  rw [Graph.loadLink]
  split
  · rename_i g' hc
    refine h.connect hp (fun link hl => ?_) hc
    -- A link of that identifier that led elsewhere would be stolen.
    by_contra hne
    rw [not_or] at hne
    exact hs ⟨⟨g', hc⟩, link, hl, hne.1, hne.2⟩
  · exact h

/-- A record with the identifier of a link elsewhere leaves that link's pin with a stale entry. -/
theorem Agrees.not_agrees_of_steals (h : g.Agrees) (hp : g.WellPinned) (hs : g.Steals rec) :
    ¬ (g.loadLink rec).Agrees := by
  obtain ⟨⟨g', hc⟩, link, hl, ha, hb⟩ := hs
  have hload : g.loadLink rec = g' := by rw [loadLink, hc]
  rw [hload]
  exact h.not_agrees_of_connect hp hl ha hb hc

end Graph

namespace GraphDocument

variable {d : GraphDocument} {r : Registry} {s : GraphSettings} {k : Nat} {rec : LinkRecord}

/-- Links concern neither the nodes of a loaded graph nor its root. -/
theorem unlinked_upTo :
    ((d.upTo k).toGraph r s).unlinked = ((d.upTo 0).toGraph r s).unlinked := by
  induction k with
  | zero => rfl
  | succ k ih =>
    cases hrec : d.links[k]? with
    | none => rw [upTo_succ_eq hrec, ih]
    | some rec => rw [toGraph_upTo_succ hrec, Graph.unlinked_loadLink, ih]

theorem instantiated_upTo : ((d.upTo k).toGraph r s).Instantiated := by
  obtain ⟨hs, hreg⟩ := Graph.unlinked_congr (unlinked_upTo (d := d) (r := r) (s := s) (k := k))
  exact loading_upTo_zero.instantiated.of_eq hs hreg

theorem registry_upTo : ((d.upTo k).toGraph r s).registry = r := by
  rw [(Graph.unlinked_congr unlinked_upTo).2]
  exact loading_upTo_zero.registry

theorem wellPinned_upTo (hr : r.UniquePins) : ((d.upTo k).toGraph r s).WellPinned :=
  instantiated_upTo.wellPinned (by rw [registry_upTo]; exact hr)

theorem wellPinned_toGraph (hr : r.UniquePins) : (d.toGraph r s).WellPinned := by
  have h := wellPinned_upTo (d := d) (s := s) (k := d.links.length) hr
  rw [upTo_length] at h
  exact h

/-- A document without stolen identifiers is loaded into a well-linked graph. -/
theorem wellLinked_upTo (hr : r.UniquePins)
    (h : ∀ j < k, ∀ rec, d.links[j]? = some rec → ¬ ((d.upTo j).toGraph r s).Steals rec) :
    ((d.upTo k).toGraph r s).WellLinked := by
  induction k with
  | zero => exact loading_upTo_zero.loose.wellLinked
  | succ k ih =>
    have hk := ih fun j hj => h j (Nat.lt_succ_of_lt hj)
    cases hrec : d.links[k]? with
    | none => rw [upTo_succ_eq hrec]; exact hk
    | some rec =>
      rw [toGraph_upTo_succ hrec]
      exact hk.loadLink (wellPinned_upTo hr) (h k (Nat.lt_succ_self k) rec hrec)

/-- The link table and the pins agree in the graphs of a document and of all its beginnings exactly
if no record that is connected brings the identifier of a link that leads elsewhere. -/
theorem agrees_iff_not_steals (hr : r.UniquePins) :
    (∀ k, ((d.upTo k).toGraph r s).Agrees) ↔
      ∀ k rec, d.links[k]? = some rec → ¬ ((d.upTo k).toGraph r s).Steals rec := by
  constructor
  · intro h k rec hrec hsteals
    refine (h k).not_agrees_of_steals (wellPinned_upTo hr) hsteals ?_
    rw [← toGraph_upTo_succ hrec]
    exact h (k + 1)
  · intro h k
    exact (wellLinked_upTo hr fun j _ => h j).agrees

/-- One constant linked to two channels under the same identifier. -/
def crossed : GraphDocument where
  version := formatVersion
  name := "crossed"
  root := none
  nodes := [⟨⟨⟨1⟩⟩, "Constant", ⟨0, 0⟩, ∅, ∅⟩, ⟨⟨⟨2⟩⟩, "MaterialOutput", ⟨0, 0⟩, ∅, ∅⟩]
  links := [⟨⟨⟨3⟩⟩, ⟨⟨⟨1⟩⟩, "Output"⟩, ⟨⟨⟨2⟩⟩, "Metallic"⟩⟩,
    ⟨⟨⟨3⟩⟩, ⟨⟨⟨1⟩⟩, "Output"⟩, ⟨⟨⟨2⟩⟩, "Roughness"⟩⟩]

theorem agrees_iff_not_steals_crossed : Registry.material.UniquePins ∧
    ¬ ∀ k, ((crossed.upTo k).toGraph .material .standard).Agrees := by
  refine ⟨Registry.uniquePins_material, fun h => ?_⟩
  have hcondition := (agrees_iff_not_steals Registry.uniquePins_material).mp h
  refine hcondition 1 _ rfl ⟨⟨_, rfl⟩, _, rfl, ?_, ?_⟩
  · decide
  · decide

/-- The first channel lists the link that the table knows as one into the second. -/
theorem not_agrees_crossed : ¬ ∀ (d : GraphDocument) (r : Registry) (s : GraphSettings),
    r.UniquePins → (d.toGraph r s).Agrees := by
  intro h
  have hagrees := h crossed .material .standard Registry.uniquePins_material
  have hpinned : (crossed.toGraph .material .standard).WellPinned :=
    wellPinned_toGraph Registry.uniquePins_material
  -- The table has one link into a pin that lists it, and it leads elsewhere.
  have hlinks : ((crossed.toGraph .material .standard).input? ⟨⟨⟨2⟩⟩, "Metallic"⟩).map Pin.links =
      some [⟨⟨3⟩⟩] := by decide
  have htarget : ((crossed.toGraph .material .standard).link? ⟨⟨3⟩⟩).map Link.target =
      some ⟨⟨⟨2⟩⟩, "Roughness"⟩ := by decide
  obtain ⟨p, hp, hlisted⟩ := Option.map_eq_some_iff.mp hlinks
  obtain ⟨link, hl, hmetallic⟩ := (hagrees.mem_links_of_input? hpinned hp).mp
    (hlisted ▸ List.mem_singleton_self _)
  rw [hl, Option.map_some, hmetallic] at htarget
  exact absurd htarget (by decide)

end GraphDocument

end ShaderGraph
