import Mathlib.Logic.Relation
import ShaderGraph.Proofs.Catalog
import ShaderGraph.Proofs.Graph.Acyclic
import ShaderGraph.Proofs.Graph.Connection
import ShaderGraph.Proofs.Graph.Instances
import ShaderGraph.Proofs.Graph.Wiring

/-!
# Graphs as authors make them

An author creates a graph and then edits it, each time with fresh identifiers. What one edit can do
is said once, as a change of one of five kinds; what every change preserves holds of every graph
that is made in this way.

## Main definitions

* `Edit`, `Graph.apply` — an edit with its arguments, and its effect; a refused edit has none
* `Graph.EditStep` — an edit under fresh identifiers
* `Graph.Created`, `Graph.Authored` — how graphs begin, and what becomes of them
* `Graph.Change` — what an edit can do

## Main results

* `WellLinked.change_of_editStep` — every edit of a well-linked graph is a change
* `WellLinked.of_change`, `Instantiated.of_change`, `Sound.of_change` — what changes preserve
* `Authored.wellLinked_and_nodup` — the link table and the pins of every graph tell the same
-/

namespace ShaderGraph

/-- An edit of a graph with its arguments. -/
inductive Edit where
  | addNode (key : String) (position : Position) (id : NodeId)
  | removeNode (n : NodeId)
  | connect (a b : PinRef) (id : LinkId)
  | disconnect (l : LinkId)
  | breakPin (r : PinRef)
  | setProperty (n : NodeId) (name : String) (value : Literal)
  | setDefault (r : PinRef) (value : Option Literal)
  | setPosition (n : NodeId) (position : Position)
  | setRoot (n : NodeId)
  | setPolicy (policy : CyclePolicy)

/-- The identifier that an edit brings along stands for nothing yet. -/
def Edit.IsFresh (g : Graph) : Edit → Prop
  | .addNode _ _ id => g.node? id = none
  | .connect _ _ id => g.link? id = none
  | _ => True

instance {g : Graph} : (e : Edit) → Decidable (e.IsFresh g)
  | .addNode _ _ id => inferInstanceAs (Decidable (g.node? id = none))
  | .connect _ _ id => inferInstanceAs (Decidable (g.link? id = none))
  | .removeNode _ | .disconnect _ | .breakPin _ | .setProperty .. | .setDefault .. | .setPosition ..
  | .setRoot _ | .setPolicy _ => inferInstanceAs (Decidable True)

namespace Graph

/-- A graph after an edit; a refused edit leaves it as it was. -/
def apply (g : Graph) : Edit → Graph
  | .addNode key position id => (g.addNode? key position id).getD g
  | .removeNode n => (g.removeNode n).toOption.getD g
  | .connect a b id => (g.connect a b id).toOption.getD g
  | .disconnect l => g.disconnect l
  | .breakPin r => g.breakPin r
  | .setProperty n name value => g.setProperty n name value
  | .setDefault r value => g.setDefault r value
  | .setPosition n position => g.setPosition n position
  | .setRoot n => (g.setRoot n).toOption.getD g
  | .setPolicy policy => g.setPolicy policy

/-- An edit, done or refused, under fresh identifiers. -/
def EditStep (g g' : Graph) : Prop := ∃ e : Edit, e.IsFresh g ∧ g.apply e = g'

/-- A graph over `r` as it begins, without nodes or with a root node. -/
inductive Created (r : Registry) : Graph → Prop
  | empty (name : String) : Created r (.empty name r)
  | withRoot (name key : String) (id : NodeId) : Created r (.withRoot name r key id)
  | ofSettings (name : String) (settings : GraphSettings) (id : NodeId) :
      Created r (.ofSettings name r settings id)

/-- A graph over `r` that an author can make. -/
def Authored (r : Registry) (g : Graph) : Prop :=
  ∃ g₀, Created r g₀ ∧ Relation.ReflTransGen EditStep g₀ g

/-- What an edit can do to a graph. -/
inductive Change (g : Graph) : Graph → Prop
  /-- Values, places, the cycle policy or the root change. -/
  | values {g' : Graph} (hw : g'.wiring = g.wiring)
      (hroot : g'.root = g.root ∨ ∃ n node, g'.root = some n ∧ g.node? n = some node) : Change g g'
  /-- Links are removed. -/
  | unlink (dead : LinkId → Bool) : Change g (g.withoutLinks dead)
  | connect {a b : PinRef} {id : LinkId} {g' : Graph} (hfresh : g.link? id = none)
      (hc : g.connect a b id = .ok g') : Change g g'
  | insert {key : String} {d : NodeDefinition} {id : NodeId} (position : Position)
      (hfresh : g.node? id = none) (htaken : g.isTaken key = false)
      (hd : g.registry.get? key = some d) : Change g (g.insertNode (d.instantiate id position))
  /-- A node is removed, and at least the links that touch it. -/
  | erase {n : NodeId} {dead : LinkId → Bool} (hroot : g.root ≠ some n)
      (hdead : ∀ {l link}, g.link? l = some link → link.touchesNode n = true → dead l = true) :
      Change g { g.withoutLinks dead with nodes := (g.withoutLinks dead).nodes.erase n }

variable {g g' : Graph} {r : Registry} {n : NodeId} {e : Edit}

/-! ### What each edit does -/

theorem addNode?_eq_some_iff {key : String} {position : Position} {id : NodeId} :
    g.addNode? key position id = some g' ↔ g.isTaken key = false ∧
      ∃ d, g.registry.get? key = some d ∧ g.insertNode (d.instantiate id position) = g' := by
  rw [addNode?]
  cases htaken : g.isTaken key with
  | true => simp
  | false => simp [Registry.createInstance?]

theorem setRoot_eq_ok_iff :
    g.setRoot n = .ok g' ↔ (∃ node, g.node? n = some node) ∧ { g with root := some n } = g' := by
  have hnode : (∃ node, g.node? n = some node) ↔ g.hasNode n = true :=
    Option.isSome_iff_exists.symm
  rw [setRoot, hnode]
  cases g.hasNode n <;> simp

theorem Agrees.removeNode_eq_ok (h : g.Agrees) (hp : g.WellPinned)
    (hr : g.removeNode n = .ok g') : g.root ≠ some n ∧ ∃ dead : LinkId → Bool,
      (∀ {l link}, g.link? l = some link → link.touchesNode n = true → dead l = true) ∧
        { g.withoutLinks dead with nodes := (g.withoutLinks dead).nodes.erase n } = g' := by
  rw [removeNode] at hr
  split at hr
  · cases hr
  · rename_i hroot
    split at hr
    · cases hr
    -- The links are removed by the identifiers that the table has for them.
    · refine ⟨hroot, List.contains ((g.links.values.filter (·.touchesNode n)).map Link.id), ?_, ?_⟩
      · intro l link hl htouch
        rw [List.contains_iff_mem, mem_map_id_filter h.link_id]
        exact ⟨link, hl, htouch⟩
      · rw [← h.disconnectAll_eq hp]
        exact Except.ok.inj hr

/-- A refused edit is the change of nothing. -/
theorem Change.refl : Change g g := .values rfl (Or.inl rfl)

/-- Every edit of a well-linked graph is a change of one of five kinds. -/
theorem WellLinked.change_of_editStep (h : g.WellLinked) (hp : g.WellPinned)
    (hstep : EditStep g g') : Change g g' := by
  obtain ⟨e, hfresh, rfl⟩ := hstep
  -- An edit that is refused changes nothing, which is a change of values, too.
  cases e with
  | addNode key position id =>
    rw [apply]
    cases hadd : g.addNode? key position id with
    | none => exact .refl
    | some g' =>
      obtain ⟨htaken, d, hd, rfl⟩ := addNode?_eq_some_iff.mp hadd
      exact .insert position hfresh htaken hd
  | removeNode n =>
    rw [apply]
    cases hremove : g.removeNode n with
    | error => exact .refl
    | ok g' =>
      obtain ⟨hroot, dead, hdead, rfl⟩ := h.agrees.removeNode_eq_ok hp hremove
      exact .erase hroot hdead
  | connect a b id =>
    rw [apply]
    cases hconnect : g.connect a b id with
    | error => exact .refl
    | ok g' => exact .connect hfresh hconnect
  | disconnect l =>
    rw [apply, h.agrees.disconnect_eq hp]
    exact .unlink _
  | breakPin r =>
    rw [apply, breakPin, h.agrees.disconnectAll_eq hp]
    exact .unlink _
  | setProperty n name value => exact .values wiring_setProperty (Or.inl rfl)
  | setDefault r value => exact .values wiring_setDefault (Or.inl rfl)
  | setPosition n position => exact .values wiring_setPosition (Or.inl rfl)
  | setRoot n =>
    rw [apply]
    cases hroot : g.setRoot n with
    | error => exact .refl
    | ok g' =>
      obtain ⟨⟨node, hn⟩, rfl⟩ := setRoot_eq_ok_iff.mp hroot
      exact .values rfl (Or.inr ⟨n, node, rfl, hn⟩)
  | setPolicy policy => exact .values rfl (Or.inl rfl)

/-! ### What changes preserve -/

theorem unlinked_withoutLinks {dead : LinkId → Bool} :
    (g.withoutLinks dead).unlinked = g.unlinked := by
  have hpins : (g.mapPins fun _ => Pin.without dead).mapPins (fun _ => Pin.unlinked) =
      g.mapPins fun _ => Pin.unlinked := mapPins_mapPins fun _ _ => rfl
  simp only [unlinked, withoutLinks, mapPins] at hpins ⊢
  rw [(Graph.mk.inj hpins).2.2.1]

theorem unlinked_connect {a b : PinRef} {id : LinkId} (hc : g.connect a b id = .ok g') :
    g'.unlinked = g.unlinked := by
  obtain ⟨pinA, pinB, -, -, source, target, output, input, -, -, -, rfl⟩ :=
    connect_eq_ok_iff_orient.mp hc
  rw [unlinked_insertLink, unlinked_breakPin]

theorem Change.registry_eq (hc : Change g g') : g'.registry = g.registry := by
  cases hc with
  | values hw => exact (wiring_congr hw).2
  | connect _ hc => exact (unlinked_congr (unlinked_connect hc)).2
  | unlink | insert | erase => rfl

theorem WellLinked.of_change (h : g.WellLinked) (hp : g.WellPinned) (hc : Change g g') :
    g'.WellLinked := by
  cases hc with
  | values hw => exact h.of_wiring hw
  | unlink dead => exact h.withoutLinks
  | connect hfresh hc =>
    -- No link has a fresh identifier, in particular none that leads elsewhere.
    refine h.connect hp (fun link hl => ?_) hc
    rw [hfresh] at hl
    cases hl
  | insert _ hfresh =>
    exact h.insertNode hfresh fun _ hp => NodeDefinition.links_instantiate hp
  | erase _ hdead =>
    -- What is left of the links does not touch the node.
    refine h.withoutLinks.eraseNode fun {l link} hl => ?_
    obtain ⟨hl, hkept⟩ := link?_withoutLinks.mp hl
    by_contra htouch
    rw [hdead hl (Bool.not_eq_false _ ▸ htouch)] at hkept
    cases hkept

theorem Instantiated.of_change (h : g.Instantiated) (hc : Change g g') : g'.Instantiated := by
  cases hc with
  | values hw => exact h.of_eq (wiring_congr hw).1 (wiring_congr hw).2
  | unlink dead =>
    exact h.of_eq (unlinked_congr unlinked_withoutLinks).1 rfl
  | connect _ hc =>
    obtain ⟨hs, hr⟩ := unlinked_congr (unlinked_connect hc)
    exact h.of_eq hs hr
  | insert _ _ _ hd => exact h.insertNode hd rfl
  | erase =>
    refine Instantiated.eraseNode (g := g.withoutLinks _) ?_
    exact h.of_eq (unlinked_congr unlinked_withoutLinks).1 rfl

theorem Sound.of_change (h : g.Sound) (hr : g.registry.Filed) (hc : Change g g') :
    g'.Sound := by
  cases hc with
  | values hw hroot =>
    refine h.of_eq (wiring_congr hw).1 (wiring_congr hw).2 fun n hn => ?_
    -- The root is the old one or a node that was looked up.
    rcases hroot with hsame | ⟨m, node, hm, hnode⟩
    · exact h.root (hsame ▸ hn)
    · obtain rfl := Option.some_inj.mp (hm.symm.trans hn)
      exact ⟨node.skeleton, get?_skeletons_of_node? hnode⟩
  | unlink dead => exact h.of_eq (unlinked_congr unlinked_withoutLinks).1 rfl h.root
  | connect _ hc =>
    have hu := unlinked_connect hc
    have hroot : g'.unlinked.root = g.unlinked.root := congrArg Graph.root hu
    exact h.of_eq (unlinked_congr hu).1 (unlinked_congr hu).2 fun n hn => h.root (hroot ▸ hn)
  | insert _ _ htaken hd => exact h.insertNode (by rw [← hr hd] at htaken; exact htaken)
  | erase hroot =>
    refine Sound.eraseNode (g := g.withoutLinks _) ?_ hroot
    exact h.of_eq (unlinked_congr unlinked_withoutLinks).1 rfl h.root

/-! ### Graphs without links -/

theorem wellLinked_empty {name : String} : (Graph.empty name r).WellLinked where
  node_id hn := by cases hn
  link_id hl := by cases hl
  source hl := by cases hl
  target hl := by cases hl
  links_output hn := by cases hn
  links_input hn := by cases hn
  length_input hn := by cases hn

theorem instantiated_empty {name : String} : (Graph.empty name r).Instantiated := by
  intro n s hs
  cases hs

theorem sound_empty {name : String} : (Graph.empty name r).Sound where
  single n m s t hs := by cases hs
  root n hn := by cases hn

/-- A created graph comes from an empty one by at most three edits. -/
theorem Created.exists_editStep {g : Graph} (h : Created r g) :
    ∃ name, Relation.ReflTransGen EditStep (.empty name r) g := by
  -- A root node is a node that is added and then made the root.
  have hwithRoot (name key : String) (id : NodeId) :
      Relation.ReflTransGen EditStep (.empty name r) (.withRoot name r key id) := by
    rw [Graph.withRoot]
    split
    · rename_i g hadd
      have hadded : EditStep (.empty name r) g :=
        ⟨.addNode key ⟨0, 0⟩ id, rfl, by rw [apply, hadd, Option.getD_some]⟩
      have hnode : ∃ node, g.node? id = some node := by
        obtain ⟨-, d, -, rfl⟩ := addNode?_eq_some_iff.mp hadd
        exact ⟨d.instantiate id ⟨0, 0⟩, node?_insertNode.trans (if_pos rfl)⟩
      have hrooted : EditStep g { g with root := some id } :=
        ⟨.setRoot id, trivial, by rw [apply, setRoot_eq_ok_iff.mpr ⟨hnode, rfl⟩]; rfl⟩
      exact .tail (.single hadded) hrooted
    · exact .refl
  cases h with
  | empty name => exact ⟨name, .refl⟩
  | withRoot name key id => exact ⟨name, hwithRoot name key id⟩
  | ofSettings name settings id =>
    exact ⟨name, .tail (hwithRoot name _ id) ⟨.setPolicy settings.cyclePolicy, trivial, rfl⟩⟩

/-! ### Every graph that is made -/

/-- What holds of every graph over `r` that is made by edits. -/
structure Kept (r : Registry) (g : Graph) : Prop where
  registry : g.registry = r
  instantiated : g.Instantiated
  wellLinked : g.WellLinked
  sound : r.Filed → g.Sound

theorem Kept.wellPinned (h : Kept r g) (hr : r.UniquePins) : g.WellPinned :=
  h.instantiated.wellPinned (h.registry ▸ hr)

theorem Kept.change (h : Kept r g) (hr : r.UniquePins) (hstep : EditStep g g') : Change g g' :=
  h.wellLinked.change_of_editStep (h.wellPinned hr) hstep

theorem Kept.of_change (h : Kept r g) (hr : r.UniquePins) (hc : Change g g') : Kept r g' where
  registry := hc.registry_eq.trans h.registry
  instantiated := h.instantiated.of_change hc
  wellLinked := h.wellLinked.of_change (h.wellPinned hr) hc
  sound hf := (h.sound hf).of_change (h.registry ▸ hf) hc

theorem Kept.of_edits (h : Kept r g) (hr : r.UniquePins)
    (hsteps : Relation.ReflTransGen EditStep g g') : Kept r g' := by
  -- What is kept so far makes the next edit a change, and a change keeps it.
  induction hsteps with
  | refl => exact h
  | tail _ hstep ih => exact ih.of_change hr (ih.change hr hstep)

theorem kept_empty {name : String} : Kept r (Graph.empty name r) :=
  ⟨rfl, instantiated_empty, wellLinked_empty, fun _ => sound_empty⟩

theorem Authored.kept (h : Authored r g) (hr : r.UniquePins) : Kept r g := by
  obtain ⟨g₀, hcreated, hsteps⟩ := h
  obtain ⟨name, hbegin⟩ := hcreated.exists_editStep
  exact kept_empty.of_edits hr (hbegin.trans hsteps)

/-- In every graph that is made by edits, links join an output to an input that accepts its type,
and each pin lists exactly the links at it, once and in the order of the link table, an input at
most one. -/
theorem Authored.wellLinked_and_nodup (hr : r.UniquePins) (h : Authored r g) :
    g.WellLinked ∧ g.WellPinned ∧
      ∀ n node, g.node? n = some node → ∀ p ∈ node.pins, p.links.Nodup := by
  have hkept := h.kept hr
  exact ⟨hkept.wellLinked, hkept.wellPinned hr,
    fun _ _ hn _ hp => hkept.wellLinked.nodup_links hn hp⟩

theorem Created.authored (h : Created r g) : Authored r g := ⟨g, h, .refl⟩

theorem Authored.apply (h : Authored r g) (hfresh : e.IsFresh g) : Authored r (g.apply e) := by
  obtain ⟨g₀, hcreated, hsteps⟩ := h
  exact ⟨g₀, hcreated, hsteps.tail ⟨e, hfresh, rfl⟩⟩

/-- A constant linked to a bend. -/
def bentWire : Graph :=
  (((Graph.empty "bent wire" .material).apply (.addNode "Constant" ⟨0, 0⟩ ⟨⟨1⟩⟩)).apply
    (.addNode "Reroute" ⟨1, 0⟩ ⟨⟨2⟩⟩)).apply (.connect ⟨⟨⟨2⟩⟩, "Input"⟩ ⟨⟨⟨1⟩⟩, "Output"⟩ ⟨⟨3⟩⟩)

theorem authored_bentWire : Authored .material bentWire :=
  (((Created.empty "bent wire").authored.apply (by decide)).apply (by decide)).apply (by decide)

theorem acyclic_bentWire : bentWire.Acyclic :=
  acyclic_of_rank (fun n => n.uuid.value.toNat) (by decide)

theorem wellLinked_and_nodup_bentWire : Registry.material.UniquePins ∧ Authored .material bentWire ∧
    bentWire.links.keys = [⟨⟨3⟩⟩] ∧ bentWire.linksAt ⟨⟨⟨1⟩⟩, "Output"⟩ = [⟨⟨3⟩⟩] ∧
    bentWire.WellLinked ∧ bentWire.WellPinned ∧
      ∀ n node, bentWire.node? n = some node → ∀ p ∈ node.pins, p.links.Nodup :=
  ⟨Registry.uniquePins_material, authored_bentWire, by decide, by decide,
    Authored.wellLinked_and_nodup Registry.uniquePins_material authored_bentWire⟩

/-- A constant that is multiplied by itself into the base colour of a material. -/
def squaredConstant : Graph :=
  (((((Graph.ofSettings "squared constant" .material .standard ⟨⟨9⟩⟩).apply
    (.addNode "Constant" ⟨0, 0⟩ ⟨⟨1⟩⟩)).apply (.addNode "Multiply" ⟨1, 0⟩ ⟨⟨2⟩⟩)).apply
    (.connect ⟨⟨⟨1⟩⟩, "Output"⟩ ⟨⟨⟨2⟩⟩, "A"⟩ ⟨⟨3⟩⟩)).apply
    (.connect ⟨⟨⟨1⟩⟩, "Output"⟩ ⟨⟨⟨2⟩⟩, "B"⟩ ⟨⟨4⟩⟩)).apply
    (.connect ⟨⟨⟨2⟩⟩, "Result"⟩ ⟨⟨⟨9⟩⟩, "BaseColor"⟩ ⟨⟨5⟩⟩)

theorem authored_squaredConstant : Authored .material squaredConstant :=
  ((((((Created.ofSettings "squared constant" .standard ⟨⟨9⟩⟩).authored.apply
    (by decide)).apply (by decide)).apply (by decide)).apply (by decide)).apply (by decide))

theorem acyclic_squaredConstant : squaredConstant.Acyclic :=
  acyclic_of_rank (fun n => n.uuid.value.toNat) (by decide)

end Graph

end ShaderGraph
