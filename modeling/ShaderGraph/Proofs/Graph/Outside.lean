import ShaderGraph.Proofs.Graph.Refusal
import ShaderGraph.Proofs.Graph.Upstream

/-!
# Edits outside a region

A region of a graph holds with each node all that feeds it. Evaluation and export read such a region
through the nodes in it and the links into them. An edit outside may still touch the region: it
shortens or extends the lists of output pins, it moves nodes, and it takes entries out of the middle
of the link table. None of this is read.

## Main definitions

* `Graph.Region` — nodes of a graph, with all that feeds them
* `Node.reading` — what is read of a node in a region
* `Graph.Alike` — two graphs in which the nodes of a region and the links into them read alike
* `Edit.IsOutside` — an edit that only concerns what lies outside a region

## Main results

* `Agrees.region_dependencyOrder` — what a node depends on is a region
* `Agrees.alike_apply` — an edit outside a region leaves it as it reads
-/

namespace ShaderGraph

/-- What evaluation and export read of a node: all but its place and the lists of its outputs. -/
def Node.reading (n : Node) : Node :=
  { n with position := ⟨0, 0⟩, outputs := n.outputs.map Pin.skeleton }

/-- A change that the first pin with an identifier ignores, the whole list ignores. -/
theorem Pin.modifyIn_eq_self {id : String} {f : Pin → Pin} {ps : List Pin}
    (h : ∀ p ∈ ps, p.id = id → f p = p) : Pin.modifyIn id f ps = ps := by
  induction ps with
  | nil => rfl
  | cons p ps ih =>
    rw [Pin.modifyIn]
    split
    · rename_i hid
      rw [h p List.mem_cons_self hid]
    · rw [ih fun q hq => h q (List.mem_cons_of_mem p hq)]

/-- The links at the outputs of a node are not read, and those at its inputs are where they were. -/
theorem Node.reading_modifyPin {n : Node} {id : String} {f : Pin → Pin}
    (hf : ∀ p, (f p).skeleton = p.skeleton) (h : ∀ p ∈ n.inputs, p.id = id → f p = p) :
    (n.modifyPin id f).reading = n.reading := by
  rw [modifyPin]
  split
  · rw [Pin.modifyIn_eq_self h]
  · simp only [reading, Pin.map_modifyIn hf]

namespace Graph

/-- Nodes of a graph, with all that feeds them. -/
structure Region (g : Graph) (inside : NodeId → Prop) : Prop where
  node : ∀ ⦃n⦄, inside n → ∃ node, g.node? n = some node
  closed : ∀ ⦃m n⦄, g.Feeds m n → inside n → inside m

/-- Two graphs of one name over one registry in which the nodes inside a region read alike, and so
does every selection from the table of links into them. -/
structure Alike (inside : NodeId → Prop) (g g' : Graph) : Prop where
  name : g'.name = g.name
  registry : g'.registry = g.registry
  node : ∀ ⦃n⦄, inside n → (g'.node? n).map Node.reading = (g.node? n).map Node.reading
  links : ∀ ⦃q : Link → Bool⦄, (∀ link, q link = true → inside link.target.node) →
    (g'.links.filter fun _ => q) = g.links.filter fun _ => q

/-- A pin that counts as an input: it stands among the inputs of its node or is declared as one. -/
def IsInput (g : Graph) (r : PinRef) : Prop :=
  (∃ p, g.input? r = some p) ∨ ∃ p, g.pin? r = some p ∧ p.direction = .input

end Graph

/-- An edit only concerns what lies outside a region: a node outside, a pin of such a node, or a
link into it. Nodes may come and move anywhere. -/
def Edit.IsOutside (g : Graph) (inside : NodeId → Prop) : Edit → Prop
  | .addNode .. | .setPosition .. | .setRoot _ | .setPolicy _ => True
  | .removeNode n | .setProperty n .. => ¬ inside n
  | .setDefault r _ => ¬ inside r.node
  | .connect a b _ => ∀ r, r = a ∨ r = b → g.IsInput r → ¬ inside r.node
  | .disconnect l => ∀ link, g.link? l = some link → ¬ inside link.target.node
  | .breakPin r => ∀ l ∈ g.linksAt r, ∀ link, g.link? l = some link → ¬ inside link.target.node

namespace Graph

variable {g g' g'' : Graph} {inside : NodeId → Prop} {n root : NodeId} {node : Node} {l : LinkId}
  {ls : List LinkId} {link : Link} {r : PinRef} {p : Pin} {e : Edit}

/-- What a node depends on, it included, is a region. -/
theorem Agrees.region_dependencyOrder (h : g.Agrees) (hroot : g.node? root = some node) :
    g.Region (· ∈ g.dependencyOrder root) where
  node n hn := by
    rcases ((h.mem_dependencyOrder_iff hroot).mp hn).cases_head with rfl | ⟨m, hm, -⟩
    · exact ⟨node, hroot⟩
    · exact h.exists_node?_of_feeds hm
  closed m n hm hn := by
    rw [h.mem_dependencyOrder_iff hroot] at hn ⊢
    exact .head hm hn

/-! ### Regions that read alike -/

namespace Alike

theorem refl : Alike inside g g := ⟨rfl, rfl, fun _ _ => rfl, fun _ _ => rfl⟩

theorem trans (h : Alike inside g g') (h' : Alike inside g' g'') : Alike inside g g'' where
  name := h'.name.trans h.name
  registry := h'.registry.trans h.registry
  node _ hn := (h'.node hn).trans (h.node hn)
  links _ hq := (h'.links hq).trans (h.links hq)

/-- A node inside has a counterpart that reads alike. -/
theorem exists_node? (h : Alike inside g g') (hin : inside n) (hn : g.node? n = some node) :
    ∃ node', g'.node? n = some node' ∧ node'.reading = node.reading := by
  have hnode := h.node hin
  rwa [hn, Option.map_some, Option.map_eq_some_iff] at hnode

/-- The graphs have the same links into the region under the same identifiers. -/
theorem link?_eq_some_iff (h : Alike inside g g') (hin : inside link.target.node) :
    g'.link? l = some link ↔ g.link? l = some link := by
  have hq : ∀ link', (link' == link) = true → inside link'.target.node := by
    intro link' he
    rwa [beq_iff_eq.mp he]
  have hfilter (k : Graph) : k.link? l = some link ↔
      (k.links.filter fun _ => (· == link)).get? l = some link := by
    rw [Table.get?_filter, link?]
    simp
  rw [hfilter, hfilter, h.links hq]

/-- Nodes inside have the same input pins. -/
theorem input?_eq (h : Alike inside g g') (hin : inside r.node) : g'.input? r = g.input? r := by
  have hreading (k : Graph) :
      k.input? r = ((k.node? r.node).map Node.reading).bind (·.input? r.pin) := by
    rw [Graph.input?]
    cases k.node? r.node <;> rfl
  rw [hreading, hreading, h.node hin]

/-- The same link leads into a pin inside. -/
theorem linkInto?_eq (h : Alike inside g g') (hin : inside r.node) :
    g'.linkInto? r = g.linkInto? r := by
  have hfilter (k : Graph) :
      k.linkInto? r = (k.links.filter fun _ => (·.target == r)).values.head? := by
    rw [linkInto?, ← List.head?_filter, Table.values, Table.values, Table.entries_filter,
      List.filter_map]
    rfl
  have hq : ∀ link : Link, (link.target == r) = true → inside link.target.node := by
    intro link he
    rwa [beq_iff_eq.mp he]
  rw [hfilter, hfilter, h.links hq]

end Alike

/-! ### Changes that are not read -/

/-- What is not read of a node inside may change, and all that is outside. -/
theorem alike_modifyNode {f : Node → Node}
    (hf : inside n → ∀ node, g.node? n = some node → (f node).reading = node.reading) :
    Alike inside g (g.modifyNode n f) where
  name := rfl
  registry := rfl
  node m hm := by
    rw [node?, node?, modifyNode, Table.get?_modify]
    split
    · rename_i he
      obtain rfl := he
      cases hnode : g.nodes.get? m with
      | none => rfl
      | some node =>
        rw [Option.map_some, Option.map_some, Option.map_some, hf hm node hnode]
    · rfl
  links _ _ := rfl

theorem alike_insertNode (hn : ¬ inside node.id) : Alike inside g (g.insertNode node) where
  name := rfl
  registry := rfl
  node m hm := by
    have hne : m ≠ node.id := fun he => hn (he ▸ hm)
    rw [node?_insertNode, if_neg hne]
  links _ _ := rfl

theorem alike_eraseNode (hn : ¬ inside n) : Alike inside g { g with nodes := g.nodes.erase n } where
  name := rfl
  registry := rfl
  node m hm := by
    have hne : m ≠ n := fun he => hn (he ▸ hm)
    rw [node?_eraseNode, if_neg hne]
  links _ _ := rfl

/-- A graph that reads alike has the same pins at the inputs of the nodes inside. -/
theorem Alike.inputs_eq (h : Alike inside g g') (hin : inside n) (hn : g'.node? n = some node) :
    ∃ node', g.node? n = some node' ∧ node'.inputs = node.inputs := by
  have hnode := h.node hin
  rw [hn, Option.map_some, eq_comm, Option.map_eq_some_iff] at hnode
  obtain ⟨node', hn', hread⟩ := hnode
  exact ⟨node', hn', (congrArg Node.inputs hread :)⟩

/-! ### Links outside -/

/-- Links into the outside are not missed inside. -/
theorem Agrees.alike_withoutLinks {dead : LinkId → Bool} (h : g.Agrees)
    (hdead : ∀ {l link}, g.link? l = some link → inside link.target.node → dead l = false) :
    Alike inside g (g.withoutLinks dead) where
  name := rfl
  registry := rfl
  node n hin := by
    rw [node?_withoutLinks]
    cases hn : g.node? n with
    | none => rfl
    | some node =>
      have hinputs : node.inputs.map (Pin.without dead) = node.inputs := by
        refine (List.map_congr_left fun p hp => ?_).trans (List.map_id' _)
        refine Pin.without_eq_self fun l hl => ?_
        obtain ⟨link, hlink, htarget⟩ := (h.mem_input hn hp).mp hl
        exact hdead hlink (by rwa [htarget])
      have houtputs : (node.outputs.map (Pin.without dead)).map Pin.skeleton =
          node.outputs.map Pin.skeleton := List.map_map
      simp only [Option.map_some, Node.reading, Node.mapPins, hinputs, houtputs]
  links q hq := by
    rw [Graph.withoutLinks, Table.filter_filter]
    apply Table.ext
    refine List.filter_congr fun e he => ?_
    dsimp only
    cases hqe : q e.2 with
    | false => rw [Bool.and_false]
    | true =>
      rw [hdead (Table.get?_eq_some_iff.mpr he) (hq e.2 hqe)]
      rfl

/-- A link into the outside that is removed is not missed inside. `g` is the graph that agrees, `g'`
what is left of it after some removals. -/
theorem Agrees.alike_disconnect (h : g.Agrees) (halike : Alike inside g g')
    (hlinks : ∀ {l link}, g'.link? l = some link → g.link? l = some link)
    (hl : ∀ link, g.link? l = some link → ¬ inside link.target.node) :
    Alike inside g (g'.disconnect l) := by
  rw [disconnect]
  cases hlink : g'.link? l with
  | none => exact halike
  | some link =>
    have hout := hl link (hlinks hlink)
    have herase : Alike inside g' { g' with links := g'.links.erase l } := by
      refine ⟨rfl, rfl, fun _ _ => rfl, fun q hq => Table.filter_erase fun link' hlink' => ?_⟩
      obtain rfl := Option.some_inj.mp (hlink.symm.trans hlink')
      exact Bool.eq_false_iff.mpr fun hin => hout (hq _ hin)
    -- No input pin inside lists a link into the outside.
    have hsource : Alike inside { g' with links := g'.links.erase l }
        ({ g' with links := g'.links.erase l }.modifyPin link.source (·.detach l)) := by
      refine alike_modifyNode fun hin node hn => ?_
      refine Node.reading_modifyPin (fun _ => rfl) fun p hp _ => ?_
      obtain ⟨node', hn', hinputs⟩ := halike.inputs_eq hin hn
      rw [Pin.detach_eq_without]
      refine Pin.without_eq_self fun l' hl' => beq_eq_false_iff_ne.mpr ?_
      rintro rfl
      obtain ⟨link', hlink', htarget⟩ := (h.mem_input hn' (hinputs ▸ hp)).mp hl'
      exact hl link' hlink' (by rwa [htarget])
    exact halike.trans (herase.trans (hsource.trans
      (alike_modifyNode fun hin => absurd hin hout)))

theorem Agrees.alike_disconnectAll (h : g.Agrees)
    (hls : ∀ l ∈ ls, ∀ link, g.link? l = some link → ¬ inside link.target.node) :
    Alike inside g (g.disconnectAll ls) := by
  -- For the induction, some links may have been removed before.
  have hrest : ∀ g', Alike inside g g' →
      (∀ {l link}, g'.link? l = some link → g.link? l = some link) →
      Alike inside g (g'.disconnectAll ls) := by
    induction ls with
    | nil => exact fun g' halike _ => halike
    | cons l ls ih =>
      intro g' halike hlinks
      refine ih (fun l' hl' => hls l' (List.mem_cons_of_mem l hl')) (g'.disconnect l)
        (h.alike_disconnect halike hlinks (hls l List.mem_cons_self)) fun {l' link} hl' => ?_
      rw [link?_disconnect] at hl'
      split at hl'
      · cases hl'
      · exact hlinks hl'
  exact hrest g .refl id

/-- All links at a pin outside lead into the outside. -/
theorem Region.of_mem_linksAt (hregion : g.Region inside) (h : g.Agrees) (hr : ¬ inside r.node)
    (hl : l ∈ g.linksAt r) (hlink : g.link? l = some link) : ¬ inside link.target.node := by
  have hmem : link ∈ g.links.values := Table.mem_values_iff.mpr ⟨l, hlink⟩
  rw [linksAt] at hl
  cases hp : g.pin? r with
  | none =>
    rw [hp] at hl
    cases hl
  | some p =>
    rw [hp] at hl
    obtain ⟨node, hn, hp⟩ := Option.bind_eq_some_iff.mp hp
    have hpins : p ∈ node.pins := by
      rw [Node.pin?, Option.orElse_eq_orElse, Option.orElse_eq_or, Option.or_eq_some_iff] at hp
      rcases hp with hp | ⟨-, hp⟩
      · exact List.mem_append_left _ (List.mem_of_find?_eq_some hp)
      · exact List.mem_append_right _ (List.mem_of_find?_eq_some hp)
    obtain ⟨link', hlink', hends⟩ := h.exists_link_of_mem hn hpins hl
    obtain rfl := Option.some_inj.mp (hlink.symm.trans hlink')
    intro hin
    rcases hends with hsource | htarget
    -- What an outside node feeds lies outside, too.
    · exact hr (hregion.closed ⟨link, hmem, by rw [hsource], rfl⟩ hin)
    · rw [htarget] at hin
      exact hr hin

/-- A fresh link into the outside is not noticed inside, if it does not leave an input pin there. -/
theorem alike_insertLink (hfresh : g.link? link.id = none)
    (hsource : inside link.source.node → g.input? link.source = none)
    (hout : ¬ inside link.target.node) : Alike inside g (g.insertLink link) := by
  have hattach : Alike inside g (g.modifyPin link.source (·.attach link.id)) := by
    refine alike_modifyNode fun hin node hn => ?_
    refine Node.reading_modifyPin (fun _ => rfl) fun p hp hid => ?_
    have hnone := hsource hin
    rw [input?, hn, Option.bind_some, Node.input?, List.find?_eq_none] at hnone
    exact absurd (beq_iff_eq.mpr hid) (hnone p hp)
  have htarget : Alike inside (g.modifyPin link.source (·.attach link.id))
      ((g.modifyPin link.source (·.attach link.id)).modifyPin link.target (·.attach link.id)) :=
    alike_modifyNode fun hin => absurd hin hout
  refine (hattach.trans htarget).trans
    ⟨rfl, rfl, fun _ _ => rfl, fun q hq => Table.filter_insert_of_get?_eq_none hfresh ?_⟩
  exact Bool.eq_false_iff.mpr fun hin => hout (hq _ hin)

theorem Agrees.alike_connect {a b : PinRef} {id : LinkId} (h : g.Agrees)
    (hregion : g.Region inside) (hfresh : g.link? id = none)
    (hout : ∀ r, r = a ∨ r = b → g.IsInput r → ¬ inside r.node)
    (hc : g.connect a b id = .ok g') : Alike inside g g' := by
  obtain ⟨pinA, pinB, ha, hb, source, target, output, input, horient, -, -, rfl⟩ :=
    connect_eq_ok_iff_orient.mp hc
  -- One end is declared an input; if the other stands among the inputs, it lies outside as well.
  have hends : (source = a ∨ source = b) ∧ ¬ inside target.node := by
    rcases orient_eq_some_iff.mp horient with ⟨⟨rfl, rfl⟩, ⟨-, hd⟩, -⟩ | ⟨⟨rfl, rfl⟩, ⟨-, hd⟩, -⟩
    · exact ⟨Or.inl rfl, hout target (Or.inr rfl) (Or.inr ⟨pinB, hb, hd⟩)⟩
    · exact ⟨Or.inr rfl, hout target (Or.inl rfl) (Or.inr ⟨pinA, ha, hd⟩)⟩
  obtain ⟨hsource, htarget⟩ := hends
  have hbroken : Alike inside g (g.breakPin target) :=
    h.alike_disconnectAll fun l hl link hlink => hregion.of_mem_linksAt h htarget hl hlink
  refine hbroken.trans (alike_insertLink ?_ (fun hin => ?_) htarget)
  · rw [Option.eq_none_iff_forall_not_mem]
    intro link hlink
    rw [Option.mem_def.mp (link?_of_disconnectAll hlink)] at hfresh
    cases hfresh
  · have hnone : g.input? source = none := by
      rw [Option.eq_none_iff_forall_not_mem]
      exact fun p hp => hout source hsource (Or.inl ⟨p, hp⟩) hin
    rw [← Option.map_eq_none_iff (f := Pin.unlinked), ← input?_unlinked, unlinked_breakPin,
      input?_unlinked, hnone, Option.map_none]

theorem Agrees.alike_removeNode (h : g.Agrees) (hregion : g.Region inside) (hn : ¬ inside n) :
    Alike inside g (g.apply (.removeNode n)) := by
  rw [apply, removeNode]
  split
  · exact .refl
  · split
    · exact .refl
    · refine Alike.trans (h.alike_disconnectAll fun l hl link hlink hin => ?_) (alike_eraseNode hn)
      obtain ⟨link', hlink', htouch⟩ := (mem_map_id_filter h.link_id).mp hl
      obtain rfl := Option.some_inj.mp (hlink.symm.trans hlink')
      have hfeeds : g.Feeds link.source.node link.target.node :=
        ⟨link, Table.mem_values_iff.mpr ⟨l, hlink⟩, rfl, rfl⟩
      rw [Link.touchesNode, Bool.or_eq_true, beq_iff_eq, beq_iff_eq] at htouch
      rcases htouch with hsource | htarget
      · exact hn (hsource ▸ hregion.closed hfeeds hin)
      · exact hn (htarget ▸ hin)

/-- An edit outside a region leaves it as it reads. -/
theorem Agrees.alike_apply (h : g.Agrees) (hregion : g.Region inside) (hfresh : e.IsFresh g)
    (hout : e.IsOutside g inside) : Alike inside g (g.apply e) := by
  cases e with
  | addNode key position id =>
    rw [apply]
    cases hadd : g.addNode? key position id with
    | none => exact .refl
    | some g' =>
      obtain ⟨-, d, -, rfl⟩ := addNode?_eq_some_iff.mp hadd
      refine alike_insertNode fun hin => ?_
      obtain ⟨node, hn⟩ := hregion.node hin
      exact Option.some_ne_none node (hn.symm.trans hfresh)
  | removeNode n => exact h.alike_removeNode hregion hout
  | connect a b id =>
    rw [apply]
    cases hc : g.connect a b id with
    | error => exact .refl
    | ok g' => exact h.alike_connect hregion hfresh hout hc
  | disconnect l => exact h.alike_disconnect .refl id hout
  | breakPin r => exact h.alike_disconnectAll hout
  | setProperty n name value => exact alike_modifyNode fun hin => absurd hin hout
  | setDefault r value => exact alike_modifyNode fun hin => absurd hin hout
  | setPosition n position => exact alike_modifyNode fun _ _ _ => rfl
  | setRoot n =>
    rw [apply]
    cases hset : g.setRoot n with
    | error => exact .refl
    | ok g' =>
      obtain ⟨-, rfl⟩ := setRoot_eq_ok_iff.mp hset
      exact ⟨rfl, rfl, fun _ _ => rfl, fun _ _ => rfl⟩
  | setPolicy policy => exact ⟨rfl, rfl, fun _ _ => rfl, fun _ _ => rfl⟩

end Graph

end ShaderGraph
