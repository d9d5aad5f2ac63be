import ShaderGraph.Proofs.Evaluation.Step
import ShaderGraph.Proofs.Graph.Outside
import ShaderGraph.Proofs.Shader

/-!
# Materials and code are local

The material at a node and its code are made from what the node depends on. Two graphs that read
alike there give the same material, with the same trace, and the same text, however they differ
elsewhere. As the rest of a graph takes part in the bounds on the depth, two runs are compared that
may go to different depths.

## Main definitions

* `Graph.ReadsAlike` — an input pin of two graphs whose links come from a region that reads alike

## Main results

* `Alike.visit_eq`, `Alike.dependencyOrder_eq` — the walk against the links is the same
* `Alike.resolveInput_eq` — so is the resolving of an input pin
* `Alike.evaluateTraced_eq`, `Alike.export_eq` — so are a material and its code
* `Agrees.evaluateTraced_and_export_apply` — an edit outside of what a node depends on shows in
  neither
-/

namespace ShaderGraph

/-! ### What is read of a node -/

section

variable {n n' : Node} {g : Graph}

theorem Graph.feeding_congr (h : n'.reading = n.reading) : g.feeding n' = g.feeding n := by
  have hinputs : n'.inputs = n.inputs := (congrArg Node.inputs h :)
  rw [feeding, feeding, hinputs]

theorem Node.input?_congr (h : n'.reading = n.reading) (pin : String) :
    n'.input? pin = n.input? pin := by
  have hinputs : n'.inputs = n.inputs := (congrArg Node.inputs h :)
  rw [input?, input?, hinputs]

theorem Evaluator.evaluateNode_congr {m : Type → Type} [Monad m] {ev : Evaluator} {output : String}
    {read : String → m (Option Evaluated)} (h : n'.reading = n.reading) :
    ev.evaluateNode n' output read = ev.evaluateNode n output read := by
  have hreading (k : Node) :
      ev.evaluateNode k.reading output read = ev.evaluateNode k output read := rfl
  rw [← hreading, h, hreading]

theorem Shader.placeholderText?_congr (h : n'.reading = n.reading) :
    placeholderText? n' = placeholderText? n := by
  have hreading (k : Node) : placeholderText? k.reading = placeholderText? k := rfl
  rw [← hreading, h, hreading]

/-- The outputs of a node are named in its code, but their lists are not read. -/
theorem Shader.aliases_congr {included : List NodeId} (h : n'.reading = n.reading) :
    aliases g included n' = aliases g included n := by
  have hreading (k : Node) : aliases g included k.reading = aliases g included k := by
    rw [aliases, aliases, Node.reading, List.flatMap_map]
    rfl
  rw [← hreading, h, hreading]

end

namespace Graph

variable {g g' : Graph} {inside : NodeId → Prop} {n root : NodeId} {node node' : Node}
  {path ns : List NodeId} {depth depth' : Nat} {w : Walk}

/-- What a node in the region lists is a link from the region, under the same identifier in both
graphs. -/
theorem Alike.exists_link? {p : Pin} {l : LinkId} (h : Alike inside g g') (hagrees : g.Agrees)
    (hregion : g.Region inside) (hin : inside n) (hn : g.node? n = some node) (hp : p ∈ node.inputs)
    (hl : l ∈ p.links) :
    ∃ link, g.link? l = some link ∧ g'.link? l = some link ∧ inside link.source.node := by
  obtain ⟨link, hlink, htarget⟩ := (hagrees.mem_input hn hp).mp hl
  have hin' : inside link.target.node := by rwa [htarget]
  refine ⟨link, hlink, (h.link?_eq_some_iff hin').mpr hlink, ?_⟩
  exact hregion.closed ⟨link, Table.mem_values_iff.mpr ⟨l, hlink⟩, rfl, rfl⟩ hin'

/-! ### The walk against the links -/

theorem Alike.feeding_eq (h : Alike inside g g') (hagrees : g.Agrees) (hregion : g.Region inside)
    (hin : inside n) (hn : g.node? n = some node) : g'.feeding node = g.feeding node := by
  refine List.filterMap_congr fun l hl => ?_
  obtain ⟨p, hp, hl⟩ := List.mem_flatMap.mp hl
  obtain ⟨link, hlink, hlink', -⟩ := h.exists_link? hagrees hregion hin hn hp hl
  rw [hlink, hlink']

theorem subset_entered_visit : w.entered ⊆ (g.visit depth w n).entered := by
  induction depth generalizing w n with
  | zero => exact List.Subset.refl _
  | succ depth ih =>
    have hfoldl (ns : List NodeId) (w : Walk) :
        w.entered ⊆ (ns.foldl (g.visit depth) w).entered := by
      induction ns generalizing w with
      | nil => exact List.Subset.refl _
      | cons n ns ihns => exact List.Subset.trans ih (ihns _)
    rw [visit]
    split
    · exact List.Subset.refl _
    · split
      · exact List.subset_cons_self n _
      · rename_i node _
        have hfeeding := hfoldl (g.feeding node) { w with entered := n :: w.entered }
        exact List.Subset.trans (List.subset_cons_self n _) hfeeding

/-- The walk through a region is the same in a graph that reads alike, with whatever depth there is
in either graph for the nodes that are open. -/
theorem Alike.visit_eq (h : Alike inside g g') (hagrees : g.Agrees) (hregion : g.Region inside)
    (hin : inside n) (hroom : g.Room depth path) (hroom' : g'.Room depth' path)
    (hpath : path ⊆ w.entered) : g'.visit depth' w n = g.visit depth w n := by
  induction depth generalizing depth' path w n with
  | zero => exact absurd rfl hroom.depth_ne_zero
  | succ depth ih =>
    obtain ⟨depth', rfl⟩ := Nat.exists_eq_succ_of_ne_zero hroom'.depth_ne_zero
    obtain ⟨node, hn⟩ := hregion.node hin
    obtain ⟨node', hn', hread⟩ := h.exists_node? hin hn
    rw [visit, visit]
    split
    · rfl
    · rename_i hnew
      have hfeeding : g'.feeding node' = g.feeding node :=
        (feeding_congr hread).trans (h.feeding_eq hagrees hregion hin hn)
      have hopen : n ∉ path := fun hmem => hnew (hpath hmem)
      -- What feeds the node is visited with the node open.
      have hfoldl (ns : List NodeId) (hns : ∀ m ∈ ns, inside m) (w : Walk)
          (hw : n :: path ⊆ w.entered) :
          ns.foldl (g'.visit depth') w = ns.foldl (g.visit depth) w := by
        induction ns generalizing w with
        | nil => rfl
        | cons m ns ihns =>
          rw [List.foldl_cons, List.foldl_cons, ih (hns m List.mem_cons_self)
            (hroom.cons hn hopen) (hroom'.cons hn' hopen) hw]
          exact ihns (fun k hk => hns k (List.mem_cons_of_mem m hk)) _
            (List.Subset.trans hw subset_entered_visit)
      have hfeeds : ∀ m ∈ g.feeding node, inside m := fun m hm =>
        hregion.closed ((hagrees.mem_feeding_iff hn).mp hm) hin
      rw [hn, hn']
      dsimp only
      rw [hfeeding, hfoldl _ hfeeds _ (List.cons_subset_cons n hpath)]

/-- A node of the region depends on the same nodes in the same order. -/
theorem Alike.dependencyOrder_eq (h : Alike inside g g') (hagrees : g.Agrees)
    (hregion : g.Region inside) (hroot : inside root) :
    g'.dependencyOrder root = g.dependencyOrder root := by
  obtain ⟨node, hn⟩ := hregion.node hroot
  obtain ⟨node', hn', -⟩ := h.exists_node? hroot hn
  rw [Graph.dependencyOrder_eq hn, Graph.dependencyOrder_eq hn',
    h.visit_eq hagrees hregion hroot .nil .nil (List.nil_subset _)]

end Graph

/-! ### Evaluation -/

namespace Graph

/-- An input pin of a node that is the same in two graphs, as are the links that it lists; these
come from inside a region. -/
structure ReadsAlike (inside : NodeId → Prop) (g g' : Graph) (node node' : Node) (pin : String) :
    Prop where
  id : node'.id = node.id
  input : node'.input? pin = node.input? pin
  links : ∀ ⦃p l⦄, node.input? pin = some p → l ∈ p.links →
    ∃ link, g.link? l = some link ∧ g'.link? l = some link ∧ inside link.source.node

variable {g g' : Graph} {inside : NodeId → Prop} {n root : NodeId} {node node' : Node}
  {depth depth' : Nat} {visited : List PinRef} {ev : Evaluator}

/-- Every input pin of a node in the region reads alike. -/
theorem Alike.readsAlike (h : Alike inside g g') (hagrees : g.Agrees) (hregion : g.Region inside)
    (hin : inside n) (hn : g.node? n = some node) (hread : node'.reading = node.reading)
    (pin : String) : ReadsAlike inside g g' node node' pin where
  id := (congrArg Node.id hread :)
  input := Node.input?_congr hread pin
  links _ _ hp hl :=
    h.exists_link? hagrees hregion hin hn (List.mem_of_find?_eq_some hp) hl

/-- An input pin that reads alike is resolved alike, from any scope and with whatever depth there is
in either graph for the pins that are being resolved. -/
theorem Alike.resolveInput_eq (h : Alike inside g g') (hagrees : g.Agrees)
    (hregion : g.Region inside) {pin : String} (hn : g.node? n = some node)
    (hn' : g'.node? n = some node') (hpin : ReadsAlike inside g g' node node' pin)
    (hnest : g.Nesting depth visited) (hnest' : g'.Nesting depth' visited) :
    ev.resolveInput g' depth' visited node' pin = ev.resolveInput g depth visited node pin := by
  induction depth generalizing depth' visited n node node' pin with
  | zero => exact absurd rfl hnest.depth_ne_zero
  | succ depth ih =>
    obtain ⟨depth', rfl⟩ := Nat.exists_eq_succ_of_ne_zero hnest'.depth_ne_zero
    rw [Evaluator.resolveInput, Evaluator.resolveInput, hpin.id, hpin.input]
    split
    · rfl
    · rename_i hnew
      cases hp : node.input? pin with
      | none => rfl
      | some p =>
        dsimp only
        cases hlinks : p.links with
        | nil => rfl
        | cons l ls =>
          obtain ⟨link, hlink, hlink', hin⟩ := hpin.links hp (hlinks ▸ List.mem_cons_self)
          obtain ⟨producer, hproducer⟩ := hregion.node hin
          obtain ⟨producer', hproducer', hread⟩ := h.exists_node? hin hproducer
          have hid : producer'.id = producer.id := (congrArg Node.id hread :)
          have href' := mem_inputRefs hn' (hpin.input.trans hp)
          rw [hpin.id] at href'
          -- The inputs of the producer read alike, and so does the producer.
          have hreader : ev.resolveInput g' depth' (⟨node.id, pin⟩ :: visited) producer' =
              ev.resolveInput g depth (⟨node.id, pin⟩ :: visited) producer := by
            funext pin'
            exact ih hproducer hproducer'
              (h.readsAlike hagrees hregion hin hproducer hread pin')
              (hnest.cons hnew (mem_inputRefs hn hp)) (hnest'.cons hnew href')
          have hrun (output : String) : ev.runNode producer' output
                (ev.resolveInput g' depth' (⟨node.id, pin⟩ :: visited) producer') =
              ev.runNode producer output
                (ev.resolveInput g depth (⟨node.id, pin⟩ :: visited) producer) := by
            rw [Evaluator.runNode, Evaluator.runNode, hid, hreader,
              Evaluator.evaluateNode_congr hread]
          simp only [hlink, hlink', hproducer, hproducer', hrun]

/-- The material at a node of the region is the same, and so is what happens on the way. -/
theorem Alike.evaluateTraced_eq (h : Alike inside g g') (hagrees : g.Agrees)
    (hregion : g.Region inside) (hroot : inside root) :
    ev.evaluateTraced g' root = ev.evaluateTraced g root := by
  obtain ⟨node, hn⟩ := hregion.node hroot
  obtain ⟨node', hn', hread⟩ := h.exists_node? hroot hn
  have hinputs : node'.inputs = node.inputs := (congrArg Node.inputs hread :)
  have hassign : ev.assignInput g' node' = ev.assignInput g node := by
    funext a p
    rw [Evaluator.assignInput, Evaluator.assignInput, h.resolveInput_eq hagrees hregion hn hn'
      (h.readsAlike hagrees hregion hroot hn hread p.id) .nil .nil]
  rw [Evaluator.evaluateTraced, Evaluator.evaluateTraced, hn, hn']
  dsimp only
  rw [hinputs, hassign]

end Graph

/-! ### Code -/

namespace Shader

open ShaderGraph.Graph

variable {g g' : Graph} {inside : NodeId → Prop} {n root : NodeId} {node : Node}
  {included : List NodeId}

/-- The links from a pin into the region are the same, in the order of the link table. -/
theorem exportedLinks_eq (h : Alike inside g g') (hincluded : ∀ k ∈ included, inside k)
    (p : PinRef) : exportedLinks g' included p = exportedLinks g included p := by
  have hvalues (k : Graph) : exportedLinks k included p = (k.links.filter fun _ link =>
      decide (link.target.node ∈ included) && link.source == p).values := by
    rw [exportedLinks, linksFrom, List.filter_filter, Table.values, Table.values,
      Table.entries_filter, List.filter_map]
    rfl
  rw [hvalues, hvalues, h.links fun link hlink => ?_]
  rw [Bool.and_eq_true, decide_eq_true_eq] at hlink
  exact hincluded _ hlink.1

theorem nodeSection_eq (h : Alike inside g g') (hincluded : ∀ k ∈ included, inside k)
    (hin : inside n) (hn : g.node? n = some node) :
    nodeSection g' included n = nodeSection g included n := by
  obtain ⟨node', hn', hread⟩ := h.exists_node? hin hn
  have hid : node'.id = node.id := (congrArg Node.id hread :)
  have hkey : node'.key = node.key := (congrArg Node.key hread :)
  have htitle : node'.title = node.title := (congrArg Node.title hread :)
  have hsnippet : snippet? g' n = snippet? g n := by
    rw [snippet?, snippet?, hn, hn']
    simp only [Option.bind_eq_bind, Option.bind_some, definition?, h.registry, hkey,
      placeholderText?_congr hread]
  have haliases : aliases g' included node' = aliases g included node := by
    rw [aliases_congr hread, aliases, aliases]
    simp only [exportedLinks_eq h hincluded]
  rw [nodeSection, nodeSection, hn, hn', hsnippet]
  cases snippet? g n with
  | none => rfl
  | some code =>
    dsimp only
    rw [htitle, hid, haliases]

end Shader

namespace Graph

variable {g g' : Graph} {inside : NodeId → Prop} {root : NodeId} {node : Node} {e : Edit}

/-- The code of a node of the region is the same. -/
theorem Alike.export_eq (h : Alike (· ∈ g.dependencyOrder root) g g') (hagrees : g.Agrees)
    (hroot : g.node? root = some node) : Shader.export g' root = Shader.export g root := by
  have hregion := hagrees.region_dependencyOrder hroot
  have hself : root ∈ g.dependencyOrder root :=
    (hagrees.mem_dependencyOrder_iff hroot).mpr .refl
  have hsections : (g.dependencyOrder root).map (Shader.nodeSection g' (g.dependencyOrder root)) =
      (g.dependencyOrder root).map (Shader.nodeSection g (g.dependencyOrder root)) := by
    refine List.map_congr_left fun n hn => ?_
    obtain ⟨node, hnode⟩ := hregion.node hn
    exact Shader.nodeSection_eq h (fun _ hk => hk) hn hnode
  rw [Shader.export, Shader.export, h.name, h.dependencyOrder_eq hagrees hregion hself, hsections]

/-- An edit outside of what a node depends on shows neither in the material at the node, nor in what
happens during its evaluation, nor in its code. -/
theorem Agrees.evaluateTraced_and_export_apply (h : g.Agrees) (hroot : g.node? root = some node)
    (hfresh : e.IsFresh g) (hout : e.IsOutside g (· ∈ g.dependencyOrder root)) :
    (∀ ev : Evaluator, ev.evaluateTraced (g.apply e) root = ev.evaluateTraced g root) ∧
      Shader.export (g.apply e) root = Shader.export g root := by
  have hregion := h.region_dependencyOrder hroot
  have halike := h.alike_apply hregion hfresh hout
  have hself : root ∈ g.dependencyOrder root := (h.mem_dependencyOrder_iff hroot).mpr .refl
  exact ⟨fun ev => halike.evaluateTraced_eq h hregion hself, halike.export_eq h hroot⟩

/-- A constant linked to two bends. -/
def forkedWire : Graph :=
  (bentWire.apply (.addNode "Reroute" ⟨1, 1⟩ ⟨⟨4⟩⟩)).apply
    (.connect ⟨⟨⟨4⟩⟩, "Input"⟩ ⟨⟨⟨1⟩⟩, "Output"⟩ ⟨⟨5⟩⟩)

theorem authored_forkedWire : Authored .material forkedWire :=
  (authored_bentWire.apply (by decide)).apply (by decide)

/-- The other bend goes, and with it a link that leaves the same constant. -/
theorem evaluateTraced_and_export_apply_forkedWire : forkedWire.Agrees ∧
    forkedWire.dependencyOrder ⟨⟨2⟩⟩ = [⟨⟨1⟩⟩, ⟨⟨2⟩⟩] ∧
    (forkedWire.apply (.removeNode ⟨⟨4⟩⟩)).links.keys = [⟨⟨3⟩⟩] ∧
    (∀ ev : Evaluator, ev.evaluateTraced (forkedWire.apply (.removeNode ⟨⟨4⟩⟩)) ⟨⟨2⟩⟩ =
      ev.evaluateTraced forkedWire ⟨⟨2⟩⟩) ∧
    Shader.export (forkedWire.apply (.removeNode ⟨⟨4⟩⟩)) ⟨⟨2⟩⟩ =
      Shader.export forkedWire ⟨⟨2⟩⟩ := by
  have h := (authored_forkedWire.kept Registry.uniquePins_material).wellLinked.agrees
  have horder : forkedWire.dependencyOrder ⟨⟨2⟩⟩ = [⟨⟨1⟩⟩, ⟨⟨2⟩⟩] := by decide
  have hout : ¬ (⟨⟨4⟩⟩ : NodeId) ∈ forkedWire.dependencyOrder ⟨⟨2⟩⟩ := by
    rw [horder]
    decide
  exact ⟨h, horder, by decide, h.evaluateTraced_and_export_apply rfl trivial hout⟩

end Graph

end ShaderGraph
