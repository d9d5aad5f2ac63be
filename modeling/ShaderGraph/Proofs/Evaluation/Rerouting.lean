import ShaderGraph.Proofs.Evaluation.Pending
import ShaderGraph.Proofs.Graph.Rerouting

/-!
# A bend does not show

A bend hands on what leads into it, so a wire that is led around one brings to its end what it has
brought there before: values and textures, products that are pending, and nothing. As the graph with
the bend has no cycles either, plain recursion says what its output pins yield, and what they have
yielded before satisfies the equations.

## Main definitions

* `Evaluator.reroutedValue` — what output pins yield if a bend hands on what another pin yields

## Main results

* `Bends.recursion` — with the bend, output pins yield what they have yielded without it
* `Agrees.evaluate_reroute` — leading a wire around a bend succeeds and does not show
-/

namespace ShaderGraph

/-- What the output pins of a graph yield, and a bend `r` that hands on what `source` yields. -/
def Evaluator.reroutedValue (ev : Evaluator) (g : Graph) (source : PinRef) (r : NodeId)
    (p : PinRef) : Option Evaluated :=
  if p.node = r then ev.evaluatePin g source else ev.evaluatePin g p

namespace Graph

variable {g g' : Graph} {ev : Evaluator} {link : Link} {l l₁ l₂ : LinkId} {n r root : NodeId}
  {node node' : Node} {output : String} {position : Position}

/-- The links of a node do not matter to its rule. -/
theorem evaluateNode_of_unlinked {m : Type → Type} [Monad m]
    {read : String → m (Option Evaluated)}
    (h : node'.mapPins Pin.unlinked = node.mapPins Pin.unlinked) :
    ev.evaluateNode node' output read = ev.evaluateNode node output read := by
  have hunlinked (k : Node) :
      ev.evaluateNode (k.mapPins Pin.unlinked) output read = ev.evaluateNode k output read := rfl
  rw [← hunlinked, h, hunlinked]

theorem Bends.exists_node? (hb : g.Bends link r g') (hr : n ≠ r) (hn : g'.node? n = some node') :
    ∃ node, g.node? n = some node ∧
      node'.mapPins Pin.unlinked = node.mapPins Pin.unlinked := by
  have hnode := hb.node hr
  rw [hn, Option.map_some, eq_comm, Option.map_eq_some_iff] at hnode
  obtain ⟨node, hn, hnode⟩ := hnode
  exact ⟨node, hn, hnode.symm⟩

theorem Bends.node?_eq_none (hb : g.Bends link r g') (hr : n ≠ r) (hn : g'.node? n = none) :
    g.node? n = none := by
  have hnode := hb.node hr
  rwa [hn, Option.map_none, eq_comm, Option.map_eq_none_iff] at hnode

/-- Elsewhere, what leads into a pin is what has led there before. -/
theorem Bends.linkInto?_eq (hb : g.Bends link r g') (h : g.Agrees) {p : PinRef}
    (hp : p ≠ link.target) (hr : p.node ≠ r) : g'.linkInto? p = g.linkInto? p := by
  refine Option.ext fun link' => ?_
  rw [hb.agrees.linkInto?_eq_some_iff, h.linkInto?_eq_some_iff]
  refine and_congr_left fun htarget => ?_
  exact hb.other link' (htarget ▸ hp) (htarget ▸ hr)

theorem map_input? {p : PinRef} : (g.input? p).map Pin.unlinked =
    ((g.node? p.node).map (·.mapPins Pin.unlinked)).bind (·.input? p.pin) := by
  rw [input?]
  cases g.node? p.node with
  | none => rfl
  | some node => exact (Node.input?_mapPins (f := Pin.unlinked) fun _ => rfl).symm

/-- A pin of another node than the bend keeps its default. -/
theorem Bends.map_defaultValue? (hb : g.Bends link r g') {p : PinRef} (hr : p.node ≠ r) :
    (g'.input? p).map Pin.defaultValue? = (g.input? p).map Pin.defaultValue? := by
  have hinput : (g'.input? p).map Pin.unlinked = (g.input? p).map Pin.unlinked := by
    rw [map_input?, hb.node hr, map_input?]
  have hdefault (o : Option Pin) :
      (o.map Pin.unlinked).map Pin.defaultValue? = o.map Pin.defaultValue? := by
    cases o <;> rfl
  rw [← hdefault, hinput, hdefault]

/-- An input pin, seen by its default and the link into it. -/
theorem inputValue_eq_bind {value : PinRef → Option Evaluated} {pin : String} :
    g.inputValue value n pin = ((g.input? ⟨n, pin⟩).map Pin.defaultValue?).bind fun d =>
      match g.linkInto? ⟨n, pin⟩ with
      | none => d
      | some link => value link.source := by
  rw [inputValue]
  cases g.input? ⟨n, pin⟩ with
  | none => rfl
  | some p => cases g.linkInto? ⟨n, pin⟩ <;> rfl

/-- Input pins of other nodes than the bend yield what they have yielded before. -/
theorem Bends.inputValue_eq (hb : g.Bends link r g') (h : g.Agrees) (hr : n ≠ r) (pin : String) :
    g'.inputValue (ev.reroutedValue g link.source r) n pin =
      g.inputValue (ev.evaluatePin g) n pin := by
  by_cases htarget : link.target = ⟨n, pin⟩
  -- Where the wire ends, the bend is at the other end.
  · obtain ⟨link', hmem', hsource', htarget'⟩ := hb.leaving
    rw [hb.agrees.inputValue_of_mem hmem' (htarget'.trans htarget) _, hsource',
      h.inputValue_of_mem hb.wire htarget _, Evaluator.reroutedValue, if_pos rfl]
  · rw [inputValue_eq_bind, inputValue_eq_bind, hb.linkInto?_eq h (Ne.symm htarget) hr,
      hb.map_defaultValue? hr]
    cases hinto : g.linkInto? ⟨n, pin⟩ with
    | none => rfl
    | some link' =>
      obtain ⟨hmem', -⟩ := mem_of_linkInto? hinto
      have hsource : link'.source.node ≠ r :=
        h.source_node_ne hb.fresh ((mem_values_links h.link_id).mp hmem')
      simp only [Evaluator.reroutedValue, if_neg hsource]

/-- With the bend, output pins yield what they have yielded without it, and the bend what it is
linked to. -/
theorem Bends.recursion (hb : g.Bends link r g') (h : g.Agrees) (hacyclic : g.Acyclic)
    (hev : ev.registry = .material) :
    ev.Recursion g' (fun _ => True) (ev.reroutedValue g link.source r) where
  closed _ _ _ _ := trivial
  acyclic n _ := hb.acyclic n
  value_eq n node' _ hn output := by
    by_cases hr : n = r
    · subst hr
      obtain ⟨node, hn', hkey⟩ := hb.bend
      obtain rfl := Option.some_inj.mp (hn.symm.trans hn')
      obtain ⟨link', hmem', hsource', htarget'⟩ := hb.entering
      have hsource : link.source.node ≠ n :=
        h.source_node_ne hb.fresh ((mem_values_links h.link_id).mp hb.wire)
      have hinput := hb.agrees.inputValue_of_mem hmem' htarget' (ev.reroutedValue g link.source n)
      rw [Evaluator.evaluateNode, hev, hkey, get?_reroute, Evaluator.reroutedValue, if_pos rfl]
      refine (hinput.trans ?_).symm
      rw [hsource', Evaluator.reroutedValue, if_neg hsource]
    · obtain ⟨node, hnode, hsame⟩ := hb.exists_node? hr hn
      have hread : g'.inputValue (ev.reroutedValue g link.source r) n =
          g.inputValue (ev.evaluatePin g) n := funext (hb.inputValue_eq h hr)
      rw [evaluateNode_of_unlinked hsame, hread, Evaluator.reroutedValue, if_neg hr]
      exact (Evaluator.recursion_evaluatePin h hacyclic).value_eq trivial hnode output

/-- A node has the same inputs but for links, so that they are assigned alike. -/
theorem foldl_assignValue_of_unlinked {f : String → Option Evaluated} {a : MaterialAttributes}
    (h : node'.mapPins Pin.unlinked = node.mapPins Pin.unlinked) :
    node'.inputs.foldl (fun a p => ev.assignValue a p (f p.id)) a =
      node.inputs.foldl (fun a p => ev.assignValue a p (f p.id)) a := by
  have hassign (ps : List Pin) : (ps.map Pin.unlinked).foldl
      (fun a p => ev.assignValue a p (f p.id)) a =
        ps.foldl (fun a p => ev.assignValue a p (f p.id)) a := by
    rw [List.foldl_map]
    rfl
  have hinputs : node'.inputs.map Pin.unlinked = node.inputs.map Pin.unlinked :=
    (congrArg Node.inputs h :)
  rw [← hassign, hinputs, hassign]

/-- Evaluation does not show the bend. -/
theorem Bends.evaluate_eq (hb : g.Bends link r g') (h : g.Agrees) (hacyclic : g.Acyclic)
    (hev : ev.registry = .material) (hr : root ≠ r) :
    ev.evaluate g' root = ev.evaluate g root := by
  have hrec := hb.recursion h hacyclic hev
  cases hn' : g'.node? root with
  | none =>
    rw [Evaluator.evaluate, Evaluator.evaluateTraced, hn', Evaluator.evaluate,
      Evaluator.evaluateTraced, hb.node?_eq_none hr hn']
  | some node' =>
    obtain ⟨node, hn, hsame⟩ := hb.exists_node? hr hn'
    have hread : g'.inputValue (ev.reroutedValue g link.source r) root =
        g.inputValue (ev.evaluatePin g) root := funext (hb.inputValue_eq h hr)
    rw [hrec.evaluate_eq hb.agrees hn', hread,
      (Evaluator.recursion_evaluatePin h hacyclic).evaluate_eq h hn]
    exact foldl_assignValue_of_unlinked hsame

theorem Bends.evaluatePin_eq (hb : g.Bends link r g') (h : g.Agrees) (hacyclic : g.Acyclic)
    (hev : ev.registry = .material) {p : PinRef} (hr : p.node ≠ r) :
    ev.evaluatePin g' p = ev.evaluatePin g p := by
  have hrec := hb.recursion h hacyclic hev
  cases hn' : g'.node? p.node with
  | none =>
    rw [Evaluator.evaluatePin, hn', Evaluator.evaluatePin, hb.node?_eq_none hr hn']
  | some node' =>
    rw [hrec.evaluatePin_eq hb.agrees hn', Evaluator.reroutedValue, if_neg hr]

/-- Any wire between nodes of the catalogue can be led around a new bend, whichever the types at its
ends and the cycle policy, and it does not show: all other nodes evaluate to the same material, with
the same products pending, and their output pins yield the same. -/
theorem Agrees.evaluate_reroute (h : g.Agrees) (hacyclic : g.Acyclic)
    (hregistry : g.registry = .material) (hi : g.Instantiated) (hl : g.link? l = some link)
    (hfresh : g.node? r = none) (h₁ : g.link? l₁ = none) (h₂ : g.link? l₂ = none) (hne : l₁ ≠ l₂)
    (position : Position) :
    ∃ g₁ g₂ g₃, g.addNode? "Reroute" position r = some g₁ ∧
      g₁.connect link.source ⟨r, "Input"⟩ l₁ = .ok g₂ ∧
      g₂.connect ⟨r, "Output"⟩ link.target l₂ = .ok g₃ ∧
      ∀ ev : Evaluator, ev.registry = .material →
        (∀ root, root ≠ r → ev.evaluate g₃ root = ev.evaluate g root) ∧
          ∀ p : PinRef, p.node ≠ r → ev.evaluatePin g₃ p = ev.evaluatePin g p := by
  obtain ⟨g₁, g₂, g₃, hadd, hc₁, hc₂, hb⟩ :=
    h.exists_bends hacyclic hregistry hi hl hfresh h₁ h₂ hne
  exact ⟨g₁, g₂, g₃, hadd, hc₁, hc₂, fun ev hev =>
    ⟨fun root hr => hb.evaluate_eq h hacyclic hev hr,
      fun p hr => hb.evaluatePin_eq h hacyclic hev hr⟩⟩

/-- The product of the texture goes around a second bend and is pending as before. -/
theorem evaluate_reroute_invertedTint : invertedTint.Agrees ∧ invertedTint.Acyclic ∧
    invertedTint.registry = .material ∧ invertedTint.Instantiated ∧
    invertedTint.node? ⟨⟨6⟩⟩ = none ∧ invertedTint.link? ⟨⟨11⟩⟩ = none ∧
    invertedTint.link? ⟨⟨12⟩⟩ = none ∧
    ∃ g₁ g₂ g₃, invertedTint.addNode? "Reroute" ⟨0, 0⟩ ⟨⟨6⟩⟩ = some g₁ ∧
      g₁.connect ⟨⟨⟨3⟩⟩, "Result"⟩ ⟨⟨⟨6⟩⟩, "Input"⟩ ⟨⟨11⟩⟩ = .ok g₂ ∧
      g₂.connect ⟨⟨⟨6⟩⟩, "Output"⟩ ⟨⟨⟨4⟩⟩, "Input"⟩ ⟨⟨12⟩⟩ = .ok g₃ ∧
      ∃ op, (Evaluator.evaluate ⟨.material, fun _ => some "", .standard⟩ g₃ ⟨⟨9⟩⟩).pending.get?
        .baseColor = some op := by
  have hkept := authored_invertedTint.kept Registry.uniquePins_material
  have hagrees := hkept.wellLinked.agrees
  have hlink : invertedTint.link? ⟨⟨7⟩⟩ =
      some ⟨⟨⟨7⟩⟩, ⟨⟨⟨3⟩⟩, "Result"⟩, ⟨⟨⟨4⟩⟩, "Input"⟩, .wildcard⟩ := by decide +kernel
  have hnode : invertedTint.node? ⟨⟨6⟩⟩ = none := by decide +kernel
  have h₁ : invertedTint.link? ⟨⟨11⟩⟩ = none := by decide +kernel
  have h₂ : invertedTint.link? ⟨⟨12⟩⟩ = none := by decide +kernel
  have hregistry : invertedTint.registry = .material := hkept.registry
  have hpending : ((Evaluator.evaluate ⟨.material, fun _ => some "", .standard⟩ invertedTint
      ⟨⟨9⟩⟩).pending.get? .baseColor).isSome = true := by decide +kernel
  obtain ⟨g₁, g₂, g₃, hadd, hc₁, hc₂, hsame⟩ := hagrees.evaluate_reroute acyclic_invertedTint
    hregistry hkept.instantiated hlink hnode h₁ h₂ (by decide) ⟨0, 0⟩
  refine ⟨hagrees, acyclic_invertedTint, hregistry, hkept.instantiated, hnode, h₁, h₂, g₁, g₂, g₃,
    hadd, hc₁, hc₂, ?_⟩
  rw [(hsame ⟨.material, fun _ => some "", .standard⟩ rfl).1 ⟨⟨9⟩⟩ (by decide)]
  exact Option.isSome_iff_exists.mp hpending

end Graph

end ShaderGraph
