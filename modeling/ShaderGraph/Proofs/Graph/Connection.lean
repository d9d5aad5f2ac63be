import ShaderGraph.Proofs.Graph.Agreement

/-!
# Connecting two pins

When two pins can be connected, what the graph looks like afterwards, and when it is still
well-linked: the identifier of the new link has to be free, or that of the link which the new one
replaces.

## Main definitions

* `Graph.withLink` — a graph with one more link, in the table and at both ends
* `Graph.Orients` — two pins in either order as an output pin and an input pin

## Main results

* `connect_eq_ok_iff` — when two pins are connected, and to what effect
* `Agrees.withLink`, `Agrees.relink` — a graph that agrees goes on to agree
* `WellLinked.connect` — a well-linked graph stays so
* `Agrees.not_agrees_of_connect` — unless the link takes its identifier from a link elsewhere
-/

namespace ShaderGraph

/-- A pin at an address with a link noted, if the pin is an end of it. -/
def Pin.noting (link : Link) (r : PinRef) (p : Pin) : Pin :=
  if link.source = r ∨ link.target = r then p.attach link.id else p

namespace Pin

variable {link : Link} {r : PinRef} {p : Pin}

@[simp] theorem skeleton_noting : (p.noting link r).skeleton = p.skeleton := by
  rw [noting]; split <;> rfl

@[simp] theorem id_noting : (p.noting link r).id = p.id := id_eq_of_skeleton skeleton_noting

@[simp] theorem type_noting : (p.noting link r).type = p.type := by
  rw [noting]; split <;> rfl

theorem links_noting :
    (p.noting link r).links =
      p.links ++ if link.source = r ∨ link.target = r then [link.id] else [] := by
  rw [noting]; split <;> simp [attach]

end Pin

namespace Graph

/-- A graph with one more link, in the table and at both of its ends. -/
def withLink (g : Graph) (link : Link) : Graph :=
  { g.mapPins (Pin.noting link) with links := g.links.insert link.id link }

/-- `source` and `target` are `a` and `b` in some order, an output pin and an input pin. -/
structure Orients (g : Graph) (a b source target : PinRef) (output input : Pin) : Prop where
  order : source = a ∧ target = b ∨ source = b ∧ target = a
  output : g.output? source = some output
  input : g.input? target = some input

variable {g g' : Graph} {r a b source target : PinRef} {p output input : Pin} {l id : LinkId}
  {link : Link} {n : NodeId} {node : Node}

/-! ### One more link -/

/-- Noting a link as a change to every pin that its address means. -/
theorem insertLink_eq_mapAddressed (hne : link.source ≠ link.target) :
    g.insertLink link =
      { g.mapAddressed (Pin.noting link) with links := g.links.insert link.id link } := by
  have hnoting : (fun r p => if r = link.target then
        (if r = link.source then p.attach link.id else p).attach link.id
      else if r = link.source then p.attach link.id else p) = Pin.noting link := by
    funext r p
    by_cases hs : r = link.source
    · simp [Pin.noting, hs, hne]
    · simp [Pin.noting, hs, Ne.symm hs, eq_comm]
  rw [insertLink, modifyPin_eq_mapAddressed, modifyPin_eq_mapAddressed,
    mapAddressed_mapAddressed fun r p => by split <;> rfl, hnoting]
  rfl

theorem insertLink_eq_withLink (hp : g.WellPinned) (hne : link.source ≠ link.target) :
    g.insertLink link = g.withLink link := by
  rw [insertLink_eq_mapAddressed hne, hp.mapAddressed_eq, withLink]

theorem link?_withLink :
    (g.withLink link).link? l = if l = link.id then some link else g.link? l :=
  Table.get?_insert

theorem node?_withLink :
    (g.withLink link).node? n =
      (g.node? n).map fun node => node.mapPins fun p => p.noting link ⟨n, p.id⟩ :=
  node?_mapPins (f := Pin.noting link)

theorem input?_withLink : (g.withLink link).input? r = (g.input? r).map (Pin.noting link r) :=
  input?_mapPins (f := Pin.noting link) fun _ _ => Pin.id_noting

theorem output?_withLink : (g.withLink link).output? r = (g.output? r).map (Pin.noting link r) :=
  output?_mapPins (f := Pin.noting link) fun _ _ => Pin.id_noting

theorem exists_of_mem_inputs_withLink (hn : (g.withLink link).node? n = some node)
    (hp : p ∈ node.inputs) :
    ∃ node' q, g.node? n = some node' ∧ q ∈ node'.inputs ∧ q.noting link ⟨n, q.id⟩ = p :=
  exists_of_mem_inputs_mapPins (f := Pin.noting link) hn hp

theorem exists_of_mem_outputs_withLink (hn : (g.withLink link).node? n = some node)
    (hp : p ∈ node.outputs) :
    ∃ node' q, g.node? n = some node' ∧ q ∈ node'.outputs ∧ q.noting link ⟨n, q.id⟩ = p :=
  exists_of_mem_outputs_mapPins (f := Pin.noting link) hn hp

theorem WellPinned.withLink (h : g.WellPinned) : (g.withLink link).WellPinned :=
  WellPinned.mapPins (f := Pin.noting link) h fun _ _ => Pin.skeleton_noting

theorem linksFrom_withLink (hid : g.link? link.id = none) :
    (g.withLink link).linksFrom r = g.linksFrom r ++ if link.source = r then [link] else [] := by
  rw [linksFrom, linksFrom, withLink, Table.values_insert_of_get?_eq_none hid, List.filter_append]
  by_cases hr : link.source = r <;> simp [hr]

theorem linksInto_withLink (hid : g.link? link.id = none) :
    (g.withLink link).linksInto r = g.linksInto r ++ if link.target = r then [link] else [] := by
  rw [linksInto, linksInto, withLink, Table.values_insert_of_get?_eq_none hid, List.filter_append]
  by_cases hr : link.target = r <;> simp [hr]

theorem mem_links_noting : l ∈ (p.noting link r).links ↔
    l ∈ p.links ∨ (link.source = r ∨ link.target = r) ∧ l = link.id := by
  rw [Pin.links_noting, List.mem_append]
  split <;> simp [*]

/-- The links of which something holds, with one more link. -/
theorem exists_link?_withLink (hid : g.link? link.id = none) {P : Link → Prop} :
    (∃ link', (g.withLink link).link? l = some link' ∧ P link') ↔
      (∃ link', g.link? l = some link' ∧ P link') ∨ P link ∧ l = link.id := by
  rw [link?_withLink]
  split
  · rename_i hl
    rw [hl, hid]
    simp
  · rename_i hl
    simp [hl]

/-- A graph goes on to agree with a fresh link from an output to a free input. -/
theorem Agrees.withLink (h : g.Agrees) (hp : g.WellPinned) (hid : g.link? link.id = none)
    (hs : g.output? link.source = some output) (ht : g.input? link.target = some input)
    (hfree : input.links = []) : (g.withLink link).Agrees where
  node_id hn := by
    rw [node?_withLink, Option.map_eq_some_iff] at hn
    obtain ⟨node, hn, rfl⟩ := hn
    rw [Node.id_mapPins, h.node_id hn]
  link_id hl := by
    rw [link?_withLink] at hl
    split at hl
    · rename_i he
      rw [← Option.some_inj.mp hl, he]
    · exact h.link_id hl
  source hl := by
    rw [link?_withLink] at hl
    split at hl
    · obtain rfl := Option.some_inj.mp hl
      exact ⟨_, by rw [output?_withLink, hs, Option.map_some]⟩
    · obtain ⟨p, hp⟩ := h.source hl
      exact ⟨_, by rw [output?_withLink, hp, Option.map_some]⟩
  target hl := by
    rw [link?_withLink] at hl
    split at hl
    · obtain rfl := Option.some_inj.mp hl
      exact ⟨_, by rw [input?_withLink, ht, Option.map_some]⟩
    · obtain ⟨p, hp⟩ := h.target hl
      exact ⟨_, by rw [input?_withLink, hp, Option.map_some]⟩
  mem_output {n _ _ _} hn hmem := by
    obtain ⟨node, q, hn, hq, rfl⟩ := exists_of_mem_outputs_withLink hn hmem
    -- An output pin is no link's target, so the link is noted only where it leaves.
    have hne : ¬ link.target = ⟨n, q.id⟩ :=
      (hp.ne_of_output?_of_input? (hp.output?_of_mem hn hq) ht).symm
    rw [Pin.id_noting, exists_link?_withLink hid, mem_links_noting, h.mem_output hn hq,
      or_iff_left hne]
  mem_input {n _ _ _} hn hmem := by
    obtain ⟨node, q, hn, hq, rfl⟩ := exists_of_mem_inputs_withLink hn hmem
    have hne : ¬ link.source = ⟨n, q.id⟩ :=
      hp.ne_of_output?_of_input? hs (hp.input?_of_mem hn hq)
    rw [Pin.id_noting, exists_link?_withLink hid, mem_links_noting, h.mem_input hn hq,
      or_iff_right hne]
  length_input {n _ _} hn hmem := by
    obtain ⟨node, q, hn, hq, rfl⟩ := exists_of_mem_inputs_withLink hn hmem
    have hin := hp.input?_of_mem hn hq
    have hne : ¬ link.source = ⟨n, q.id⟩ := hp.ne_of_output?_of_input? hs hin
    rw [Pin.links_noting]
    -- Only the target has one link more, and it had none.
    by_cases htarget : link.target = ⟨n, q.id⟩
    · rw [← htarget, ht, Option.some_inj] at hin
      simp [htarget, ← hin, hfree]
    · simpa [htarget, hne] using h.length_input hn hq

/-- A graph stays well-linked with a fresh link between a fitting output and a free input. -/
theorem WellLinked.withLink (h : g.WellLinked) (hp : g.WellPinned) (hid : g.link? link.id = none)
    (hs : g.output? link.source = some output) (hst : output.type = link.type)
    (ht : g.input? link.target = some input)
    (hc : g.registry.compatibility.canConnect link.type input.type = true)
    (hfree : input.links = []) : (g.withLink link).WellLinked where
  node_id := (h.agrees.withLink hp hid hs ht hfree).node_id
  link_id := (h.agrees.withLink hp hid hs ht hfree).link_id
  source hl := by
    rw [link?_withLink] at hl
    split at hl
    · obtain rfl := Option.some_inj.mp hl
      exact ⟨_, by rw [output?_withLink, hs, Option.map_some], Pin.type_noting.trans hst⟩
    · obtain ⟨p, hp, htype⟩ := h.source hl
      exact ⟨_, by rw [output?_withLink, hp, Option.map_some], Pin.type_noting.trans htype⟩
  target hl := by
    rw [link?_withLink] at hl
    split at hl
    · obtain rfl := Option.some_inj.mp hl
      exact ⟨_, by rw [input?_withLink, ht, Option.map_some], by rw [Pin.type_noting]; exact hc⟩
    · obtain ⟨p, hp, hcan⟩ := h.target hl
      exact ⟨_, by rw [input?_withLink, hp, Option.map_some], by rw [Pin.type_noting]; exact hcan⟩
  links_output {n _ _} hn hmem := by
    obtain ⟨node, q, hn, hq, rfl⟩ := exists_of_mem_outputs_withLink hn hmem
    have hne : ¬ link.target = ⟨n, q.id⟩ :=
      (hp.ne_of_output?_of_input? (hp.output?_of_mem hn hq) ht).symm
    rw [Pin.id_noting, linksFrom_withLink hid, Pin.links_noting, h.links_output hn hq,
      List.map_append]
    by_cases hsource : link.source = ⟨n, q.id⟩ <;> simp [hsource, hne]
  links_input {n _ _} hn hmem := by
    obtain ⟨node, q, hn, hq, rfl⟩ := exists_of_mem_inputs_withLink hn hmem
    have hne : ¬ link.source = ⟨n, q.id⟩ :=
      hp.ne_of_output?_of_input? hs (hp.input?_of_mem hn hq)
    rw [Pin.id_noting, linksInto_withLink hid, Pin.links_noting, h.links_input hn hq,
      List.map_append]
    by_cases htarget : link.target = ⟨n, q.id⟩ <;> simp [htarget, hne]
  length_input := (h.agrees.withLink hp hid hs ht hfree).length_input

/-! ### When two pins are connected -/

theorem findPin_eq_ok_iff : g.findPin r = .ok p ↔ g.pin? r = some p := by
  rw [findPin, pin?]
  cases g.node? r.node with
  | none => simp
  | some node =>
    simp only [Option.bind_some]
    cases node.pin? r.pin <;> simp

theorem orient_eq_some_iff {pinA pinB : Pin} {outputType inputType : PinType} :
    orient a b pinA pinB = some ((source, outputType), (target, inputType)) ↔
      (source = a ∧ target = b) ∧ (pinA.direction = .output ∧ pinB.direction = .input) ∧
          outputType = pinA.type ∧ inputType = pinB.type ∨
        (source = b ∧ target = a) ∧ (pinB.direction = .output ∧ pinA.direction = .input) ∧
          outputType = pinB.type ∧ inputType = pinA.type := by
  rw [orient]
  cases pinA.direction <;> cases pinB.direction <;> simp [eq_comm] <;> tauto

theorem exists_orient_iff (hp : g.WellPinned) {outputType inputType : PinType} :
    (∃ pinA pinB, g.pin? a = some pinA ∧ g.pin? b = some pinB ∧
        orient a b pinA pinB = some ((source, outputType), (target, inputType))) ↔
      ∃ output input, g.Orients a b source target output input ∧
        outputType = output.type ∧ inputType = input.type := by
  constructor
  · rintro ⟨pinA, pinB, ha, hb, h⟩
    -- The direction of a pin says on which side of its node it stands.
    rcases orient_eq_some_iff.mp h with ⟨⟨rfl, rfl⟩, ⟨hA, hB⟩, ht⟩ | ⟨⟨rfl, rfl⟩, ⟨hB, hA⟩, ht⟩
    · exact ⟨pinA, pinB, ⟨Or.inl ⟨rfl, rfl⟩, hp.pin?_direction_output.mp ⟨ha, hA⟩,
        hp.sided.pin?_direction_input.mp ⟨hb, hB⟩⟩, ht⟩
    · exact ⟨pinB, pinA, ⟨Or.inr ⟨rfl, rfl⟩, hp.pin?_direction_output.mp ⟨hb, hB⟩,
        hp.sided.pin?_direction_input.mp ⟨ha, hA⟩⟩, ht⟩
  · rintro ⟨output, input, ⟨horder, hout, hin⟩, ht⟩
    obtain ⟨hout, houtd⟩ := hp.pin?_direction_output.mpr hout
    obtain ⟨hin, hind⟩ := hp.sided.pin?_direction_input.mpr hin
    rcases horder with ⟨rfl, rfl⟩ | ⟨rfl, rfl⟩
    · exact ⟨output, input, hout, hin,
        orient_eq_some_iff.mpr (Or.inl ⟨⟨rfl, rfl⟩, ⟨houtd, hind⟩, ht⟩)⟩
    · exact ⟨input, output, hin, hout,
        orient_eq_some_iff.mpr (Or.inr ⟨⟨rfl, rfl⟩, ⟨houtd, hind⟩, ht⟩)⟩

/-- The checks of a connection one by one, with the ends as they were given. -/
theorem connect_eq_ok_iff_orient :
    g.connect a b id = .ok g' ↔ ∃ pinA pinB, g.pin? a = some pinA ∧ g.pin? b = some pinB ∧
      ∃ source target outputType inputType,
        orient a b pinA pinB = some ((source, outputType), (target, inputType)) ∧
        g.registry.compatibility.canConnect outputType inputType = true ∧
        ¬ (g.cyclePolicy = .reject ∧ g.dependsOn source.node target.node = true) ∧
        (g.breakPin target).insertLink ⟨id, source, target, outputType⟩ = g' := by
  simp only [← findPin_eq_ok_iff, connect, bind, Except.bind]
  cases g.findPin a with
  | error e => simp
  | ok pinA =>
    cases g.findPin b with
    | error e => simp
    | ok pinB =>
      cases hends : orient a b pinA pinB with
      | none => simp [hends]
      | some ends =>
        obtain ⟨⟨source, outputType⟩, ⟨target, inputType⟩⟩ := ends
        by_cases hc : g.registry.compatibility.canConnect outputType inputType = true
        · by_cases hcycle : g.cyclePolicy = .reject ∧ g.dependsOn source.node target.node = true
          · simp [hends, hc, hcycle]
          · simpa [hends, hc, hcycle] using fun _ => not_and.mp hcycle
        · simp [hends, hc]

/-- Two pins are connected if one is an output, the other an input that accepts its type, and no
cycle is closed where cycles are refused. -/
theorem connect_eq_ok_iff (hp : g.WellPinned) :
    g.connect a b id = .ok g' ↔ ∃ source target output input,
      g.Orients a b source target output input ∧
        g.registry.compatibility.canConnect output.type input.type = true ∧
        ¬ (g.cyclePolicy = .reject ∧ g.dependsOn source.node target.node = true) ∧
        (g.breakPin target).insertLink ⟨id, source, target, output.type⟩ = g' := by
  rw [connect_eq_ok_iff_orient]
  -- The ends are told apart by their directions.
  constructor
  · rintro ⟨pinA, pinB, ha, hb, source, target, outputType, inputType, horient, h⟩
    obtain ⟨output, input, hends, rfl, rfl⟩ :=
      (exists_orient_iff hp).mp ⟨pinA, pinB, ha, hb, horient⟩
    exact ⟨source, target, output, input, hends, h⟩
  · rintro ⟨source, target, output, input, hends, h⟩
    obtain ⟨pinA, pinB, ha, hb, horient⟩ :=
      (exists_orient_iff hp).mpr ⟨output, input, hends, rfl, rfl⟩
    exact ⟨pinA, pinB, ha, hb, source, target, output.type, input.type, horient, h⟩

/-! ### The graph after two pins are connected -/

theorem Agrees.mem_links_of_input? (h : g.Agrees) (hp : g.WellPinned)
    (hi : g.input? r = some input) :
    l ∈ input.links ↔ ∃ link, g.link? l = some link ∧ link.target = r := by
  obtain ⟨node, hn, hmem, hid⟩ := hp.input?_eq_some_iff.mp hi
  rw [h.mem_input hn hmem, hid]

theorem linksAt_of_input? (hi : g.input? r = some input) :
    g.linksAt r = input.links := by
  rw [linksAt, pin?_of_input? hi]

/-- Connecting an output to an input takes away what the input had and adds the new link. -/
theorem Agrees.connect_eq (h : g.Agrees) (hp : g.WellPinned)
    (hends : g.Orients a b source target output input) {type : PinType} :
    (g.breakPin target).insertLink ⟨id, source, target, type⟩ =
      (g.withoutLinks input.links.contains).withLink ⟨id, source, target, type⟩ := by
  rw [breakPin, h.disconnectAll_eq hp, linksAt_of_input? hends.input]
  exact insertLink_eq_withLink hp.withoutLinks (hp.ne_of_output?_of_input? hends.output hends.input)

/-- Of two pins that are connected, the one into which some link leads is the input. -/
theorem Orients.target_eq (hends : g.Orients a b source target output input) (hp : g.WellPinned)
    (hi : g.input? r = some p) (hr : r = a ∨ r = b) : r = target := by
  have hne : source ≠ r := hp.ne_of_output?_of_input? hends.output hi
  rcases hends.order with ⟨rfl, rfl⟩ | ⟨rfl, rfl⟩
  · exact hr.resolve_left hne.symm
  · exact hr.resolve_right hne.symm

theorem Orients.target_mem (hends : g.Orients a b source target output input) :
    target = a ∨ target = b :=
  hends.order.elim (fun h => Or.inr h.2) fun h => Or.inl h.2

/-- A link under some identifier that leads into the target goes when the target is freed. -/
theorem Agrees.link?_freed (h : g.Agrees) (hp : g.WellPinned) (hi : g.input? r = some input)
    (hid : ∀ link, g.link? id = some link → link.target = r) :
    (g.withoutLinks input.links.contains).link? id = none := by
  rw [Option.eq_none_iff_forall_not_mem]
  intro link hl
  obtain ⟨hl, hdead⟩ := link?_withoutLinks.mp hl
  have hmem := (h.mem_links_of_input? hp hi).mpr ⟨link, hl, hid link hl⟩
  rw [List.contains_eq_mem, decide_eq_false_iff_not] at hdead
  exact hdead hmem

/-- A pin is left without any link when all that it lists are taken away. -/
theorem links_without_contains : (p.without p.links.contains).links = [] := by
  rw [Pin.without, List.filter_eq_nil_iff]
  intro l hl
  simp [hl]

/-- A graph goes on to agree with a link in place of those into its target. -/
theorem Agrees.relink (h : g.Agrees) (hp : g.WellPinned)
    (hs : g.output? link.source = some output) (ht : g.input? link.target = some input)
    (hid : ∀ link', g.link? link.id = some link' → link'.target = link.target) :
    ((g.breakPin link.target).insertLink link).Agrees := by
  have hends : g.Orients link.source link.target link.source link.target output input :=
    ⟨Or.inl ⟨rfl, rfl⟩, hs, ht⟩
  have hout : (g.withoutLinks input.links.contains).output? link.source =
      some (output.without input.links.contains) := by
    rw [output?_withoutLinks, hs, Option.map_some]
  have hin : (g.withoutLinks input.links.contains).input? link.target =
      some (input.without input.links.contains) := by
    rw [input?_withoutLinks, ht, Option.map_some]
  rw [h.connect_eq hp hends]
  exact h.withoutLinks.withLink hp.withoutLinks (h.link?_freed hp ht hid) hout hin
    links_without_contains

/-- A graph stays well-linked when two pins are connected under an identifier that no link has,
unless one that leads into either of the pins. -/
theorem WellLinked.connect (h : g.WellLinked) (hp : g.WellPinned)
    (hid : ∀ link, g.link? id = some link → link.target = a ∨ link.target = b)
    (hc : g.connect a b id = .ok g') : g'.WellLinked := by
  obtain ⟨source, target, output, input, hends, hcan, -, rfl⟩ := (connect_eq_ok_iff hp).mp hc
  rw [h.agrees.connect_eq hp hends]
  have hfree : (g.withoutLinks input.links.contains).link? id = none := by
    refine h.agrees.link?_freed hp hends.input fun link hl => ?_
    obtain ⟨p, hin, -⟩ := h.target hl
    exact hends.target_eq hp hin (hid link hl)
  have hout : (g.withoutLinks input.links.contains).output? source =
      some (output.without input.links.contains) := by
    rw [output?_withoutLinks, hends.output, Option.map_some]
  have hin : (g.withoutLinks input.links.contains).input? target =
      some (input.without input.links.contains) := by
    rw [input?_withoutLinks, hends.input, Option.map_some]
  exact h.withoutLinks.withLink hp.withoutLinks hfree hout rfl hin hcan links_without_contains

/-- If the identifier is that of a link into another pin, that pin goes on to list it. -/
theorem Agrees.not_agrees_of_connect (h : g.Agrees) (hp : g.WellPinned)
    (hl : g.link? id = some link) (ha : link.target ≠ a) (hb : link.target ≠ b)
    (hc : g.connect a b id = .ok g') : ¬ g'.Agrees := by
  obtain ⟨source, target, output, input, hends, -, -, rfl⟩ := (connect_eq_ok_iff hp).mp hc
  rw [h.connect_eq hp hends]
  intro h'
  obtain ⟨p, hin⟩ := h.target hl
  have hne : target ≠ link.target := fun he =>
    (hends.target_mem.elim (fun e => ha (he ▸ e)) fun e => hb (he ▸ e))
  have hkept : id ∉ input.links := by
    rw [h.mem_links_of_input? hp hends.input]
    rintro ⟨link', hl', htarget⟩
    obtain rfl := Option.some_inj.mp (hl.symm.trans hl')
    exact hne htarget.symm
  -- The pin that the robbed link leads into is not the new target, so its entry stays.
  have hlisted : id ∈ ((p.without input.links.contains).noting
      ⟨id, source, target, output.type⟩ link.target).links := by
    rw [Pin.links_noting, List.mem_append]
    refine Or.inl (List.mem_filter.mpr ⟨(h.mem_links_of_input? hp hin).mpr ⟨link, hl, rfl⟩, ?_⟩)
    simp [hkept]
  have hin' : ((g.withoutLinks input.links.contains).withLink
      ⟨id, source, target, output.type⟩).input? link.target =
        some ((p.without input.links.contains).noting
          ⟨id, source, target, output.type⟩ link.target) := by
    rw [input?_withLink, input?_withoutLinks, hin]
    rfl
  obtain ⟨link', hl', htarget⟩ :=
    (h'.mem_links_of_input? hp.withoutLinks.withLink hin').mp hlisted
  rw [link?_withLink, if_pos rfl, Option.some_inj] at hl'
  rw [← hl'] at htarget
  exact hne htarget

end Graph

end ShaderGraph
