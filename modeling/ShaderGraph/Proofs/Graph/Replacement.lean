import ShaderGraph.Proofs.Graph.CycleCheck

/-!
# What a connection does

Two pins are connected if they fit and no cycle stands against it. The order in which they are given
does not matter, and what is refused changes nothing. A connection has the effect of one change to
the whole graph: the link that has led into the input goes, out of the table and of the pins at its
ends, and the new one comes last everywhere, be they links of the same node or of the same pin.

## Main definitions

* `Graph.leadsInto` — an identifier is that of the link into a pin
* `Graph.Supplants` — a link stands in place of the one that led into its target

## Main results

* `Agrees.breakPin_eq_forget` — an input is freed of the one link into it
* `Sided.connect_eq_ok_iff` — when two pins are connected, and what becomes of the graph
* `Sided.connect_comm` — the order in which they are given does not matter
* `Agrees.supplants_relinked` — that is one change to the whole graph
* `Agrees.connect_exactly` — all about a connection
-/

namespace ShaderGraph.Graph

/-- Whether an identifier is that of the link into a pin. -/
def leadsInto (g : Graph) (r : PinRef) (l : LinkId) : Bool := (g.linkInto? r).any (·.id == l)

/-- `g'` is `g` with a link in place of the one that led into its target, if there was one. -/
structure Supplants (g : Graph) (link : Link) (g' : Graph) : Prop where
  /-- The link stands last in the table. -/
  links : g'.links.entries =
    (g.links.entries.filter fun e => !g.leadsInto link.target e.1) ++ [(link.id, link)]
  /-- Beside the table, the graphs differ in what pins list: the one link no more, the other one at
  the end if they are an end of it. -/
  pins : g' =
    { g.mapAddressed fun r p => (p.without (g.leadsInto link.target)).noting link r
      with links := g'.links }
  /-- The target lists nothing but the new link. -/
  target : g'.linksAt link.target = [link.id]
  /-- Pins that are no end of either link are what they were. -/
  other : ∀ r, r ≠ link.source → r ≠ link.target →
    (∀ old, g.linkInto? link.target = some old → r ≠ old.source) → g'.pin? r = g.pin? r

variable {g g' : Graph} {a b a' b' source target source' target' r : PinRef}
  {output input output' input' : PinType} {p : Pin}
  {l id : LinkId} {link : Link}

/-! ### Freeing an input -/

theorem leadsInto_eq_true_iff :
    g.leadsInto r l = true ↔ ∃ link, g.linkInto? r = some link ∧ link.id = l := by
  simp [leadsInto, Option.any_eq_true]

theorem Agrees.link?_of_linkInto? (h : g.Agrees) (hinto : g.linkInto? r = some link) :
    g.link? link.id = some link ∧ link.target = r := by
  obtain ⟨hmem, htarget⟩ := mem_of_linkInto? hinto
  exact ⟨(mem_values_links h.link_id).mp hmem, htarget⟩

/-- An input lists the link into it, if there is one. -/
theorem Agrees.linksAt_eq (h : g.Agrees) (hp : g.input? r = some p) :
    g.linksAt r = ((g.linkInto? r).map Link.id).toList := by
  rw [linksAt, pin?_of_input? hp]
  obtain ⟨node, hn, hp⟩ := Option.bind_eq_some_iff.mp hp
  have hmem : p ∈ node.inputs := List.mem_of_find?_eq_some hp
  have hr : r = ⟨r.node, p.id⟩ := by
    have hid : p.id = r.pin := by simpa using List.find?_some hp
    rw [hid]
  rcases hlinks : p.links with _ | ⟨l, _ | ⟨l', rest⟩⟩
  · rw [hr, h.linkInto?_eq_none hn hmem hlinks]
    simpa using hlinks
  · obtain ⟨link, hlink, hinto⟩ := h.exists_linkInto?_eq_some hn hmem hlinks
    rw [hr, hinto]
    simpa [h.link_id hlink] using hlinks
  · have hlength := h.length_input hn hmem
    rw [hlinks] at hlength
    simp at hlength

theorem Agrees.breakPin_eq_forget (h : g.Agrees) (hp : g.input? r = some p) :
    g.breakPin r = g.forget (g.leadsInto r) := by
  have hcontains : (g.linksAt r).contains = g.leadsInto r := by
    funext l
    rw [h.linksAt_eq hp, leadsInto]
    cases g.linkInto? r with
    | none => rfl
    | some link => simp [beq_eq_decide, eq_comm]
  rw [breakPin, h.noted.disconnectAll_eq, hcontains]

/-- What an input lists leads into it. -/
theorem Agrees.leadsInto_of_mem (h : g.Agrees) (hp : g.input? r = some p) (hl : l ∈ p.links) :
    g.leadsInto r l = true := by
  have hlisted : l ∈ g.linksAt r := by
    rw [linksAt, pin?_of_input? hp]
    exact hl
  rw [h.linksAt_eq hp, Option.mem_toList, Option.map_eq_some_iff] at hlisted
  exact leadsInto_eq_true_iff.mpr hlisted

/-! ### Connections of pins that fit -/

theorem Fits.symm (h : g.Fits a b source target output input) :
    g.Fits b a source target output input where
  order := h.order.symm
  source := h.source
  target := h.target
  accepted := h.accepted

/-- No source of a link can be the target of one. -/
theorem Fits.source_ne_target (h : g.Fits a b source target output input)
    (h' : g.Fits a' b' source' target' output' input') : source ≠ target' := by
  rintro rfl
  obtain ⟨p, hp, hd, -⟩ := h.source
  obtain ⟨q, hq, hd', -⟩ := h'.target
  obtain rfl := Option.some_inj.mp (hp.symm.trans (pin?_of_input? hq))
  rw [hd] at hd'
  cases hd'

/-- When two pins are connected, and what becomes of the graph. -/
theorem Sided.connect_eq_ok_iff (hs : g.Sided) :
    g.connect a b id = .ok g' ↔ ∃ source target output input,
      g.Fits a b source target output input ∧
      ¬ (g.cyclePolicy = .reject ∧ g.dependsOn source.node target.node = true) ∧
      g.relinked ⟨id, source, target, output⟩ = g' := by
  constructor
  · intro hc
    obtain ⟨pinA, pinB, ha, hb, source, target, output, input, horient, hcan, hcycle, rfl⟩ :=
      connect_eq_ok_iff_orient.mp hc
    refine ⟨source, target, output, input, ?_, hcycle, rfl⟩
    rcases orient_eq_some_iff.mp horient with
      ⟨⟨rfl, rfl⟩, ⟨hd, hd'⟩, rfl, rfl⟩ | ⟨⟨rfl, rfl⟩, ⟨hd, hd'⟩, rfl, rfl⟩
    · exact ⟨Or.inl ⟨rfl, rfl⟩, ⟨pinA, ha, hd, rfl⟩,
        ⟨pinB, hs.pin?_direction_input.mp ⟨hb, hd'⟩, hd', rfl⟩, hcan⟩
    · exact ⟨Or.inr ⟨rfl, rfl⟩, ⟨pinB, hb, hd, rfl⟩,
        ⟨pinA, hs.pin?_direction_input.mp ⟨ha, hd'⟩, hd', rfl⟩, hcan⟩
  · rintro ⟨source, target, output, input, hfits, hcycle, rfl⟩
    rw [hfits.connect_eq, if_neg hcycle]

/-- The order in which two pins are given does not matter. -/
theorem Sided.connect_comm (hs : g.Sided) :
    g.connect b a id = .ok g' ↔ g.connect a b id = .ok g' := by
  rw [hs.connect_eq_ok_iff, hs.connect_eq_ok_iff]
  constructor
  · rintro ⟨source, target, output, input, hfits, hrest⟩
    exact ⟨source, target, output, input, hfits.symm, hrest⟩
  · rintro ⟨source, target, output, input, hfits, hrest⟩
    exact ⟨source, target, output, input, hfits.symm, hrest⟩

/-- What stands against a connection of pins that fit is that the new link would lie on a cycle. -/
theorem Agrees.unopposed_iff (h : g.Agrees) (hfresh : g.link? id = none)
    (hfits : g.Fits a b source target output input) :
    ¬ (g.cyclePolicy = .reject ∧ g.dependsOn source.node target.node = true) ↔
      g.cyclePolicy = .allow ∨ ¬ (g.relinked ⟨id, source, target, output⟩).OnCycle id := by
  obtain ⟨p, hp, -⟩ := hfits.target
  have hback : (g.relinked ⟨id, source, target, output⟩).OnCycle id ↔
      g.dependsOn source.node target.node = true :=
    h.onCycle_relinked hp fun link' hl => by
      rw [hfresh] at hl
      cases hl
  rw [hback, not_and_or]
  cases g.cyclePolicy <;> simp

/-! ### The effect -/

/-- Freeing an input and linking it anew, as one change to the whole graph. -/
theorem relinked_eq {dead : LinkId → Bool} (hbreak : g.breakPin link.target = g.forget dead)
    (hne : link.source ≠ link.target) :
    g.relinked link =
      { g.mapAddressed fun r p => (p.without dead).noting link r
        with links := (g.forget dead).links.insert link.id link } := by
  have hpins : (g.mapAddressed fun _ => Pin.without dead).mapAddressed (Pin.noting link) =
      g.mapAddressed fun r p => (p.without dead).noting link r :=
    mapAddressed_mapAddressed fun _ _ => rfl
  rw [relinked, insertLink_eq_mapAddressed hne, hbreak, ← hpins]
  rfl

theorem pin?_relinked {dead : LinkId → Bool} (hbreak : g.breakPin link.target = g.forget dead)
    (hne : link.source ≠ link.target) :
    (g.relinked link).pin? r = (g.pin? r).map fun p => (p.without dead).noting link r := by
  have hnodes : (g.relinked link).pin? r =
      (g.mapAddressed fun r p => (p.without dead).noting link r).pin? r := by
    rw [relinked_eq hbreak hne]
    rfl
  exact hnodes.trans (pin?_mapAddressed fun _ _ => Pin.id_noting)

/-- A graph in which two pins were connected is the graph from before with the new link in place of
the one that led into the input. -/
theorem Agrees.supplants_relinked (h : g.Agrees) (hfresh : g.link? link.id = none)
    (hne : link.source ≠ link.target) (hp : g.input? link.target = some p) :
    g.Supplants link (g.relinked link) := by
  have hbreak := h.breakPin_eq_forget hp
  refine ⟨?_, ?_, ?_, fun r hsource htarget hold => ?_⟩
  · have hfresh : (g.forget (g.leadsInto link.target)).links.get? link.id = none := by
      rw [Option.eq_none_iff_forall_not_mem]
      intro link' hl
      rw [(link?_forget.mp hl).1] at hfresh
      cases hfresh
    rw [relinked_eq hbreak hne]
    exact Table.entries_insert_of_get?_eq_none hfresh
  · rw [relinked_eq hbreak hne]
  -- All that the target listed led into it.
  · have hfreed : (p.without (g.leadsInto link.target)).links = [] := by
      rw [Pin.without, List.filter_eq_nil_iff]
      intro l hl
      simp [h.leadsInto_of_mem hp hl]
    rw [linksAt, pin?_relinked hbreak hne, pin?_of_input? hp, Option.map_some]
    simp [Pin.links_noting, hfreed]
  -- What is listed elsewhere does not lead into the target.
  · rw [pin?_relinked hbreak hne]
    have hkept {q : Pin} (hq : g.pin? r = some q) : q.without (g.leadsInto link.target) = q := by
      refine Pin.without_eq_self fun l hl => ?_
      rw [← Bool.not_eq_true, leadsInto_eq_true_iff]
      rintro ⟨old, hinto, rfl⟩
      obtain ⟨hlink, hends⟩ := h.link?_of_linkInto? hinto
      obtain ⟨link', hlink', hr⟩ := h.noted hq hl
      obtain rfl := Option.some_inj.mp (hlink.symm.trans hlink')
      rcases hr with hr | hr
      · exact hold old hinto hr.symm
      · exact htarget (hr.symm.trans hends)
    cases hq : g.pin? r with
    | none => rfl
    | some q => simp [hkept hq, Pin.noting, Ne.symm hsource, Ne.symm htarget]

/-! ### Connections -/

/-- Two pins are connected exactly if they fit and, unless cycles are allowed, the new link does not
lie on a cycle of the graph in which it has replaced what led into the input. What is refused leaves
the graph as it is; otherwise the link supplants the one into the input. The order of the two pins
does not matter. -/
theorem Agrees.connect_exactly (h : g.Agrees) (hs : g.Sided) (hfresh : g.link? id = none) :
    ((∃ g', g.connect a b id = .ok g') ↔ ∃ source target output input,
      g.Fits a b source target output input ∧ (g.cyclePolicy = .allow ∨
        ¬ (g.relinked ⟨id, source, target, output⟩).OnCycle id)) ∧
    (∀ e, g.connect a b id = .error e → g.apply (.connect a b id) = g) ∧
    (∀ g', g.connect a b id = .ok g' → ∃ source target output input,
      g.Fits a b source target output input ∧ g.Supplants ⟨id, source, target, output⟩ g') ∧
    ∀ g', g.connect b a id = .ok g' ↔ g.connect a b id = .ok g' := by
  refine ⟨?_, ?_, ?_, fun g' => hs.connect_comm⟩
  · simp only [hs.connect_eq_ok_iff]
    constructor
    · rintro ⟨-, source, target, output, input, hfits, hpolicy, -⟩
      exact ⟨source, target, output, input, hfits, (h.unopposed_iff hfresh hfits).mp hpolicy⟩
    · rintro ⟨source, target, output, input, hfits, hpolicy⟩
      have hpolicy := (h.unopposed_iff hfresh hfits).mpr hpolicy
      exact ⟨_, source, target, output, input, hfits, hpolicy, rfl⟩
  · intro e he
    rw [apply, he]
    rfl
  · intro g' hc
    obtain ⟨source, target, output, input, hfits, -, rfl⟩ := hs.connect_eq_ok_iff.mp hc
    obtain ⟨p, hp, -⟩ := hfits.target
    exact ⟨source, target, output, input, hfits,
      h.supplants_relinked hfresh (hfits.source_ne_target hfits) hp⟩

/-- A bend that is linked to itself gives up the link from the constant. -/
theorem connect_exactly_bentWire : bentWire.Agrees ∧ bentWire.Sided ∧
    bentWire.link? ⟨⟨4⟩⟩ = none ∧ bentWire.linksAt ⟨⟨⟨1⟩⟩, "Output"⟩ = [⟨⟨3⟩⟩] ∧
    ∃ g', bentWire.connect ⟨⟨⟨2⟩⟩, "Input"⟩ ⟨⟨⟨2⟩⟩, "Output"⟩ ⟨⟨4⟩⟩ = .ok g' ∧
      g'.links.keys = [⟨⟨4⟩⟩] ∧ g'.linksAt ⟨⟨⟨1⟩⟩, "Output"⟩ = [] ∧
      ∃ source target output input,
        bentWire.Fits ⟨⟨⟨2⟩⟩, "Input"⟩ ⟨⟨⟨2⟩⟩, "Output"⟩ source target output input ∧
        bentWire.Supplants ⟨⟨⟨4⟩⟩, source, target, output⟩ g' := by
  have hkept := authored_bentWire.kept Registry.uniquePins_material
  have hagrees := hkept.wellLinked.agrees
  have hsided := hkept.instantiated.sided
  have hfresh : bentWire.link? ⟨⟨4⟩⟩ = none := by decide
  obtain ⟨-, -, hsupplants, -⟩ := hagrees.connect_exactly hsided hfresh
  exact ⟨hagrees, hsided, hfresh, by decide, _, rfl, by decide, by decide, hsupplants _ rfl⟩

end ShaderGraph.Graph
