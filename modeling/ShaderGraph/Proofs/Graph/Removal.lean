import ShaderGraph.Proofs.Graph.Replacement

/-!
# What a removal takes away

Removing a node, breaking a pin and undoing a connection remove links one after the other. Each of
them amounts to one filter over the link table and the lists of the pins: what is meant to go is
taken away everywhere, and all else stays where it is.

## Main definitions

* `Graph.cut` — a graph less the links with a property, in the table and at the pins
* `Graph.withoutNode` — a graph less a node and the links that touch it
* `Graph.endsAt` — a link has an end at the pin that an address means

## Main results

* `Noted.disconnectAll_eq_cut` — removing all links with a property, one by one
* `Agrees.removeNode_eq`, `Agrees.breakPin_eq_cut` — what goes with a node and with a pin
* `Noted.disconnect_insertLink` — a fresh link that is removed leaves no trace
* `Agrees.removals_exactly` — all about removals
-/

namespace ShaderGraph

namespace Table

variable {α β : Type*} [DecidableEq α] {t : Table α β} {k : α} {b : β}

theorem filter_key_insert (h : t.get? k = none) :
    ((t.insert k b).filter fun a _ => !(a == k)) = t := by
  have hkeys : ∀ e ∈ t.entries, e.1 ≠ k := by
    rintro ⟨a, b⟩ he rfl
    rw [get?_eq_some_iff.mpr he] at h
    cases h
  apply ext
  rw [entries_filter, entries_insert_of_get?_eq_none h, List.filter_append,
    List.filter_eq_self.mpr fun e he => by simpa using hkeys e he]
  simp

end Table

namespace Graph

/-- A graph less the links with a property, in the table and in the lists of the pins that their
addresses mean. -/
def cut (g : Graph) (dead : Link → Bool) : Graph :=
  { g.mapAddressed fun _ p => { p with links := p.links.filter fun l => !(g.link? l).any dead }
    with links := g.links.filter fun _ link => !dead link }

/-- A graph less a node and the links that touch it. -/
def withoutNode (g : Graph) (n : NodeId) : Graph :=
  { g.cut (·.touchesNode n) with nodes := (g.cut (·.touchesNode n)).nodes.erase n }

/-- Whether a link has an end at the pin that an address means, which is an input if there is one
there. -/
def endsAt (g : Graph) (r : PinRef) (link : Link) : Bool :=
  link.target == r || (g.input? r).isNone && link.source == r

variable {g g' : Graph} {a b r : PinRef} {p : Pin} {l id : LinkId} {ls : List LinkId} {link : Link}
  {n : NodeId} {dead : Link → Bool}

/-- Removing all links with a property one by one is one filter over the graph. -/
theorem Noted.disconnectAll_eq_cut (h : g.Noted)
    (hls : ∀ {l link}, g.link? l = some link → (l ∈ ls ↔ dead link = true)) :
    g.disconnectAll ls = g.cut dead := by
  have hpins : (g.mapAddressed fun _ => Pin.without ls.contains) = g.mapAddressed fun _ p =>
      { p with links := p.links.filter fun l => !(g.link? l).any dead } := by
    refine mapAddressed_congr fun r p hp => ?_
    rw [Pin.without]
    congr 1
    refine List.filter_congr fun l hl => ?_
    obtain ⟨link, hlink, -⟩ := h hp hl
    rw [hlink, Option.any_some, List.contains_eq_mem]
    simp [hls hlink]
  have hlinks : (g.links.filter fun l _ => !ls.contains l) =
      g.links.filter fun _ link => !dead link := by
    refine Table.ext (List.filter_congr fun e he => ?_)
    have hlink : g.link? e.1 = some e.2 := Table.get?_eq_some_iff.mpr he
    simp [hls hlink]
  rw [h.disconnectAll_eq, Graph.forget, hpins, hlinks, cut]

theorem size_sub_size_cut :
    g.links.size - (g.cut dead).links.size = (g.links.values.filter dead).length := by
  have hlength := g.links.entries.length_eq_length_filter_add (f := fun e => dead e.2)
  have hdead : (g.links.values.filter dead).length =
      (g.links.entries.filter fun e => dead e.2).length := by
    rw [Table.values, List.filter_map, List.length_map]
    rfl
  have hkept : (g.cut dead).links.size =
      (g.links.entries.filter fun e => !dead e.2).length := rfl
  rw [hkept, hdead, Table.size]
  omega

/-! ### Removing a node -/

/-- A node that is no root is removed, and with it the links that touch it. -/
theorem Agrees.removeNode_eq (h : g.Agrees) (hn : g.hasNode n = true) (hroot : g.root ≠ some n) :
    g.removeNode n = .ok (g.withoutNode n) := by
  have hcut : g.disconnectAll ((g.links.values.filter (·.touchesNode n)).map (·.id)) =
      g.cut (·.touchesNode n) := by
    refine h.noted.disconnectAll_eq_cut fun {l link} hl => ?_
    rw [mem_map_id_filter h.link_id]
    constructor
    · rintro ⟨link', hl', htouches⟩
      obtain rfl := Option.some_inj.mp (hl.symm.trans hl')
      exact htouches
    · exact fun htouches => ⟨link, hl, htouches⟩
  rw [removeNode, if_neg hroot, hn, Bool.not_true, if_neg (by decide)]
  dsimp only
  rw [hcut, withoutNode]

/-! ### Breaking a pin -/

/-- A pin of a graph that agrees lists the links that end at it. -/
theorem Agrees.mem_linksAt_iff_endsAt (h : g.Agrees) (hl : g.link? l = some link) :
    l ∈ g.linksAt r ↔ g.endsAt r link = true := by
  cases hin : g.input? r with
  | some p =>
    rw [h.mem_linksAt_iff hin, endsAt, hin]
    simp [hl]
  | none =>
    -- No link leads into what is no input.
    have htarget : link.target ≠ r := by
      rintro rfl
      obtain ⟨p, hp⟩ := h.target hl
      rw [hin] at hp
      cases hp
    rw [endsAt, hin, beq_false_of_ne htarget, linksAt, pin?_eq_or, hin, Option.none_or]
    cases hout : g.output? r with
    | none =>
      have hsource : link.source ≠ r := by
        rintro rfl
        obtain ⟨p, hp⟩ := h.source hl
        rw [hout] at hp
        cases hp
      simp [hsource]
    | some p =>
      obtain ⟨node, hn, hp⟩ := Option.bind_eq_some_iff.mp hout
      have hid : p.id = r.pin := by simpa using List.find?_some hp
      simp [h.mem_output hn (List.mem_of_find?_eq_some hp), hid, hl]

/-- The links at a pin are broken, and no others. -/
theorem Agrees.breakPin_eq_cut (h : g.Agrees) : g.breakPin r = g.cut (g.endsAt r) :=
  h.noted.disconnectAll_eq_cut fun hl => h.mem_linksAt_iff_endsAt hl

/-- Where no address is that of an input and of an output, a link ends at the pins that it
touches. -/
theorem endsAt_eq_touchesPin (h : g.WellPinned) (ha : g.Agrees) (hl : g.link? l = some link) :
    g.endsAt r link = link.touchesPin r := by
  rw [endsAt, Link.touchesPin, Bool.or_comm]
  congr 1
  by_cases hsource : link.source = r
  · obtain ⟨p, hp⟩ := ha.source hl
    rw [← hsource, h.input?_eq_none hp, Option.isNone_none, Bool.true_and]
  · rw [beq_false_of_ne hsource, Bool.and_false]

/-! ### Undoing a connection -/

theorem Noted.insertLink (h : g.Noted) (hne : link.source ≠ link.target)
    (hfresh : g.link? link.id = none) : (g.insertLink link).Noted := by
  intro r p l hp hl
  rw [insertLink_eq_mapAddressed hne] at hp
  have hp : (g.mapAddressed (Pin.noting link)).pin? r = some p := hp
  rw [pin?_mapAddressed fun _ _ => Pin.id_noting, Option.map_eq_some_iff] at hp
  obtain ⟨q, hq, rfl⟩ := hp
  rw [link?_insertLink]
  rw [Pin.links_noting, List.mem_append] at hl
  rcases hl with hl | hl
  -- What was listed before is in the table, so it is not the fresh link.
  · obtain ⟨link', hlink', hends⟩ := h hq hl
    refine ⟨link', ?_, hends⟩
    rw [if_neg]
    · exact hlink'
    · rintro rfl
      rw [hfresh] at hlink'
      cases hlink'
  · split at hl
    · rename_i hends
      rw [List.mem_singleton.mp hl, if_pos rfl]
      exact ⟨link, rfl, hends⟩
    · cases hl

/-- A fresh link that is removed leaves no trace. -/
theorem Noted.disconnect_insertLink (h : g.Noted) (hne : link.source ≠ link.target)
    (hfresh : g.link? link.id = none) : (g.insertLink link).disconnect link.id = g := by
  have hpins : (g.mapAddressed (Pin.noting link)).mapAddressed
      (fun _ => Pin.without (· == link.id)) = g := by
    rw [mapAddressed_mapAddressed fun _ _ => Pin.id_noting]
    refine mapAddressed_eq_self fun r p hp => ?_
    have hold : p.without (· == link.id) = p := by
      refine Pin.without_eq_self fun l hl => beq_false_of_ne ?_
      rintro rfl
      obtain ⟨link', hlink', -⟩ := h hp hl
      rw [hfresh] at hlink'
      cases hlink'
    rw [Pin.noting]
    split
    · have hattach : (p.attach link.id).without (· == link.id) = p.without (· == link.id) := by
        simp [Pin.attach, Pin.without]
      rw [hattach, hold]
    · exact hold
  rw [(h.insertLink hne hfresh).disconnect_eq, insertLink_eq_mapAddressed hne]
  have hnodes := congrArg Graph.nodes hpins
  have hlinks : ((g.links.insert link.id link).filter fun l _ => !(l == link.id)) = g.links :=
    Table.filter_key_insert hfresh
  simp only [Graph.forget, mapAddressed] at hnodes ⊢
  rw [hnodes, hlinks]

theorem Agrees.breakPin_eq_elim (h : g.Agrees) (hp : g.input? r = some p) :
    g.breakPin r = (g.linkInto? r).elim g fun old => g.disconnect old.id := by
  rw [breakPin, h.linksAt_eq hp]
  cases g.linkInto? r with
  | none => rfl
  | some link => rfl

/-- A new link that is removed leaves the graph in which the link into the same input was removed,
which is the graph from before if there was none. -/
theorem Agrees.disconnect_connect (h : g.Agrees) (hs : g.Sided) (hfresh : g.link? id = none)
    (hc : g.connect a b id = .ok g') : ∃ link, g'.link? id = some link ∧
      g'.disconnect id = (g.linkInto? link.target).elim g fun old => g.disconnect old.id := by
  obtain ⟨source, target, output, input, hfits, -, rfl⟩ := hs.connect_eq_ok_iff.mp hc
  obtain ⟨p, hp, -⟩ := hfits.target
  refine ⟨⟨id, source, target, output⟩, (h.link?_relinked hp).mpr (Or.inl ⟨rfl, rfl⟩), ?_⟩
  have hnoted : (g.breakPin target).Noted := h.breakPin_eq_forget hp ▸ h.noted.forget
  have hfreed : (g.breakPin target).link? id = none := by
    rw [Option.eq_none_iff_forall_not_mem]
    intro link hl
    rw [Option.mem_def.mp (link?_of_disconnectAll hl)] at hfresh
    cases hfresh
  rw [← h.breakPin_eq_elim hp]
  exact hnoted.disconnect_insertLink (hfits.source_ne_target hfits) hfreed

/-! ### Removals -/

/-- Removing a node that is no root takes away the node and the links that touch it; breaking a pin
takes away the links that end at it and counts them; and removing a link that was just made leaves
the graph from before, less the link into the same input if there was one. All that is left is as it
was, in the table and in the lists of the pins. -/
theorem Agrees.removals_exactly (h : g.Agrees) (hs : g.Sided) :
    (∀ n, g.hasNode n = true → g.root ≠ some n → g.removeNode n = .ok (g.withoutNode n)) ∧
    (∀ r, g.breakPin r = g.cut (g.endsAt r) ∧
      g.breakCount r = (g.links.values.filter (g.endsAt r)).length ∧
      (g.WellPinned → ∀ l link, g.link? l = some link →
        g.endsAt r link = link.touchesPin r)) ∧
    ∀ a b id g', g.link? id = none → g.connect a b id = .ok g' →
      ∃ link, g'.link? id = some link ∧ g'.disconnect id =
        match g.linkInto? link.target with
        | some old => g.disconnect old.id
        | none => g := by
  refine ⟨fun n hn hroot => h.removeNode_eq hn hroot, fun r => ⟨h.breakPin_eq_cut, ?_, ?_⟩, ?_⟩
  · rw [breakCount, h.breakPin_eq_cut, size_sub_size_cut]
  · exact fun hp l link hl => endsAt_eq_touchesPin hp h hl
  · intro a b id g' hfresh hc
    obtain ⟨link, hlink, heq⟩ := h.disconnect_connect hs hfresh hc
    refine ⟨link, hlink, heq.trans ?_⟩
    cases g.linkInto? link.target with
    | none => rfl
    | some old => rfl

/-- The bend forgets the constant that is removed, and a link of the bend to itself is undone. -/
theorem removals_exactly_bentWire : bentWire.Agrees ∧ bentWire.Sided ∧
    bentWire.removeNode ⟨⟨1⟩⟩ = .ok (bentWire.withoutNode ⟨⟨1⟩⟩) ∧
    (bentWire.withoutNode ⟨⟨1⟩⟩).linksAt ⟨⟨⟨2⟩⟩, "Input"⟩ = [] ∧
    bentWire.breakPin ⟨⟨⟨1⟩⟩, "Output"⟩ = bentWire.cut (bentWire.endsAt ⟨⟨⟨1⟩⟩, "Output"⟩) ∧
    bentWire.breakCount ⟨⟨⟨1⟩⟩, "Output"⟩ = 1 ∧
    ∃ g' link, bentWire.connect ⟨⟨⟨2⟩⟩, "Input"⟩ ⟨⟨⟨2⟩⟩, "Output"⟩ ⟨⟨4⟩⟩ = .ok g' ∧
      g'.link? ⟨⟨4⟩⟩ = some link ∧ g'.disconnect ⟨⟨4⟩⟩ =
        match bentWire.linkInto? link.target with
        | some old => bentWire.disconnect old.id
        | none => bentWire := by
  have hkept := authored_bentWire.kept Registry.uniquePins_material
  have hagrees := hkept.wellLinked.agrees
  have hsided := hkept.instantiated.sided
  obtain ⟨hremove, hbreak, hundo⟩ := hagrees.removals_exactly hsided
  obtain ⟨g', hc⟩ : ∃ g', bentWire.connect ⟨⟨⟨2⟩⟩, "Input"⟩ ⟨⟨⟨2⟩⟩, "Output"⟩ ⟨⟨4⟩⟩ = .ok g' :=
    ⟨_, rfl⟩
  obtain ⟨link, hlink, heq⟩ := hundo _ _ _ g' (by decide) hc
  exact ⟨hagrees, hsided, hremove _ (by decide) (by decide), by decide, (hbreak _).1, by decide,
    g', link, hc, hlink, heq⟩

end Graph

end ShaderGraph
