import ShaderGraph.Proofs.Graph.Pins

/-!
# Agreement of the link table and the pins

A link is noted three times: in the link table, at the output pin that it leaves and at the input
pin that it enters. A graph agrees if the three tell of the same links; it is well-linked if the
pins also list their links in the order of the table and every link fits the types of its pins.

Where pins list only links that end at them, removing a link takes it away everywhere, so that any
sequence of removals is one filter over the table and the pins that addresses mean. Where the
identifiers within a node differ, these are all pins.

## Main definitions

* `Graph.Agrees` — the table and the pins tell of the same links
* `Graph.WellLinked` — they do so in the same order, and links fit the types of their pins
* `Graph.withoutLinks` — a graph less some of its links
* `Graph.Noted` — pins list only links of the table that end at them
* `Graph.forget` — a graph less some of its links, as far as addresses mean the pins

## Main results

* `WellLinked.agrees` — a well-linked graph agrees
* `Agrees.eq_of_target` — an input pin has one link at most
* `Noted.disconnectAll_eq`, `Agrees.disconnectAll_eq` — a sequence of removals is one filter
* `WellLinked.withoutLinks` — a well-linked graph stays so when links are taken away
-/

namespace ShaderGraph

namespace Graph

/-- The links into a pin. -/
def linksInto (g : Graph) (r : PinRef) : List Link := g.links.values.filter (·.target == r)

/-- The link table and the pins tell of the same links, and an input pin has at most one. -/
structure Agrees (g : Graph) : Prop where
  node_id : ∀ {n node}, g.node? n = some node → node.id = n
  link_id : ∀ {l link}, g.link? l = some link → link.id = l
  source : ∀ {l link}, g.link? l = some link → ∃ p, g.output? link.source = some p
  target : ∀ {l link}, g.link? l = some link → ∃ p, g.input? link.target = some p
  mem_output : ∀ {n node p l}, g.node? n = some node → p ∈ node.outputs →
    (l ∈ p.links ↔ ∃ link, g.link? l = some link ∧ link.source = ⟨n, p.id⟩)
  mem_input : ∀ {n node p l}, g.node? n = some node → p ∈ node.inputs →
    (l ∈ p.links ↔ ∃ link, g.link? l = some link ∧ link.target = ⟨n, p.id⟩)
  length_input : ∀ {n node p}, g.node? n = some node → p ∈ node.inputs → p.links.length ≤ 1

/-- Every link joins an output pin to an input pin that accepts its type, and every pin lists the
links at it in the order of the link table, an input pin at most one. -/
structure WellLinked (g : Graph) : Prop where
  node_id : ∀ {n node}, g.node? n = some node → node.id = n
  link_id : ∀ {l link}, g.link? l = some link → link.id = l
  source : ∀ {l link}, g.link? l = some link →
    ∃ p, g.output? link.source = some p ∧ p.type = link.type
  target : ∀ {l link}, g.link? l = some link →
    ∃ p, g.input? link.target = some p ∧
      g.registry.compatibility.canConnect link.type p.type = true
  links_output : ∀ {n node p}, g.node? n = some node → p ∈ node.outputs →
    p.links = (g.linksFrom ⟨n, p.id⟩).map Link.id
  links_input : ∀ {n node p}, g.node? n = some node → p ∈ node.inputs →
    p.links = (g.linksInto ⟨n, p.id⟩).map Link.id
  length_input : ∀ {n node p}, g.node? n = some node → p ∈ node.inputs → p.links.length ≤ 1

variable {g : Graph} {r : PinRef} {p : Pin} {l : LinkId} {link : Link} {n : NodeId} {node : Node}

/-! ### Well-linked graphs agree -/

theorem mem_values_links (h : ∀ {l link}, g.link? l = some link → link.id = l) :
    link ∈ g.links.values ↔ g.link? link.id = some link := by
  rw [Table.mem_values_iff]
  constructor
  · rintro ⟨l, hl⟩
    obtain rfl := h hl
    exact hl
  · exact fun hl => ⟨_, hl⟩

theorem mem_map_id_filter (h : ∀ {l link}, g.link? l = some link → link.id = l)
    {q : Link → Bool} :
    l ∈ (g.links.values.filter q).map Link.id ↔
      ∃ link, g.link? l = some link ∧ q link = true := by
  rw [List.mem_map]
  constructor
  · rintro ⟨link, hmem, rfl⟩
    rw [List.mem_filter, mem_values_links h] at hmem
    exact ⟨link, hmem⟩
  · rintro ⟨link, hl, hq⟩
    obtain rfl := h hl
    exact ⟨link, List.mem_filter.mpr ⟨(mem_values_links h).mpr hl, hq⟩, rfl⟩

theorem WellLinked.agrees (h : g.WellLinked) : g.Agrees where
  node_id := h.node_id
  link_id := h.link_id
  source hl := (h.source hl).imp fun _ => And.left
  target hl := (h.target hl).imp fun _ => And.left
  mem_output hn hp := by
    rw [h.links_output hn hp, linksFrom, mem_map_id_filter h.link_id]
    simp only [beq_iff_eq]
  mem_input hn hp := by
    rw [h.links_input hn hp, linksInto, mem_map_id_filter h.link_id]
    simp only [beq_iff_eq]
  length_input := h.length_input

/-- The identifiers of the links in the table are distinct. -/
theorem nodup_map_id (h : ∀ {l link}, g.link? l = some link → link.id = l) :
    (g.links.values.map Link.id).Nodup := by
  -- Every link carries the key that it is filed under.
  have hids : g.links.values.map Link.id = g.links.keys := by
    rw [Table.values, Table.keys, List.map_map]
    refine List.map_congr_left fun e he => ?_
    exact h (Table.get?_eq_some_iff.mpr he)
  exact hids ▸ g.links.nodup

/-- A pin lists no link twice. -/
theorem WellLinked.nodup_links (h : g.WellLinked) (hn : g.node? n = some node)
    (hp : p ∈ node.pins) : p.links.Nodup := by
  have hnodup := nodup_map_id h.link_id
  rcases List.mem_append.mp hp with hp | hp
  · rw [h.links_input hn hp]
    exact (List.filter_sublist.map Link.id).nodup hnodup
  · rw [h.links_output hn hp]
    exact (List.filter_sublist.map Link.id).nodup hnodup

/-- No two links lead into the same pin. -/
theorem Agrees.eq_of_target (h : g.Agrees) {l l' : LinkId} {link' : Link}
    (hl : g.link? l = some link) (hl' : g.link? l' = some link') (ht : link.target = link'.target) :
    l = l' := by
  -- Both links are listed at the pin that they lead into, and it lists one at most.
  obtain ⟨p, hp⟩ := h.target hl
  obtain ⟨node, hn, hp⟩ := Option.bind_eq_some_iff.mp hp
  have hid : p.id = link.target.pin := by simpa using List.find?_some hp
  have hmem : p ∈ node.inputs := List.mem_of_find?_eq_some hp
  have hlisted := (h.mem_input hn hmem).mpr ⟨link, hl, by rw [hid]⟩
  have hlisted' := (h.mem_input hn hmem).mpr ⟨link', hl', by rw [hid, ht]⟩
  have hlength := h.length_input hn hmem
  match hlinks : p.links with
  | [] => rw [hlinks] at hlisted; cases hlisted
  | [_] =>
    rw [hlinks, List.mem_singleton] at hlisted hlisted'
    rw [hlisted, hlisted']
  | _ :: _ :: _ => rw [hlinks] at hlength; simp at hlength

/-! ### The link into a pin -/

theorem mem_of_linkInto? (h : g.linkInto? r = some link) :
    link ∈ g.links.values ∧ link.target = r :=
  ⟨List.mem_of_find?_eq_some h, by simpa using List.find?_some h⟩

theorem Agrees.linkInto?_eq_none (h : g.Agrees) (hn : g.node? n = some node)
    (hp : p ∈ node.inputs) (hl : p.links = []) : g.linkInto? ⟨n, p.id⟩ = none := by
  rw [linkInto?, List.find?_eq_none]
  intro link hmem htarget
  have hlisted := (h.mem_input hn hp).mpr
    ⟨link, (mem_values_links h.link_id).mp hmem, beq_iff_eq.mp htarget⟩
  rw [hl] at hlisted
  cases hlisted

/-- The table is searched for any link into the pin, of which there is one at most. -/
theorem Agrees.linkInto?_eq_some_iff (h : g.Agrees) :
    g.linkInto? r = some link ↔ link ∈ g.links.values ∧ link.target = r := by
  refine ⟨mem_of_linkInto?, fun ⟨hmem, htarget⟩ => ?_⟩
  cases hinto : g.linkInto? r with
  | none => exact absurd (beq_iff_eq.mpr htarget) (List.find?_eq_none.mp hinto link hmem)
  | some link' =>
    obtain ⟨hmem', htarget'⟩ := mem_of_linkInto? hinto
    have hlink := (mem_values_links h.link_id).mp hmem
    have hlink' := (mem_values_links h.link_id).mp hmem'
    rw [h.eq_of_target hlink hlink' (htarget.trans htarget'.symm), hlink'] at hlink
    exact hlink

/-- The link that a pin lists is the one that leads into it. -/
theorem Agrees.exists_linkInto?_eq_some (h : g.Agrees) (hn : g.node? n = some node)
    (hp : p ∈ node.inputs) {ls : List LinkId} (hl : p.links = l :: ls) :
    ∃ link, g.link? l = some link ∧ g.linkInto? ⟨n, p.id⟩ = some link := by
  obtain ⟨link, hlink, htarget⟩ := (h.mem_input hn hp).mp (by rw [hl]; exact List.mem_cons_self)
  have hmem : link ∈ g.links.values := Table.mem_values_iff.mpr ⟨l, hlink⟩
  exact ⟨link, hlink, h.linkInto?_eq_some_iff.mpr ⟨hmem, htarget⟩⟩

end Graph

/-! ### Taking links away -/

/-- A pin less some of its links. -/
def Pin.without (dead : LinkId → Bool) (p : Pin) : Pin :=
  { p with links := p.links.filter fun l => !dead l }

theorem Pin.without_eq_self {dead : LinkId → Bool} {p : Pin} (h : ∀ l ∈ p.links, dead l = false) :
    p.without dead = p := by
  rw [Pin.without, List.filter_eq_self.mpr fun l hl => by rw [h l hl]; rfl]

theorem Pin.without_without {dead dead' : LinkId → Bool} {p : Pin} :
    (p.without dead).without dead' = p.without fun l => dead l || dead' l := by
  simp [Pin.without, List.filter_filter, Bool.and_comm]

theorem Pin.detach_eq_without {l : LinkId} {p : Pin} : p.detach l = p.without (· == l) := rfl

namespace Graph

/-- A graph less some of its links, in the table and at the pins. -/
def withoutLinks (g : Graph) (dead : LinkId → Bool) : Graph :=
  { g.mapPins fun _ => Pin.without dead with links := g.links.filter fun l _ => !dead l }

variable {g : Graph} {r : PinRef} {p : Pin} {l : LinkId} {link : Link} {n : NodeId} {node : Node}
  {dead : LinkId → Bool}

theorem link?_withoutLinks :
    (g.withoutLinks dead).link? l = some link ↔ g.link? l = some link ∧ dead l = false := by
  rw [link?, withoutLinks, Table.get?_filter, Bool.not_eq_true', link?]

theorem node?_withoutLinks :
    (g.withoutLinks dead).node? n = (g.node? n).map fun node => node.mapPins (Pin.without dead) :=
  node?_mapPins (f := fun _ => Pin.without dead)

theorem exists_of_mem_inputs_withoutLinks (hn : (g.withoutLinks dead).node? n = some node)
    (hp : p ∈ node.inputs) :
    ∃ node' q, g.node? n = some node' ∧ q ∈ node'.inputs ∧ q.without dead = p :=
  exists_of_mem_inputs_mapPins (f := fun _ => Pin.without dead) hn hp

theorem exists_of_mem_outputs_withoutLinks (hn : (g.withoutLinks dead).node? n = some node)
    (hp : p ∈ node.outputs) :
    ∃ node' q, g.node? n = some node' ∧ q ∈ node'.outputs ∧ q.without dead = p :=
  exists_of_mem_outputs_mapPins (f := fun _ => Pin.without dead) hn hp

theorem input?_withoutLinks :
    (g.withoutLinks dead).input? r = (g.input? r).map (Pin.without dead) :=
  input?_mapPins (f := fun _ => Pin.without dead) fun _ _ => rfl

theorem output?_withoutLinks :
    (g.withoutLinks dead).output? r = (g.output? r).map (Pin.without dead) :=
  output?_mapPins (f := fun _ => Pin.without dead) fun _ _ => rfl

theorem WellPinned.withoutLinks (h : g.WellPinned) : (g.withoutLinks dead).WellPinned :=
  WellPinned.mapPins (f := fun _ => Pin.without dead) h fun _ _ => rfl

theorem values_withoutLinks (h : ∀ {l link}, g.link? l = some link → link.id = l) :
    (g.withoutLinks dead).links.values = g.links.values.filter fun link => !dead link.id :=
  Table.values_filter_key fun _ _ => h

theorem linksFrom_withoutLinks (h : ∀ {l link}, g.link? l = some link → link.id = l) :
    (g.withoutLinks dead).linksFrom r = (g.linksFrom r).filter fun link => !dead link.id := by
  rw [linksFrom, linksFrom, values_withoutLinks h, List.filter_filter, List.filter_filter]
  exact List.filter_congr fun _ _ => Bool.and_comm _ _

theorem linksInto_withoutLinks (h : ∀ {l link}, g.link? l = some link → link.id = l) :
    (g.withoutLinks dead).linksInto r = (g.linksInto r).filter fun link => !dead link.id := by
  rw [linksInto, linksInto, values_withoutLinks h, List.filter_filter, List.filter_filter]
  exact List.filter_congr fun _ _ => Bool.and_comm _ _

theorem Agrees.withoutLinks (h : g.Agrees) : (g.withoutLinks dead).Agrees where
  node_id hn := by
    rw [node?_withoutLinks, Option.map_eq_some_iff] at hn
    obtain ⟨node, hn, rfl⟩ := hn
    rw [Node.id_mapPins, h.node_id hn]
  link_id hl := h.link_id (link?_withoutLinks.mp hl).1
  source hl := by
    obtain ⟨p, hp⟩ := h.source (link?_withoutLinks.mp hl).1
    exact ⟨p.without dead, by rw [output?_withoutLinks, hp, Option.map_some]⟩
  target hl := by
    obtain ⟨p, hp⟩ := h.target (link?_withoutLinks.mp hl).1
    exact ⟨p.without dead, by rw [input?_withoutLinks, hp, Option.map_some]⟩
  mem_output hn hp := by
    obtain ⟨node, q, hn, hq, rfl⟩ := exists_of_mem_outputs_withoutLinks hn hp
    simp only [Pin.without, List.mem_filter, h.mem_output hn hq, link?_withoutLinks,
      Bool.not_eq_true', ← exists_and_right, and_right_comm]
  mem_input hn hp := by
    obtain ⟨node, q, hn, hq, rfl⟩ := exists_of_mem_inputs_withoutLinks hn hp
    simp only [Pin.without, List.mem_filter, h.mem_input hn hq, link?_withoutLinks,
      Bool.not_eq_true', ← exists_and_right, and_right_comm]
  length_input hn hp := by
    obtain ⟨node, q, hn, hq, rfl⟩ := exists_of_mem_inputs_withoutLinks hn hp
    exact Nat.le_trans (List.length_filter_le _ _) (h.length_input hn hq)

/-- A well-linked graph stays so when links are taken away. -/
theorem WellLinked.withoutLinks (h : g.WellLinked) : (g.withoutLinks dead).WellLinked where
  node_id := h.agrees.withoutLinks.node_id
  link_id := h.agrees.withoutLinks.link_id
  source hl := by
    obtain ⟨p, hp, ht⟩ := h.source (link?_withoutLinks.mp hl).1
    exact ⟨p.without dead, by rw [output?_withoutLinks, hp, Option.map_some], ht⟩
  target hl := by
    obtain ⟨p, hp, hc⟩ := h.target (link?_withoutLinks.mp hl).1
    exact ⟨p.without dead, by rw [input?_withoutLinks, hp, Option.map_some], hc⟩
  links_output hn hp := by
    obtain ⟨node, q, hn, hq, rfl⟩ := exists_of_mem_outputs_withoutLinks hn hp
    rw [linksFrom_withoutLinks h.link_id, Pin.without, h.links_output hn hq, List.filter_map]
    rfl
  links_input hn hp := by
    obtain ⟨node, q, hn, hq, rfl⟩ := exists_of_mem_inputs_withoutLinks hn hp
    rw [linksInto_withoutLinks h.link_id, Pin.without, h.links_input hn hq, List.filter_map]
    rfl
  length_input := h.agrees.withoutLinks.length_input

/-! ### Removals as filters -/

/-- A pin of a graph that agrees lists only links of the table that it is an end of. -/
theorem Agrees.exists_link_of_mem (h : g.Agrees) (hn : g.node? n = some node) (hp : p ∈ node.pins)
    (hl : l ∈ p.links) :
    ∃ link, g.link? l = some link ∧ (link.source = ⟨n, p.id⟩ ∨ link.target = ⟨n, p.id⟩) := by
  rcases List.mem_append.mp hp with hp | hp
  · obtain ⟨link, hlink, htarget⟩ := (h.mem_input hn hp).mp hl
    exact ⟨link, hlink, Or.inr htarget⟩
  · obtain ⟨link, hlink, hsource⟩ := (h.mem_output hn hp).mp hl
    exact ⟨link, hlink, Or.inl hsource⟩

theorem Agrees.withoutLinks_eq_self (h : g.Agrees)
    (hdead : ∀ {l link}, g.link? l = some link → dead l = false) : g.withoutLinks dead = g := by
  have hpins : (g.mapPins fun _ => Pin.without dead) = g := by
    refine mapPins_eq_self fun n node hn p hp => Pin.without_eq_self fun l hl => ?_
    obtain ⟨link, hlink, -⟩ := h.exists_link_of_mem hn hp hl
    exact hdead hlink
  have hlinks : (g.links.filter fun l _ => !dead l) = g.links := by
    refine Table.filter_eq_self fun e he => ?_
    rw [hdead (Table.get?_eq_some_iff.mpr he)]
    rfl
  rw [Graph.withoutLinks, hpins, hlinks]

/-- What a pin lists, as far as its address means it, are links of the table that end there. -/
def Noted (g : Graph) : Prop :=
  ∀ ⦃r p l⦄, g.pin? r = some p → l ∈ p.links →
    ∃ link, g.link? l = some link ∧ (link.source = r ∨ link.target = r)

/-- A graph less some of its links, in the table and at the pins that their addresses mean. -/
def forget (g : Graph) (dead : LinkId → Bool) : Graph :=
  { g.mapAddressed fun _ => Pin.without dead with links := g.links.filter fun l _ => !dead l }

theorem Agrees.noted (h : g.Agrees) : g.Noted := by
  intro r p l hp hl
  obtain ⟨node, hn, hp⟩ := Option.bind_eq_some_iff.mp hp
  obtain ⟨link, hlink, hends⟩ := h.exists_link_of_mem hn (Node.mem_pins_of_pin? hp) hl
  rw [Node.id_of_pin? hp] at hends
  exact ⟨link, hlink, hends⟩

theorem link?_forget :
    (g.forget dead).link? l = some link ↔ g.link? l = some link ∧ dead l = false := by
  rw [link?, forget, Table.get?_filter, Bool.not_eq_true', link?]

theorem pin?_forget : (g.forget dead).pin? r = (g.pin? r).map (Pin.without dead) :=
  pin?_mapAddressed (f := fun _ => Pin.without dead) fun _ _ => rfl

theorem Noted.forget (h : g.Noted) : (g.forget dead).Noted := by
  intro r p l hp hl
  rw [pin?_forget, Option.map_eq_some_iff] at hp
  obtain ⟨q, hq, rfl⟩ := hp
  obtain ⟨hl, hkept⟩ := List.mem_filter.mp hl
  obtain ⟨link, hlink, hends⟩ := h hq hl
  exact ⟨link, link?_forget.mpr ⟨hlink, by simpa using hkept⟩, hends⟩

theorem forget_forget {dead' : LinkId → Bool} :
    (g.forget dead).forget dead' = g.forget fun l => dead l || dead' l := by
  have hpins :
      (g.mapAddressed fun _ => Pin.without dead).mapAddressed (fun _ => Pin.without dead') =
        g.mapAddressed fun _ => Pin.without fun l => dead l || dead' l := by
    rw [mapAddressed_mapAddressed (f := fun _ => Pin.without dead) fun _ _ => rfl]
    simp only [Pin.without_without]
  have hlinks : (g.links.filter fun l _ => !dead l).filter (fun l _ => !dead' l) =
      g.links.filter fun l _ => !(dead l || dead' l) := by
    simp only [Table.filter_filter, Bool.not_or]
  simp only [Graph.forget, mapAddressed] at hpins ⊢
  rw [hlinks, (Graph.mk.inj hpins).2.2.1]

theorem Noted.forget_eq_self (h : g.Noted)
    (hdead : ∀ {l link}, g.link? l = some link → dead l = false) : g.forget dead = g := by
  have hpins : (g.mapAddressed fun _ => Pin.without dead) = g := by
    refine mapAddressed_eq_self fun r p hp => Pin.without_eq_self fun l hl => ?_
    obtain ⟨link, hlink, -⟩ := h hp hl
    exact hdead hlink
  have hlinks : (g.links.filter fun l _ => !dead l) = g.links := by
    refine Table.filter_eq_self fun e he => ?_
    rw [hdead (Table.get?_eq_some_iff.mpr he)]
    rfl
  rw [Graph.forget, hpins, hlinks]

theorem Noted.disconnect_eq (h : g.Noted) : g.disconnect l = g.forget (· == l) := by
  rw [disconnect]
  split
  · rename_i hnone
    refine (h.forget_eq_self fun {l' link} hl => ?_).symm
    rw [beq_eq_false_iff_ne]
    rintro rfl
    rw [hnone] at hl
    cases hl
  · rename_i link hsome
    -- A pin that is no end of the link does not list it, so detaching there changes nothing.
    have hpins : ({ g with links := g.links.erase l }.mapAddressed fun r p =>
        if r = link.target then (if r = link.source then p.detach l else p).detach l
        else if r = link.source then p.detach l else p) =
        { g with links := g.links.erase l }.mapAddressed fun _ => Pin.without (· == l) := by
      refine mapAddressed_congr fun r p hp => ?_
      rw [← Pin.detach_eq_without]
      by_cases hl : l ∈ p.links
      · obtain ⟨link', hlink', hends⟩ := h hp hl
        obtain rfl : link = link' := Option.some_inj.mp (hsome.symm.trans hlink')
        rcases hends with rfl | rfl
        · by_cases ht : link.source = link.target <;>
            simp [ht, Pin.detach_eq_without, Pin.without_without]
        · by_cases hs : link.target = link.source <;>
            simp [hs, Pin.detach_eq_without, Pin.without_without]
      · have hself : p.detach l = p :=
          Pin.without_eq_self fun l' hl' => beq_eq_false_iff_ne.mpr fun he => hl (he ▸ hl')
        simp [hself]
    have herase : g.links.erase l = g.links.filter fun l' _ => !(l' == l) := by
      rw [Table.erase]
      congr
      funext l' _
      by_cases he : l' = l <;> simp [he]
    dsimp only
    rw [modifyPin_eq_mapAddressed, modifyPin_eq_mapAddressed,
      mapAddressed_mapAddressed fun r p => by split <;> rfl, hpins, herase]
    rfl

/-- A sequence of removals is one filter. -/
theorem Noted.disconnectAll_eq (h : g.Noted) {ls : List LinkId} :
    g.disconnectAll ls = g.forget ls.contains := by
  rw [disconnectAll]
  -- After the first removal pins list what they should, so that the next one is a filter, too.
  induction ls generalizing g with
  | nil => exact (h.forget_eq_self fun _ => rfl).symm
  | cons l ls ih =>
    rw [List.foldl_cons, h.disconnect_eq, ih h.forget, forget_forget]
    rfl

theorem WellPinned.forget_eq (h : g.WellPinned) : g.forget dead = g.withoutLinks dead := by
  rw [Graph.forget, h.mapAddressed_eq, Graph.withoutLinks]

theorem Agrees.disconnect_eq (h : g.Agrees) (hp : g.WellPinned) :
    g.disconnect l = g.withoutLinks (· == l) := h.noted.disconnect_eq.trans hp.forget_eq

theorem Agrees.disconnectAll_eq (h : g.Agrees) (hp : g.WellPinned) {ls : List LinkId} :
    g.disconnectAll ls = g.withoutLinks ls.contains := h.noted.disconnectAll_eq.trans hp.forget_eq

end Graph

end ShaderGraph
