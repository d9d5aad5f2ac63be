import ShaderGraph.Proofs.Graph.Refusal

/-!
# When a link is refused for a cycle

Where cycles are refused, the check is made before the link that is to be replaced is taken away.
It is exact all the same: a path from the consumer to the producer does not need a link into the
consumer, as it may as well begin where it passes the consumer last. So what is refused is what
would lie on a cycle afterwards, be there other cycles or not.

## Main definitions

* `Graph.Fits` — two pins in either order as an output and an input of types that go together
* `Graph.relinked` — a graph with a link in place of those into its target
* `Graph.OnCycle` — a link leads back to where it comes from

## Main results

* `reflTransGen_of_feeds` — paths from a node do not depend on the links into it
* `Fits.connect_eq` — what becomes of a connection of two pins that fit
* `Agrees.connect_wouldCreateCycle_iff` — it is refused if the new link would lie on a cycle
-/

namespace ShaderGraph.Graph

/-- `source` and `target` are `a` and `b` in some order, an output and an input whose types go
together. -/
structure Fits (g : Graph) (a b source target : PinRef) (output input : PinType) : Prop where
  order : source = a ∧ target = b ∨ source = b ∧ target = a
  source : ∃ p, g.pin? source = some p ∧ p.direction = .output ∧ p.type = output
  target : ∃ p, g.input? target = some p ∧ p.direction = .input ∧ p.type = input
  accepted : g.registry.compatibility.canConnect output input = true

/-- A graph in which a link takes the place of those into its target. -/
def relinked (g : Graph) (link : Link) : Graph := (g.breakPin link.target).insertLink link

/-- A path of links leads from the target of a link back to its source. -/
def OnCycle (g : Graph) (l : LinkId) : Prop :=
  ∃ link, g.link? l = some link ∧ Relation.ReflTransGen g.Feeds link.target.node link.source.node

variable {g g' : Graph} {a b source target r : PinRef} {output input : PinType} {p : Pin}
  {l id : LinkId} {ls : List LinkId} {link link' : Link} {m n : NodeId}

/-! ### Pins that fit -/

/-- Whether two pins fit does not depend on what is linked. -/
theorem Fits.of_unlinked (h : g.Fits a b source target output input)
    (hu : g'.unlinked = g.unlinked) : g'.Fits a b source target output input where
  order := h.order
  source := by
    obtain ⟨p, hp, hd, ht⟩ := h.source
    have hpin : g'.unlinked.pin? source = some p.unlinked := by
      rw [hu, pin?_unlinked, hp, Option.map_some]
    rw [pin?_unlinked, Option.map_eq_some_iff] at hpin
    obtain ⟨q, hq, hqp⟩ := hpin
    exact ⟨q, hq, (congrArg Pin.direction hqp).trans hd, (congrArg Pin.type hqp).trans ht⟩
  target := by
    obtain ⟨p, hp, hd, ht⟩ := h.target
    obtain ⟨q, hq, hqp⟩ := exists_input?_of_unlinked hu hp
    exact ⟨q, hq, (congrArg Pin.direction hqp :).trans hd, (congrArg Pin.type hqp :).trans ht⟩
  accepted := by
    rw [(unlinked_congr hu).2]
    exact h.accepted

theorem Fits.connect_eq (h : g.Fits a b source target output input) :
    g.connect a b id =
      if g.cyclePolicy = .reject ∧ g.dependsOn source.node target.node = true then
        .error .wouldCreateCycle
      else .ok (g.relinked ⟨id, source, target, output⟩) := by
  obtain ⟨p, hp, hpd, rfl⟩ := h.source
  obtain ⟨q, hq, hqd, rfl⟩ := h.target
  have hq := pin?_of_input? hq
  obtain ⟨pinA, pinB, ha, hb, horient⟩ : ∃ pinA pinB, g.pin? a = some pinA ∧ g.pin? b = some pinB ∧
      orient a b pinA pinB = some ((source, p.type), (target, q.type)) := by
    rcases h.order with ⟨rfl, rfl⟩ | ⟨rfl, rfl⟩
    · exact ⟨p, q, hp, hq, orient_eq_some_iff.mpr (Or.inl ⟨⟨rfl, rfl⟩, ⟨hpd, hqd⟩, rfl, rfl⟩)⟩
    · exact ⟨q, p, hq, hp, orient_eq_some_iff.mpr (Or.inr ⟨⟨rfl, rfl⟩, ⟨hpd, hqd⟩, rfl, rfl⟩)⟩
  rw [← findPin_eq_ok_iff] at ha hb
  simp [connect, bind, Except.bind, ha, hb, horient, h.accepted, relinked]

/-- Two pins that fit are connected, whether cycles are refused or not, if the producer does not
depend on the consumer. -/
theorem Fits.connect_eq_ok (h : g.Fits a b source target output input)
    (hback : ¬ Relation.ReflTransGen g.Feeds target.node source.node) :
    g.connect a b id = .ok (g.relinked ⟨id, source, target, output⟩) := by
  rw [h.connect_eq, if_neg]
  exact fun hcycle => hback (dependsOn_eq_true_iff.mp hcycle.2)

/-- Where cycles are refused, two pins that fit are connected unless the producer depends on the
consumer. -/
theorem Fits.connect_eq_error_iff (h : g.Fits a b source target output input)
    (hpolicy : g.cyclePolicy = .reject) :
    g.connect a b id = .error .wouldCreateCycle ↔
      g.dependsOn source.node target.node = true := by
  rw [h.connect_eq]
  split
  · rename_i hback
    exact iff_of_true rfl hback.2
  · rename_i hback
    exact iff_of_false (fun he => by cases he) fun hd => hback ⟨hpolicy, hd⟩

theorem Fits.connect_eq_ok_iff (h : g.Fits a b source target output input)
    (hpolicy : g.cyclePolicy = .reject) :
    g.connect a b id = .ok (g.relinked ⟨id, source, target, output⟩) ↔
      ¬ g.dependsOn source.node target.node = true := by
  rw [h.connect_eq]
  split
  · rename_i hback
    exact iff_of_false (fun he => by cases he) fun hd => hd hback.2
  · rename_i hback
    exact iff_of_true rfl fun hd => hback ⟨hpolicy, hd⟩

/-! ### Replacing a link -/

/-- The links noted at an input pin are the links into it. -/
theorem Agrees.mem_linksAt_iff (h : g.Agrees) (hp : g.input? r = some p) :
    l ∈ g.linksAt r ↔ ∃ link, g.link? l = some link ∧ link.target = r := by
  rw [linksAt, pin?_of_input? hp]
  obtain ⟨node, hn, hp⟩ := Option.bind_eq_some_iff.mp hp
  have hid : p.id = r.pin := by simpa using List.find?_some hp
  rw [h.mem_input hn (List.mem_of_find?_eq_some hp), hid]

/-- Where a pin lists the links into it, those that do not lead into it are left when it is
broken. -/
theorem link?_breakPin
    (hat : ∀ l, l ∈ g.linksAt r ↔ ∃ link, g.link? l = some link ∧ link.target = r) :
    (g.breakPin r).link? l = some link ↔ g.link? l = some link ∧ link.target ≠ r := by
  rw [breakPin, link?_disconnectAll]
  split
  · rename_i hl
    obtain ⟨link', hl', ht⟩ := (hat l).mp hl
    constructor
    · intro hl
      cases hl
    · rintro ⟨hl, hne⟩
      obtain rfl := Option.some_inj.mp (hl'.symm.trans hl)
      exact absurd ht hne
  · rename_i hl
    exact ⟨fun hlink => ⟨hlink, fun ht => hl ((hat l).mpr ⟨link, hlink, ht⟩)⟩, And.left⟩

/-- A replaced graph has the new link and the links that lead elsewhere. -/
theorem link?_relinked (hat : ∀ l, l ∈ g.linksAt link.target ↔
      ∃ link', g.link? l = some link' ∧ link'.target = link.target) :
    (g.relinked link).link? l = some link' ↔ l = link.id ∧ link' = link ∨
      l ≠ link.id ∧ g.link? l = some link' ∧ link'.target ≠ link.target := by
  rw [relinked, link?_insertLink]
  by_cases hl : l = link.id
  · simp [hl, eq_comm]
  · simp [hl, link?_breakPin hat]

theorem Agrees.link?_breakPin (h : g.Agrees) (hp : g.input? r = some p) :
    (g.breakPin r).link? l = some link ↔ g.link? l = some link ∧ link.target ≠ r :=
  Graph.link?_breakPin fun _ => h.mem_linksAt_iff hp

theorem Agrees.link?_relinked (h : g.Agrees) (hp : g.input? link.target = some p) :
    (g.relinked link).link? l = some link' ↔ l = link.id ∧ link' = link ∨
      l ≠ link.id ∧ g.link? l = some link' ∧ link'.target ≠ link.target :=
  Graph.link?_relinked fun _ => h.mem_linksAt_iff hp

/-! ### Paths from the consumer -/

/-- Paths from a node do not depend on the links into it. -/
theorem reflTransGen_of_feeds (hfeeds : ∀ a b, b ≠ n → g.Feeds a b → g'.Feeds a b)
    (hpath : Relation.ReflTransGen g.Feeds n m) : Relation.ReflTransGen g'.Feeds n m := by
  induction hpath with
  | refl => exact .refl
  | @tail a b _ hstep ih =>
    -- The path starts afresh whenever it comes back to its first node.
    by_cases hb : b = n
    · rw [hb]
    · exact ih.tail (hfeeds a b hb hstep)

theorem feeds_iff_link? : g.Feeds m n ↔
    ∃ l link, g.link? l = some link ∧ link.source.node = m ∧ link.target.node = n := by
  rw [exists_comm]
  simp only [Feeds, Table.mem_values_iff, ← exists_and_right]
  rfl

/-- Away from the consumer, breaking its pin takes no link away. -/
theorem Agrees.feeds_breakPin (h : g.Agrees) (hp : g.input? r = some p) (hn : n ≠ r.node) :
    (g.breakPin r).Feeds m n ↔ g.Feeds m n := by
  simp only [feeds_iff_link?, h.link?_breakPin hp]
  refine exists₂_congr fun l link => ⟨?_, ?_⟩
  · rintro ⟨⟨hl, -⟩, hends⟩
    exact ⟨hl, hends⟩
  · rintro ⟨hl, hends⟩
    exact ⟨⟨hl, fun ht => hn (by rw [← hends.2, ht])⟩, hends⟩

/-- Away from the consumer, a link that replaces others changes nothing. -/
theorem Agrees.feeds_relinked (h : g.Agrees) (hp : g.input? link.target = some p)
    (hid : ∀ link', g.link? link.id = some link' → link'.target = link.target)
    (hn : n ≠ link.target.node) : (g.relinked link).Feeds m n ↔ g.Feeds m n := by
  simp only [feeds_iff_link?, h.link?_relinked hp]
  refine exists₂_congr fun l link' => ⟨?_, ?_⟩
  · rintro ⟨⟨-, rfl⟩ | ⟨-, hl, -⟩, hends⟩
    · exact absurd hends.2.symm hn
    · exact ⟨hl, hends⟩
  · rintro ⟨hl, hends⟩
    have hne : link'.target ≠ link.target := fun ht => hn (by rw [← hends.2, ht])
    exact ⟨Or.inr ⟨fun he => hne (hid link' (he ▸ hl)), hl, hne⟩, hends⟩

theorem Agrees.dependsOn_breakPin (h : g.Agrees) (hp : g.input? r = some p) :
    (g.breakPin r).dependsOn m r.node = true ↔ g.dependsOn m r.node = true := by
  rw [dependsOn_eq_true_iff, dependsOn_eq_true_iff]
  exact ⟨reflTransGen_of_feeds fun _ _ hn => (h.feeds_breakPin hp hn).mp,
    reflTransGen_of_feeds fun _ _ hn => (h.feeds_breakPin hp hn).mpr⟩

/-- The new link lies on a cycle exactly if its producer has depended on its consumer. -/
theorem Agrees.onCycle_relinked (h : g.Agrees) (hp : g.input? link.target = some p)
    (hid : ∀ link', g.link? link.id = some link' → link'.target = link.target) :
    (g.relinked link).OnCycle link.id ↔
      g.dependsOn link.source.node link.target.node = true := by
  have hnew : (g.relinked link).link? link.id = some link :=
    (h.link?_relinked hp).mpr (Or.inl ⟨rfl, rfl⟩)
  rw [dependsOn_eq_true_iff]
  constructor
  · rintro ⟨link', hl, hpath⟩
    obtain rfl := Option.some_inj.mp (hnew.symm.trans hl)
    exact reflTransGen_of_feeds (fun _ _ hn => (h.feeds_relinked hp hid hn).mp) hpath
  · intro hpath
    exact ⟨link, hnew, reflTransGen_of_feeds (fun _ _ hn => (h.feeds_relinked hp hid hn).mpr) hpath⟩

/-! ### The check -/

/-- Where cycles are refused, a connection of two pins that fit is refused exactly if the new link
would lie on a cycle of the graph in which it has replaced the links into the input. So a link
within a node is refused, and a link that is replaced never matters. -/
theorem Agrees.connect_wouldCreateCycle_iff (h : g.Agrees) (hpolicy : g.cyclePolicy = .reject)
    (hfits : g.Fits a b source target output input)
    (hid : ∀ link, g.link? id = some link → link.target = target) :
    (∀ l link, (g.relinked ⟨id, source, target, output⟩).link? l = some link ↔
      l = id ∧ link = ⟨id, source, target, output⟩ ∨
        l ≠ id ∧ g.link? l = some link ∧ link.target ≠ target) ∧
    (g.connect a b id = .error .wouldCreateCycle ↔
      (g.relinked ⟨id, source, target, output⟩).OnCycle id) ∧
    (g.connect a b id = .ok (g.relinked ⟨id, source, target, output⟩) ↔
      ¬ (g.relinked ⟨id, source, target, output⟩).OnCycle id) ∧
    (source.node = target.node → g.connect a b id = .error .wouldCreateCycle) ∧
    (g.connect a b id = .error .wouldCreateCycle ↔
      (g.breakPin target).connect a b id = .error .wouldCreateCycle) ∧
    ∀ x y, g.dependsOn x y = true ↔ x = y ∨ Relation.TransGen g.Feeds y x := by
  obtain ⟨p, hp, -⟩ := hfits.target
  have hcycle : (g.relinked ⟨id, source, target, output⟩).OnCycle id ↔
      g.dependsOn source.node target.node = true := h.onCycle_relinked hp hid
  have hrefused : g.connect a b id = .error .wouldCreateCycle ↔
      g.dependsOn source.node target.node = true := hfits.connect_eq_error_iff hpolicy
  -- The pins fit as well when the input is free.
  have hfreed : (g.breakPin target).connect a b id = .error .wouldCreateCycle ↔
      (g.breakPin target).dependsOn source.node target.node = true :=
    (hfits.of_unlinked unlinked_breakPin).connect_eq_error_iff
      ((cyclePolicy_congr unlinked_breakPin).trans hpolicy)
  refine ⟨fun l link => h.link?_relinked hp, hrefused.trans hcycle.symm,
    (hfits.connect_eq_ok_iff hpolicy).trans (not_congr hcycle.symm), fun hself => ?_,
    hrefused.trans (hfreed.trans (h.dependsOn_breakPin hp)).symm, fun x y => ?_⟩
  · rw [hrefused, dependsOn_eq_true_iff, hself]
  · rw [dependsOn_eq_true_iff, Relation.reflTransGen_iff_eq_or_transGen]

/-- Two bends that feed each other, where cycles are refused from then on. -/
def closedWire : Graph :=
  (((((Graph.empty "closed wire" .material).apply (.addNode "Reroute" ⟨0, 0⟩ ⟨⟨1⟩⟩)).apply
    (.addNode "Reroute" ⟨1, 0⟩ ⟨⟨2⟩⟩)).apply
    (.connect ⟨⟨⟨1⟩⟩, "Output"⟩ ⟨⟨⟨2⟩⟩, "Input"⟩ ⟨⟨3⟩⟩)).apply
    (.connect ⟨⟨⟨2⟩⟩, "Output"⟩ ⟨⟨⟨1⟩⟩, "Input"⟩ ⟨⟨4⟩⟩)).apply (.setPolicy .reject)

theorem authored_closedWire : Authored .material closedWire :=
  (((((Created.empty "closed wire").authored.apply (by decide)).apply (by decide)).apply
    (by decide)).apply (by decide)).apply (by decide)

theorem fits_closedWire : closedWire.Fits ⟨⟨⟨1⟩⟩, "Input"⟩ ⟨⟨⟨2⟩⟩, "Output"⟩ ⟨⟨⟨2⟩⟩, "Output"⟩
    ⟨⟨⟨1⟩⟩, "Input"⟩ .wildcard .wildcard where
  order := Or.inr ⟨rfl, rfl⟩
  source := ⟨_, rfl, by decide, by decide⟩
  target := ⟨_, rfl, by decide, by decide⟩
  accepted := by decide

/-- The second bend cannot be linked to the first anew, for the first still leads to it. -/
theorem connect_wouldCreateCycle_iff_closedWire : closedWire.Agrees ∧
    closedWire.cyclePolicy = .reject ∧ closedWire.link? ⟨⟨5⟩⟩ = none ∧
    closedWire.linksAt ⟨⟨⟨1⟩⟩, "Input"⟩ = [⟨⟨4⟩⟩] ∧
    closedWire.connect ⟨⟨⟨1⟩⟩, "Input"⟩ ⟨⟨⟨2⟩⟩, "Output"⟩ ⟨⟨5⟩⟩ = .error .wouldCreateCycle ∧
    (closedWire.relinked
      ⟨⟨⟨5⟩⟩, ⟨⟨⟨2⟩⟩, "Output"⟩, ⟨⟨⟨1⟩⟩, "Input"⟩, .wildcard⟩).OnCycle ⟨⟨5⟩⟩ := by
  have hagrees := (authored_closedWire.kept Registry.uniquePins_material).wellLinked.agrees
  have hfresh : closedWire.link? ⟨⟨5⟩⟩ = none := by decide
  have hchecked := hagrees.connect_wouldCreateCycle_iff (by decide) fits_closedWire
    fun link hl => by rw [hfresh] at hl; cases hl
  have hrefused : closedWire.connect ⟨⟨⟨1⟩⟩, "Input"⟩ ⟨⟨⟨2⟩⟩, "Output"⟩ ⟨⟨5⟩⟩ =
      .error .wouldCreateCycle := by decide
  exact ⟨hagrees, by decide, hfresh, by decide, hrefused, hchecked.2.1.mp hrefused⟩

end ShaderGraph.Graph
