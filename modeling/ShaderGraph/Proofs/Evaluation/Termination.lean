import ShaderGraph.Proofs.Evaluation.Step

/-!
# Evaluation terminates

Resolving an input pin calls for the input pins of the producer at the other end of its link, and so
on, without any regard to depth. It comes to an end all the same, in every graph, with cycles or
with pins that list links which the table does not have: each nested call has one more input pin of
the graph among those that are being resolved. Hence there is one way to resolve input pins without
a bound on the depth, and every bound that exceeds the number of input pins gives the same.

## Main definitions

* `Call`, `Resolver` — what is asked for when an input pin is resolved, and answers to it
* `Evaluator.resolveWith` — one call, given the answers to the calls nested in it
* `Graph.Enters` — a call may be nested in another
* `Call.rank` — how many calls can be nested in each other from a call on
* `Evaluator.evaluateTracedWith`, `Evaluator.evaluatePinWith` — evaluation by any resolver

## Main results

* `Evaluator.resolveWith_congr` — a call depends on the calls nested in it only
* `Graph.Enters.rank_lt` — a nested call has a smaller rank
* `Evaluator.resolver_eq_of_rank_lt` — from the rank on, a larger depth changes nothing
* `Evaluator.evaluation_terminates` — evaluation needs no bound on the depth
-/

namespace ShaderGraph

/-- What is asked for when an input pin of a node is resolved. -/
structure Call where
  /-- The input pins that are being resolved further out. -/
  visited : List PinRef
  node : Node
  pin : String

/-- Answers to calls. -/
abbrev Resolver := Call → StateM Scope (Option Evaluated)

/-- The address of the input pin that a call resolves. -/
def Call.ref (c : Call) : PinRef := ⟨c.node.id, c.pin⟩

/-- How many calls can be nested in each other from a call on: one for each input pin that is not
being resolved, and one more if the node of the call is none of the graph. -/
def Call.rank (g : Graph) (c : Call) : Nat :=
  (g.inputRefs.filter (· ∉ c.visited)).length + if c.node ∈ g.nodes.values then 0 else 1

namespace Graph

/-- A call asks for an input pin of the graph, and none is being resolved. -/
structure Outermost (g : Graph) (c : Call) : Prop where
  visited : c.visited = []
  node : c.node ∈ g.nodes.values

/-- A call may be nested in another: it asks the producer at the other end of the first link that
the pin lists, while the pin is being resolved. -/
structure Enters (g : Graph) (c c' : Call) : Prop where
  new : c.ref ∉ c.visited
  visited : c'.visited = c.ref :: c.visited
  producer : ∃ p l ls link, c.node.input? c.pin = some p ∧ p.links = l :: ls ∧
    g.link? l = some link ∧ g.node? link.source.node = some c'.node

variable {g : Graph} {c c' : Call}

/-! ### Nested calls -/

theorem outermost_of_node? {n : NodeId} {node : Node} (h : g.node? n = some node) (pin : String) :
    g.Outermost ⟨[], node, pin⟩ :=
  ⟨rfl, Table.mem_values_iff.mpr ⟨n, h⟩⟩

theorem Outermost.rank_eq (h : g.Outermost c) : c.rank g = g.inputCount := by
  rw [Call.rank, if_pos h.node, h.visited, Nat.add_zero, ← length_inputRefs]
  congr 1
  exact List.filter_eq_self.mpr fun _ _ => decide_eq_true List.not_mem_nil

theorem Enters.node_mem (h : g.Enters c c') : c'.node ∈ g.nodes.values := by
  obtain ⟨-, -, -, link, -, -, -, hnode⟩ := h.producer
  exact Table.mem_values_iff.mpr ⟨_, hnode⟩

/-- The pin that a nested call adds is an input pin of the graph. -/
theorem Enters.ref_mem (h : g.Enters c c') (hc : c.node ∈ g.nodes.values) :
    c.ref ∈ g.inputRefs := by
  obtain ⟨p, -, -, -, hp, -⟩ := h.producer
  obtain ⟨n, hn⟩ := Table.mem_values_iff.mp hc
  exact mem_inputRefs hn hp

/-- A nested call has a smaller rank. -/
theorem Enters.rank_lt (h : g.Enters c c') : c'.rank g < c.rank g := by
  have hsub : (g.inputRefs.filter (· ∉ c'.visited)).Sublist
      (g.inputRefs.filter (· ∉ c.visited)) := by
    refine List.monotone_filter_right _ fun r hr => ?_
    rw [decide_eq_true_iff, h.visited, List.mem_cons, not_or] at hr
    exact decide_eq_true hr.2
  rw [Call.rank, Call.rank, if_pos h.node_mem, Nat.add_zero]
  split
  · rename_i hc
    -- The pin of the call itself is no longer among the others.
    refine Nat.lt_of_le_of_ne hsub.length_le fun he => ?_
    have hmem : c.ref ∈ g.inputRefs.filter (· ∉ c.visited) :=
      List.mem_filter.mpr ⟨h.ref_mem hc, decide_eq_true h.new⟩
    rw [← hsub.eq_of_length he, List.mem_filter, decide_eq_true_iff, h.visited] at hmem
    exact hmem.2 List.mem_cons_self
  · exact Nat.lt_succ_of_le hsub.length_le

/-- Calls that are nested in each other are no more than the rank of the outermost allows. -/
theorem length_le_of_isChain {cs : List Call} (h : (c :: cs).IsChain g.Enters) :
    cs.length ≤ c.rank g := by
  induction cs generalizing c with
  | nil => exact Nat.zero_le _
  | cons c' cs ih =>
    rw [List.isChain_cons_cons] at h
    have hrest := ih h.2
    have hrank := h.1.rank_lt
    rw [List.length_cons]
    omega

end Graph

namespace Evaluator

variable {ev : Evaluator} {g : Graph} {f f' : Resolver} {c c' : Call} {depth depth' : Nat}

/-! ### One call -/

/-- One call, given the answers to the calls nested in it. -/
def resolveWith (ev : Evaluator) (g : Graph) (f : Resolver) : Resolver := fun c => do
  if c.ref ∈ c.visited then
    modify (Scope.mapTrace Trace.noteCycle)
    pure none
  else match c.node.input? c.pin with
    | none => pure none
    | some p => match p.links with
      | [] => pure p.defaultValue?
      | l :: _ => match g.link? l with
        | none => pure none
        | some link => do
          match (← get).memo.get? link.source with
          | some known =>
            modify (Scope.mapTrace Trace.noteHit)
            pure known
          | none => match g.node? link.source.node with
            | none => pure none
            | some producer => do
              let v ← ev.runNode producer link.source.pin fun pin =>
                f ⟨c.ref :: c.visited, producer, pin⟩
              modify (Scope.remember link.source v)
              pure v

/-- The resolver that enters input pins up to a depth. -/
def resolver (ev : Evaluator) (g : Graph) (depth : Nat) : Resolver := fun c =>
  ev.resolveInput g depth c.visited c.node c.pin

theorem resolver_succ : ev.resolver g (depth + 1) = ev.resolveWith g (ev.resolver g depth) := rfl

/-- A call depends on the calls nested in it only. -/
theorem resolveWith_congr (h : ∀ c', g.Enters c c' → f c' = f' c') :
    ev.resolveWith g f c = ev.resolveWith g f' c := by
  rw [resolveWith, resolveWith]
  split
  · rfl
  · rename_i hnew
    cases hp : c.node.input? c.pin with
    | none => rfl
    | some p =>
      cases hlinks : p.links with
      | nil => simp only [hlinks]
      | cons l ls =>
        simp only [hlinks]
        cases hl : g.link? l with
        | none => rfl
        | some link =>
          simp only
          cases hnode : g.node? link.source.node with
          | none => rfl
          | some producer =>
            -- The producer is asked for its inputs by nested calls.
            have hread : (fun pin => f ⟨c.ref :: c.visited, producer, pin⟩) =
                fun pin => f' ⟨c.ref :: c.visited, producer, pin⟩ :=
              funext fun pin => h _ ⟨hnew, rfl, p, l, ls, link, hp, hlinks, hl, hnode⟩
            simp only [hread]

/-! ### Any depth -/

/-- From the rank of a call on, a larger depth changes nothing. -/
theorem resolver_eq_of_rank_lt (h : c.rank g < depth) (h' : c.rank g < depth') :
    ev.resolver g depth c = ev.resolver g depth' c := by
  induction depth generalizing depth' c with
  | zero => exact absurd h (Nat.not_lt_zero _)
  | succ depth ih =>
    obtain ⟨depth', rfl⟩ := Nat.exists_eq_succ_of_ne_zero (Nat.ne_zero_of_lt h')
    rw [resolver_succ, Nat.succ_eq_add_one, resolver_succ]
    refine resolveWith_congr fun c' hc' => ih ?_ ?_
    · exact Nat.lt_of_lt_of_le hc'.rank_lt (Nat.le_of_lt_succ h)
    · exact Nat.lt_of_lt_of_le hc'.rank_lt (Nat.le_of_lt_succ h')

/-- The resolver that gives every call the depth that it needs. -/
def unbounded (ev : Evaluator) (g : Graph) : Resolver := fun c =>
  ev.resolver g (c.rank g + 1) c

theorem unbounded_eq_resolver (h : c.rank g < depth) :
    ev.unbounded g c = ev.resolver g depth c :=
  resolver_eq_of_rank_lt (Nat.lt_succ_self _) h

theorem unbounded_eq_resolveWith : ev.unbounded g = ev.resolveWith g (ev.unbounded g) := by
  funext c
  rw [unbounded, resolver_succ]
  exact resolveWith_congr fun c' hc' => (unbounded_eq_resolver hc'.rank_lt).symm

/-- There is no other way to resolve input pins without a bound. -/
theorem eq_unbounded (h : f = ev.resolveWith g f) : f = ev.unbounded g := by
  have hrank (k : Nat) (c : Call) (hk : c.rank g < k) : f c = ev.unbounded g c := by
    induction k generalizing c with
    | zero => exact absurd hk (Nat.not_lt_zero _)
    | succ k ih =>
      rw [h, unbounded_eq_resolveWith]
      exact resolveWith_congr fun c' hc' =>
        ih c' (Nat.lt_of_lt_of_le hc'.rank_lt (Nat.le_of_lt_succ hk))
  funext c
  exact hrank _ c (Nat.lt_succ_self _)

/-! ### Evaluation by any resolver -/

/-- Evaluates one input pin of the root into the channel that its name mentions. -/
def assignInputWith (ev : Evaluator) (f : Resolver) (root : Node) (a : MaterialAttributes)
    (p : Pin) : StateM Scope MaterialAttributes :=
  match Channel.ofPinName? p.name with
  | none => pure a
  | some c => do
    match ← f ⟨[], root, p.id⟩ with
    | some e => pure (a.assign c e ev.settings.pendingColor)
    | none => pure a

/-- The material at a node, and what happened while it was evaluated. -/
def evaluateTracedWith (ev : Evaluator) (g : Graph) (f : Resolver) (root : NodeId) :
    MaterialAttributes × Trace :=
  match g.node? root with
  | none => (∅, .empty)
  | some n =>
    let (a, s) := (n.inputs.foldlM (ev.assignInputWith f n) ∅).run Scope.empty
    (a, s.trace)

/-- What a single output pin evaluates to. -/
def evaluatePinWith (ev : Evaluator) (g : Graph) (f : Resolver) (r : PinRef) : Option Evaluated :=
  match g.node? r.node with
  | none => none
  | some n => ((ev.runNode n r.pin fun pin => f ⟨[], n, pin⟩).run Scope.empty).1

theorem evaluateTraced_eq (root : NodeId) : ev.evaluateTraced g root =
    ev.evaluateTracedWith g (ev.resolver g (depthBound g)) root := rfl

theorem evaluatePin_eq (r : PinRef) : ev.evaluatePin g r =
    ev.evaluatePinWith g (ev.resolver g (depthBound g)) r := rfl

/-- Evaluation begins with outermost calls. -/
theorem evaluateTracedWith_congr (h : ∀ c, g.Outermost c → f c = f' c) (root : NodeId) :
    ev.evaluateTracedWith g f root = ev.evaluateTracedWith g f' root := by
  rw [evaluateTracedWith, evaluateTracedWith]
  cases hn : g.node? root with
  | none => rfl
  | some n =>
    have hread (pin : String) : f ⟨[], n, pin⟩ = f' ⟨[], n, pin⟩ :=
      h _ (Graph.outermost_of_node? hn pin)
    have hassign : ev.assignInputWith f n = ev.assignInputWith f' n := by
      funext a p
      rw [assignInputWith, assignInputWith, hread]
    simp only [hassign]

theorem evaluatePinWith_congr (h : ∀ c, g.Outermost c → f c = f' c) (r : PinRef) :
    ev.evaluatePinWith g f r = ev.evaluatePinWith g f' r := by
  rw [evaluatePinWith, evaluatePinWith]
  cases hn : g.node? r.node with
  | none => rfl
  | some n =>
    have hread (pin : String) : f ⟨[], n, pin⟩ = f' ⟨[], n, pin⟩ :=
      h _ (Graph.outermost_of_node? hn pin)
    simp only [hread]

/-- More depth than there are input pins is enough for outermost calls. -/
theorem resolver_eq_unbounded (hdepth : g.inputCount < depth) (hc : g.Outermost c) :
    ev.resolver g depth c = ev.unbounded g c :=
  (unbounded_eq_resolver (by rw [hc.rank_eq]; exact hdepth)).symm

theorem evaluateTracedWith_resolver (hdepth : g.inputCount < depth) (root : NodeId) :
    ev.evaluateTracedWith g (ev.resolver g depth) root =
      ev.evaluateTracedWith g (ev.unbounded g) root :=
  evaluateTracedWith_congr (fun _ => resolver_eq_unbounded hdepth) root

theorem evaluatePinWith_resolver (hdepth : g.inputCount < depth) (r : PinRef) :
    ev.evaluatePinWith g (ev.resolver g depth) r = ev.evaluatePinWith g (ev.unbounded g) r :=
  evaluatePinWith_congr (fun _ => resolver_eq_unbounded hdepth) r

/-- Evaluation terminates in every graph. A call depends on the calls nested in it; each of these
has one more input pin of the graph among those that are being resolved, one that was not among
them; and no more calls can be nested in each other than there are input pins, and one. Therefore
exactly one resolver answers every call without a bound on the depth. Evaluation by it is
evaluation, and it is evaluation by a resolver with any bound from the number of input pins and one
on. -/
theorem evaluation_terminates (ev : Evaluator) (g : Graph) :
    (∀ (f f' : Resolver) c, (∀ c', g.Enters c c' → f c' = f' c') →
      ev.resolveWith g f c = ev.resolveWith g f' c) ∧
    (∀ c c', c.node ∈ g.nodes.values → g.Enters c c' →
      c'.visited = c.ref :: c.visited ∧ c.ref ∉ c.visited ∧ c.ref ∈ g.inputRefs ∧
        c'.node ∈ g.nodes.values) ∧
    (∀ c cs, g.Outermost c → (c :: cs).IsChain g.Enters →
      (c :: cs).length ≤ g.inputCount + 1) ∧
    ∃ f : Resolver, f = ev.resolveWith g f ∧ (∀ f', f' = ev.resolveWith g f' → f' = f) ∧
      (∀ root, ev.evaluateTraced g root = ev.evaluateTracedWith g f root) ∧
      (∀ r, ev.evaluatePin g r = ev.evaluatePinWith g f r) ∧
      ∀ depth ≥ g.inputCount + 1,
        (∀ root, ev.evaluateTracedWith g (ev.resolver g depth) root =
          ev.evaluateTracedWith g f root) ∧
        ∀ r, ev.evaluatePinWith g (ev.resolver g depth) r = ev.evaluatePinWith g f r := by
  have hbound : g.inputCount < depthBound g := Nat.lt_succ_self _
  refine ⟨fun f f' c => resolveWith_congr, fun c c' hc h => ?_, fun c cs hc h => ?_,
    ev.unbounded g, unbounded_eq_resolveWith, fun f => eq_unbounded, fun root => ?_, fun r => ?_,
    fun depth hd => ⟨evaluateTracedWith_resolver hd, evaluatePinWith_resolver hd⟩⟩
  · exact ⟨h.visited, h.new, h.ref_mem hc, h.node_mem⟩
  · have hlength := Graph.length_le_of_isChain h
    rw [hc.rank_eq] at hlength
    exact Nat.succ_le_succ hlength
  · rw [evaluateTraced_eq, evaluateTracedWith_resolver hbound]
  · rw [evaluatePin_eq, evaluatePinWith_resolver hbound]

end Evaluator

end ShaderGraph
