import ShaderGraph.Proofs.Evaluation.Agreement
import ShaderGraph.Proofs.Evaluation.Soundness

/-!
# Where pending products come from

A product of a texture and a number arises at one rule only, it is handed on by one rule only, and
the rules that take operands have no result if an operand is such a product. Without cycles, an
output pin therefore yields a pending product exactly if the way back through the nodes that hand
on an input ends at a node that multiplies a texture and a number.

## Main definitions

* `Evaluator.Tints` — the two inputs of a product are a texture and what it is multiplied by
* `EvaluationRule.operands` — the inputs of a rule that have to be values
* `Evaluator.resolvedAt` — what an input pin of a node resolves to
* `Evaluator.Forwards`, `Evaluator.Defers`, `Evaluator.Awaits` — a pin hands on what another one
  yields, it leaves a product pending, and the way back from it ends at such a pin

## Main results

* `Evaluator.applyRule_eq_pending_iff` — the rules that yield a pending product
* `Evaluator.of_applyRule_eq_some` — a rule that takes operands has a result only if they are values
* `Evaluator.evaluatePin_pending` — the pins that yield a pending product, and the nodes that yield
  nothing on account of one
-/

namespace ShaderGraph

/-- The inputs that a rule takes as operands, which have to be values. -/
def EvaluationRule.operands : EvaluationRule → List String
  | .binary .multiply => []
  | .binary _ | .append => ["A", "B"]
  | .unary _ => ["Input"]
  | .lerp => ["A", "B", "Alpha"]
  | .clamp => ["Input", "Min", "Max"]
  | .scalarProperty _ | .vectorProperties _ | .textureSample | .passthrough _ | .generic => []

namespace Evaluator

/-- What a texture is multiplied by: a number, or one in place of an input that yields nothing. -/
def IsFactor (o : Option Evaluated) (v : Value) : Prop :=
  (o = some (.resolved v) ∧ v.isNumeric = true) ∨ (o = none ∧ v = .scalar 1)

/-- One input of a product yields the texture of an operation, the other one its factor. -/
inductive Tints (a b : Option Evaluated) (op : PendingOperation) : Prop
  | left (ha : a = some (.resolved (.texture op.texture))) (hb : IsFactor b op.factor)
  | right (hb : b = some (.resolved (.texture op.texture))) (ha : IsFactor a op.factor)

/-! ### Products -/

variable {a b : Option Evaluated} {op : PendingOperation} {v : Value}

theorem isFactor_iff :
    IsFactor a v ↔ a.getD (.resolved (.scalar 1)) = .resolved v ∧ v.isNumeric = true := by
  cases a with
  | none =>
    constructor
    · rintro (⟨h, -⟩ | ⟨-, rfl⟩)
      · cases h
      · exact ⟨rfl, rfl⟩
    · rintro ⟨h, -⟩
      exact Or.inr ⟨rfl, (Evaluated.resolved.inj h).symm⟩
  | some e =>
    constructor
    · rintro (⟨h, hv⟩ | ⟨h, -⟩)
      · exact ⟨Option.some_inj.mp h, hv⟩
      · cases h
    · rintro ⟨h, hv⟩
      exact Or.inl ⟨congrArg some h, hv⟩

theorem getD_eq_texture_iff {t : TextureRef} :
    a.getD (.resolved (.scalar 1)) = .resolved (.texture t) ↔
      a = some (.resolved (.texture t)) := by
  cases a <;> simp

/-- A product is left pending if one of its factors is a texture and the other one a number. -/
theorem product?_eq_pending_iff {x y : Evaluated} :
    product? x y = some (.pending op) ↔
      x = .resolved (.texture op.texture) ∧ y = .resolved op.factor ∧ op.factor.isNumeric = true ∨
      y = .resolved (.texture op.texture) ∧ x = .resolved op.factor ∧
        op.factor.isNumeric = true := by
  constructor
  · intro h
    rw [product?.eq_def] at h
    split at h
    · split at h
      · rename_i hnumeric
        obtain rfl := Evaluated.pending.inj (Option.some_inj.mp h)
        exact Or.inl ⟨rfl, rfl, hnumeric⟩
      · cases h
    · split at h
      · rename_i hnumeric
        obtain rfl := Evaluated.pending.inj (Option.some_inj.mp h)
        exact Or.inr ⟨rfl, rfl, hnumeric⟩
      · cases h
    · obtain ⟨v, -, hv⟩ := Option.map_eq_some_iff.mp h
      cases hv
    · cases h
  · rintro (⟨rfl, rfl, hnumeric⟩ | ⟨rfl, rfl, hnumeric⟩)
    · rw [product?, if_pos hnumeric]
    · obtain ⟨t, w⟩ := op
      -- A number is no texture, so that the first case does not apply.
      cases w with
      | scalar x => rfl
      | vector xs => rfl
      | texture u => cases hnumeric

theorem product?_getD_eq_pending_iff :
    product? (a.getD (.resolved (.scalar 1))) (b.getD (.resolved (.scalar 1))) =
      some (.pending op) ↔ Tints a b op := by
  rw [product?_eq_pending_iff, getD_eq_texture_iff, getD_eq_texture_iff, ← isFactor_iff,
    ← isFactor_iff]
  constructor
  · rintro (⟨ha, hb⟩ | ⟨hb, ha⟩)
    · exact .left ha hb
    · exact .right hb ha
  · rintro (⟨ha, hb⟩ | ⟨hb, ha⟩)
    · exact Or.inl ⟨ha, hb⟩
    · exact Or.inr ⟨hb, ha⟩

/-! ### Rules -/

section Rules

variable {read : String → Option Evaluated} {ev : Evaluator} {rule : EvaluationRule} {n : Node}
  {output pin : String} {e : Evaluated}

/-- Nothing comes after a computation that is absent. -/
theorem exists_of_run_bind {α β : Type} {x : OptionT Id α} {k : α → OptionT Id β} {y : β}
    (h : (x >>= k).run = some y) : ∃ c, x.run = some c ∧ (k c).run = some y := by
  have hbind : (x >>= k).run = match x.run with
    | some c => (k c).run
    | none => none := rfl
  rw [hbind] at h
  cases hx : x.run with
  | none => rw [hx] at h; cases h
  | some c => rw [hx] at h; exact ⟨c, rfl, h⟩

/-- An operand that is read is no pending product. -/
theorem ne_pending_of_operand {o : Option Value}
    (h : (operand (m := Id) read pin).run = some o) (op : PendingOperation) :
    read pin ≠ some (.pending op) := by
  intro hpending
  obtain ⟨c, hc, h⟩ := exists_of_run_bind h
  obtain rfl : read pin = c := Option.some_inj.mp hc
  rw [hpending] at h
  cases h

theorem exists_of_resolved_required {o : Option Value}
    (h : (Evaluated.resolved <$> required (m := Id) o).run = some e) :
    ∃ v, e = .resolved v := by
  cases o with
  | none => cases h
  | some v => exact ⟨v, (Option.some_inj.mp h).symm⟩

/-- Any other rule than those two takes its operands as values and has a value as its result. -/
theorem of_applyRule_eq_some (hmultiply : rule ≠ .binary .multiply)
    (hpassthrough : ∀ pin, rule ≠ .passthrough pin)
    (h : ev.applyRule (m := Id) rule n output read = some e) :
    (∀ pin ∈ rule.operands, ∀ op, read pin ≠ some (.pending op)) ∧ ∃ v, e = .resolved v := by
  have hvalue {o : Option Value} (ho : o.map Evaluated.resolved = some e) :
      ∃ v, e = .resolved v := by
    obtain ⟨v, -, hv⟩ := Option.map_eq_some_iff.mp ho
    exact ⟨v, hv.symm⟩
  cases rule with
  | passthrough pin => exact absurd rfl (hpassthrough pin)
  | scalarProperty name =>
    obtain ⟨x, -, hx⟩ := Option.map_eq_some_iff.mp h
    exact ⟨List.forall_mem_nil _, .scalar x, hx.symm⟩
  | vectorProperties names => exact ⟨List.forall_mem_nil _, hvalue h⟩
  | textureSample => exact ⟨List.forall_mem_nil _, _, (Option.some_inj.mp h).symm⟩
  | generic => exact ⟨List.forall_mem_nil _, hvalue h⟩
  | binary op =>
    cases op with
    | multiply => exact absurd rfl hmultiply
    | _ =>
      obtain ⟨a, ha, h⟩ := exists_of_run_bind h
      obtain ⟨a', -, h⟩ := exists_of_run_bind h
      obtain ⟨b, hb, h⟩ := exists_of_run_bind h
      obtain ⟨b', -, h⟩ := exists_of_run_bind h
      refine ⟨?_, exists_of_resolved_required h⟩
      simpa [EvaluationRule.operands] using
        ⟨ne_pending_of_operand ha, ne_pending_of_operand hb⟩
  | unary f =>
    obtain ⟨x, hx, h⟩ := exists_of_run_bind h
    obtain ⟨x', -, h⟩ := exists_of_run_bind h
    refine ⟨?_, exists_of_resolved_required h⟩
    simpa [EvaluationRule.operands] using ne_pending_of_operand hx
  | lerp =>
    obtain ⟨a, ha, h⟩ := exists_of_run_bind h
    obtain ⟨b, hb, h⟩ := exists_of_run_bind h
    obtain ⟨alpha, halpha, h⟩ := exists_of_run_bind h
    refine ⟨?_, exists_of_resolved_required h⟩
    simpa [EvaluationRule.operands] using
      ⟨ne_pending_of_operand ha, ne_pending_of_operand hb, ne_pending_of_operand halpha⟩
  | clamp =>
    obtain ⟨x, hx, h⟩ := exists_of_run_bind h
    obtain ⟨x', -, h⟩ := exists_of_run_bind h
    obtain ⟨low, hlow, h⟩ := exists_of_run_bind h
    obtain ⟨high, hhigh, h⟩ := exists_of_run_bind h
    refine ⟨?_, exists_of_resolved_required h⟩
    simpa [EvaluationRule.operands] using
      ⟨ne_pending_of_operand hx, ne_pending_of_operand hlow, ne_pending_of_operand hhigh⟩
  | append =>
    obtain ⟨a, ha, h⟩ := exists_of_run_bind h
    obtain ⟨a', -, h⟩ := exists_of_run_bind h
    obtain ⟨b, hb, h⟩ := exists_of_run_bind h
    obtain ⟨b', -, h⟩ := exists_of_run_bind h
    refine ⟨?_, exists_of_resolved_required h⟩
    simpa [EvaluationRule.operands] using
      ⟨ne_pending_of_operand ha, ne_pending_of_operand hb⟩

/-- A pending product is handed on from the input that is passed through, or it arises where a
texture is multiplied. -/
theorem applyRule_eq_pending_iff :
    ev.applyRule (m := Id) rule n output read = some (.pending op) ↔
      (∃ pin, rule = .passthrough pin ∧ read pin = some (.pending op)) ∨
      rule = .binary .multiply ∧ Tints (read "A") (read "B") op := by
  constructor
  · intro h
    by_cases hmultiply : rule = .binary .multiply
    · subst hmultiply
      exact Or.inr ⟨rfl, product?_getD_eq_pending_iff.mp h⟩
    · refine Or.inl (by_contra fun hnot => ?_)
      have hpassthrough (pin : String) : rule ≠ .passthrough pin := by
        rintro rfl
        exact hnot ⟨pin, rfl, h⟩
      obtain ⟨-, v, hv⟩ := of_applyRule_eq_some hmultiply hpassthrough h
      cases hv
  · rintro (⟨pin, rfl, hpin⟩ | ⟨rfl, htints⟩)
    · exact hpin
    · exact product?_getD_eq_pending_iff.mpr htints

/-- A rule yields nothing if one of its operands is pending. -/
theorem applyRule_eq_none (hpin : pin ∈ rule.operands) (hpending : read pin = some (.pending op)) :
    ev.applyRule (m := Id) rule n output read = none := by
  have hmultiply : rule ≠ .binary .multiply := by
    rintro rfl
    cases hpin
  have hpassthrough (pin : String) : rule ≠ .passthrough pin := by
    rintro rfl
    cases hpin
  rw [Option.eq_none_iff_forall_ne_some]
  intro e he
  exact (of_applyRule_eq_some hmultiply hpassthrough he).1 pin hpin op hpending

end Rules

/-! ### Graphs -/

/-- The rule of a node, if the node's definition is known. -/
def rule? (ev : Evaluator) (g : Graph) (n : NodeId) : Option EvaluationRule :=
  (g.node? n).bind fun node => (ev.registry.get? node.key).map NodeDefinition.rule

/-- What an input pin of a node resolves to. -/
def resolvedAt (ev : Evaluator) (g : Graph) (n : NodeId) (pin : String) : Option Evaluated :=
  match g.node? n with
  | none => none
  | some node => ((ev.resolveInput g (depthBound g) [] node pin).run .empty).1

/-- An output pin hands on what another one yields, which is linked to the input that is passed
through. -/
def Forwards (ev : Evaluator) (g : Graph) (r r' : PinRef) : Prop :=
  ∃ pin, ev.rule? g r.node = some (.passthrough pin) ∧
    ∃ link ∈ g.links.values, link.target = ⟨r.node, pin⟩ ∧ link.source = r'

/-- An output pin leaves a product pending. -/
def Defers (ev : Evaluator) (g : Graph) (r : PinRef) (op : PendingOperation) : Prop :=
  ev.rule? g r.node = some (.binary .multiply) ∧
    Tints (ev.resolvedAt g r.node "A") (ev.resolvedAt g r.node "B") op

/-- The way back from an output pin ends at one that leaves a product pending. -/
def Awaits (ev : Evaluator) (g : Graph) (r : PinRef) (op : PendingOperation) : Prop :=
  ∃ q, Relation.ReflTransGen (ev.Forwards g) r q ∧ ev.Defers g q op

variable {ev : Evaluator} {g : Graph} {r r' : PinRef} {n : NodeId} {pin : String}
  {rule : EvaluationRule}

theorem Forwards.feeds (h : ev.Forwards g r r') : g.Feeds r'.node r.node := by
  obtain ⟨pin, -, link, hmem, htarget, rfl⟩ := h
  exact ⟨link, hmem, rfl, by rw [htarget]⟩

/-- The way back, one step at a time. -/
theorem awaits_iff :
    ev.Awaits g r op ↔ ev.Defers g r op ∨ ∃ r', ev.Forwards g r r' ∧ ev.Awaits g r' op := by
  constructor
  · rintro ⟨q, hpath, hdefers⟩
    rcases hpath.cases_head with rfl | ⟨r', hstep, hpath⟩
    · exact Or.inl hdefers
    · exact Or.inr ⟨r', hstep, q, hpath, hdefers⟩
  · rintro (hdefers | ⟨r', hstep, q, hpath, hdefers⟩)
    · exact ⟨r, .refl, hdefers⟩
    · exact ⟨q, .head hstep hpath, hdefers⟩

/-- An input pin resolves to its default or to what the output pin yields that is linked to it. -/
theorem resolvedAt_eq (h : g.Agrees) (hacyclic : g.Acyclic) (hn : g.node? n = some node)
    (pin : String) : ev.resolvedAt g n pin = g.inputValue (ev.evaluatePin g) n pin := by
  rw [resolvedAt, hn]
  have hrec : ev.Recursion g (fun _ => True) (ev.evaluatePin g) := recursion_evaluatePin h hacyclic
  exact (hrec.rel_resolveInput_nil h hn pin .empty faithful_empty).1

/-- An output pin yields what its node makes of what the inputs resolve to. -/
theorem evaluatePin_eq_evaluateNode (h : g.Agrees) (hacyclic : g.Acyclic)
    (hn : g.node? r.node = some node) :
    ev.evaluatePin g r = ev.evaluateNode (m := Id) node r.pin (ev.resolvedAt g r.node) := by
  have hread : ev.resolvedAt g r.node = g.inputValue (ev.evaluatePin g) r.node :=
    funext (resolvedAt_eq h hacyclic hn)
  rw [hread]
  exact (recursion_evaluatePin h hacyclic).value_eq trivial hn r.pin

/-- An output pin yields what the rule of its node makes of what the inputs resolve to. -/
theorem evaluatePin_eq_some_iff (h : g.Agrees) (hacyclic : g.Acyclic) :
    ev.evaluatePin g r = some e ↔
      ∃ node rule, g.node? r.node = some node ∧ ev.rule? g r.node = some rule ∧
        ev.applyRule (m := Id) rule node r.pin (ev.resolvedAt g r.node) = some e := by
  cases hn : g.node? r.node with
  | none => simp [evaluatePin, hn]
  | some node =>
    rw [evaluatePin_eq_evaluateNode h hacyclic hn, evaluateNode, rule?, hn, Option.bind_some]
    cases ev.registry.get? node.key <;> simp

/-- An input pin resolves to a pending product if it is linked to a pin that yields one; a default
is a value. -/
theorem resolvedAt_eq_pending_iff (h : g.Agrees) (hacyclic : g.Acyclic) :
    ev.resolvedAt g n pin = some (.pending op) ↔
      ∃ link ∈ g.links.values, link.target = ⟨n, pin⟩ ∧
        ev.evaluatePin g link.source = some (.pending op) := by
  constructor
  · intro hpending
    cases hn : g.node? n with
    | none => rw [resolvedAt, hn] at hpending; cases hpending
    | some node =>
      rw [resolvedAt_eq h hacyclic hn, Graph.inputValue] at hpending
      split at hpending
      · cases hpending
      · split at hpending
        · obtain ⟨v, -, hv⟩ := Option.map_eq_some_iff.mp hpending
          cases hv
        · rename_i link hinto
          obtain ⟨hmem, htarget⟩ := Graph.mem_of_linkInto? hinto
          exact ⟨link, hmem, htarget, hpending⟩
  · rintro ⟨link, hmem, htarget, hpending⟩
    obtain ⟨p, hp⟩ := h.target ((Graph.mem_values_links h.link_id).mp hmem)
    obtain ⟨node, hn, -⟩ := Option.bind_eq_some_iff.mp hp
    rw [htarget] at hn
    rw [resolvedAt_eq h hacyclic hn, h.inputValue_of_mem hmem htarget, hpending]

/-- What makes an output pin pending, one step back. -/
theorem evaluatePin_eq_pending_iff (h : g.Agrees) (hacyclic : g.Acyclic) :
    ev.evaluatePin g r = some (.pending op) ↔ ev.Defers g r op ∨
      ∃ r', ev.Forwards g r r' ∧ ev.evaluatePin g r' = some (.pending op) := by
  rw [evaluatePin_eq_some_iff h hacyclic]
  constructor
  · rintro ⟨node, rule, -, hrule, happly⟩
    rcases applyRule_eq_pending_iff.mp happly with ⟨pin, rfl, hpin⟩ | ⟨rfl, htints⟩
    · obtain ⟨link, hmem, htarget, hpending⟩ := (resolvedAt_eq_pending_iff h hacyclic).mp hpin
      exact Or.inr ⟨link.source, ⟨pin, hrule, link, hmem, htarget, rfl⟩, hpending⟩
    · exact Or.inl ⟨hrule, htints⟩
  · rintro (⟨hrule, htints⟩ | ⟨r', ⟨pin, hrule, link, hmem, htarget, rfl⟩, hpending⟩)
    · obtain ⟨node, hn, -⟩ := Option.bind_eq_some_iff.mp hrule
      exact ⟨node, _, hn, hrule, applyRule_eq_pending_iff.mpr (Or.inr ⟨rfl, htints⟩)⟩
    · obtain ⟨node, hn, -⟩ := Option.bind_eq_some_iff.mp hrule
      have hpin := (resolvedAt_eq_pending_iff h hacyclic).mpr ⟨link, hmem, htarget, hpending⟩
      exact ⟨node, _, hn, hrule, applyRule_eq_pending_iff.mpr (Or.inl ⟨pin, rfl, hpin⟩)⟩

/-- Along the way back, what is awaited at its end is yielded. The induction is against the links,
one step back at a time. -/
theorem evaluatePin_eq_pending_iff_awaits (h : g.Agrees) (hacyclic : g.Acyclic) (r : PinRef) :
    ev.evaluatePin g r = some (.pending op) ↔ ev.Awaits g r op := by
  obtain ⟨n, output⟩ := r
  induction n using hacyclic.wellFounded.induction generalizing output with
  | h n ih =>
    rw [evaluatePin_eq_pending_iff h hacyclic, awaits_iff]
    refine or_congr_right (exists_congr fun r' => and_congr_right fun hstep => ?_)
    exact ih r'.node hstep.feeds r'.pin

/-- Without cycles, an output pin yields a pending product exactly if the way back from it through
inputs that are passed through ends at a node that multiplies a texture by a number, or by one for
want of any. A node that takes operands yields nothing if one of them is pending. -/
theorem evaluatePin_pending (h : g.Agrees) (hacyclic : g.Acyclic) (ev : Evaluator) :
    (∀ r op, ev.evaluatePin g r = some (.pending op) ↔
      ∃ q, Relation.ReflTransGen (ev.Forwards g) r q ∧ ev.Defers g q op) ∧
    ∀ r rule pin op, ev.rule? g r.node = some rule → pin ∈ rule.operands →
      ev.resolvedAt g r.node pin = some (.pending op) → ev.evaluatePin g r = none := by
  refine ⟨fun r op => evaluatePin_eq_pending_iff_awaits h hacyclic r, ?_⟩
  intro r rule pin op hrule hpin hpending
  rw [Option.eq_none_iff_forall_ne_some]
  intro e he
  obtain ⟨node, rule', -, hrule', happly⟩ := (evaluatePin_eq_some_iff h hacyclic).mp he
  obtain rfl : rule = rule' := Option.some_inj.mp (hrule.symm.trans hrule')
  rw [applyRule_eq_none hpin hpending] at happly
  cases happly

end Evaluator

namespace Graph

theorem authored_tintedTexture : Authored .material tintedTexture :=
  (((((((((Created.ofSettings "tinted texture" .standard ⟨⟨9⟩⟩).authored.apply
    (by decide +kernel)).apply (by decide +kernel)).apply (by decide +kernel)).apply
    (by decide +kernel)).apply (by decide +kernel)).apply (by decide +kernel)).apply
    (by decide +kernel)).apply (by decide +kernel))

/-- The inverse of the tinted texture becomes the emissive colour. -/
def invertedTint : Graph :=
  ((tintedTexture.apply (.addNode "OneMinus" ⟨3, 0⟩ ⟨⟨5⟩⟩)).apply
    (.connect ⟨⟨⟨4⟩⟩, "Output"⟩ ⟨⟨⟨5⟩⟩, "Input"⟩ ⟨⟨9⟩⟩)).apply
    (.connect ⟨⟨⟨5⟩⟩, "Result"⟩ ⟨⟨⟨9⟩⟩, "EmissiveColor"⟩ ⟨⟨10⟩⟩)

theorem authored_invertedTint : Authored .material invertedTint :=
  ((authored_tintedTexture.apply (by decide +kernel)).apply (by decide +kernel)).apply
    (by decide +kernel)

theorem acyclic_invertedTint : invertedTint.Acyclic :=
  acyclic_of_rank (fun n => n.uuid.value.toNat) (by decide +kernel)

end Graph

/-- The product is awaited behind a bend, and there is no inverse of it. -/
theorem Evaluator.evaluatePin_pending_invertedTint :
    Graph.invertedTint.Agrees ∧ Graph.invertedTint.Acyclic ∧
      let ev : Evaluator := ⟨.material, fun _ => some "", .standard⟩
      let op : PendingOperation :=
        ⟨⟨EvaluatorSettings.standard.placeholderTexture, ""⟩, .vector [0, 0, 0]⟩
      (∃ q, Relation.ReflTransGen (ev.Forwards Graph.invertedTint) ⟨⟨⟨4⟩⟩, "Output"⟩ q ∧
        ev.Defers Graph.invertedTint q op) ∧
      ev.resolvedAt Graph.invertedTint ⟨⟨5⟩⟩ "Input" = some (.pending op) ∧
      ev.evaluatePin Graph.invertedTint ⟨⟨⟨5⟩⟩, "Result"⟩ = none := by
  have hagrees :=
    (Graph.authored_invertedTint.kept Registry.uniquePins_material).wellLinked.agrees
  refine ⟨hagrees, Graph.acyclic_invertedTint, ?_⟩
  intro ev op
  have hyields : ev.evaluatePin Graph.invertedTint ⟨⟨⟨4⟩⟩, "Output"⟩ = some (.pending op) := by
    decide +kernel
  have hpending : ev.resolvedAt Graph.invertedTint ⟨⟨5⟩⟩ "Input" = some (.pending op) := by
    decide +kernel
  obtain ⟨hawaits, hnothing⟩ := evaluatePin_pending hagrees Graph.acyclic_invertedTint ev
  exact ⟨(hawaits _ _).mp hyields, hpending,
    hnothing ⟨⟨⟨5⟩⟩, "Result"⟩ (.unary .oneMinus) "Input" op (by decide +kernel) (by decide)
      hpending⟩

end ShaderGraph
