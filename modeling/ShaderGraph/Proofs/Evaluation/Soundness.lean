import ShaderGraph.Catalog
import ShaderGraph.Proofs.Arithmetic
import ShaderGraph.Proofs.Evaluation.State
import ShaderGraph.Proofs.Graph.Edits
import ShaderGraph.Proofs.Table

/-!
# What evaluation can yield

Whatever the graph, with cycles or without, the vectors that evaluation yields have the widths that
vectors of properties have, or those of literals and colours and what these make side by side; a
texture lies where the library finds it, and a product that is left pending has a numeric factor.
Operations keep this, rules keep it because operations do, and so does the memory of an evaluation.
If vectors of properties have two to four components, every vector has.

## Main definitions

* `Value.Within`, `Evaluated.Within` — what can be said of everything that evaluation yields
* `ClosedWidths` — operations do not lead out of a set of widths
* `Registry.Names` — every rule that makes a vector of properties names as many as are allowed
* `MaterialAttributes.Within` — the slots and the pending products are what evaluation can yield

## Main results

* `Evaluator.yields_applyRule` — a rule keeps to the widths if its inputs do
* `Evaluator.yields_resolveInput` — so does an input pin
* `Evaluator.within_evaluateTraced` — so does a whole evaluation
* `Evaluator.within_evaluate` — vectors have two to four components
-/

namespace ShaderGraph

/-- The width of a vector is allowed, and a texture lies where `url?` finds it. -/
def Value.Within (widths : Nat → Prop) (url? : String → Option String) : Value → Prop
  | .scalar _ => True
  | .vector xs => widths xs.length
  | .texture t => url? t.id = some t.url

/-- The width of a result is allowed. That of a pending product is the width of its factor, which
is a number. -/
def Evaluated.Within (widths : Nat → Prop) (url? : String → Option String) : Evaluated → Prop
  | .resolved v => v.Within widths url?
  | .pending op =>
    url? op.texture.id = some op.texture.url ∧ op.factor.Within widths url? ∧
      op.factor.isNumeric = true

/-- Widths to which operations keep: the widths of literals and colours are among them, and a
vector without components is not. -/
structure ClosedWidths (widths : Nat → Prop) : Prop where
  of_le {n : Nat} (htwo : 2 ≤ n) (hfour : n ≤ 4) : widths n
  pos {n : Nat} (h : widths n) : 0 < n

/-- The widths of the vectors of a shader. -/
def twoToFour (n : Nat) : Prop := 2 ≤ n ∧ n ≤ 4

instance : DecidablePred twoToFour := fun n => inferInstanceAs (Decidable (2 ≤ n ∧ n ≤ 4))

theorem closedWidths_twoToFour : ClosedWidths twoToFour where
  of_le htwo hfour := ⟨htwo, hfour⟩
  pos h := Nat.lt_of_lt_of_le Nat.two_pos h.1

variable {widths : Nat → Prop} {url? : String → Option String}

/-! ### Operations -/

/-- What is computed component by component has the width of one of the operands. -/
theorem onSome_broadcast {n : Nat} {operands : Vector Value n}
    {f : Vector Float32 n → Option Float32} (h : ∀ v ∈ operands.toList, v.Within widths url?) :
    OnSome (Value.Within widths url?) (broadcast operands f) := by
  intro v hv
  cases broadcast_eq_some_iff.mp hv with
  | scalar hall hxs hy => trivial
  | @vector ys hwidth hys =>
    obtain ⟨u, hu, huw⟩ := hwidth.exists_width
    have hwithin : u.Within widths url? := h u hu
    cases u with
    | scalar _ | texture _ => cases huw
    | vector xs => exact (Option.some_inj.mp huw ▸ hwithin : widths ys.length)

theorem onSome_onValues? {op : BinaryOperation} {a b : Value} (ha : a.Within widths url?)
    (hb : b.Within widths url?) : OnSome (Value.Within widths url?) (op.onValues? a b) :=
  onSome_broadcast (by simp [ha, hb])

theorem onSome_onValue? {f : UnaryFunction} {a : Value} (ha : a.Within widths url?) :
    OnSome (Value.Within widths url?) (f.onValue? a) :=
  onSome_broadcast (by simp [ha])

theorem onSome_lerp? {a b alpha : Value} (ha : a.Within widths url?) (hb : b.Within widths url?)
    (halpha : alpha.Within widths url?) :
    OnSome (Value.Within widths url?) (Arithmetic.lerp? a b alpha) :=
  onSome_broadcast (by simp [ha, hb, halpha])

theorem onSome_clamp? {a low high : Value} (ha : a.Within widths url?)
    (hlow : low.Within widths url?) (hhigh : high.Within widths url?) :
    OnSome (Value.Within widths url?) (Arithmetic.clamp? a low high) :=
  onSome_broadcast (by simp [ha, hlow, hhigh])

theorem length_components?_pos {v : Value} {xs : List Float32} (hc : ClosedWidths widths)
    (h : v.Within widths url?) (hxs : v.components? = some xs) : 0 < xs.length := by
  cases v with
  | scalar x =>
    obtain rfl := Option.some_inj.mp hxs
    exact Nat.one_pos
  | vector xs =>
    obtain rfl := Option.some_inj.mp hxs
    exact hc.pos h
  | texture t => cases hxs

/-- Side by side, two values have at least one component each, and at most four together. -/
theorem onSome_append? {a b : Value} (hc : ClosedWidths widths) (ha : a.Within widths url?)
    (hb : b.Within widths url?) : OnSome (Value.Within widths url?) (Arithmetic.append? a b) := by
  rw [Arithmetic.append?]
  split
  · rename_i xs ys hxs hys
    split
    · rename_i hfour
      have htwo : 2 ≤ (xs ++ ys).length := by
        rw [List.length_append]
        exact Nat.add_le_add (length_components?_pos hc ha hxs) (length_components?_pos hc hb hys)
      exact onSome_some (hc.of_le htwo hfour)
    · exact onSome_none
  · exact onSome_none

/-- The product of two results keeps to their widths; a texture and a number are left pending. -/
theorem onSome_product? {a b : Evaluated} (ha : a.Within widths url?) (hb : b.Within widths url?) :
    OnSome (Evaluated.Within widths url?) (Evaluator.product? a b) := by
  rw [Evaluator.product?.eq_def]
  split
  · split
    · rename_i hnumeric
      exact onSome_some ⟨ha, hb, hnumeric⟩
    · exact onSome_none
  · split
    · rename_i hnumeric
      exact onSome_some ⟨hb, ha, hnumeric⟩
    · exact onSome_none
  · exact (onSome_onValues? ha hb).map fun _ hv => hv
  · exact onSome_none

/-! ### Literals and properties -/

theorem onSome_value? {l : Literal} (hc : ClosedWidths widths) :
    OnSome (Value.Within widths url?) l.value? := by
  cases l with
  | text s => exact onSome_none
  | bool b => exact onSome_some trivial
  | float x => exact onSome_some trivial
  | vector2 | vector3 | vector4 => exact onSome_some (hc.of_le (by simp) (by simp))

theorem onSome_defaultValue? {p : Pin} (hc : ClosedWidths widths) :
    OnSome (Evaluated.Within widths url?) p.defaultValue? := by
  rw [Pin.defaultValue?]
  cases p.default with
  | none => exact onSome_none
  | some l => exact (onSome_value? (l := l) hc).map fun _ hv => hv

theorem onSome_vectorProperty? {n : Node} {names : List String} (h : widths names.length) :
    OnSome (Value.Within widths url?) (Evaluator.vectorProperty? n names) := by
  rw [Evaluator.vectorProperty?]
  cases hxs : names.mapM n.scalarProperty? with
  | none => exact onSome_none
  | some xs =>
    have hlength : names.length = xs.length := (mapM_eq_some_iff.mp hxs).length_eq
    exact onSome_some (hlength ▸ h : widths xs.length)

theorem onSome_genericProperty? {n : Node} (hc : ClosedWidths widths) :
    OnSome (Value.Within widths url?) (Evaluator.genericProperty? n) := by
  rw [Evaluator.genericProperty?]
  split
  · exact onSome_some (hc.of_le (n := 3) (by decide) (by decide))
  · cases n.scalarProperty? "Value" with
    | none => exact onSome_none
    | some x => exact onSome_some trivial

theorem within_sample {ev : Evaluator} {n : Node} {output : String} :
    (ev.sample n output).Within widths ev.textureUrl? := by
  rw [Evaluator.sample]
  split
  · split
    · rename_i hurl
      exact hurl
    · trivial
  · trivial

/-! ### Rules -/

/-- A rule that makes a vector of properties names as many as are allowed. -/
def EvaluationRule.Names (widths : Nat → Prop) : EvaluationRule → Prop
  | .vectorProperties names => widths names.length
  | _ => True

instance {widths : Nat → Prop} [DecidablePred widths] :
    DecidablePred (EvaluationRule.Names widths)
  | .vectorProperties names => inferInstanceAs (Decidable (widths names.length))
  | .scalarProperty _ | .binary _ | .unary _ | .lerp | .clamp | .append | .textureSample
  | .passthrough _ | .generic => isTrue trivial

/-- Every rule of a registry that makes a vector of properties names as many as are allowed. -/
def Registry.Names (widths : Nat → Prop) (r : Registry) : Prop :=
  ∀ ⦃key d⦄, r.get? key = some d → d.rule.Names widths

theorem Registry.names_material : Registry.material.Names twoToFour := by
  have hall : ∀ e ∈ Registry.material.definitions.entries, e.2.rule.Names twoToFour := by decide
  exact fun key d hd => hall (key, d) (Table.get?_eq_some_iff.mp hd)

namespace Evaluator

variable {σ : Type} {P : σ → Prop} {read : String → StateM σ (Option Evaluated)} {ev : Evaluator}

theorem yields_operand {pin : String}
    (h : Yields P (OnSome (Evaluated.Within widths url?)) (read pin)) :
    Yields P (OnSome (OnSome (Value.Within widths url?))) (operand read pin).run := by
  have hlift : Yields P (OnSome (OnSome (Evaluated.Within widths url?)))
      (OptionT.lift (read pin)).run :=
    h.bind fun _ ho => .some ho
  refine hlift.bindSome fun o ho => ?_
  match o with
  | some (.resolved v) => exact .some (onSome_some (ho _ rfl))
  | some (.pending _) => exact .none
  | none => exact .some onSome_none

theorem yields_required {Q : Value → Prop} {v : Option Value} (h : OnSome Q v) :
    Yields P (OnSome Q) (required (m := StateM σ) v).run := .pure h

theorem yields_resolved_required {v : Option Value} (h : OnSome (Value.Within widths url?) v) :
    Yields P (OnSome (Evaluated.Within widths url?))
      (Evaluated.resolved <$> required (m := StateM σ) v).run :=
  (yields_required h).bindSome fun _ hv => .some hv

/-- A rule keeps to the widths if its inputs do. -/
theorem yields_applyRule {rule : EvaluationRule} {n : Node} {output : String}
    (hc : ClosedWidths widths)
    (h : ∀ pin, Yields P (OnSome (Evaluated.Within widths ev.textureUrl?)) (read pin))
    (hrule : rule.Names widths) :
    Yields P (OnSome (Evaluated.Within widths ev.textureUrl?))
      (ev.applyRule rule n output read) := by
  have hoperand (pin : String) := yields_operand (h pin)
  have hone : (Evaluated.resolved (.scalar 1)).Within widths ev.textureUrl? := trivial
  cases rule with
  | scalarProperty name =>
    refine .pure ?_
    cases n.scalarProperty? name with
    | none => exact onSome_none
    | some x => exact onSome_some trivial
  | vectorProperties names =>
    exact .pure ((onSome_vectorProperty? hrule).map fun _ hv => hv)
  | binary op =>
    have hidentity {o : Option Value} (ho : OnSome (Value.Within widths ev.textureUrl?) o) :
        OnSome (Value.Within widths ev.textureUrl?) (o <|> op.identity?.map Value.scalar) := by
      cases o with
      | some v => exact ho
      | none => cases op <;> first | exact onSome_none | exact onSome_some trivial
    -- A product reads both inputs even if the first is absent; the other operations stop there.
    cases op with
    | multiply =>
      exact (h "A").bind fun a ha => (h "B").bind fun b hb =>
        .pure (onSome_product? (ha.getD hone) (hb.getD hone))
    | _ =>
      exact (hoperand "A").bindSome fun a ha => (yields_required (hidentity ha)).bindSome
        fun a ha => (hoperand "B").bindSome fun b hb => (yields_required (hidentity hb)).bindSome
          fun b hb => yields_resolved_required (onSome_onValues? ha hb)
  | unary f =>
    exact (hoperand "Input").bindSome fun x hx => (yields_required hx).bindSome fun x hx =>
      yields_resolved_required (onSome_onValue? hx)
  | lerp =>
    refine (hoperand "A").bindSome fun a ha => (hoperand "B").bindSome fun b hb =>
      (hoperand "Alpha").bindSome fun alpha halpha => yields_resolved_required ?_
    have hfilter : OnSome (Value.Within widths ev.textureUrl?) (alpha.filter Value.isNumeric) :=
      fun v hv => halpha v (Option.filter_eq_some_iff.mp hv).1
    exact onSome_lerp? (ha.getD trivial) (hb.getD trivial) (hfilter.getD trivial)
  | clamp =>
    exact (hoperand "Input").bindSome fun x hx => (yields_required hx).bindSome fun x hx =>
      (hoperand "Min").bindSome fun low hlow => (hoperand "Max").bindSome fun high hhigh =>
        yields_resolved_required (onSome_clamp? hx (hlow.getD trivial) (hhigh.getD trivial))
  | append =>
    exact (hoperand "A").bindSome fun a ha => (yields_required ha).bindSome fun a ha =>
      (hoperand "B").bindSome fun b hb => (yields_required hb).bindSome fun b hb =>
        yields_resolved_required (onSome_append? hc ha hb)
  | textureSample => exact .some within_sample
  | passthrough pin => exact h pin
  | generic => exact .pure ((onSome_genericProperty? hc).map fun _ hv => hv)

/-- A node keeps to the widths if its inputs do. -/
theorem yields_evaluateNode {n : Node} {output : String} (hc : ClosedWidths widths)
    (hr : ev.registry.Names widths)
    (h : ∀ pin, Yields P (OnSome (Evaluated.Within widths ev.textureUrl?)) (read pin)) :
    Yields P (OnSome (Evaluated.Within widths ev.textureUrl?)) (ev.evaluateNode n output read) := by
  rw [evaluateNode]
  split
  · exact .none
  · rename_i d hd
    exact yields_applyRule hc h (hr hd)

end Evaluator

/-! ### Whole evaluations -/

/-- All that is remembered keeps to the widths. -/
def Scope.Within (widths : Nat → Prop) (url? : String → Option String) (s : Scope) : Prop :=
  ∀ ⦃r v⦄, s.memo.get? r = some v → OnSome (Evaluated.Within widths url?) v

theorem Scope.within_empty : Scope.empty.Within widths url? := fun r v hv => by cases hv

theorem Scope.Within.remember {s : Scope} {r : PinRef} {v : Option Evaluated}
    (h : s.Within widths url?) (hv : OnSome (Evaluated.Within widths url?) v) :
    (s.remember r v).Within widths url? := by
  intro r' v' hv'
  rw [Scope.remember, Table.get?_insert] at hv'
  split at hv'
  · exact Option.some_inj.mp hv' ▸ hv
  · exact h hv'

namespace MaterialAttributes

/-- The slots of a material and the products that it waits for keep to the widths; colour channels
alone wait for products. -/
structure Within (widths : Nat → Prop) (url? : String → Option String) (a : MaterialAttributes) :
    Prop where
  slot : ∀ ⦃c v⦄, a.slot c = some v → v.Within widths url?
  pending : ∀ ⦃c op⦄, a.pending.get? c = some op →
    c.isColor = true ∧ (Evaluated.pending op).Within widths url?

variable {a : MaterialAttributes} {c : Channel} {v : Value}

theorem within_empty : (∅ : MaterialAttributes).Within widths url? where
  slot c v h := by cases c <;> cases h
  pending c op h := by cases h

/-- A colour has three components. -/
theorem onSome_asColor? (hc : ClosedWidths widths) (h : v.Within widths url?) :
    OnSome (Value.Within widths url?) v.asColor? := by
  rw [Value.asColor?.eq_def]
  split
  · exact onSome_some (hc.of_le (n := 3) (by decide) (by decide))
  · exact onSome_some (hc.of_le (n := 3) (by decide) (by decide))
  · exact onSome_none
  · exact onSome_some h

/-- The channels apart from the colours hold numbers. -/
theorem within_of_slot_eq_some (hcolor : c.isColor = false) (h : a.slot c = some v) :
    v.Within widths url? := by
  have hscalar {o : Option Float32} (ho : o.map Value.scalar = some v) :
      v.Within widths url? := by
    obtain ⟨x, -, rfl⟩ := Option.map_eq_some_iff.mp ho
    trivial
  cases c with
  | baseColor | emissiveColor | normal => cases hcolor
  | _ => exact hscalar h

theorem Within.set (hc : ClosedWidths widths) (h : a.Within widths url?)
    (hv : v.Within widths url?) : (a.set c v).Within widths url? where
  slot d w hw := by
    cases hcolor : d.isColor with
    | false => exact within_of_slot_eq_some hcolor hw
    | true =>
      by_cases hd : d = c
      · subst hd
        rw [slot_set_color hcolor] at hw
        exact onSome_asColor? hc hv w hw
      · rw [slot_set_of_ne hd] at hw
        exact h.slot hw
  pending d op hop := h.pending (pending_set (v := v) ▸ hop)

theorem slot_withPending {ps : Table Channel PendingOperation} :
    { a with pending := ps }.slot c = a.slot c := by
  cases c <;> rfl

theorem Within.assign {e : Evaluated} {placeholder : Color} (hc : ClosedWidths widths)
    (h : a.Within widths url?) (he : e.Within widths url?) :
    (a.assign c e placeholder).Within widths url? := by
  cases e with
  | resolved v => exact h.set hc he
  | pending op =>
    rw [MaterialAttributes.assign]
    split
    · rename_i hcolor
      have hshown : (a.set c placeholder.value).Within widths url? :=
        h.set hc (hc.of_le (n := 3) (by decide) (by decide))
      refine ⟨fun d w hw => hshown.slot (slot_withPending ▸ hw), fun d op' hop => ?_⟩
      dsimp only at hop
      rw [Table.get?_insert] at hop
      split at hop
      · rename_i hd
        obtain rfl := Option.some_inj.mp hop
        exact ⟨hd ▸ hcolor, he⟩
      · exact hshown.pending hop
    · exact h

end MaterialAttributes

namespace Evaluator

variable {ev : Evaluator} {g : Graph} {depth : Nat} {visited : List PinRef} {node : Node}

/-- An input pin keeps to the widths, on every path through the graph. -/
theorem yields_resolveInput (hc : ClosedWidths widths) (hr : ev.registry.Names widths)
    (pin : String) :
    Yields (Scope.Within widths ev.textureUrl?) (OnSome (Evaluated.Within widths ev.textureUrl?))
      (ev.resolveInput g depth visited node pin) := by
  induction depth generalizing visited node pin with
  | zero => exact .none
  | succ depth ih =>
    rw [resolveInput]
    split
    -- A pin that is met again counts as absent.
    · exact .modify (fun _ hs => hs) .none
    · cases node.input? pin with
      | none => exact .none
      | some p =>
        dsimp only
        cases p.links with
        | nil => exact .pure (onSome_defaultValue? hc)
        | cons l ls =>
          dsimp only
          cases g.link? l with
          | none => exact .none
          | some link =>
            refine .get fun s hs => ?_
            cases hmemo : s.memo.get? link.source with
            | some known => exact .modify (fun _ hs => hs) (.pure (hs hmemo))
            | none =>
              dsimp only
              cases g.node? link.source.node with
              | none => exact .none
              | some producer =>
                have hrun : Yields (Scope.Within widths ev.textureUrl?)
                    (OnSome (Evaluated.Within widths ev.textureUrl?))
                    (ev.runNode producer link.source.pin
                      (ev.resolveInput g depth (⟨node.id, pin⟩ :: visited) producer)) :=
                  .modify (fun _ hs => hs) (yields_evaluateNode hc hr ih)
                exact hrun.bind fun v hv => .modify (fun _ hs => hs.remember hv) (.pure hv)

theorem yields_assignInput {a : MaterialAttributes} {p : Pin} (hc : ClosedWidths widths)
    (hr : ev.registry.Names widths) (ha : a.Within widths ev.textureUrl?) :
    Yields (Scope.Within widths ev.textureUrl?) (MaterialAttributes.Within widths ev.textureUrl?)
      (ev.assignInput g node a p) := by
  rw [assignInput]
  cases Channel.ofPinName? p.name with
  | none => exact .pure ha
  | some c =>
    refine (yields_resolveInput hc hr p.id).bind fun v hv => ?_
    cases v with
    | none => exact .pure ha
    | some e => exact .pure (ha.assign hc (hv e rfl))

theorem within_evaluateTraced (hc : ClosedWidths widths) (hr : ev.registry.Names widths)
    (root : NodeId) : (ev.evaluateTraced g root).1.Within widths ev.textureUrl? := by
  rw [evaluateTraced]
  cases g.node? root with
  | none => exact MaterialAttributes.within_empty
  | some node =>
    have hall : Yields (Scope.Within widths ev.textureUrl?)
        (MaterialAttributes.Within widths ev.textureUrl?)
        (node.inputs.foldlM (ev.assignInput g node) ∅) :=
      .foldlM (fun p _ a ha => yields_assignInput hc hr ha) MaterialAttributes.within_empty
    exact (hall Scope.empty Scope.within_empty).1

theorem within_evaluatePin (hc : ClosedWidths widths) (hr : ev.registry.Names widths)
    (r : PinRef) : OnSome (Evaluated.Within widths ev.textureUrl?) (ev.evaluatePin g r) := by
  rw [evaluatePin]
  cases g.node? r.node with
  | none => exact onSome_none
  | some node =>
    have hrun : Yields (Scope.Within widths ev.textureUrl?)
        (OnSome (Evaluated.Within widths ev.textureUrl?))
        (ev.runNode node r.pin (ev.resolveInput g (depthBound g) [] node)) :=
      .modify (fun _ hs => hs) (yields_evaluateNode hc hr (yields_resolveInput hc hr))
    exact (hrun Scope.empty Scope.within_empty).1

/-- Where vectors of properties have two to four components, every vector that evaluation yields
has, at a pin and in a material, resolved or as the factor of a pending product. Factors are
numbers, and textures lie where they are found. -/
theorem within_evaluate (hr : ev.registry.Names twoToFour) (g : Graph) :
    (∀ r e, ev.evaluatePin g r = some e → e.Within twoToFour ev.textureUrl?) ∧
      ∀ root, (ev.evaluate g root).Within twoToFour ev.textureUrl? :=
  ⟨fun r e he => within_evaluatePin closedWidths_twoToFour hr r e he,
    fun root => within_evaluateTraced closedWidths_twoToFour hr root⟩

end Evaluator

/-- A texture, tinted with a colour and led around a bend, becomes the base colour. -/
def Graph.tintedTexture : Graph :=
  ((((((((Graph.ofSettings "tinted texture" .material .standard ⟨⟨9⟩⟩).apply
    (.addNode "TextureSample" ⟨0, 0⟩ ⟨⟨1⟩⟩)).apply
    (.addNode "Constant3Vector" ⟨0, 1⟩ ⟨⟨2⟩⟩)).apply
    (.addNode "Multiply" ⟨1, 0⟩ ⟨⟨3⟩⟩)).apply
    (.addNode "Reroute" ⟨2, 0⟩ ⟨⟨4⟩⟩)).apply
    (.connect ⟨⟨⟨1⟩⟩, "RGB"⟩ ⟨⟨⟨3⟩⟩, "B"⟩ ⟨⟨5⟩⟩)).apply
    (.connect ⟨⟨⟨2⟩⟩, "Output"⟩ ⟨⟨⟨3⟩⟩, "A"⟩ ⟨⟨6⟩⟩)).apply
    (.connect ⟨⟨⟨3⟩⟩, "Result"⟩ ⟨⟨⟨4⟩⟩, "Input"⟩ ⟨⟨7⟩⟩)).apply
    (.connect ⟨⟨⟨4⟩⟩, "Output"⟩ ⟨⟨⟨9⟩⟩, "BaseColor"⟩ ⟨⟨8⟩⟩)

/-- The base colour waits for the texture times a vector of three components. -/
theorem Evaluator.within_evaluate_tintedTexture : Registry.material.Names twoToFour ∧
    let ev : Evaluator := ⟨.material, fun _ => some "", .standard⟩
    ∃ op, (ev.evaluate Graph.tintedTexture ⟨⟨9⟩⟩).pending.get? .baseColor = some op ∧
      op.factor.width? = some 3 ∧ (Evaluated.pending op).Within twoToFour ev.textureUrl? := by
  refine ⟨Registry.names_material, ?_⟩
  intro ev
  have hfactor : ((ev.evaluate Graph.tintedTexture ⟨⟨9⟩⟩).pending.get? .baseColor).map
      (·.factor.width?) = some (some 3) := by decide +kernel
  obtain ⟨op, hop, hwidth⟩ := Option.map_eq_some_iff.mp hfactor
  have hnames : ev.registry.Names twoToFour := Registry.names_material
  have hwithin := (within_evaluate hnames Graph.tintedTexture).2 ⟨⟨9⟩⟩
  exact ⟨op, hop, hwidth, (hwithin.pending hop).2⟩

end ShaderGraph
