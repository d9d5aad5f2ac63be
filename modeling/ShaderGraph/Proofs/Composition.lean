import Mathlib.Data.List.Basic
import ShaderGraph.CommandLine.Run
import ShaderGraph.Proofs.Evaluation.Soundness
import ShaderGraph.Proofs.Number.Notation
import ShaderGraph.Proofs.Resolution

/-!
# Composition of pending textures

Every product that evaluation leaves pending can be composed, as its factor is a number with
components. A composed texture that is taken from the cache is the right one: the name under which
it is filed ends in the text of its factor, in which there is no star, so that the name tells both
the source and the factor, and the source tells its place in the library.

## Main definitions

* `Compositor.Sound` — every cached texture is the composition that its name tells

## Main results

* `Compositor.id_describe_inj` — the name of a composed texture tells its source and its factor
* `Compositor.Sound.compose` — a product is composed, from the cache or anew
* `Resolution.composes_foldl` — a sequence of products is composed, each in its own channel
* `CommandLine.materialReport_resolved` — nothing that a run evaluates stays pending
-/

namespace ShaderGraph

namespace Compositor

variable {widths : Nat → Prop} {url? : String → Option String} {c : Compositor}
  {op : PendingOperation} {t u : TextureRef} {xs ys : List Float32}

/-- Every cached texture is the composition of a texture of the library, filed under its name. -/
def Sound (url? : String → Option String) (c : Compositor) : Prop :=
  ∀ ⦃k t⦄, c.cache.get? k = some t →
    ∃ u xs, url? u.id = some u.url ∧ t = describe u (tag xs) ∧ k = t.id

/-! ### Names of composed textures -/

theorem notMem_tag : '*' ∉ (tag xs).toList := by
  rw [tag, String.toList_intercalate, List.map_map]
  induction xs with
  | nil => exact List.not_mem_nil
  | cons x xs ih =>
    cases xs with
    | nil =>
      rw [List.map_singleton, List.intercalate_singleton]
      exact notMem_floatText
    | cons y ys =>
      rw [List.map_cons, List.map_cons, List.intercalate_cons_cons, List.mem_append,
        List.mem_append, not_or, not_or]
      exact ⟨⟨notMem_floatText, by decide⟩, ih⟩

/-- A text has one last star. -/
theorem append_star_inj {as bs cs ds : List Char} (hc : '*' ∉ cs) (hd : '*' ∉ ds)
    (h : as ++ '*' :: cs = bs ++ '*' :: ds) : as = bs ∧ cs = ds := by
  rcases List.append_eq_append_iff.mp h with ⟨es, rfl, hes⟩ | ⟨es, rfl, hes⟩
  · cases es with
    | nil => exact ⟨(List.append_nil _).symm, (List.cons.inj hes).2⟩
    | cons e es =>
      -- The star behind `bs` would stand in `cs`.
      rw [(List.cons.inj hes).2] at hc
      exact absurd (List.mem_append_right es List.mem_cons_self) hc
  · cases es with
    | nil => exact ⟨List.append_nil _, (List.cons.inj hes).2.symm⟩
    | cons e es =>
      rw [(List.cons.inj hes).2] at hd
      exact absurd (List.mem_append_right es List.mem_cons_self) hd

/-- The name of a composed texture tells its source and its factor. -/
theorem id_describe_inj (h : (describe t (tag xs)).id = (describe u (tag ys)).id) :
    t.id = u.id ∧ tag xs = tag ys := by
  have hstar (s : String) (zs : List Float32) :
      (s ++ "*" ++ tag zs).toList = s.toList ++ '*' :: (tag zs).toList := by
    rw [String.toList_append, String.toList_append, List.append_assoc]
    rfl
  have hlist := congrArg String.toList h
  rw [describe, describe, hstar, hstar] at hlist
  obtain ⟨hid, htag⟩ := append_star_inj notMem_tag notMem_tag hlist
  exact ⟨String.toList_inj.mp hid, String.toList_inj.mp htag⟩

/-! ### One product -/

theorem exists_factors?_eq_some (hc : ClosedWidths widths)
    (h : (Evaluated.pending op).Within widths url?) : ∃ xs, factors? op.factor = some xs := by
  obtain ⟨-, hwithin, hnumeric⟩ := h
  match hfactor : op.factor with
  | .scalar x => exact ⟨[x, x, x], rfl⟩
  | .vector [] => rw [hfactor] at hwithin; exact absurd (hc.pos hwithin) (Nat.lt_irrefl 0)
  | .vector (x :: xs) => exact ⟨x :: xs, rfl⟩
  | .texture t => rw [hfactor] at hnumeric; cases hnumeric

/-- A vector is taken as it is, a scalar three times. -/
theorem eq_of_factors?_eq_some {v : Value} (h : factors? v = some xs) :
    v = .vector xs ∨ ∃ x, v = .scalar x ∧ xs = [x, x, x] := by
  match v with
  | .scalar x => exact Or.inr ⟨x, rfl, (Option.some_inj.mp h).symm⟩
  | .vector (y :: ys) => exact Or.inl (congrArg Value.vector (Option.some_inj.mp h))
  | .vector [] => cases h
  | .texture t => cases h

/-- A product is composed, from the cache or anew. -/
theorem Sound.compose (h : c.Sound url?) (hop : url? op.texture.id = some op.texture.url)
    (hxs : factors? op.factor = some xs) :
    (c.compose op).1 = .ok (describe op.texture (tag xs)) ∧ (c.compose op).2.Sound url? := by
  rw [Compositor.compose, hxs]
  dsimp only
  cases hhit : c.cache.get? (describe op.texture (tag xs)).id with
  | some hit =>
    -- The name under which the texture was found tells what it was composed of.
    obtain ⟨u, ys, hu, rfl, hname⟩ := h hhit
    obtain ⟨hid, htag⟩ := id_describe_inj hname
    have hurl : op.texture.url = u.url := by
      rw [hid, hu] at hop
      exact (Option.some_inj.mp hop).symm
    refine ⟨?_, h⟩
    rw [describe, describe, hid, htag, hurl]
  | none =>
    refine ⟨rfl, fun k t hk => ?_⟩
    dsimp only at hk
    rw [Table.get?_insert] at hk
    split at hk
    · rename_i he
      obtain rfl := Option.some_inj.mp hk
      exact ⟨op.texture, xs, hop, rfl, he⟩
    · exact h hk

end Compositor

namespace Resolution

open Compositor

/-- `r'` continues `r` with the given products composed, each in its own channel, which then no
longer waits; the other channels are as they were. -/
structure Composes (url? : String → Option String) (es : List (Channel × PendingOperation))
    (r r' : Resolution Compositor) : Prop where
  state : r'.state.Sound url?
  firstError : r'.firstError = none
  resolved : r'.resolved = r.resolved + es.length
  kept : ∀ c ∉ es.map Prod.fst, r'.attributes.pending.get? c = r.attributes.pending.get? c ∧
    r'.attributes.slot c = r.attributes.slot c
  composed : ∀ e ∈ es, r'.attributes.pending.get? e.1 = none ∧
    ∃ xs, factors? e.2.factor = some xs ∧
      r'.attributes.slot e.1 = some (.texture (describe e.2.texture (tag xs)))

variable {widths : Nat → Prop} {url? : String → Option String} {c : Compositor}
  {r : Resolution Compositor} {es : List (Channel × PendingOperation)}

/-! ### A sequence of products -/

/-- Products that are handed over one after the other are all composed. -/
theorem answer_of_mem_attempts (hwidths : ClosedWidths widths) (hc : c.Sound url?)
    (hes : ∀ e ∈ es, (Evaluated.pending e.2).Within widths url?) :
    ∀ x ∈ attempts Compositor.compose c es, ∃ xs, factors? x.operation.factor = some xs ∧
      x.answer = .ok (describe x.operation.texture (tag xs)) := by
  induction es generalizing c with
  | nil => exact List.forall_mem_nil _
  | cons e es ih =>
    rw [List.forall_mem_cons] at hes
    obtain ⟨xs, hxs⟩ := exists_factors?_eq_some hwidths hes.1
    obtain ⟨hanswer, hc'⟩ := hc.compose hes.1.1 hxs
    rw [attempts, List.forall_mem_cons]
    exact ⟨⟨xs, hxs, hanswer⟩, ih hc' hes.2⟩

theorem sound_state_foldl (hwidths : ClosedWidths widths) (hr : r.state.Sound url?)
    (hes : ∀ e ∈ es, (Evaluated.pending e.2).Within widths url?) :
    (es.foldl (step Compositor.compose) r).state.Sound url? := by
  induction es generalizing r with
  | nil => exact hr
  | cons e es ih =>
    rw [List.forall_mem_cons] at hes
    obtain ⟨xs, hxs⟩ := exists_factors?_eq_some hwidths hes.1
    refine ih ?_ hes.2
    rw [state_step]
    exact (hr.compose hes.1.1 hxs).2

/-- Products for distinct colour channels are composed one after the other. -/
theorem composes_foldl (hwidths : ClosedWidths widths) (hes : (es.map Prod.fst).Nodup)
    (hwithin : ∀ e ∈ es, e.1.isColor = true ∧ (Evaluated.pending e.2).Within widths url?)
    (hstate : r.state.Sound url?) (herror : r.firstError = none) :
    Composes url? es r (es.foldl (step Compositor.compose) r) := by
  have hanswer := answer_of_mem_attempts hwidths hstate fun e he => (hwithin e he).2
  have hsettled : Settled (attempts Compositor.compose r.state es) r.attributes
      (es.foldl (step Compositor.compose) r).attributes :=
    settled_foldl hes (List.forall_mem_map.mpr fun e he => (hwithin e he).1)
  have hfailed :
      (attempts Compositor.compose r.state es).findSome? Attempt.error? = none := by
    refine List.findSome?_eq_none_iff.mpr fun x hx => ?_
    obtain ⟨xs, -, hx⟩ := hanswer x hx
    rw [Attempt.error?, hx]
  refine ⟨sound_state_foldl hwidths hstate fun e he => (hwithin e he).2, ?_,
    resolved_foldl hfailed, fun c hc => ?_, fun e he => ?_⟩
  · rw [firstError_foldl, herror, hfailed, Option.or_none]
  · have hkept := hsettled.kept fun op t hmem => hc <|
      List.mem_map_of_mem (f := Prod.fst) (mem_entries_of_mem_attempts hmem)
    exact ⟨(Prod.mk.inj hkept).2, (Prod.mk.inj hkept).1⟩
  · obtain ⟨answer, hmem⟩ :
        ∃ answer, ⟨e.1, e.2, answer⟩ ∈ attempts Compositor.compose r.state es :=
      exists_mem_attempts he
    obtain ⟨xs, hxs, hcomposed⟩ := hanswer _ hmem
    dsimp only at hxs hcomposed
    rw [hcomposed] at hmem
    have hentry := hsettled.composed hmem
    exact ⟨(Prod.mk.inj hentry).2, xs, hxs, (Prod.mk.inj hentry).1⟩

end Resolution

open Compositor

/-- All that an evaluated material waits for is composed. -/
theorem MaterialAttributes.Within.composes {widths : Nat → Prop} {url? : String → Option String}
    {a : MaterialAttributes} (hwidths : ClosedWidths widths) (h : a.Within widths url?) :
    Resolution.Composes url? a.pending.entries ⟨.empty, a, 0, none⟩
      (resolvePending Compositor.compose .empty a) := by
  refine Resolution.composes_foldl hwidths a.pending.nodup (fun e he => ?_)
    (fun k t hk => by cases hk) rfl
  exact h.pending (Table.get?_eq_some_iff.mpr he)

namespace CommandLine

/-- Whatever a run evaluates, a new compositor composes every pending product: there is no error,
as many are reported resolved as were pending, no channel waits any more, and each one that did
shows the texture that is named after the source and the factor. The name has the components of the
factor as shader code has them, a scalar three times. -/
theorem materialReport_resolved (o : Options) (settings : GraphSettings) (g : Graph)
    (root : NodeId) :
    let before := (Report.ofGraph (o.evaluator settings) g root).attributes
    let report := materialReport o settings g root
    (resolvePending Compositor.compose .empty before).result = .ok report.pending ∧
      report.pending = before.pending.size ∧ report.resolved = report.pending ∧
      report.attributes.pending = ∅ ∧
      ∀ c op, before.pending.get? c = some op →
        ∃ xs, (op.factor = .vector xs ∨ ∃ x, op.factor = .scalar x ∧ xs = [x, x, x]) ∧
          report.attributes.slot c = some (.texture
            ⟨op.texture.id ++ "*" ++ String.intercalate "," (xs.map floatText),
              op.texture.url ++ "#multiply=" ++ String.intercalate "," (xs.map floatText)⟩) := by
  intro before report
  have hwithin : before.Within twoToFour (o.evaluator settings).textureUrl? :=
    Evaluator.within_evaluateTraced closedWidths_twoToFour Registry.names_material root
  have hrun := hwithin.composes closedWidths_twoToFour
  -- The shader code, if it is asked for, adds to what was resolved.
  have hreport : report.pending = before.pending.size ∧
      report.resolved = (resolvePending Compositor.compose .empty before).resolved ∧
      report.attributes = (resolvePending Compositor.compose .empty before).attributes := by
    simp only [report, materialReport]
    split
    · exact ⟨rfl, rfl, rfl⟩
    · exact ⟨rfl, rfl, rfl⟩
  obtain ⟨hpending, hresolved, hattributes⟩ := hreport
  have hcount : (resolvePending Compositor.compose .empty before).resolved = before.pending.size :=
    hrun.resolved.trans (Nat.zero_add _)
  refine ⟨?_, hpending, by rw [hresolved, hcount, hpending], ?_, fun c op hop => ?_⟩
  · rw [Resolution.result, hrun.firstError, hcount, hpending]
  · rw [hattributes]
    refine Table.eq_empty_of_get? fun c => ?_
    by_cases hc : c ∈ before.pending.keys
    · obtain ⟨e, he, rfl⟩ := List.mem_map.mp hc
      exact (hrun.composed e he).1
    · exact (hrun.kept c hc).1.trans (Table.get?_eq_none_iff.mpr hc)
  · obtain ⟨-, xs, hxs, hslot⟩ := hrun.composed (c, op) (Table.get?_eq_some_iff.mp hop)
    rw [hattributes]
    exact ⟨xs, eq_of_factors?_eq_some hxs, hslot⟩

/-- A texture that is tinted with a dark red and led to two channels. -/
def sharedTint : Graph :=
  (Graph.tintedTexture.apply (.setProperty ⟨⟨2⟩⟩ "R" (.float 0.5))).apply
    (.connect ⟨⟨⟨4⟩⟩, "Output"⟩ ⟨⟨⟨9⟩⟩, "EmissiveColor"⟩ ⟨⟨10⟩⟩)

/-- Two channels wait for one product, which is composed once and then found in the cache. -/
theorem materialReport_resolved_sharedTint :
    let before := (Report.ofGraph (Options.none.evaluator .standard) sharedTint ⟨⟨9⟩⟩).attributes
    let report := materialReport .none .standard sharedTint ⟨⟨9⟩⟩
    before.pending.keys = [.baseColor, .emissiveColor] ∧
      (resolvePending Compositor.compose .empty before).result = .ok 2 ∧
      (resolvePending Compositor.compose .empty before).state.cache.size = 1 ∧
      report.pending = 2 ∧ report.resolved = 2 ∧ report.attributes.pending = ∅ ∧
      ∀ c ∈ [Channel.baseColor, .emissiveColor], report.attributes.slot c = some (.texture
        ⟨"default_checker*0.5,0.0,0.0", TextureLibrary.checkerUrl ++ "#multiply=0.5,0.0,0.0"⟩) := by
  intro before report
  obtain ⟨hresult, hpending, hresolved, hempty, hall⟩ :=
    materialReport_resolved .none .standard sharedTint ⟨⟨9⟩⟩
  let product : PendingOperation :=
    ⟨⟨"default_checker", TextureLibrary.checkerUrl⟩, .vector [0.5, 0, 0]⟩
  have hentries : before.pending.entries =
      [(.baseColor, product), (.emissiveColor, product)] := by decide +kernel
  have hkeys : before.pending.keys = [.baseColor, .emissiveColor] := by
    rw [Table.keys, hentries]
    rfl
  have hcount : report.pending = 2 := by
    rw [hpending, Table.size, hentries]
    rfl
  have hcache : (resolvePending Compositor.compose .empty before).state.cache.size = 1 := by
    rw [resolvePending, hentries]
    decide +kernel
  refine ⟨hkeys, hcount ▸ hresult, hcache, hcount, hresolved.trans hcount, hempty,
    fun c hc => ?_⟩
  have hop : before.pending.get? c = some product := by
    rw [Table.get?_eq_some_iff, hentries]
    simpa using hc
  obtain ⟨xs, hfactor, hslot⟩ := hall c product hop
  have hxs : xs = [0.5, 0, 0] := by
    rcases hfactor with he | ⟨x, he, -⟩
    · exact (Value.vector.inj he).symm
    · cases he
  have htag : String.intercalate "," (xs.map floatText) = "0.5,0.0,0.0" := by
    rw [hxs]
    decide +kernel
  rw [htag] at hslot
  exact hslot

end CommandLine

end ShaderGraph
