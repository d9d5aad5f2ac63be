import ShaderGraph.Proofs.Composition

/-!
# Reuse of composed textures

A compositor files what it has composed under a name made of the identifier of the texture and the
text of the factor, and hands it out again whenever a request has the same name. A request is
therefore answered as its first namesake was. The place of the image is no part of the name, so that
the answer shows the image of the first namesake: what is cached is transparent exactly as long as
namesakes ask for the same image.

## Main definitions

* `Compositor.answers`, `Compositor.after` — a sequence of requests, and what it leaves behind
* `Compositor.fresh` — the answer of a new compositor
* `PendingOperation.Namesakes` — requests of the same name

## Main results

* `Compositor.get?_cache_after` — the cache holds the first texture composed of each name
* `Compositor.fst_compose_after` — a request is answered as its first namesake
* `Compositor.answers_eq_fresh_iff` — when each answer is that of a new compositor
* `Compositor.answers_repainted_ne_fresh` — an answer that is not
-/

namespace ShaderGraph

open Compositor

namespace Compositor

/-- What a compositor answers to requests that are made one after the other. -/
def answers (c : Compositor) : List PendingOperation → List (Except CompositeError TextureRef)
  | [] => []
  | op :: ops => (c.compose op).1 :: answers (c.compose op).2 ops

/-- A compositor to which requests have been made. -/
def after (c : Compositor) (ops : List PendingOperation) : Compositor :=
  ops.foldl (fun c op => (c.compose op).2) c

/-- The answer of a new compositor to a single request. -/
def fresh (op : PendingOperation) : Except CompositeError TextureRef := (empty.compose op).1

/-- The texture that a request asks for; none if the factor is no number. -/
def composed? (op : PendingOperation) : Option TextureRef :=
  (factors? op.factor).map fun xs => describe op.texture (tag xs)

end Compositor

/-- Two requests of the same name: for textures of one identifier and for factors that are numbers
with one text. -/
def PendingOperation.Namesakes (p q : PendingOperation) : Prop :=
  p.texture.id = q.texture.id ∧ (factors? p.factor).map tag = (factors? q.factor).map tag ∧
    (factors? q.factor).isSome

instance : DecidableRel PendingOperation.Namesakes := fun p q =>
  inferInstanceAs (Decidable (p.texture.id = q.texture.id ∧
    (factors? p.factor).map tag = (factors? q.factor).map tag ∧ (factors? q.factor).isSome))

open PendingOperation

variable {c : Compositor} {op p q r : PendingOperation} {ops before : List PendingOperation}
  {t : TextureRef} {k : String}

/-! ### Requests of the same name -/

namespace PendingOperation

theorem namesakes_iff : Namesakes p q ↔ p.texture.id = q.texture.id ∧
    ∃ xs ys, factors? p.factor = some xs ∧ factors? q.factor = some ys ∧ tag xs = tag ys := by
  rw [Namesakes]
  refine and_congr_right fun _ => ?_
  cases factors? p.factor <;> cases factors? q.factor <;> simp

theorem Namesakes.symm (h : Namesakes p q) : Namesakes q p := by
  obtain ⟨hid, xs, ys, hxs, hys, htag⟩ := namesakes_iff.mp h
  exact namesakes_iff.mpr ⟨hid.symm, ys, xs, hys, hxs, htag.symm⟩

theorem Namesakes.trans (h : Namesakes p q) (h' : Namesakes q r) : Namesakes p r :=
  ⟨h.1.trans h'.1, h.2.1.trans h'.2.1, h'.2.2⟩

theorem Namesakes.refl_right (h : Namesakes p q) : Namesakes q q := h.symm.trans h

/-- The name of what is composed tells namesakes from others. -/
theorem any_composed?_eq (h : composed? q = some t) :
    ((composed? p).any fun u => u.id == t.id) = decide (Namesakes p q) := by
  obtain ⟨ys, hys, rfl⟩ := Option.map_eq_some_iff.mp h
  rw [Bool.eq_iff_iff, decide_eq_true_eq, namesakes_iff, composed?]
  cases hxs : factors? p.factor with
  | none => simp
  | some xs =>
    rw [Option.map_some, Option.any_some, beq_iff_eq]
    constructor
    · intro hname
      obtain ⟨hid, htag⟩ := id_describe_inj hname
      exact ⟨hid, xs, ys, rfl, hys, htag⟩
    · rintro ⟨hid, xs', ys', hxs', hys', htag⟩
      obtain rfl := Option.some_inj.mp hxs'
      obtain rfl := Option.some_inj.mp (hys.symm.trans hys')
      rw [describe, describe, hid, htag]

end PendingOperation

namespace Compositor

/-! ### One request -/

theorem fst_compose : (c.compose op).1 = match composed? op with
    | none => .error (.unsupportedOperand op.factor)
    | some t => .ok ((c.cache.get? t.id).getD t) := by
  rw [compose, composed?]
  cases factors? op.factor with
  | none => rfl
  | some xs =>
    dsimp only [Option.map_some]
    cases c.cache.get? (describe op.texture (tag xs)).id <;> rfl

/-- A request files what it composes, unless something is filed under its name. -/
theorem get?_cache_compose : (c.compose op).2.cache.get? k =
    (c.cache.get? k).or ((composed? op).filter fun t => t.id == k) := by
  rw [compose, composed?]
  cases factors? op.factor with
  | none => simp
  | some xs =>
    dsimp only [Option.map_some]
    by_cases hk : (describe op.texture (tag xs)).id = k
    · subst hk
      rw [Option.filter_some, if_pos (beq_self_eq_true _)]
      cases hhit : c.cache.get? (describe op.texture (tag xs)).id with
      | some hit => rw [hhit, Option.some_or]
      | none => exact Table.get?_insert.trans (if_pos rfl)
    · rw [Option.filter_some, if_neg (mt eq_of_beq hk), Option.or_none]
      cases c.cache.get? (describe op.texture (tag xs)).id with
      | some hit => rfl
      | none => exact Table.get?_insert.trans (if_neg (Ne.symm hk))

theorem fresh_eq : fresh op = match composed? op with
    | none => .error (.unsupportedOperand op.factor)
    | some t => .ok t := by
  rw [fresh, fst_compose]
  cases composed? op <;> rfl

/-- Namesakes are answered alike by new compositors if they ask for the same image. -/
theorem fresh_eq_fresh_iff (h : Namesakes p q) :
    fresh p = fresh q ↔ p.texture.url = q.texture.url := by
  obtain ⟨hid, xs, ys, hxs, hys, htag⟩ := namesakes_iff.mp h
  rw [fresh_eq, fresh_eq, composed?, composed?, hxs, hys]
  dsimp only [Option.map_some]
  rw [Except.ok.injEq, describe, describe, hid, htag, TextureRef.mk.injEq, and_iff_right rfl,
    String.append_left_inj, String.append_left_inj]

/-! ### A sequence of requests -/

/-- The cache holds what was composed first of each name. -/
theorem get?_cache_after : (c.after ops).cache.get? k =
    (c.cache.get? k).or ((ops.filterMap composed?).find? fun t => t.id == k) := by
  induction ops generalizing c with
  | nil => exact Option.or_none.symm
  | cons op ops ih =>
    have hcons : c.after (op :: ops) = (c.compose op).2.after ops := rfl
    rw [hcons, ih, get?_cache_compose, Option.or_assoc]
    congr 1
    cases hop : composed? op with
    | none => rw [List.filterMap_cons_none hop]; rfl
    | some t =>
      rw [List.filterMap_cons_some hop, List.find?_cons, Option.filter_some]
      cases t.id == k <;> rfl

/-- A request is answered as a new compositor answers the first of its namesakes, be it an earlier
request or the request itself. -/
theorem fst_compose_after : ((empty.after before).compose op).1 =
    fresh ((before.find? (Namesakes · op)).getD op) := by
  rw [fst_compose]
  cases hop : composed? op with
  | none =>
    have hnone : before.find? (Namesakes · op) = none := by
      rw [List.find?_eq_none]
      intro p _ hp
      have hfactor := Option.map_eq_none_iff.mp hop
      have hsome := (of_decide_eq_true hp).2.2
      rw [hfactor] at hsome
      cases hsome
    rw [hnone, Option.getD_none, fresh_eq, hop]
  | some t =>
    have hfound : (empty.after before).cache.get? t.id =
        (before.find? (Namesakes · op)).bind composed? := by
      rw [get?_cache_after, List.find?_filterMap]
      simp only [any_composed?_eq hop]
      exact Option.none_or
    dsimp only
    rw [hfound]
    cases hfirst : before.find? (Namesakes · op) with
    | none => rw [Option.getD_none, fresh_eq, hop]; rfl
    | some first =>
      -- A namesake asks for some texture, which is what the cache gives.
      have hsame : Namesakes first op := of_decide_eq_true (List.find?_some hfirst :)
      obtain ⟨u, hu⟩ : ∃ u, composed? first = some u := by
        obtain ⟨-, xs, -, hxs, -⟩ := namesakes_iff.mp hsame
        exact ⟨_, congrArg (Option.map _) hxs⟩
      rw [Option.getD_some, Option.bind_some, fresh_eq, hu]
      rfl

theorem length_answers : (c.answers ops).length = ops.length := by
  induction ops generalizing c with
  | nil => rfl
  | cons op ops ih => rw [answers, List.length_cons, List.length_cons, ih]

theorem answers_append {later : List PendingOperation} :
    c.answers (before ++ later) = c.answers before ++ (c.after before).answers later := by
  induction before generalizing c with
  | nil => rfl
  | cons op before ih => exact congrArg ((c.compose op).1 :: ·) ih

theorem getElem?_answers {later : List PendingOperation} :
    (c.answers (before ++ op :: later))[before.length]? = some ((c.after before).compose op).1 := by
  rw [answers_append, List.getElem?_append_right (Nat.le_of_eq length_answers), length_answers,
    Nat.sub_self]
  rfl

theorem answers_eq_map_fresh_of
    (h : ∀ before op later, ops = before ++ op :: later →
      ((c.after before).compose op).1 = fresh op) :
    c.answers ops = ops.map fresh := by
  induction ops generalizing c with
  | nil => rfl
  | cons op ops ih =>
    have hfirst : (c.compose op).1 = fresh op := h [] op ops rfl
    have hrest : (c.compose op).2.answers ops = ops.map fresh := ih fun before op' later he =>
      h (op :: before) op' later (congrArg (op :: ·) he)
    rw [answers, List.map_cons, hfirst, hrest]

/-! ### Transparency -/

/-- What is cached shows in the answer if and only if the first namesake asked for another image. -/
theorem fresh_first_eq_iff : fresh ((before.find? (Namesakes · op)).getD op) = fresh op ↔
    ((before.find? (Namesakes · op)).getD op).texture.url = op.texture.url := by
  cases hfirst : before.find? (Namesakes · op) with
  | none => exact iff_of_true rfl rfl
  | some first => exact fresh_eq_fresh_iff (of_decide_eq_true (List.find?_some hfirst :))

/-- The first of the namesakes is the same for each of them. -/
theorem find?_namesakes_append {later : List PendingOperation} (h : Namesakes p q) :
    (before ++ p :: later).find? (Namesakes · q) =
      some ((before.find? (Namesakes · p)).getD p) := by
  have hsame : before.find? (Namesakes · p) = before.find? (Namesakes · q) := by
    refine congrArg (before.find? ·) (funext fun x => decide_eq_decide.mpr ?_)
    exact ⟨fun hx => hx.trans h, fun hx => hx.trans h.symm⟩
  rw [List.find?_append, List.find?_cons_of_pos (p := (Namesakes · q)) (decide_eq_true h),
    Option.or_some, hsame]

/-- All requests of a name ask for the image of the first of them if each is answered as by a new
compositor. -/
theorem url_eq_of_answers_eq (h : empty.answers ops = ops.map fresh) (hp : p ∈ ops)
    (hpq : Namesakes p q) (hfirst : ops.find? (Namesakes · q) = some r) :
    r.texture.url = p.texture.url := by
  obtain ⟨before, later, rfl⟩ := List.append_of_mem hp
  have hanswer : (empty.answers (before ++ p :: later))[before.length]? =
      some ((empty.after before).compose p).1 := getElem?_answers
  rw [h, List.getElem?_map, List.getElem?_append_right (Nat.le_refl _), Nat.sub_self,
    fst_compose_after] at hanswer
  rw [find?_namesakes_append hpq] at hfirst
  obtain rfl := Option.some_inj.mp hfirst
  exact fresh_first_eq_iff.mp (Option.some_inj.mp hanswer).symm

/-- Whatever a compositor was asked before, it answers a request as a new one answers the first
request of the same name. So each of its answers is that of a new compositor, which is named after
the very texture and factor of the request, if and only if requests of one name ask for one image.
-/
theorem answers_eq_fresh_iff (ops : List PendingOperation) :
    (∀ op, fresh op = match factors? op.factor with
      | none => .error (.unsupportedOperand op.factor)
      | some xs =>
        .ok ⟨op.texture.id ++ "*" ++ tag xs, op.texture.url ++ "#multiply=" ++ tag xs⟩) ∧
    (∀ before op later, ops = before ++ op :: later →
      let first := (before.find? (Namesakes · op)).getD op
      (empty.answers ops)[before.length]? = some (fresh first) ∧
        (fresh first = fresh op ↔ first.texture.url = op.texture.url)) ∧
    (empty.answers ops = ops.map fresh ↔
      ∀ p ∈ ops, ∀ q ∈ ops, Namesakes p q → p.texture.url = q.texture.url) := by
  refine ⟨fun op => ?_, ?_, fun h p hp q hq hpq => ?_, fun h => ?_⟩
  · rw [fresh_eq, composed?]
    cases factors? op.factor <;> rfl
  · rintro before op later rfl
    exact ⟨getElem?_answers.trans (congrArg some fst_compose_after), fresh_first_eq_iff⟩
  · obtain ⟨r, hr⟩ : ∃ r, ops.find? (Namesakes · q) = some r :=
      Option.isSome_iff_exists.mp (List.find?_isSome.mpr ⟨p, hp, decide_eq_true hpq⟩)
    exact (url_eq_of_answers_eq h hp hpq hr).symm.trans
      (url_eq_of_answers_eq h hq hpq.refl_right hr)
  · refine answers_eq_map_fresh_of fun before op later he => ?_
    rw [fst_compose_after, fresh_first_eq_iff]
    cases hfirst : before.find? (Namesakes · op) with
    | none => rfl
    | some first =>
      have hbefore := List.mem_of_find?_eq_some hfirst
      refine h first ?_ op ?_ (of_decide_eq_true (List.find?_some hfirst :))
      · exact he ▸ List.mem_append_left _ hbefore
      · exact he ▸ List.mem_append_right _ List.mem_cons_self

/-- A dimmed wall, whose image is found at the given place. -/
def dimmedWall (url : String) : PendingOperation := ⟨⟨"wall", url⟩, .scalar 0.5⟩

/-- The wall is painted anew under its old identifier: the answer shows the old image. -/
theorem answers_repainted_ne_fresh :
    empty.answers [dimmedWall "old.png", dimmedWall "new.png"] =
        [fresh (dimmedWall "old.png"), fresh (dimmedWall "old.png")] ∧
      empty.answers [dimmedWall "old.png", dimmedWall "new.png"] ≠
        [dimmedWall "old.png", dimmedWall "new.png"].map fresh := by
  have hsame : Namesakes (dimmedWall "old.png") (dimmedWall "new.png") := ⟨rfl, rfl, rfl⟩
  have hsecond : ((empty.after [dimmedWall "old.png"]).compose (dimmedWall "new.png")).1 =
      fresh (dimmedWall "old.png") := by
    rw [fst_compose_after, List.find?_cons_of_pos (p := (Namesakes · (dimmedWall "new.png")))
      (decide_eq_true hsame), Option.getD_some]
  have hanswers : empty.answers [dimmedWall "old.png", dimmedWall "new.png"] =
      [fresh (dimmedWall "old.png"), fresh (dimmedWall "old.png")] :=
    congrArg (fun answer => [fresh (dimmedWall "old.png"), answer]) hsecond
  refine ⟨hanswers, fun heq => ?_⟩
  have hfresh : fresh (dimmedWall "old.png") = fresh (dimmedWall "new.png") :=
    (List.cons.inj (List.cons.inj (hanswers.symm.trans heq)).2).1
  exact absurd ((fresh_eq_fresh_iff hsame).mp hfresh) (by decide)

end Compositor

end ShaderGraph
