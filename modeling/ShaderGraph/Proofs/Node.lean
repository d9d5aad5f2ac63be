import Mathlib.Data.List.Nodup
import ShaderGraph.Node
import ShaderGraph.Proofs.Table

/-!
# Pins of a node

Edits reach a pin by the first identifier that fits. Such an edit is a map over the pins that their
identifiers mean, which composes with others; where the identifiers within a node differ, these are
all pins.

## Main definitions

* `Pin.skeleton`, `Node.skeleton` — what is fixed when a node is made
* `Pin.unlinked` — a pin without its links
* `Pin.wiring`, `Node.wiring` — all but values and places, which do not matter to links
* `Node.WellPinned` — pins differ in their identifiers and stand on their side
* `Node.mapPins` — a change to every pin
* `Node.mapAddressed` — a change to every pin that its identifier means

## Main results

* `Node.modifyPin_eq_mapAddressed` — a change to one pin as a change to all of them
* `Node.WellPinned.pin?_eq_some_iff` — an identifier means one pin, an input or an output
-/

namespace ShaderGraph

theorem PinRef.mk_eq_iff {n : NodeId} {id : String} {r : PinRef} :
    (⟨n, id⟩ : PinRef) = r ↔ n = r.node ∧ id = r.pin := by
  obtain ⟨m, jd⟩ := r
  exact PinRef.mk.injEq n id m jd ▸ Iff.rfl

/-- What is fixed about a pin when its node is made: all but its default and its links. -/
def Pin.skeleton (p : Pin) : Pin := { p with default := none, links := [] }

/-- A pin without its links. -/
def Pin.unlinked (p : Pin) : Pin := { p with links := [] }

/-- A pin without its default. -/
def Pin.wiring (p : Pin) : Pin := { p with default := none }

namespace Pin

variable {p : Pin} {l : LinkId} {f : Pin → Pin} {ps : List Pin}

@[simp] theorem id_skeleton : p.skeleton.id = p.id := rfl
@[simp] theorem skeleton_unlinked : p.unlinked.skeleton = p.skeleton := rfl
@[simp] theorem skeleton_wiring : p.wiring.skeleton = p.skeleton := rfl

@[simp] theorem unlinked_attach : (p.attach l).unlinked = p.unlinked := rfl
@[simp] theorem unlinked_detach : (p.detach l).unlinked = p.unlinked := rfl

theorem id_eq_of_skeleton {q : Pin} (h : q.skeleton = p.skeleton) : q.id = p.id := by
  have hid : q.skeleton.id = p.skeleton.id := congrArg Pin.id h
  exact hid

theorem skeleton_eq_of_unlinked {q : Pin} (h : q.unlinked = p.unlinked) :
    q.skeleton = p.skeleton := by
  rw [← skeleton_unlinked, h, skeleton_unlinked]

/-- A pin is what is fixed about it together with its default and its links. -/
theorem eq_of_skeleton {q : Pin} (hs : q.skeleton = p.skeleton) (hd : q.default = p.default)
    (hl : q.links = p.links) : q = p := by
  cases p
  cases q
  simp_all [skeleton]

/-- A view of pins that a change leaves alone is left alone when one pin of a list is changed. -/
theorem map_modifyIn {α : Type*} {u : Pin → α} {id : String} (h : ∀ p, u (f p) = u p) :
    (modifyIn id f ps).map u = ps.map u := by
  induction ps with
  | nil => rfl
  | cons p ps ih =>
    by_cases hp : p.id = id
    · simp [modifyIn, hp, h]
    · simp [modifyIn, hp, ih]

/-- The first pin with an identifier after a change to the first with another. -/
theorem find?_modifyIn {id id' : String} (h : ∀ p, (f p).id = p.id) :
    (modifyIn id f ps).find? (·.id == id') =
      if id' = id then (ps.find? (·.id == id)).map f else ps.find? (·.id == id') := by
  induction ps with
  | nil => simp [modifyIn]
  | cons p ps ih =>
    rw [modifyIn]
    by_cases hp : p.id = id
    · rw [if_pos hp]
      by_cases hid : id' = id
      · simp [hid, h, hp]
      · have hne : ¬ id = id' := Ne.symm hid
        simp [hid, h, hp, hne]
    · rw [if_neg hp]
      by_cases hid : id' = id
      · rw [hid] at ih ⊢
        simpa [hp] using ih
      · rw [if_neg hid] at ih ⊢
        rw [List.find?_cons, List.find?_cons, ih]

/-- Applies `f` to the first pin with each identifier, where those in `seen` were met before. -/
def mapFirsts (f : Pin → Pin) : (seen : List String) → List Pin → List Pin
  | _, [] => []
  | seen, p :: ps => (if p.id ∈ seen then p else f p) :: mapFirsts f (p.id :: seen) ps

variable {f' : Pin → Pin} {seen : List String}

/-- Only what `f` does to the first pin with an identifier matters. -/
theorem mapFirsts_congr
    (h : ∀ p, p.id ∉ seen → ps.find? (·.id == p.id) = some p → f p = f' p) :
    mapFirsts f seen ps = mapFirsts f' seen ps := by
  induction ps generalizing seen with
  | nil => rfl
  | cons p ps ih =>
    rw [mapFirsts, mapFirsts, ih]
    · split
      · rfl
      · rename_i hp
        rw [h p hp (by simp)]
    · intro q hq hfind
      rw [List.mem_cons, not_or] at hq
      refine h q hq.2 ?_
      rw [List.find?_cons, beq_false_of_ne (Ne.symm hq.1)]
      exact hfind

theorem mapFirsts_eq_self (h : ∀ p ∈ ps, p.id ∉ seen → f p = p) : mapFirsts f seen ps = ps := by
  induction ps generalizing seen with
  | nil => rfl
  | cons p ps ih =>
    rw [mapFirsts, ih]
    · split
      · rfl
      · rename_i hp
        rw [h p List.mem_cons_self hp]
    · intro q hq hnew
      exact h q (List.mem_cons_of_mem p hq) fun hmem => hnew (List.mem_cons_of_mem _ hmem)

theorem mapFirsts_eq_map (hseen : ∀ p ∈ ps, p.id ∉ seen) (h : (ps.map Pin.id).Nodup) :
    mapFirsts f seen ps = ps.map f := by
  induction ps generalizing seen with
  | nil => rfl
  | cons p ps ih =>
    rw [List.map_cons, List.nodup_cons] at h
    rw [mapFirsts, if_neg (hseen p List.mem_cons_self), List.map_cons, ih _ h.2]
    intro q hq hmem
    rcases List.mem_cons.mp hmem with hid | hmem
    · exact h.1 (hid ▸ List.mem_map_of_mem hq)
    · exact hseen q (List.mem_cons_of_mem p hq) hmem

theorem mapFirsts_mapFirsts (h : ∀ p, (f p).id = p.id) :
    mapFirsts f' seen (mapFirsts f seen ps) = mapFirsts (fun p => f' (f p)) seen ps := by
  induction ps generalizing seen with
  | nil => rfl
  | cons p ps ih =>
    rw [mapFirsts, mapFirsts, mapFirsts]
    by_cases hp : p.id ∈ seen
    · simp [hp, ih]
    · simp [hp, h, ih]

/-- A view of pins that a change leaves alone is left alone when the first pins are changed. -/
theorem map_mapFirsts {α : Type*} {u : Pin → α} (h : ∀ p, u (f p) = u p) :
    (mapFirsts f seen ps).map u = ps.map u := by
  induction ps generalizing seen with
  | nil => rfl
  | cons p ps ih =>
    rw [mapFirsts, List.map_cons, List.map_cons, ih]
    split
    · rfl
    · rw [h]

theorem find?_mapFirsts {id : String} (h : ∀ p, (f p).id = p.id) :
    (mapFirsts f seen ps).find? (·.id == id) =
      if id ∈ seen then ps.find? (·.id == id) else (ps.find? (·.id == id)).map f := by
  induction ps generalizing seen with
  | nil => simp [mapFirsts]
  | cons p ps ih =>
    rw [mapFirsts]
    by_cases hid : p.id = id
    · by_cases hseen : id ∈ seen <;> simp [hid, hseen, h]
    · by_cases hseen : p.id ∈ seen <;> simp [hid, Ne.symm hid, hseen, h, ih]

/-- A change to the first pin with an identifier as a change to the first pin with each. -/
theorem modifyIn_eq_mapFirsts {id : String} (h : id ∉ seen) :
    modifyIn id f ps = mapFirsts (fun p => if p.id = id then f p else p) seen ps := by
  induction ps generalizing seen with
  | nil => rfl
  | cons p ps ih =>
    rw [modifyIn, mapFirsts]
    by_cases hp : p.id = id
    -- Behind the pin that is changed, none is the first with its identifier.
    · have hrest : mapFirsts (fun p => if p.id = id then f p else p) (p.id :: seen) ps = ps := by
        refine mapFirsts_eq_self fun q _ hq => if_neg ?_
        rintro rfl
        exact hq (hp ▸ List.mem_cons_self)
      rw [if_pos hp, hrest, hp, if_neg h, if_pos rfl]
    · have hnew : id ∉ p.id :: seen := by
        rw [List.mem_cons, not_or]
        exact ⟨Ne.symm hp, h⟩
      rw [if_neg hp, ih hnew, if_neg hp, ite_self]

end Pin

namespace Node

/-- The pins of a node differ in their identifiers, and each stands among the pins of its
direction. -/
structure WellPinned (n : Node) : Prop where
  nodup : (n.pins.map Pin.id).Nodup
  direction_input : ∀ p ∈ n.inputs, p.direction = .input
  direction_output : ∀ p ∈ n.outputs, p.direction = .output

/-- Applies `f` to every pin. -/
def mapPins (n : Node) (f : Pin → Pin) : Node :=
  { n with inputs := n.inputs.map f, outputs := n.outputs.map f }

/-- Applies `f` to every pin that its identifier means, which is the first one with it, inputs
before outputs. -/
def mapAddressed (n : Node) (f : Pin → Pin) : Node :=
  { n with
    inputs := Pin.mapFirsts f [] n.inputs
    outputs := Pin.mapFirsts f (n.inputs.map Pin.id) n.outputs }

/-- What is fixed about a node when it is made: all but its position, the values of its properties
and the defaults and links of its pins. -/
def skeleton (n : Node) : Node :=
  { n.mapPins Pin.skeleton with
    position := ⟨0, 0⟩
    properties := n.properties.mapValues fun _ _ => .bool false }

/-- All about a node but its position, the values of its properties and the defaults of its pins. -/
def wiring (n : Node) : Node :=
  { n.mapPins Pin.wiring with
    position := ⟨0, 0⟩
    properties := n.properties.mapValues fun _ _ => .bool false }

variable {n : Node} {f : Pin → Pin} {p : Pin} {id : String}

@[simp] theorem id_mapPins : (n.mapPins f).id = n.id := rfl
@[simp] theorem inputs_mapPins : (n.mapPins f).inputs = n.inputs.map f := rfl
@[simp] theorem outputs_mapPins : (n.mapPins f).outputs = n.outputs.map f := rfl

@[simp] theorem inputs_wiring : n.wiring.inputs = n.inputs.map Pin.wiring := rfl
@[simp] theorem outputs_wiring : n.wiring.outputs = n.outputs.map Pin.wiring := rfl

theorem skeleton_wiring : n.wiring.skeleton = n.skeleton := by
  simp [skeleton, wiring, mapPins, Function.comp_def, Table.mapValues_mapValues]

theorem mapPins_mapPins {g : Pin → Pin} :
    (n.mapPins f).mapPins g = n.mapPins fun p => g (f p) := by
  simp [mapPins, Function.comp_def]

theorem mapPins_congr {g : Pin → Pin} (h : ∀ p ∈ n.pins, f p = g p) :
    n.mapPins f = n.mapPins g := by
  have hi : n.inputs.map f = n.inputs.map g :=
    List.map_congr_left fun p hp => h p (List.mem_append_left _ hp)
  have ho : n.outputs.map f = n.outputs.map g :=
    List.map_congr_left fun p hp => h p (List.mem_append_right _ hp)
  rw [mapPins, mapPins, hi, ho]

theorem mapPins_eq_self (h : ∀ p ∈ n.pins, f p = p) : n.mapPins f = n := by
  rw [mapPins_congr (g := fun p => p) h]
  simp [mapPins]

theorem mapPins_modifyPin {u : Pin → Pin} (h : ∀ p, u (f p) = u p) :
    (n.modifyPin id f).mapPins u = n.mapPins u := by
  rw [modifyPin]
  split <;> simp [mapPins, Pin.map_modifyIn h]

theorem skeleton_mapPins (h : ∀ p, (f p).skeleton = p.skeleton) :
    (n.mapPins f).skeleton = n.skeleton := by
  simp [skeleton, mapPins, Function.comp_def, h]

theorem wiring_modifyPin (h : ∀ p, (f p).wiring = p.wiring) :
    (n.modifyPin id f).wiring = n.wiring := by
  rw [modifyPin]
  split <;> simp [wiring, mapPins, Pin.map_modifyIn h]

theorem wiring_modifyProperty {name : String} {value : Literal} :
    { n with properties := n.properties.modify name fun _ => value }.wiring = n.wiring := by
  have hnames : (n.properties.modify name fun _ => value).mapValues
      (fun _ _ => Literal.bool false) = n.properties.mapValues fun _ _ => Literal.bool false := by
    rw [Table.modify_eq_mapValues, Table.mapValues_mapValues]
  simp only [wiring, mapPins, hnames]

theorem skeleton_eq_of_wiring {m : Node} (h : m.wiring = n.wiring) : m.skeleton = n.skeleton := by
  rw [← skeleton_wiring, h, skeleton_wiring]

/-- Nodes of the same wiring list the same links at their pins. -/
theorem exists_pin_of_wiring {m : Node} (h : m.wiring = n.wiring) (hp : p ∈ m.pins) :
    ∃ q ∈ n.pins, q.links = p.links := by
  have hpins : m.pins.map Pin.wiring = n.pins.map Pin.wiring := by
    rw [pins, pins, List.map_append, List.map_append, ← inputs_wiring, ← outputs_wiring, h,
      inputs_wiring, outputs_wiring]
  obtain ⟨q, hq, hqp⟩ := List.mem_map.mp (hpins ▸ List.mem_map_of_mem (f := Pin.wiring) hp)
  exact ⟨q, hq, (congrArg Pin.links hqp :)⟩

theorem wellPinned_skeleton : n.skeleton.WellPinned ↔ n.WellPinned := by
  have hids : n.skeleton.pins.map Pin.id = n.pins.map Pin.id := by
    simp [skeleton, mapPins, pins, Function.comp_def]
  constructor
  · intro h
    refine ⟨hids ▸ h.nodup, fun p hp => ?_, fun p hp => ?_⟩
    · exact h.direction_input p.skeleton (List.mem_map_of_mem hp)
    · exact h.direction_output p.skeleton (List.mem_map_of_mem hp)
  · intro h
    refine ⟨hids ▸ h.nodup, fun p hp => ?_, fun p hp => ?_⟩
    · obtain ⟨q, hq, rfl⟩ := List.mem_map.mp hp
      exact h.direction_input q hq
    · obtain ⟨q, hq, rfl⟩ := List.mem_map.mp hp
      exact h.direction_output q hq

theorem WellPinned.mapPins (h : n.WellPinned) (hf : ∀ p, (f p).skeleton = p.skeleton) :
    (n.mapPins f).WellPinned := by
  rw [← wellPinned_skeleton, skeleton_mapPins hf]
  exact wellPinned_skeleton.mpr h

/-! ### The pin that an identifier means -/

theorem input?_eq_none_iff : n.input? id = none ↔ id ∉ n.inputs.map Pin.id := by
  simp [input?]

theorem pin?_eq_or : n.pin? id = (n.input? id).or (n.output? id) := Option.orElse_eq_or

theorem id_of_pin? (h : n.pin? id = some p) : p.id = id := by
  rw [pin?_eq_or, Option.or_eq_some_iff] at h
  rcases h with h | ⟨-, h⟩
  · simpa using List.find?_some h
  · simpa using List.find?_some h

theorem mem_pins_of_pin? (h : n.pin? id = some p) : p ∈ n.pins := by
  rw [pin?_eq_or, Option.or_eq_some_iff] at h
  rcases h with h | ⟨-, h⟩
  · exact List.mem_append_left _ (List.mem_of_find?_eq_some h)
  · exact List.mem_append_right _ (List.mem_of_find?_eq_some h)

/-- A change to one pin as a change to every pin that its identifier means. -/
theorem modifyPin_eq_mapAddressed :
    n.modifyPin id f = n.mapAddressed fun p => if p.id = id then f p else p := by
  rw [modifyPin, mapAddressed]
  split
  -- Where an input has the identifier, no output is the first pin with it.
  · rename_i hsome
    have hmem : id ∈ n.inputs.map Pin.id := by
      by_contra hnot
      rw [input?_eq_none_iff.mpr hnot] at hsome
      cases hsome
    have hout : Pin.mapFirsts (fun p => if p.id = id then f p else p) (n.inputs.map Pin.id)
        n.outputs = n.outputs := by
      refine Pin.mapFirsts_eq_self fun p _ hp => if_neg ?_
      rintro rfl
      exact hp hmem
    rw [Pin.modifyIn_eq_mapFirsts List.not_mem_nil, hout]
  · rename_i hnone
    rw [Option.not_isSome_iff_eq_none, input?_eq_none_iff] at hnone
    have hin : Pin.mapFirsts (fun p => if p.id = id then f p else p) [] n.inputs = n.inputs := by
      refine Pin.mapFirsts_eq_self fun p hp _ => if_neg ?_
      rintro rfl
      exact hnone (List.mem_map_of_mem hp)
    rw [Pin.modifyIn_eq_mapFirsts hnone, hin]

theorem mapAddressed_mapAddressed {f' : Pin → Pin} (h : ∀ p, (f p).id = p.id) :
    (n.mapAddressed f).mapAddressed f' = n.mapAddressed fun p => f' (f p) := by
  simp only [mapAddressed, Pin.map_mapFirsts h, Pin.mapFirsts_mapFirsts h]

theorem mapAddressed_congr {f' : Pin → Pin} (h : ∀ p, n.pin? p.id = some p → f p = f' p) :
    n.mapAddressed f = n.mapAddressed f' := by
  have hin : Pin.mapFirsts f [] n.inputs = Pin.mapFirsts f' [] n.inputs := by
    refine Pin.mapFirsts_congr fun p _ hp => h p ?_
    rw [pin?_eq_or, input?, hp, Option.some_or]
  have hout : Pin.mapFirsts f (n.inputs.map Pin.id) n.outputs =
      Pin.mapFirsts f' (n.inputs.map Pin.id) n.outputs := by
    refine Pin.mapFirsts_congr fun p hnew hp => h p ?_
    rw [pin?_eq_or, input?_eq_none_iff.mpr hnew, Option.none_or, output?, hp]
  rw [mapAddressed, mapAddressed, hin, hout]

theorem mapAddressed_eq_self (h : ∀ p, n.pin? p.id = some p → f p = p) :
    n.mapAddressed f = n := by
  have hself : n.mapAddressed f = n.mapAddressed fun p => p := mapAddressed_congr h
  rw [hself, mapAddressed,
    Pin.mapFirsts_eq_self fun _ _ _ => rfl, Pin.mapFirsts_eq_self fun _ _ _ => rfl]

theorem input?_mapAddressed (h : ∀ p, (f p).id = p.id) :
    (n.mapAddressed f).input? id = (n.input? id).map f :=
  (Pin.find?_mapFirsts h).trans (if_neg List.not_mem_nil)

theorem pin?_mapAddressed (h : ∀ p, (f p).id = p.id) :
    (n.mapAddressed f).pin? id = (n.pin? id).map f := by
  have hout : (n.mapAddressed f).output? id =
      if id ∈ n.inputs.map Pin.id then n.output? id else (n.output? id).map f :=
    Pin.find?_mapFirsts h
  rw [pin?_eq_or, pin?_eq_or, input?_mapAddressed h, hout]
  cases hin : n.input? id with
  | none => rw [if_neg (input?_eq_none_iff.mp hin), Option.map_none, Option.none_or, Option.none_or]
  | some p => rw [Option.map_some, Option.some_or, Option.some_or, Option.map_some]

/-- Where the identifiers differ, each means its pin. -/
theorem WellPinned.mapAddressed_eq (h : n.WellPinned) : n.mapAddressed f = n.mapPins f := by
  have hnodup := h.nodup
  rw [pins, List.map_append, List.nodup_append] at hnodup
  obtain ⟨hin, hout, hdisjoint⟩ := hnodup
  rw [mapAddressed, Node.mapPins, Pin.mapFirsts_eq_map (fun _ _ => List.not_mem_nil) hin,
    Pin.mapFirsts_eq_map _ hout]
  intro p hp hmem
  exact hdisjoint p.id hmem p.id (List.mem_map_of_mem hp) rfl

/-! ### The pin with an identifier -/

theorem find?_map_pins {ps : List Pin} (hf : ∀ p, (f p).id = p.id) :
    (ps.map f).find? (·.id == id) = (ps.find? (·.id == id)).map f := by
  rw [List.find?_map]
  congr 2
  funext p
  simp [hf]

theorem input?_mapPins (hf : ∀ p, (f p).id = p.id) :
    (n.mapPins f).input? id = (n.input? id).map f := find?_map_pins hf

theorem output?_mapPins (hf : ∀ p, (f p).id = p.id) :
    (n.mapPins f).output? id = (n.output? id).map f := find?_map_pins hf

theorem input?_modifyPin {id' : String} (hf : ∀ p, (f p).id = p.id) :
    (n.modifyPin id f).input? id' = if id' = id then (n.input? id).map f else n.input? id' := by
  rw [modifyPin]
  split
  · exact Pin.find?_modifyIn hf
  -- Where no input has the identifier, an output is changed.
  · rename_i hnone
    rw [Option.not_isSome_iff_eq_none] at hnone
    split
    · rename_i hid
      rw [hnone, hid]
      exact hnone
    · rfl

theorem input?_wiring : n.wiring.input? id = (n.input? id).map Pin.wiring :=
  find?_map_pins fun _ => rfl

theorem output?_wiring : n.wiring.output? id = (n.output? id).map Pin.wiring :=
  find?_map_pins fun _ => rfl

namespace WellPinned

theorem nodup_ids (h : n.WellPinned) : (n.inputs.map Pin.id ++ n.outputs.map Pin.id).Nodup := by
  rw [← List.map_append]
  exact h.nodup

theorem nodup_outputs (h : n.WellPinned) : (n.outputs.map Pin.id).Nodup :=
  (List.nodup_append.mp h.nodup_ids).2.1

theorem input?_eq_some_iff (h : n.WellPinned) :
    n.input? id = some p ↔ p ∈ n.inputs ∧ p.id = id :=
  find?_name_eq_some_iff (List.nodup_append.mp h.nodup_ids).1

theorem output?_eq_some_iff (h : n.WellPinned) :
    n.output? id = some p ↔ p ∈ n.outputs ∧ p.id = id :=
  find?_name_eq_some_iff h.nodup_outputs

theorem id_ne_of_mem {q : Pin} (h : n.WellPinned) (hp : p ∈ n.inputs) (hq : q ∈ n.outputs) :
    p.id ≠ q.id :=
  (List.nodup_append.mp h.nodup_ids).2.2 p.id (List.mem_map_of_mem hp) q.id (List.mem_map_of_mem hq)

/-- An identifier means one pin, which stands among the inputs or among the outputs. -/
theorem pin?_eq_some_iff (h : n.WellPinned) : n.pin? id = some p ↔ p ∈ n.pins ∧ p.id = id := by
  rw [pin?, Option.orElse_eq_orElse, Option.orElse_eq_or, Option.or_eq_some_iff,
    h.input?_eq_some_iff,
    h.output?_eq_some_iff, pins, List.mem_append]
  constructor
  · rintro (⟨hp, hid⟩ | ⟨-, hp, hid⟩)
    · exact ⟨Or.inl hp, hid⟩
    · exact ⟨Or.inr hp, hid⟩
  · rintro ⟨hp | hp, hid⟩
    · exact Or.inl ⟨hp, hid⟩
    -- Inputs are tried first, but none has the identifier of an output.
    · refine Or.inr ⟨?_, hp, hid⟩
      rw [input?, List.find?_eq_none]
      intro q hq hqid
      exact h.id_ne_of_mem hq hp ((beq_iff_eq.mp hqid).trans hid.symm)

end WellPinned

end Node

end ShaderGraph
