import ShaderGraph.Document
import ShaderGraph.Proofs.Graph.Instances

/-!
# Records of nodes

A record brings property values and pin defaults to a new instance of a definition. The record of a
node brings back the node, less its links; where a default agrees as a number with the declared one,
the declared one is taken.

## Main definitions

* `Pin.restored`, `Node.restored` — with the declared defaults where they agree

## Main results

* `NodeRecord.applyTo_eq_mapAddressed`, `NodeRecord.applyTo_eq` — what a record brings to a node, at
  once
* `NodeRecord.applyTo_toRecord` — the record of a node restores the node
-/

namespace ShaderGraph

/-- A pin with the default that its definition declares, if the two agree as numbers. -/
def Pin.restored (d : Option NodeDefinition) (p : Pin) : Pin :=
  if hasDeclaredDefault d p then
    { p with default := (d.bind (·.pinSpec? p.id)).bind (·.default) }
  else p

/-- A node with the declared defaults where they agree. -/
def Node.restored (n : Node) (d : Option NodeDefinition) : Node := n.mapPins (Pin.restored d)

namespace Pin

variable {d : Option NodeDefinition} {p : Pin}

@[simp] theorem wiring_restored : (p.restored d).wiring = p.wiring := by
  rw [restored]; split <;> rfl

@[simp] theorem skeleton_restored : (p.restored d).skeleton = p.skeleton := by
  rw [restored]; split <;> rfl

/-- The default of a restored pin is the old one or agrees with it. -/
theorem default_restored :
    (p.restored d).default = p.default ∨ defaultsAgree (p.restored d).default p.default = true := by
  rw [restored]
  split
  · rename_i h
    exact Or.inr h
  · exact Or.inl rfl

end Pin

namespace NodeRecord

variable {rec : NodeRecord} {g : Graph} {n : Node} {d : NodeDefinition}

theorem load?_eq_some_iff :
    rec.load? g = some n ↔ g.isTaken rec.key = false ∧ ∃ d, g.registry.get? rec.key = some d ∧
      rec.applyTo (d.instantiate rec.id rec.position) = n := by
  rw [load?]
  cases htaken : g.isTaken rec.key with
  | true => simp
  | false => simp [Registry.createInstance?]

/-! ### What a record brings to a node -/

theorem foldl_modifyProperty {es : List (String × Literal)} :
    es.foldl (fun (n : Node) e => { n with properties := n.properties.modify e.1 fun _ => e.2 }) n =
      { n with properties := es.foldl (fun t e => t.modify e.1 fun _ => e.2) n.properties } := by
  induction es generalizing n with
  | nil => rfl
  | cons e es ih => rw [List.foldl_cons, List.foldl_cons, ih]

theorem foldl_modifyDefault {es : List (String × Option Literal)}
    (h : (es.map Prod.fst).Nodup) :
    es.foldl (fun n e => n.modifyPin e.1 fun p => { p with default := e.2 }) n =
      n.mapAddressed fun p => { p with default := (Table.lookupIn p.id es).getD p.default } := by
  induction es generalizing n with
  | nil => exact (Node.mapAddressed_eq_self fun _ _ => rfl).symm
  | cons e es ih =>
    rw [List.map_cons, List.nodup_cons] at h
    rw [List.foldl_cons, Node.modifyPin_eq_mapAddressed, ih h.2,
      Node.mapAddressed_mapAddressed fun p => by split <;> rfl]
    refine Node.mapAddressed_congr fun p _ => ?_
    -- A later default is never meant for the same pin.
    by_cases hp : p.id = e.1
    · simp only [hp, Table.lookupIn, Table.lookupIn_eq_none_of_notMem h.1, if_true,
        Option.getD_none, Option.getD_some]
    · simp only [if_neg hp, Table.lookupIn, if_neg (Ne.symm hp)]

/-- A record overwrites the property values that the node has and the defaults of the pins that
their identifiers mean. -/
theorem applyTo_eq_mapAddressed :
    rec.applyTo n =
      { n.mapAddressed fun p =>
          { p with default := (rec.pinDefaults.get? p.id).getD p.default } with
        properties := n.properties.mapValues fun name value =>
          (rec.properties.get? name).getD value } := by
  rw [applyTo, foldl_modifyProperty, Table.foldl_modify rec.properties.nodup,
    foldl_modifyDefault rec.pinDefaults.nodup]
  rfl

/-- Where the identifiers of the pins differ, these are all pins. -/
theorem applyTo_eq (hn : n.WellPinned) :
    rec.applyTo n =
      { n.mapPins fun p => { p with default := (rec.pinDefaults.get? p.id).getD p.default } with
        properties := n.properties.mapValues fun name value =>
          (rec.properties.get? name).getD value } := by
  rw [applyTo_eq_mapAddressed, hn.mapAddressed_eq]

/-- A record brings values to a node, nothing else. -/
theorem wiring_applyTo : (rec.applyTo n).wiring = n.wiring := by
  have hdefaults (es : List (String × Option Literal)) (n : Node) :
      (es.foldl (fun (n : Node) e =>
        n.modifyPin e.1 fun p => { p with default := e.2 }) n).wiring = n.wiring := by
    induction es generalizing n with
    | nil => rfl
    | cons e es ih =>
      rw [List.foldl_cons, ih]
      exact Node.wiring_modifyPin fun _ => rfl
  have hproperties (es : List (String × Literal)) (n : Node) :
      (es.foldl (fun (n : Node) e =>
        { n with properties := n.properties.modify e.1 fun _ => e.2 }) n).wiring = n.wiring := by
    induction es generalizing n with
    | nil => rfl
    | cons e es ih => rw [List.foldl_cons, ih, Node.wiring_modifyProperty]
  rw [applyTo, hdefaults, hproperties]

/-! ### The record of a node -/

theorem get?_pinDefaults_toRecord {d : Option NodeDefinition} {q : Pin} (hn : n.WellPinned)
    (hq : q ∈ n.pins) :
    (n.toRecord d).pinDefaults.get? q.id =
      if hasDeclaredDefault d q then none else some q.default := by
  -- Pins are written down under their identifiers, none of which comes twice.
  have hkeys : (((n.pins.filter fun p => !hasDeclaredDefault d p).map fun p =>
      (p.id, p.default)).map Prod.fst).Nodup := by
    rw [List.map_map]
    exact (List.filter_sublist.map Pin.id).nodup hn.nodup
  apply Option.ext
  intro v
  rw [Table.get?_eq_some_iff, Node.toRecord, Table.entries_ofList hkeys]
  simp only [List.mem_map, List.mem_filter, Prod.mk.injEq]
  constructor
  · rintro ⟨p, ⟨hp, hkept⟩, hid, rfl⟩
    obtain rfl := List.inj_on_of_nodup_map hn.nodup hp hq hid
    simp_all
  · intro h
    by_cases hdeclared : hasDeclaredDefault d q = true
    · simp [hdeclared] at h
    · simp only [hdeclared] at h
      exact ⟨q, ⟨hq, by simp [hdeclared]⟩, rfl, Option.some_inj.mp h⟩

theorem pinSpec?_eq_some {s : PinSpec} (hd : (d.pins.map PinSpec.id).Nodup) (hs : s ∈ d.pins) :
    d.pinSpec? s.id = some s := (find?_name_eq_some_iff hd).mpr ⟨hs, rfl⟩

/-- A pin of the instance that a record is brought to becomes the restored pin, less its links. -/
theorem overwrite_eq_restored {p q : Pin} {s : PinSpec} (hd : (d.pins.map PinSpec.id).Nodup)
    (hn : n.WellPinned) (hs : s ∈ d.pins) (hp : Pin.ofSpec s = p) (hq : q ∈ n.pins)
    (hpq : p.skeleton = q.skeleton) :
    { p with default := ((n.toRecord (some d)).pinDefaults.get? p.id).getD p.default } =
      (q.restored (some d)).unlinked := by
  have hid : q.id = p.id := (Pin.id_eq_of_skeleton hpq).symm
  have hdeclared : ((some d : Option NodeDefinition).bind (·.pinSpec? q.id)).bind (·.default) =
      p.default := by
    rw [hid, ← hp]
    simp only [Option.bind_some, Pin.ofSpec, pinSpec?_eq_some hd hs]
  -- A default that is not written down is the declared one, which the instance has.
  refine Pin.eq_of_skeleton ?_ ?_ (by rw [← hp]; rfl)
  · rw [Pin.skeleton_unlinked, Pin.skeleton_restored, ← hpq]
    rfl
  · rw [← hid, get?_pinDefaults_toRecord hn hq, Pin.restored]
    split
    · exact hdeclared.symm
    · rfl

/-- The record of a node brings it back, with the declared defaults where they agree, less its
links. -/
theorem applyTo_toRecord (hd : (d.pins.map PinSpec.id).Nodup)
    (hs : n.skeleton = (d.instantiate n.id ⟨0, 0⟩).skeleton) :
    (n.toRecord (some d)).applyTo (d.instantiate n.id n.position) =
      (n.restored (some d)).mapPins Pin.unlinked := by
  have hpinned : n.WellPinned := by
    rw [← Node.wellPinned_skeleton, hs, Node.wellPinned_skeleton]
    exact NodeDefinition.wellPinned_instantiate hd
  obtain ⟨-, hkey, htitle, -, hinputs, houtputs, hproperties⟩ := Node.mk.inj hs
  have hnames : d.properties.keys = n.properties.keys := by
    have hkeys := congrArg Table.keys hproperties
    rw [Table.keys_mapValues, Table.keys_mapValues] at hkeys
    exact hkeys.symm
  -- The same holds of the pins on either side, which are matched by their skeletons.
  have hpins {ps : List Pin} {specs : List PinSpec} (hps : ∀ p ∈ ps, p ∈ n.pins)
      (hspecs : ∀ s ∈ specs, s ∈ d.pins)
      (hskel : ps.map Pin.skeleton = (specs.map Pin.ofSpec).map Pin.skeleton) :
      ((specs.map Pin.ofSpec).map fun p =>
        { p with default := ((n.toRecord (some d)).pinDefaults.get? p.id).getD p.default }) =
      ps.map fun p => (p.restored (some d)).unlinked := by
    refine map_eq_map_of_map_eq hskel.symm fun p hp q hq hpq => ?_
    obtain ⟨s, hs, hsp⟩ := List.mem_map.mp hp
    exact overwrite_eq_restored hd hpinned (hspecs s hs) hsp (hps q hq) hpq
  rw [applyTo_eq (NodeDefinition.wellPinned_instantiate hd), Node.restored, Node.mapPins_mapPins]
  simp only [Node.mapPins, NodeDefinition.instantiate, Node.mk.injEq]
  refine ⟨trivial, hkey.symm, htitle.symm, trivial, ?_, ?_, ?_⟩
  · refine hpins (fun p hp => List.mem_append_left _ hp) (fun s hs => ?_) hinputs
    exact (List.mem_filter.mp hs).1
  · refine hpins (fun p hp => List.mem_append_right _ hp) (fun s hs => ?_) houtputs
    exact (List.mem_filter.mp hs).1
  · exact Table.mapValues_getD_eq hnames

end NodeRecord

end ShaderGraph
