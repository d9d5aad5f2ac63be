import Mathlib.Data.List.Induction
import Mathlib.Data.List.Perm.Basic
import Mathlib.Data.List.TakeWhile
import ShaderGraph.CommandLine.Options

/-!
# How arguments are read

The arguments of the command line are groups one behind the other: a switch, a switch with its
value, or a document. What stands at a place is not settled by its own spelling, as a value may
look like a switch, but by the groups in front of it. There is always one way to go on: the
arguments end, a group follows, a help switch follows, or what follows can be no group. Reading
goes on as long as groups follow, so what it answers is decided by the groups in front and by the
first thing that is none.

## Main definitions

* `Group`, `Group.arguments` — what stands together, and how it is written
* `Admissible` — groups that may stand one behind the other
* `Options.ofGroups` — what groups ask for, wherever they stand
* `Offends` — what can be no further group, and the error that this is
* `Options.groups` — options as groups

## Main results

* `readArguments_groups` — groups are read one by one
* `ends_or_exists_group` — there is always one way to go on
* `ofArguments_eq_iff` — what is answered is decided by where the groups end
* `Request.ofArguments_exactly` — all about the reading of arguments
-/

namespace ShaderGraph.CommandLine

variable {a s id url path : String}

/-! ### Switches -/

/-- The ways to write a switch. -/
def Switch.spellings : Switch → List String
  | help => ["-h", "--help"]
  | showShader => ["--export"]
  | json => ["--json"]
  | settings => ["--settings"]
  | save => ["--save"]
  | texture => ["--texture"]

theorem Switch.ofText?_eq_some_iff {w : Switch} : ofText? a = some w ↔ a ∈ w.spellings := by
  constructor
  · intro h
    rw [ofText?.eq_def] at h
    split at h <;> cases h
    all_goals decide
  · intro h
    cases w with
    | help => rcases List.mem_pair.mp h with rfl | rfl <;> rfl
    | _ =>
      obtain rfl := List.mem_singleton.mp h
      rfl

theorem looksLikeSwitch_of_mem_spellings {w : Switch} (h : a ∈ w.spellings) :
    looksLikeSwitch a = true := by
  revert a
  cases w <;> decide

theorem ofText?_eq_none_of_looksLikeSwitch (h : looksLikeSwitch a = false) :
    Switch.ofText? a = none := by
  rw [Option.eq_none_iff_forall_ne_some]
  intro w hw
  have hlooks := looksLikeSwitch_of_mem_spellings (Switch.ofText?_eq_some_iff.mp hw)
  exact Bool.false_ne_true (h.symm.trans hlooks)

/-! ### Textures -/

/-- A texture is split at its first `=`. -/
theorem splitTexture?_append (h : '=' ∉ id.toList) :
    splitTexture? (id ++ "=" ++ url) = some (id, url) := by
  have hid : ∀ c ∈ id.toList, decide (c ≠ '=') = true := fun c hc =>
    decide_eq_true fun he => h (he ▸ hc)
  have htext : (id ++ "=" ++ url).toList = id.toList ++ '=' :: url.toList := by simp
  have hdrop : (id ++ "=" ++ url).toList.dropWhile (· ≠ '=') = '=' :: url.toList := by
    rw [htext, List.dropWhile_append_of_pos hid]
    rfl
  have htake : (id ++ "=" ++ url).toList.takeWhile (· ≠ '=') = id.toList := by
    rw [htext, List.takeWhile_append_of_pos hid]
    simp
  rw [splitTexture?, hdrop, htake]
  simp

theorem splitTexture?_eq_none (h : '=' ∉ s.toList) : splitTexture? s = none := by
  have hdrop : s.toList.dropWhile (· ≠ '=') = [] :=
    List.dropWhile_eq_nil_iff.2 fun c hc => decide_eq_true fun he => h (he ▸ hc)
  rw [splitTexture?, hdrop]

theorem exists_texture_of_mem (h : '=' ∈ s.toList) :
    ∃ id url : String, '=' ∉ id.toList ∧ s = id ++ "=" ++ url := by
  obtain ⟨id, url, hs, hid⟩ := List.eq_append_cons_of_mem h
  refine ⟨String.ofList id, String.ofList url, by rwa [String.toList_ofList], ?_⟩
  rw [← String.toList_inj, hs]
  simp

/-! ### Groups -/

/-- What stands together on the command line. -/
inductive Group where
  | showShader
  | json
  | settings (path : String)
  | save (path : String)
  | texture (id url : String)
  | document (path : String)
  deriving DecidableEq, Repr

namespace Group

/-- How a group is written. -/
def arguments : Group → List String
  | showShader => ["--export"]
  | json => ["--json"]
  | settings path => ["--settings", path]
  | save path => ["--save", path]
  | texture id url => ["--texture", id ++ "=" ++ url]
  | document path => [path]

/-- A group that is what it is written as: the identifier of its texture does not reach beyond the
first `=`, and its document does not look like a switch. -/
def Proper : Group → Prop
  | texture id _ => '=' ∉ id.toList
  | document path => looksLikeSwitch path = false
  | _ => True

def settings? : Group → Option String
  | settings path => some path
  | _ => none

def save? : Group → Option String
  | save path => some path
  | _ => none

def texture? : Group → Option (String × String)
  | texture id url => some (id, url)
  | _ => none

def document? : Group → Option String
  | document path => some path
  | _ => none

end Group

/-- Groups that may stand one behind the other: at most one of them is a document. -/
structure Admissible (gs : List Group) : Prop where
  proper : ∀ g ∈ gs, g.Proper
  document : (gs.filterMap Group.document?).length ≤ 1

/-- What groups ask for, wherever they stand: the document, the last settings, the last place to
save to, and every texture in order. -/
def Options.ofGroups (gs : List Group) : Options where
  document := (gs.filterMap Group.document?).head?
  settings := (gs.filterMap Group.settings?).getLast?
  textures := gs.filterMap Group.texture?
  showShader := decide (.showShader ∈ gs)
  json := decide (.json ∈ gs)
  save := (gs.filterMap Group.save?).getLast?

/-- What can be no further group behind `gs`, and the error that this is. -/
inductive Offends (gs : List Group) : List String → UsageError → Prop
  /-- The value of a switch is missing. -/
  | missingValue {a : String} (h : a ∈ ["--settings", "--save", "--texture"]) :
      Offends gs [a] (.missingValue a)
  /-- A texture has no `=`. -/
  | invalidTexture {s : String} {rest : List String} (h : '=' ∉ s.toList) :
      Offends gs ("--texture" :: s :: rest) (.invalidTexture s)
  /-- What looks like a switch is none. -/
  | unknownOption {a : String} {rest : List String} (hlooks : looksLikeSwitch a = true)
      (h : ∀ w : Switch, a ∉ w.spellings) : Offends gs (a :: rest) (.unknownOption a)
  /-- There is a document already. -/
  | unexpectedArgument {a : String} {rest : List String} (hlooks : looksLikeSwitch a = false)
      (h : gs.filterMap Group.document? ≠ []) : Offends gs (a :: rest) (.unexpectedArgument a)

/-- Where the groups end, and what is answered there. -/
inductive Ends (gs : List Group) : List String → Except UsageError Request → Prop
  | run : Ends gs [] (.ok (.run (.ofGroups gs)))
  | help {a : String} {rest : List String} (h : a ∈ Switch.help.spellings) :
      Ends gs (a :: rest) (.ok .help)
  | offends {rest : List String} {e : UsageError} (h : Offends gs rest e) :
      Ends gs rest (.error e)

variable {gs : List Group} {g : Group} {o : Options} {arguments rest : List String}
  {r : Except UsageError Request} {e : UsageError}

theorem document_ofGroups_eq_none_iff :
    (Options.ofGroups gs).document = none ↔ gs.filterMap Group.document? = [] :=
  List.head?_eq_none_iff

theorem admissible_nil : Admissible [] := ⟨fun _ h => absurd h List.not_mem_nil, Nat.zero_le 1⟩

/-- A further group may follow unless it is a second document. -/
theorem admissible_append_singleton_iff :
    Admissible (gs ++ [g]) ↔ Admissible gs ∧ g.Proper ∧
      (g.document?.isSome = true → gs.filterMap Group.document? = []) := by
  have hlength : ((gs ++ [g]).filterMap Group.document?).length =
      (gs.filterMap Group.document?).length + g.document?.toList.length := by
    simp [List.filterMap_eq_flatMap_toList]
  constructor
  · rintro ⟨hproper, hdocument⟩
    rw [hlength] at hdocument
    refine ⟨⟨fun g' hg' => hproper g' (List.mem_append_left _ hg'), by omega⟩,
      hproper g (List.mem_append_right _ List.mem_cons_self), fun hg => ?_⟩
    obtain ⟨path, hg⟩ := Option.isSome_iff_exists.mp hg
    rw [hg, Option.toList_some, List.length_singleton] at hdocument
    exact List.length_eq_zero_iff.mp (by omega)
  · rintro ⟨⟨hproper, hdocument⟩, hg, hfirst⟩
    refine ⟨fun g' hg' => ?_, ?_⟩
    · rcases List.mem_append.mp hg' with hg' | hg'
      · exact hproper g' hg'
      · exact List.mem_singleton.mp hg' ▸ hg
    · rw [hlength]
      cases hdoc : g.document? with
      | none => exact hdocument
      | some path => simp [hfirst (hdoc ▸ rfl)]

/-! ### One group -/

/-- What a group adds to the options in front of it. -/
def Options.add (o : Options) : Group → Options
  | .showShader => { o with showShader := true }
  | .json => { o with json := true }
  | .settings path => { o with settings := some path }
  | .save path => { o with save := some path }
  | .texture id url => { o with textures := o.textures ++ [(id, url)] }
  | .document path => { o with document := some path }

theorem readArguments_group (h : g.Proper)
    (hfirst : g.document?.isSome = true → o.document = none) :
    readArguments o (g.arguments ++ rest) = readArguments (o.add g) rest := by
  cases g with
  | texture id url =>
    rw [Group.arguments, List.cons_append, List.singleton_append, readArguments.eq_def]
    have hsplit : splitTexture? (id ++ "=" ++ url) = some (id, url) := splitTexture?_append h
    simp [Switch.ofText?, hsplit, Options.add]
  | document path =>
    have hlooks : looksLikeSwitch path = false := h
    simp [Group.arguments, readArguments, ofText?_eq_none_of_looksLikeSwitch h, hlooks, hfirst rfl,
      Options.add]
  | _ => rfl

theorem ofGroups_append_singleton
    (hfirst : g.document?.isSome = true → gs.filterMap Group.document? = []) :
    Options.ofGroups (gs ++ [g]) = (Options.ofGroups gs).add g := by
  cases g with
  | document path =>
    simp [Options.ofGroups, Options.add, List.filterMap_cons, Group.document?, Group.settings?,
      Group.texture?, Group.save?, hfirst rfl]
  | _ =>
    simp [Options.ofGroups, Options.add, List.filterMap_cons, Group.document?, Group.settings?,
      Group.texture?, Group.save?]

/-! ### Groups one behind the other -/

/-- Admissible groups are read one by one, whatever follows them. -/
theorem readArguments_groups (h : Admissible gs) :
    readArguments .none (gs.flatMap Group.arguments ++ rest) =
      readArguments (.ofGroups gs) rest := by
  -- From the end, as a group is added to what all groups in front of it ask for.
  induction gs using List.reverseRecOn generalizing rest with
  | nil => rfl
  | append_singleton gs g ih =>
    obtain ⟨hgs, hproper, hfirst⟩ := admissible_append_singleton_iff.mp h
    have hlast : (gs ++ [g]).flatMap Group.arguments =
        gs.flatMap Group.arguments ++ g.arguments := by
      rw [List.flatMap_append, List.flatMap_singleton]
    rw [hlast, List.append_assoc, ih hgs, ofGroups_append_singleton hfirst]
    exact readArguments_group hproper fun hg => document_ofGroups_eq_none_iff.mpr (hfirst hg)

/-- Where the groups end, reading ends as well. -/
theorem readArguments_of_ends (h : Ends gs rest r) : readArguments (.ofGroups gs) rest = r := by
  cases h with
  | run => rfl
  | help h =>
    have hswitch := Switch.ofText?_eq_some_iff.mpr h
    rw [readArguments.eq_def]
    simp [hswitch]
  | offends h =>
    cases h with
    | missingValue h =>
      rcases List.mem_cons.mp h with rfl | h
      · rfl
      · rcases List.mem_pair.mp h with rfl | rfl <;> rfl
    | invalidTexture h =>
      rw [readArguments.eq_def]
      simp [Switch.ofText?, splitTexture?_eq_none h]
    | unknownOption hlooks h =>
      have hnone := Option.eq_none_iff_forall_ne_some.mpr fun w hw =>
        h w (Switch.ofText?_eq_some_iff.mp hw)
      rw [readArguments.eq_def]
      simp [hnone, hlooks]
    | unexpectedArgument hlooks h =>
      have hdocument : (Options.ofGroups gs).document.isSome = true := by
        rw [Option.isSome_iff_ne_none]
        exact fun hnone => h (document_ofGroups_eq_none_iff.mp hnone)
      rw [readArguments.eq_def]
      simp [ofText?_eq_none_of_looksLikeSwitch hlooks, hlooks, hdocument]

/-- A switch is read with what it takes, or the groups end at it. -/
theorem ends_or_exists_group_of_mem_spellings {w : Switch} (h : a ∈ w.spellings) :
    (∃ r, Ends gs (a :: rest) r) ∨
    ∃ (g : Group) (rest' : List String), a :: rest = g.arguments ++ rest' ∧ g.Proper ∧
      g.document? = none := by
  -- A value may be anything; only the end of the arguments and a texture that cannot be split are
  -- in the way.
  cases w with
  | help => exact Or.inl ⟨_, .help h⟩
  | showShader =>
    obtain rfl := List.mem_singleton.mp h
    exact Or.inr ⟨.showShader, rest, rfl, trivial, rfl⟩
  | json =>
    obtain rfl := List.mem_singleton.mp h
    exact Or.inr ⟨.json, rest, rfl, trivial, rfl⟩
  | settings =>
    obtain rfl := List.mem_singleton.mp h
    cases rest with
    | nil => exact Or.inl ⟨_, .offends (.missingValue (by decide))⟩
    | cons path rest => exact Or.inr ⟨.settings path, rest, rfl, trivial, rfl⟩
  | save =>
    obtain rfl := List.mem_singleton.mp h
    cases rest with
    | nil => exact Or.inl ⟨_, .offends (.missingValue (by decide))⟩
    | cons path rest => exact Or.inr ⟨.save path, rest, rfl, trivial, rfl⟩
  | texture =>
    obtain rfl := List.mem_singleton.mp h
    cases rest with
    | nil => exact Or.inl ⟨_, .offends (.missingValue (by decide))⟩
    | cons s rest =>
      by_cases hs : '=' ∈ s.toList
      · obtain ⟨id, url, hid, rfl⟩ := exists_texture_of_mem hs
        exact Or.inr ⟨.texture id url, rest, rfl, hid, rfl⟩
      · exact Or.inl ⟨_, .offends (.invalidTexture hs)⟩

/-- There is always one way to go on: the groups end here, or one more follows. -/
theorem ends_or_exists_group (gs : List Group) (arguments : List String) :
    (∃ r, Ends gs arguments r) ∨
    ∃ (g : Group) (rest : List String), arguments = g.arguments ++ rest ∧ g.Proper ∧
      (g.document?.isSome = true → gs.filterMap Group.document? = []) := by
  cases arguments with
  | nil => exact Or.inl ⟨_, .run⟩
  | cons a rest =>
    by_cases hswitch : ∃ w : Switch, a ∈ w.spellings
    · obtain ⟨w, hw⟩ := hswitch
      refine (ends_or_exists_group_of_mem_spellings hw).imp_right ?_
      rintro ⟨g, rest', hrest, hproper, hnone⟩
      exact ⟨g, rest', hrest, hproper, fun hg => absurd hg (by simp [hnone])⟩
    · cases hlooks : looksLikeSwitch a with
      | true => exact Or.inl ⟨_, .offends (.unknownOption hlooks fun w hw => hswitch ⟨w, hw⟩)⟩
      | false =>
        by_cases hdocument : gs.filterMap Group.document? = []
        · exact Or.inr ⟨.document a, rest, rfl, hlooks, fun _ => hdocument⟩
        · exact Or.inl ⟨_, .offends (.unexpectedArgument hlooks hdocument)⟩

theorem Group.length_arguments_pos : 0 < g.arguments.length := by
  cases g <;> exact Nat.succ_pos _

/-- Further groups follow up to where they end. -/
theorem exists_ends (h : Admissible gs) (arguments : List String) :
    ∃ more rest r, Admissible (gs ++ more) ∧ arguments = more.flatMap Group.arguments ++ rest ∧
      Ends (gs ++ more) rest r := by
  -- Every group takes at least one argument away.
  induction hn : arguments.length using Nat.strong_induction_on generalizing gs arguments with
  | _ n ih =>
    rcases ends_or_exists_group gs arguments with ⟨r, hr⟩ | ⟨g, rest, rfl, hproper, hfirst⟩
    · exact ⟨[], arguments, r, by rwa [List.append_nil], rfl, by rwa [List.append_nil]⟩
    · have hlt : rest.length < n := by
        rw [← hn, List.length_append]
        exact Nat.lt_add_of_pos_left Group.length_arguments_pos
      have hg := admissible_append_singleton_iff.mpr ⟨h, hproper, hfirst⟩
      obtain ⟨more, rest, r, hmore, rfl, hr⟩ := ih rest.length hlt hg rest rfl
      rw [List.append_assoc, List.singleton_append] at hmore hr
      exact ⟨g :: more, rest, r, hmore, by rw [List.flatMap_cons, List.append_assoc], hr⟩

/-- What is answered is decided by the groups in front and by where they end. -/
theorem ofArguments_eq_iff : Request.ofArguments arguments = r ↔
    ∃ gs rest, Admissible gs ∧ arguments = gs.flatMap Group.arguments ++ rest ∧
      Ends gs rest r := by
  constructor
  · rintro rfl
    obtain ⟨gs, rest, r, hgs, rfl, hr⟩ := exists_ends admissible_nil arguments
    rw [List.nil_append] at hgs hr
    refine ⟨gs, rest, hgs, rfl, ?_⟩
    rw [Request.ofArguments, readArguments_groups hgs, readArguments_of_ends hr]
    exact hr
  · rintro ⟨gs, rest, hgs, rfl, hr⟩
    rw [Request.ofArguments, readArguments_groups hgs, readArguments_of_ends hr]

/-! ### Options as groups -/

/-- Options as groups, in one of the orders in which they can be written. -/
def Options.groups (o : Options) : List Group :=
  o.document.toList.map .document ++ o.settings.toList.map .settings ++
    o.textures.map (fun t => .texture t.1 t.2) ++ (if o.showShader then [.showShader] else []) ++
    (if o.json then [.json] else []) ++ o.save.toList.map .save

/-- Options that can be written: the document does not look like a switch, and the identifiers of
the textures do not hold the sign at which a texture is split. -/
structure Options.Writable (o : Options) : Prop where
  document : ∀ path ∈ o.document, looksLikeSwitch path = false
  textures : ∀ t ∈ o.textures, '=' ∉ t.1.toList

namespace Options

theorem eq_toList_of_perm {α : Type} {xs : List α} {o : Option α} (h : xs.Perm o.toList) :
    xs = o.toList := by
  cases o with
  | none => exact h.eq_nil
  | some x => exact h.eq_singleton

theorem filterMap_groups {β : Type} {f : Group → Option β} : o.groups.filterMap f =
    o.document.toList.filterMap (fun path => f (.document path)) ++
    o.settings.toList.filterMap (fun path => f (.settings path)) ++
    o.textures.filterMap (fun t => f (.texture t.1 t.2)) ++
    (if o.showShader then (f .showShader).toList else []) ++
    (if o.json then (f .json).toList else []) ++
    o.save.toList.filterMap (fun path => f (.save path)) := by
  obtain ⟨_, _, _, _ | _, _ | _, _⟩ := o <;>
    simp [groups, List.filterMap_eq_flatMap_toList, List.flatMap_map]

theorem filterMap_document?_groups : o.groups.filterMap Group.document? = o.document.toList := by
  rw [filterMap_groups]
  simp [Group.document?]

theorem filterMap_settings?_groups : o.groups.filterMap Group.settings? = o.settings.toList := by
  rw [filterMap_groups]
  simp [Group.settings?]

theorem filterMap_save?_groups : o.groups.filterMap Group.save? = o.save.toList := by
  rw [filterMap_groups]
  simp [Group.save?]

theorem mem_groups_iff : g ∈ o.groups ↔ match g with
    | .showShader => o.showShader = true
    | .json => o.json = true
    | .settings path => o.settings = some path
    | .save path => o.save = some path
    | .texture id url => (id, url) ∈ o.textures
    | .document path => o.document = some path := by
  cases g <;> simp [groups]

/-- Writable options are what their groups ask for, in any order that keeps the textures in
theirs. -/
theorem ofGroups_of_perm (hgs : gs.Perm o.groups)
    (htextures : gs.filterMap Group.texture? = o.textures) : ofGroups gs = o := by
  have hdocument : gs.filterMap Group.document? = o.document.toList :=
    eq_toList_of_perm (filterMap_document?_groups ▸ hgs.filterMap _)
  have hsettings : gs.filterMap Group.settings? = o.settings.toList :=
    eq_toList_of_perm (filterMap_settings?_groups ▸ hgs.filterMap _)
  have hsave : gs.filterMap Group.save? = o.save.toList :=
    eq_toList_of_perm (filterMap_save?_groups ▸ hgs.filterMap _)
  have hshowShader : .showShader ∈ gs ↔ o.showShader = true := hgs.mem_iff.trans mem_groups_iff
  have hjson : .json ∈ gs ↔ o.json = true := hgs.mem_iff.trans mem_groups_iff
  obtain ⟨d, s, ts, b, j, p⟩ := o
  dsimp only at *
  simp only [ofGroups, hdocument, hsettings, hsave, htextures, hshowShader, hjson, mk.injEq]
  cases d <;> cases s <;> cases p <;> simp

theorem Writable.proper (h : o.Writable) : ∀ g ∈ o.groups, g.Proper := by
  intro g hg
  rw [mem_groups_iff] at hg
  cases g with
  | texture id url => exact h.textures _ hg
  | document path => exact h.document path hg
  | _ => trivial

theorem Writable.admissible (h : o.Writable) (hgs : gs.Perm o.groups) : Admissible gs where
  proper g hg := h.proper g (hgs.mem_iff.mp hg)
  document := by
    rw [(hgs.filterMap Group.document?).length_eq, filterMap_document?_groups]
    cases o.document <;> simp

end Options

/-- Arguments ask for a run exactly if they are admissible groups to the end, and then for what the
groups ask for, wherever these stand. They ask for help exactly if a help switch follows admissible
groups, and they are refused exactly if what follows admissible groups offends. In particular,
writable options are read back from their groups in any order that keeps the textures in theirs. -/
theorem Request.ofArguments_exactly :
    (∀ arguments o, Request.ofArguments arguments = .ok (.run o) ↔
      ∃ gs, Admissible gs ∧ arguments = gs.flatMap Group.arguments ∧ o = .ofGroups gs) ∧
    (∀ arguments, Request.ofArguments arguments = .ok .help ↔
      ∃ gs a rest, Admissible gs ∧ arguments = gs.flatMap Group.arguments ++ a :: rest ∧
        a ∈ Switch.help.spellings) ∧
    (∀ arguments e, Request.ofArguments arguments = .error e ↔
      ∃ gs rest, Admissible gs ∧ arguments = gs.flatMap Group.arguments ++ rest ∧
        Offends gs rest e) ∧
    ∀ (o : Options) (gs : List Group), o.Writable → gs.Perm o.groups →
      gs.filterMap Group.texture? = o.textures →
      Request.ofArguments (gs.flatMap Group.arguments) = .ok (.run o) := by
  have hrun (arguments : List String) (o : Options) :
      Request.ofArguments arguments = .ok (.run o) ↔
        ∃ gs, Admissible gs ∧ arguments = gs.flatMap Group.arguments ∧ o = .ofGroups gs := by
    rw [ofArguments_eq_iff]
    constructor
    · rintro ⟨gs, rest, hgs, rfl, hr⟩
      cases hr
      exact ⟨gs, hgs, List.append_nil _, rfl⟩
    · rintro ⟨gs, hgs, rfl, rfl⟩
      exact ⟨gs, [], hgs, (List.append_nil _).symm, .run⟩
  refine ⟨hrun, fun arguments => ?_, fun arguments e => ?_, fun o gs ho hgs htextures => ?_⟩
  · rw [ofArguments_eq_iff]
    constructor
    · rintro ⟨gs, rest, hgs, rfl, hr⟩
      cases hr with
      | help h => exact ⟨gs, _, _, hgs, rfl, h⟩
    · rintro ⟨gs, a, rest, hgs, rfl, h⟩
      exact ⟨gs, a :: rest, hgs, rfl, .help h⟩
  · rw [ofArguments_eq_iff]
    constructor
    · rintro ⟨gs, rest, hgs, rfl, hr⟩
      cases hr with
      | offends h => exact ⟨gs, rest, hgs, rfl, h⟩
    · rintro ⟨gs, rest, hgs, rfl, h⟩
      exact ⟨gs, rest, hgs, rfl, .offends h⟩
  · have hasks : o = .ofGroups gs := (Options.ofGroups_of_perm hgs htextures).symm
    exact (hrun _ o).mpr ⟨gs, ho.admissible hgs, rfl, hasks⟩

/-- Options whose settings are found under a name that looks like a switch, and whose texture lies
in a place with a further `=`. -/
def twistedOptions : Options :=
  ⟨some "wall.graph", some "--json", [("wall", "a=b"), ("wall", "")], true, false, none⟩

/-- The groups of these options in another order. -/
def twistedGroups : List Group :=
  [.texture "wall" "a=b", .settings "--json", .showShader, .texture "wall" "",
    .document "wall.graph"]

theorem Request.ofArguments_exactly_twisted :
    twistedOptions.Writable ∧ twistedGroups.Perm twistedOptions.groups ∧
    twistedGroups.filterMap Group.texture? = twistedOptions.textures ∧
    twistedGroups.flatMap Group.arguments =
      ["--texture", "wall=a=b", "--settings", "--json", "--export", "--texture", "wall=",
        "wall.graph"] ∧
    Request.ofArguments (twistedGroups.flatMap Group.arguments) = .ok (.run twistedOptions) := by
  have hwritable : twistedOptions.Writable := ⟨by decide, by decide⟩
  have hperm : twistedGroups.Perm twistedOptions.groups := by decide
  exact ⟨hwritable, hperm, by decide, by decide,
    Request.ofArguments_exactly.2.2.2 _ _ hwritable hperm (by decide)⟩

end ShaderGraph.CommandLine
