import ShaderGraph.Proofs.Assignment

/-!
# Resolving what is pending

The run over the pending channels takes channels out of the table that it was started from, and the
last entry moves into the gap. This does no harm, as the run goes by the entries from before: each
of them is handed to the compositor once, in order, and what comes of it concerns its own channel
alone, whatever the compositor answers and however that depends on earlier requests.

## Main definitions

* `Resolution.Attempt`, `Resolution.attempts` — what becomes of entries that a compositor is handed
* `Resolution.recording`, `Resolution.withLog` — a compositor that notes what it is asked
* `Resolution.Settled` — each answer has gone to its own channel

## Main results

* `Resolution.settled_foldl` — a run settles the channels that it is given
* `Resolution.foldl_step_recording` — it asks for each of them once and in order
* `Resolution.resolvePending_exactly` — all about a run over the pending channels of a material
-/

namespace ShaderGraph

/-! ### Composed textures -/

namespace MaterialAttributes

variable {a : MaterialAttributes} {c d : Channel} {t : TextureRef}

theorem entry_applyResolved (h : c.isColor = true) :
    (a.applyResolved c t).entry c = (some (.texture t), none) := by
  have hslot : (a.applyResolved c t).slot c = some (.texture t) := slot_set_color h
  rw [entry, hslot, pending_applyResolved, if_pos rfl]

theorem entry_applyResolved_of_ne (h : d ≠ c) : (a.applyResolved c t).entry d = a.entry d := by
  have hslot : (a.applyResolved c t).slot d = a.slot d := slot_set_of_ne h
  rw [entry, hslot, pending_applyResolved, if_neg h, entry]

end MaterialAttributes

namespace Resolution

/-- A channel that waited for a product, and what the compositor answered. -/
structure Attempt where
  channel : Channel
  operation : PendingOperation
  answer : Except CompositeError TextureRef
  deriving DecidableEq

/-- The error of an attempt that failed. -/
def Attempt.error? (x : Attempt) : Option CompositeError :=
  match x.answer with
  | .ok _ => none
  | .error e => some e

variable {σ : Type} {compose : σ → PendingOperation → Except CompositeError TextureRef × σ}
  {s : σ} {r : Resolution σ} {es : List (Channel × PendingOperation)}
  {e : Channel × PendingOperation} {a b : MaterialAttributes}

/-- What becomes of entries that are handed to a compositor one after the other. -/
def attempts (compose : σ → PendingOperation → Except CompositeError TextureRef × σ) :
    σ → List (Channel × PendingOperation) → List Attempt
  | _, [] => []
  | s, e :: es => ⟨e.1, e.2, (compose s e.2).1⟩ :: attempts compose (compose s e.2).2 es

/-- A compositor that notes what it is asked. -/
def recording (compose : σ → PendingOperation → Except CompositeError TextureRef × σ)
    (s : List PendingOperation × σ) (op : PendingOperation) :
    Except CompositeError TextureRef × (List PendingOperation × σ) :=
  ((compose s.2 op).1, s.1 ++ [op], (compose s.2 op).2)

/-- A run whose compositor has noted what it was asked. -/
def withLog (log : List PendingOperation) (r : Resolution σ) :
    Resolution (List PendingOperation × σ) :=
  { r with state := (log, r.state) }

/-- Each composed texture has gone into the channel that it was composed for; a channel for which
none was composed is what it was. -/
structure Settled (tried : List Attempt) (a b : MaterialAttributes) : Prop where
  composed : ∀ ⦃c op t⦄, ⟨c, op, .ok t⟩ ∈ tried → b.entry c = (some (.texture t), none)
  kept : ∀ ⦃c⦄, (∀ op t, ⟨c, op, .ok t⟩ ∉ tried) → b.entry c = a.entry c

/-! ### One attempt -/

theorem step_of_ok {t : TextureRef} (h : (compose r.state e.2).1 = .ok t) :
    step compose r e = ⟨(compose r.state e.2).2, r.attributes.applyResolved e.1 t,
      r.resolved + 1, r.firstError⟩ := by
  rw [step]
  split <;> simp_all

theorem step_of_error {err : CompositeError} (h : (compose r.state e.2).1 = .error err) :
    step compose r e =
      ⟨(compose r.state e.2).2, r.attributes, r.resolved, r.firstError <|> some err⟩ := by
  rw [step]
  split <;> simp_all

theorem state_step : (step compose r e).state = (compose r.state e.2).2 := by
  cases h : (compose r.state e.2).1 with
  | ok t => rw [step_of_ok h]
  | error err => rw [step_of_error h]

theorem step_recording {log : List PendingOperation} :
    step (recording compose) (r.withLog log) e = (step compose r e).withLog (log ++ [e.2]) := by
  cases h : (compose r.state e.2).1 with
  | ok t =>
    rw [step_of_ok h, step_of_ok (r := r.withLog log) h]
    rfl
  | error err =>
    rw [step_of_error h, step_of_error (r := r.withLog log) h]
    rfl

/-! ### A run -/

/-- Each entry is attempted once, in order. -/
theorem map_attempts :
    (attempts compose s es).map (fun x => (x.channel, x.operation)) = es := by
  induction es generalizing s with
  | nil => rfl
  | cons e es ih => rw [attempts, List.map_cons, ih]

theorem map_channel_attempts :
    (attempts compose s es).map Attempt.channel = es.map Prod.fst := by
  have hentries : (attempts compose s es).map (fun x => (x.channel, x.operation)) = es :=
    map_attempts
  have hmap := congrArg (List.map Prod.fst) hentries
  rwa [List.map_map] at hmap

theorem mem_entries_of_mem_attempts {x : Attempt} (h : x ∈ attempts compose s es) :
    (x.channel, x.operation) ∈ es := by
  have hmem := List.mem_map_of_mem (f := fun x : Attempt => (x.channel, x.operation)) h
  rwa [map_attempts] at hmem

theorem exists_mem_attempts (h : e ∈ es) :
    ∃ answer, ⟨e.1, e.2, answer⟩ ∈ attempts compose s es := by
  have hentries : (attempts compose s es).map (fun x => (x.channel, x.operation)) = es :=
    map_attempts
  obtain ⟨x, hx, rfl⟩ := List.mem_map.mp (hentries.symm ▸ h)
  exact ⟨x.answer, hx⟩

/-- A compositor is asked for each entry once, in order, and noting this changes nothing. -/
theorem foldl_step_recording {log : List PendingOperation} :
    es.foldl (step (recording compose)) (r.withLog log) =
      (es.foldl (step compose) r).withLog (log ++ es.map Prod.snd) := by
  induction es generalizing r log with
  | nil => rw [List.foldl_nil, List.foldl_nil, List.map_nil, List.append_nil]
  | cons e es ih =>
    rw [List.foldl_cons, step_recording, ih, List.foldl_cons, List.map_cons, List.append_assoc]
    rfl

/-- A run settles the channels that it is given, as each of them comes once. -/
theorem settled_foldl (hes : (es.map Prod.fst).Nodup) (hcolor : ∀ c ∈ es.map Prod.fst, c.isColor) :
    Settled (attempts compose r.state es) r.attributes
      (es.foldl (step compose) r).attributes := by
  induction es generalizing r with
  | nil => exact ⟨fun _ _ _ h => absurd h List.not_mem_nil, fun _ _ => rfl⟩
  | cons e es ih =>
    rw [List.map_cons, List.nodup_cons] at hes
    rw [List.map_cons, List.forall_mem_cons] at hcolor
    have hrest := ih (r := step compose r e) hes.2 hcolor.2
    rw [state_step] at hrest
    -- No later attempt is one at the channel of the first.
    have hlater (op : PendingOperation) (t : TextureRef) :
        ⟨e.1, op, .ok t⟩ ∉ attempts compose (compose r.state e.2).2 es := fun hmem => by
      have hchannel := List.mem_map_of_mem (f := Attempt.channel) hmem
      rw [map_channel_attempts] at hchannel
      exact hes.1 hchannel
    rw [attempts, List.foldl_cons]
    refine ⟨fun c op t h => ?_, fun c h => ?_⟩
    · rcases List.mem_cons.mp h with hfirst | h
      · obtain ⟨rfl, rfl, hanswer⟩ := Attempt.mk.inj hfirst
        rw [hrest.kept hlater, step_of_ok hanswer.symm,
          MaterialAttributes.entry_applyResolved hcolor.1]
      · exact hrest.composed h
    · rw [hrest.kept fun op t hmem => h op t (List.mem_cons_of_mem _ hmem)]
      cases hanswer : (compose r.state e.2).1 with
      | error err => rw [step_of_error hanswer]
      | ok t =>
        have hne : c ≠ e.1 := fun he => h e.2 t (by rw [he, ← hanswer]; exact List.mem_cons_self)
        rw [step_of_ok hanswer, MaterialAttributes.entry_applyResolved_of_ne hne]

/-- The first error of a run is that of the first attempt that fails. -/
theorem firstError_foldl :
    (es.foldl (step compose) r).firstError =
      r.firstError.or ((attempts compose r.state es).findSome? Attempt.error?) := by
  induction es generalizing r with
  | nil => simp [attempts]
  | cons e es ih =>
    rw [List.foldl_cons, ih, state_step, attempts, List.findSome?_cons, Attempt.error?]
    cases hanswer : (compose r.state e.2).1 with
    | ok t => rw [step_of_ok hanswer]
    | error err => rw [step_of_error hanswer]; simp

/-- A run in which no attempt fails resolves every entry. -/
theorem resolved_foldl (h : (attempts compose r.state es).findSome? Attempt.error? = none) :
    (es.foldl (step compose) r).resolved = r.resolved + es.length := by
  induction es generalizing r with
  | nil => rfl
  | cons e es ih =>
    rw [attempts, List.findSome?_cons, Attempt.error?] at h
    cases hanswer : (compose r.state e.2).1 with
    | error err => rw [hanswer] at h; cases h
    | ok t =>
      rw [hanswer, ← state_step] at h
      rw [List.foldl_cons, ih h, step_of_ok hanswer, List.length_cons]
      exact Nat.add_right_comm r.resolved 1 es.length

/-- After a run the channels of which the attempt failed wait for the same product as before. -/
theorem Settled.get?_pending_eq_some_iff {c : Channel} {op : PendingOperation}
    (h : Settled (attempts compose s a.pending.entries) a b) :
    b.pending.get? c = some op ↔
      ∃ err, ⟨c, op, .error err⟩ ∈ attempts compose s a.pending.entries := by
  constructor
  · intro hop
    -- A channel whose attempt succeeded would not wait any more.
    have hfailed (op' : PendingOperation) (t : TextureRef) :
        ⟨c, op', .ok t⟩ ∉ attempts compose s a.pending.entries := fun hmem => by
      rw [(Prod.mk.inj (h.composed hmem)).2] at hop
      cases hop
    rw [(Prod.mk.inj (h.kept hfailed)).2, Table.get?_eq_some_iff] at hop
    obtain ⟨answer, hmem⟩ :
        ∃ answer, ⟨c, op, answer⟩ ∈ attempts compose s a.pending.entries := exists_mem_attempts hop
    cases answer with
    | ok t => exact absurd hmem (hfailed op t)
    | error err => exact ⟨err, hmem⟩
  · rintro ⟨err, hmem⟩
    have hnodup : ((attempts compose s a.pending.entries).map Attempt.channel).Nodup :=
      map_channel_attempts ▸ a.pending.nodup
    -- The channel was attempted once, so no other attempt at it succeeded.
    have hfailed (op' : PendingOperation) (t : TextureRef) :
        ⟨c, op', .ok t⟩ ∉ attempts compose s a.pending.entries := fun hmem' => by
      have heq := List.inj_on_of_nodup_map hnodup hmem hmem' rfl
      cases heq
    rw [(Prod.mk.inj (h.kept hfailed)).2, Table.get?_eq_some_iff]
    exact mem_entries_of_mem_attempts hmem

/-- Each channel that waits is attempted once, in the order of the table, and nothing else is asked
for. The channels whose attempt failed wait on for the same product and show what they showed, the
others show the texture that was composed for them, and no other slot changes. The result is the
number of channels that waited, or the first error. -/
theorem resolvePending_exactly
    (compose : σ → PendingOperation → Except CompositeError TextureRef × σ) (s : σ)
    (hcolor : ∀ c ∈ a.pending.keys, c.isColor) :
    let r := resolvePending compose s a
    let tried := attempts compose s a.pending.entries
    tried.map (fun x => (x.channel, x.operation)) = a.pending.entries ∧
    resolvePending (recording compose) ([], s) a = r.withLog a.pending.values ∧
    (∀ c op, r.attributes.pending.get? c = some op ↔ ∃ err, ⟨c, op, .error err⟩ ∈ tried) ∧
    (∀ c op t, ⟨c, op, .ok t⟩ ∈ tried → r.attributes.slot c = some (.texture t)) ∧
    (∀ c, (∀ op t, ⟨c, op, .ok t⟩ ∉ tried) → r.attributes.slot c = a.slot c) ∧
    r.result = (tried.findSome? Attempt.error?).elim (.ok a.pending.size) .error := by
  intro r tried
  have hsettled : Settled tried a r.attributes :=
    settled_foldl (r := ⟨s, a, 0, none⟩) a.pending.nodup hcolor
  have hfirst : r.firstError = tried.findSome? Attempt.error? :=
    firstError_foldl (r := ⟨s, a, 0, none⟩)
  refine ⟨map_attempts, foldl_step_recording (r := ⟨s, a, 0, none⟩),
    fun c op => hsettled.get?_pending_eq_some_iff,
    fun c op t h => (Prod.mk.inj (hsettled.composed h)).1,
    fun c h => (Prod.mk.inj (hsettled.kept h)).1, ?_⟩
  rw [result, hfirst]
  cases hfailed : tried.findSome? Attempt.error? with
  | some err => rfl
  | none =>
    have hcount : r.resolved = 0 + a.pending.size :=
      resolved_foldl (r := ⟨s, a, 0, none⟩) hfailed
    rw [hcount, Nat.zero_add]
    rfl

/-- A material all of whose colours wait for the same product. -/
def allWaiting : MaterialAttributes :=
  [Channel.baseColor, .emissiveColor, .normal].foldl
    (fun a c => a.assign c (.pending MaterialAttributes.halfBrick) MaterialAttributes.white) ∅

/-- A compositor that fails at its second request. -/
def failingOnce (count : Nat) (op : PendingOperation) : Except CompositeError TextureRef × Nat :=
  (if count = 1 then .error (.backend "busy") else .ok ⟨op.texture.id ++ "*", ""⟩, count + 1)

/-- The second of three channels waits on, though the product is the same for all of them. -/
theorem resolvePending_exactly_allWaiting :
    (∀ c ∈ allWaiting.pending.keys, c.isColor) ∧
    allWaiting.pending.keys = [.baseColor, .emissiveColor, .normal] ∧
    let r := resolvePending failingOnce 0 allWaiting
    r.state = 3 ∧ r.attributes.pending.keys = [.emissiveColor] ∧
    resolvePending (recording failingOnce) ([], 0) allWaiting =
      r.withLog allWaiting.pending.values ∧
    (∃ err, ⟨.emissiveColor, MaterialAttributes.halfBrick, .error err⟩ ∈
      attempts failingOnce 0 allWaiting.pending.entries) ∧
    r.attributes.slot .normal = some (.texture ⟨"brick*", ""⟩) ∧
    r.result = .error (.backend "busy") := by
  have hcolor : ∀ c ∈ allWaiting.pending.keys, c.isColor := by decide
  obtain ⟨-, hlog, hpending, hslot, -, hresult⟩ :=
    resolvePending_exactly failingOnce 0 hcolor
  exact ⟨hcolor, by decide, by decide, by decide, hlog, (hpending _ _).mp (by decide),
    hslot .normal MaterialAttributes.halfBrick _ (by decide), hresult⟩

end Resolution

end ShaderGraph
