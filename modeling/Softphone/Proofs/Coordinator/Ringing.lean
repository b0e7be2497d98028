import Softphone.Proofs.Session.Ringing

/-!
# For whom it rings along a run

Whatever happens to a coordinator, it rings only while a live call that came in waits for its answer, and a
firing that was queued before ringing was stopped begins none (`Coordinator.rings_for_callers`).
-/

namespace Softphone.Coordinator

variable {σ : Type} [Host σ] {c : Coordinator σ}

/-- It rings for callers only, and whatever was queued before a stop stays silent after it. -/
structure RingsForCallers (c : Coordinator σ) : Prop where
  countKind_le : ∀ kind, kind.isRinging = true → c.session.timers.countKind kind ≤ 1
  rings : ∀ kind, kind.isRinging = true → c.session.timers.isActive kind = true →
    c.session.player.active = some .ringtone
  called : c.session.player.active = some .ringtone →
    ∃ call ∈ c.session.calls.registry.calls,
      call.isLive = true ∧ call.direction = .inbound ∧ call.wasEstablished = false
  /-- If the ringtone is stopped in the course of some moves, then a firing that is queued already
  neither starts it nor makes the device vibrate when it is taken after them. -/
  stale : ∀ (ms : List (Move σ)), ∀ firing ∈ c.firings,
    .stopRingtone ∈ (c.runMoves ms).session.world.since c.session.world →
      ∀ queued, ∀ e ∈ ((c.runMoves ms).session.turn (.firing firing) queued).world.since
        (c.runMoves ms).session.world, e.isRinging = false

/-! ## Firings on their way -/

/-- Alarms and queued firings have numbers that were given out. -/
structure Numbers (c : Coordinator σ) : Prop where
  dated : c.session.timers.Dated
  firings : ∀ firing ∈ c.firings, firing.id.raw < c.session.timers.nextId

theorem renews_move (m : Move σ) : c.session.Renews (c.move m).session := by
  rcases move_cases c m with ⟨input, queued, -, hmove⟩ | ⟨-, hmove⟩
  · exact (Session.renews_turn input queued).trans (.of_spared hmove.sparesRinging)
  · exact .of_spared hmove.sparesRinging

theorem renews_runMoves (ms : List (Move σ)) : c.session.Renews (c.runMoves ms).session := by
  induction ms generalizing c with
  | nil => exact .refl
  | cons m ms ih => exact (renews_move m).trans ih

omit [Host σ] in
theorem firings_tellAll (receipts : List Receipt) : (c.tellAll receipts).firings = c.firings := by
  obtain ⟨s, heq⟩ := tellAll_eq (c := c) receipts
  rw [heq]

omit [Host σ] in
theorem firings_refill : c.refill.firings = c.firings := by
  unfold refill
  rw [firings_tellAll]

omit [Host σ] in
theorem firings_of_next? {input : Input} {c' : Coordinator σ} (h : c.next? = some (input, c')) :
    c'.firings ⊆ c.firings := by
  unfold next? at h
  split at h
  · cases h
    exact List.Subset.refl _
  · split at h
    · cases h
      exact List.Subset.refl _
    · split at h
      · rename_i hfirings
        cases h
        rw [hfirings]
        exact List.subset_cons_self _ _
      · split at h
        · cases h
          exact List.Subset.refl _
        · cases h

theorem firings_give (input : Input) (meanwhile : List Incident) :
    (c.give input meanwhile).firings ⊆ c.firings := by
  unfold give
  dsimp only
  split
  · exact List.nil_subset _
  · rw [firings_tellAll]
    exact List.Subset.refl _

omit [Host σ] in
theorem firings_ask (ticket : Ticket) (command : Command) :
    (c.ask ticket command).firings = c.firings := by
  unfold ask
  split <;> rfl

omit [Host σ] in
theorem firings_sent {c' : Coordinator σ} {ticket : Ticket} {answer : Reply} {receipts : List Receipt}
    (hstays : c'.firings = c.firings) :
    (if c.hasStopped then c.reply ticket answer else c'.tellAll receipts).firings = c.firings := by
  split
  · rfl
  · rw [firings_tellAll, hstays]

/-- A firing that is queued after a move was queued before, or its timer was due. -/
theorem firings_move (m : Move σ) :
    ∀ firing ∈ (c.move m).firings, firing ∈ c.firings ∨ firing ∈ c.session.timers.fire.1 := by
  intro firing hfiring
  have hsent (hmem : firing ∈ c.firings ++ c.session.timers.fire.1) := List.mem_append.1 hmem
  cases m with
  | ask ticket command => exact .inl (firings_ask ticket command ▸ hfiring)
  | notify ticket notification =>
    have hkept : (c.notify ticket notification).firings = c.firings := firings_sent rfl
    exact .inl (hkept ▸ hfiring)
  | tryNotify ticket notification =>
    have hkept : (c.tryNotify ticket notification).firings = c.firings := firings_sent rfl
    exact .inl (hkept ▸ hfiring)
  | report ticket event =>
    have hkept : (c.report ticket event).firings = c.firings := firings_sent rfl
    exact .inl (hkept ▸ hfiring)
  | tryReport ticket event =>
    have hkept : (c.tryReport ticket event).firings = c.firings := firings_sent rfl
    exact .inl (hkept ▸ hfiring)
  | release | clock | surroundings => exact .inl hfiring
  | fire => exact hsent hfiring
  | refill => exact .inl (firings_refill ▸ hfiring)
  | proceed meanwhile =>
    change firing ∈ ((c.step? meanwhile).getD c).firings at hfiring
    unfold step? at hfiring
    split at hfiring
    · exact .inl hfiring
    · split at hfiring
      · rename_i hnext
        exact .inl (firings_of_next? hnext (firings_give _ meanwhile hfiring))
      · split at hfiring
        · exact hsent hfiring
        · split at hfiring
          · exact .inl (firings_refill ▸ hfiring)
          · split at hfiring
            · exact .inl (firings_give _ meanwhile hfiring)
            · exact .inl hfiring

theorem numbers_runMoves (h : c.Numbers) (ms : List (Move σ)) : (c.runMoves ms).Numbers := by
  induction ms generalizing c with
  | nil => exact h
  | cons m ms ih =>
    have htimers := (renews_move (c := c) m).timers
    refine ih ⟨htimers.dated h.dated, fun firing hfiring => ?_⟩
    refine Nat.lt_of_lt_of_le ?_ htimers.nextId_le
    rcases firings_move m firing hfiring with hqueued | hfired
    · exact h.firings firing hqueued
    · exact h.dated.of_fired hfired

theorem attended_runMoves (h : c.session.Attended []) (ms : List (Move σ)) :
    (c.runMoves ms).session.Attended [] :=
  invariant_of_turn (P := Session.Attended []) (fun haside hs => hs.spared haside.sparesRinging id id)
    (fun input queued _ hs => Session.attended_turn hs input queued) h ms

/-- **It rings for callers.** After any moves it rings only while a call that came in waits for its
answer, with one timer of each kind at most, and timers that fired before a stop begin no ringing after
it, even if it rings again. -/
theorem rings_for_callers {config : Config} {host : σ} (hstart : start config host = .ok c)
    (ms : List (Move σ)) : (c.runMoves ms).RingsForCallers := by
  have hnew := session_of_start hstart
  have hattended : (c.runMoves ms).session.Attended [] := by
    apply attended_runMoves
    rw [hnew]
    exact ⟨.empty, fun _ _ => Nat.le_refl 0, nofun, nofun⟩
  have hnumbers : (c.runMoves ms).Numbers := by
    apply numbers_runMoves
    obtain ⟨_, rfl⟩ := eq_of_start hstart
    exact ⟨.empty, List.forall_mem_nil _⟩
  refine ⟨fun kind hkind => ?_, fun kind hkind hactive => ?_, fun hrings => ?_, ?_⟩
  · have hcount := hattended.countKind_le kind hkind
    split at hcount <;> omega
  · by_contra hsilent
    have hcount := hattended.countKind_le kind hkind
    rw [if_neg fun hrings => hsilent (Player.rings_iff.1 hrings), Nat.le_zero,
      Timers.countKind_eq_zero_iff, hactive] at hcount
    cases hcount
  · have hcaller := hattended.called (Player.rings_iff.2 hrings)
    obtain ⟨handle, remote, hwaits⟩ := hcaller.resolve_left List.not_mem_nil
    obtain ⟨call, hcall, hlive, hinbound, hfresh, -⟩ := CallBook.caller?_eq_some_iff.1 hwaits
    exact ⟨call, Registry.mem_of_find? hcall, hlive, hinbound, hfresh⟩
  · intro later firing hfiring hstopped queued e he
    have hrenews := renews_runMoves (c := c.runMoves ms) later
    have hspared := Session.sparesRinging_turn_firing firing queued fun timer htimer hringing =>
      Nat.lt_of_lt_of_le (hnumbers.firings firing hfiring)
        (hrenews.renewed hstopped timer htimer hringing)
    exact hspared.world.of_mem_since he

/-- A coordinator on a bench whose ringtone does not repeat by itself and whose user wants vibration. -/
def onShortRingtone : Coordinator Bench :=
  { onBench with
    session := .new {} { tones.canLoopRingtone := false, tones.vibrateWhenRinging := true } }

/-- It rings for a first call until both timers have fired. -/
def rungOnce : List (Move Bench) :=
  [.ask ⟨0⟩ (.signIn bob), .loop] ++ reported 1 .incoming ++ [.clock 1000, .fire]

/-- The first call ends and a second one comes in, before the firings are taken. -/
def rungAgain : List (Move Bench) := reported 1 (.closed none) ++ reported 2 .incoming

/-- The firings of the first ringing are still queued while it rings for the second call. -/
theorem rings_for_callers_rungAgain :
    start {} ({ tones.canLoopRingtone := false, tones.vibrateWhenRinging := true } : Bench) =
        .ok onShortRingtone ∧
      (onShortRingtone.runMoves rungOnce).firings =
        [⟨⟨1⟩, .ringtoneRestart⟩, ⟨⟨2⟩, .vibrate⟩] ∧
      .stopRingtone ∈ ((onShortRingtone.runMoves rungOnce).runMoves rungAgain).session.world.since
        (onShortRingtone.runMoves rungOnce).session.world ∧
      ((onShortRingtone.runMoves rungOnce).runMoves rungAgain).session.player.active =
        some .ringtone ∧
      (onShortRingtone.runMoves rungOnce).RingsForCallers := by
  have hstart : start {} ({ tones.canLoopRingtone := false, tones.vibrateWhenRinging := true } :
    Bench) = .ok onShortRingtone := rfl
  exact ⟨hstart, by decide, by decide, by decide, rings_for_callers hstart rungOnce⟩

end Softphone.Coordinator
