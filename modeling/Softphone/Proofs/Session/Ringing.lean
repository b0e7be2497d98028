import Softphone.Proofs.Session.Performed
import Softphone.Proofs.Session.Quiet

/-!
# For whom it rings

It rings only while somebody waits for an answer, with one timer of each kind at most
(`Session.Attended`), since whatever takes the last caller away stops ringing in the same breath. A timer
of ringing that is active after a stop was set after it (`Session.Renews`).
-/

namespace Softphone.Session

variable {σ : Type} {s s' s'' : Session σ}

/-- Once the ringtone was stopped, the timers of ringing that are active were set since. -/
structure Renews (s s' : Session σ) : Prop where
  timers : s.timers.Advances s'.timers
  world : s.world.Grows (fun _ => True) s'.world
  renewed : .stopRingtone ∈ s'.world.since s.world →
    ∀ timer ∈ s'.timers.active, timer.kind.isRinging = true → s.timers.nextId ≤ timer.id.raw

namespace Renews

/-- The ringtone goes on if it plays. -/
theorem of_keeps (htimers : s.timers.Advances s'.timers)
    (hworld : s.world.Grows (· ≠ .stopRingtone) s'.world) : s.Renews s' where
  timers := htimers
  world := hworld.mono fun _ _ => trivial
  renewed hstopped := absurd rfl (hworld.of_mem_since hstopped)

theorem refl : s.Renews s := of_keeps .refl .refl

theorem trans (h : s.Renews s') (h' : s'.Renews s'') : s.Renews s'' := by
  refine ⟨h.timers.trans h'.timers, h.world.trans h'.world, ?_⟩
  intro hstopped timer htimer hringing
  rw [h.world.since_trans h'.world, List.mem_append] at hstopped
  rcases hstopped with hbefore | hafter
  · rcases h'.timers.active timer htimer with hearlier | hnew
    · exact h.renewed hbefore timer hearlier hringing
    · exact Nat.le_trans h.timers.nextId_le hnew
  · exact Nat.le_trans h.timers.nextId_le (h'.renewed hafter timer htimer hringing)

theorem of_spared (h : s.SparesRinging s') : s.Renews s' := by
  refine of_keeps h.timers.advances (h.world.mono fun e he => ?_)
  rintro rfl
  cases he

end Renews

variable [Host σ] {actions : List CallAction}

/-! ## What leaves ringing alone -/

theorem sparesRinging_perform {action : CallAction} (hstart : action ≠ .startRinging)
    (hstop : action ≠ .stopRinging) : s.SparesRinging (s.perform action).2 := by
  cases action with
  | startRinging => exact absurd rfl hstart
  | stopRinging => exact absurd rfl hstop
  | playRingback =>
    exact ⟨Player.play_rings _ _ _ _, .refl, .refl,
      (Player.grows_play _ _ _ _).mono fun _ he => he.2.1⟩
  | stopTone =>
    exact ⟨Player.stopTone_rings _ _, .refl, .refl,
      (Player.grows_stopTone _ _).mono fun _ he => he.2.1⟩
  | playBusy =>
    have hrings := Player.play_rings s.player s.world .busy false
    have hworld := (Player.grows_play s.player s.world .busy false).mono fun _ he => he.2.1
    unfold perform
    dsimp only
    split
    · exact ⟨hrings, .refl, .refl, hworld⟩
    · exact ⟨hrings, .refl, .onToneFinished, hworld⟩
  | releaseAudio =>
    refine ⟨rfl, .refl, .refl, .trans ((Router.grows_cancel s.router s.world).mono fun _ => And.right) ?_⟩
    exact (Player.grows_releaseAudio s.player _).mono fun _ he => he.2.1
  | emit event => exact ⟨rfl, .refl, .refl, .note .refl rfl⟩

/-- What an action leaves to be done is not about ringing. -/
theorem ringing_not_mem_later (action : CallAction) :
    .startRinging ∉ (s.perform action).1 ∧ .stopRinging ∉ (s.perform action).1 := by
  by_cases hbusy : action = .playBusy
  · subst hbusy
    rcases perform_playBusy_cases s with ⟨-, hlater, -⟩ | ⟨-, hlater, -⟩
    · simp [hlater]
    · rw [hlater]
      exact CallBook.ringing_not_mem_onToneFinished
  · simp [perform_later hbusy]

theorem sparesRinging_execute (h : .startRinging ∉ actions ∧ .stopRinging ∉ actions) :
    s.SparesRinging (s.execute actions) := by
  have hkept : KeptByActions fun actions (s' : Session σ) =>
      (.startRinging ∉ actions ∧ .stopRinging ∉ actions) ∧ s.SparesRinging s' := by
    rintro s' action rest ⟨⟨hstart, hstop⟩, hspared⟩
    rw [List.mem_cons, not_or] at hstart hstop
    obtain ⟨hstarted, hstopped⟩ := ringing_not_mem_later (s := s') action
    refine ⟨⟨?_, ?_⟩, hspared.trans (sparesRinging_perform (Ne.symm hstart.1) (Ne.symm hstop.1))⟩
    · exact fun hmem => (List.mem_append.1 hmem).elim hstart.2 hstarted
    · exact fun hmem => (List.mem_append.1 hmem).elim hstop.2 hstopped
  exact (executed_induction @hkept ⟨h, .refl⟩).2.2

theorem sparesRinging_handleNotification (notification : Notification) :
    s.SparesRinging (s.handleNotification notification) := by
  cases notification with
  | network change => exact (sparesAudio_network change).ringing
  | audioMode mode =>
    exact ⟨rfl, .refl, .refl, (Router.grows_onModeChanged _ _ _).mono fun _ => And.right⟩
  | toneFinished =>
    have hrings := Player.onToneFinished_rings s.player
    unfold handleNotification
    dsimp only
    split
    · refine .trans ?_ (sparesRinging_execute CallBook.ringing_not_mem_onToneFinished)
      exact ⟨hrings, .refl, .onToneFinished, .refl⟩
    · exact ⟨hrings, .refl, .refl, .refl⟩

theorem sparesRinging_handleCommand (ticket : Ticket) {command : Command} (h : command ≠ .shutdown) :
    s.SparesRinging (s.handleCommand ticket command) := by
  by_cases hspeaker : ∃ on, command = .setSpeaker on
  · obtain ⟨on, rfl⟩ := hspeaker
    cases on with
    | some on =>
      exact ⟨rfl, .refl, .refl, (Router.grows_request _ _ _ _).mono fun _ => And.right⟩
    | none => exact ⟨rfl, .refl, .refl, (Router.grows_request _ _ _ _).mono fun _ => And.right⟩
  · obtain ⟨s', answer, hquiet, heq⟩ := handleCommand_cases (s := s) ticket (not_exists.1 hspeaker) h
    rw [heq]
    exact hquiet.ringing.reply ticket answer

/-- Ringing is a matter of reports on calls, of timers and of the end. -/
theorem handle_ringing_cases (input : Input) :
    s.SparesRinging (s.handle input) ∨ (∃ event, input = .engine (.call event)) ∨
      (∃ firing, input = .firing firing) ∨ s.teardown.SparesRinging (s.handle input) := by
  cases input with
  | notification notification => exact .inl (sparesRinging_handleNotification notification)
  | engine event =>
    cases event with
    | registration signal => exact .inl (sparesAudio_published _).ringing
    | call event => exact .inr (.inl ⟨event, rfl⟩)
  | firing firing => exact .inr (.inr (.inl ⟨firing, rfl⟩))
  | command ticket command =>
    by_cases hends : command = .shutdown
    · subst hends
      exact .inr (.inr (.inr (SparesRinging.refl.reply _ _)))
    · exact .inl (sparesRinging_handleCommand ticket hends)
  | abandoned => exact .inr (.inr (.inr .refl))

/-- After its message a turn leaves ringing alone. -/
theorem sparesRinging_turn (input : Input) (queued : List Notification) :
    (s.handle input).SparesRinging (s.turn input queued) := by
  have hqueued := queued_induction (P := (s.handle input).SparesRinging)
    (fun notification h => h.trans (sparesRinging_handleNotification notification)) .refl queued
  unfold turn
  dsimp only
  split
  · exact .refl
  · exact hqueued.trans sparesAudio_runPass.ringing

/-! ## Timers after a stop -/

theorem renews_perform (action : CallAction) : s.Renews (s.perform action).2 := by
  by_cases hstart : action = .startRinging
  · subst hstart
    exact .of_keeps (Player.startRinging_advances _ _ _) (Player.startRinging_keepsRinging _ _ _)
  by_cases hstop : action = .stopRinging
  · subst hstop
    refine ⟨Player.stopRinging_advances s.player s.timers s.world,
      (Player.grows_stopRinging s.player s.timers s.world).mono fun _ _ => trivial, ?_⟩
    intro _ timer htimer hringing
    have hnone := Player.not_ringing_of_mem_stopRinging s.player s.timers s.world htimer
    rw [hnone] at hringing
    cases hringing
  · exact .of_spared (sparesRinging_perform hstart hstop)

theorem renews_execute (actions : List CallAction) : s.Renews (s.execute actions) := by
  have hkept : KeptByActions fun _ => s.Renews := fun h => h.trans (renews_perform _)
  exact (executed_induction (P := fun _ => s.Renews) @hkept .refl).2

theorem renews_teardown : s.Renews s.teardown := by
  have hhalted : s.Renews s.halted := by
    refine ⟨?_, sparesAccount_halted.world.mono fun _ _ => trivial, ?_⟩
    · exact .trans (.cancelWhere _ _) (Player.stopRinging_advances s.player s.timers.cancelAll _)
    · intro _ timer htimer hringing
      have hnone := Player.not_ringing_of_mem_stopRinging s.player s.timers.cancelAll _ htimer
      rw [hnone] at hringing
      cases hringing
  exact hhalted.trans (.of_spared sparesAudio_unregister.ringing)

theorem renews_handleFiring (firing : Firing) : s.Renews (s.handleFiring firing) := by
  cases hringing : firing.kind.isRinging with
  | false => exact .of_spared (sparesAudio_handleFiring fun _ => hringing).ringing
  | true =>
    obtain ⟨w, heq, -, hgoesOn⟩ := handleFiring_of_ringing (s := s) hringing
    rw [heq]
    exact .of_keeps (.accept _ _) hgoesOn

theorem renews_handle (input : Input) : s.Renews (s.handle input) := by
  rcases handle_ringing_cases (s := s) input with hspared | ⟨event, rfl⟩ | ⟨firing, rfl⟩ | hended
  · exact .of_spared hspared
  · refine .trans ?_ (renews_execute _)
    exact .of_keeps .refl (.within .refl _)
  · exact renews_handleFiring firing
  · exact renews_teardown.trans (.of_spared hended)

theorem renews_turn (input : Input) (queued : List Notification) : s.Renews (s.turn input queued) :=
  (renews_handle input).trans (.of_spared (sparesRinging_turn input queued))

/-! ## Somebody waits while it rings -/

/-- It rings for somebody who waits for an answer, unless it is to be stopped, and with one timer of each
kind at most. -/
structure Attended (actions : List CallAction) (s : Session σ) : Prop where
  consistent : s.calls.Consistent
  countKind_le : ∀ kind, kind.isRinging = true →
    s.timers.countKind kind ≤ if s.player.rings then 1 else 0
  called : s.player.rings = true → .stopRinging ∈ actions ∨ s.calls.HasCaller
  calling : .startRinging ∈ actions → s.calls.HasCaller

omit [Host σ] in
theorem Attended.spared {later : List CallAction} (h : s.Attended actions) (hspared : s.SparesRinging s')
    (hstop : .stopRinging ∈ actions → .stopRinging ∈ later)
    (hstart : .startRinging ∈ later → .startRinging ∈ actions) : s'.Attended later where
  consistent := hspared.calls.consistent h.consistent
  countKind_le kind hkind := by
    rw [hspared.rings]
    exact Nat.le_trans (hspared.timers.countKind_le kind hkind) (h.countKind_le kind hkind)
  called hrings := by
    rw [hspared.rings] at hrings
    exact (h.called hrings).imp hstop (hspared.calls.hasCaller h.consistent)
  calling hmem := hspared.calls.hasCaller h.consistent (h.calling (hstart hmem))

theorem attended_startRinging (h : s.Attended (.startRinging :: actions)) :
    (s.perform .startRinging).2.Attended actions := by
  have hcaller := h.calling List.mem_cons_self
  refine ⟨h.consistent, fun kind hkind => ?_, fun _ => .inr hcaller, fun _ => hcaller⟩
  have hbefore := h.countKind_le kind hkind
  cases hplays : s.player.active with
  | some playing =>
    have hsame := Player.startRinging_of_playing s.player s.timers s.world (hplays ▸ rfl)
    unfold perform
    rw [hsame]
    exact hbefore
  | none =>
    have hafter := Player.countKind_startRinging_le s.player s.timers s.world kind
    have hrings : (s.player.startRinging s.timers s.world).1.rings = true := by
      rw [Player.rings_iff, Player.startRinging_active, hplays]
      rfl
    have hsilent : s.player.rings = false := by rw [Player.rings, hplays]; rfl
    rw [hsilent] at hbefore
    rw [hplays] at hafter
    change (s.player.startRinging s.timers s.world).2.1.countKind kind ≤
      if (s.player.startRinging s.timers s.world).1.rings then 1 else 0
    rw [hrings]
    simp at hbefore hafter ⊢
    omega

theorem attended_stopRinging (h : s.Attended (.stopRinging :: actions)) :
    (s.perform .stopRinging).2.Attended actions := by
  have hsilent := Player.stopRinging_rings s.player s.timers s.world
  refine ⟨h.consistent, fun kind hkind => ?_, fun hrings => ?_, fun hmem => ?_⟩
  · have hnone := Player.countKind_stopRinging s.player s.timers s.world hkind
    exact Nat.le_trans (Nat.le_of_eq hnone) (Nat.zero_le _)
  · exact absurd hrings (Bool.eq_false_iff.1 hsilent)
  · exact h.calling (List.mem_cons_of_mem _ hmem)

theorem attended_kept : KeptByActions (Attended (σ := σ)) := by
  intro s action rest h
  by_cases hstart : action = .startRinging
  · subst hstart
    change (s.perform .startRinging).2.Attended (rest ++ [])
    rw [List.append_nil]
    exact attended_startRinging h
  by_cases hstop : action = .stopRinging
  · subst hstop
    change (s.perform .stopRinging).2.Attended (rest ++ [])
    rw [List.append_nil]
    exact attended_stopRinging h
  refine h.spared (sparesRinging_perform hstart hstop) ?_ ?_
  · intro hmem
    exact List.mem_append_left _ ((List.mem_cons.1 hmem).resolve_left (Ne.symm hstop))
  · intro hmem
    rcases List.mem_append.1 hmem with hrest | hlater
    · exact List.mem_cons_of_mem _ hrest
    · exact absurd hlater (ringing_not_mem_later action).1

theorem attended_handleEngine_call (h : s.Attended []) (event : CallEvent) :
    (s.handleEngine (.call event)).Attended [] := by
  have hreceived : ({ s with
      calls := (s.calls.receive s.world.stamp.1 s.registration.agent event).2
      world := s.world.stamp.2 } : Session σ).Attended
      (s.calls.receive s.world.stamp.1 s.registration.agent event).1 := by
    refine ⟨CallBook.receive_consistent h.consistent _ _ _, h.countKind_le, fun hrings => ?_, ?_⟩
    · have hcaller := (h.called hrings).resolve_left List.not_mem_nil
      exact CallBook.hasCaller_receive h.consistent _ hcaller
    · exact CallBook.hasCaller_of_startRinging h.consistent
  exact (executed_induction attended_kept hreceived).2

theorem attended_teardown (h : s.Attended []) : s.teardown.Attended [] := by
  have hhalted : s.halted.Attended [] := by
    refine ⟨h.consistent, fun kind hkind => ?_, nofun, nofun⟩
    exact Nat.le_of_eq (Player.countKind_stopRinging s.player s.timers.cancelAll _ hkind)
  exact hhalted.spared sparesAudio_unregister.ringing id id

theorem attended_handleFiring (h : s.Attended []) (firing : Firing) :
    (s.handleFiring firing).Attended [] := by
  cases hringing : firing.kind.isRinging with
  | false => exact h.spared (sparesAudio_handleFiring fun _ => hringing).ringing id id
  | true =>
    obtain ⟨w, heq, -, -⟩ := handleFiring_of_ringing (s := s) hringing
    have htaken : ({ s with timers := (s.timers.accept firing).2 } : Session σ).Attended [] :=
      h.spared ⟨rfl, .accept _ _, .refl, .refl⟩ id id
    rw [heq]
    exact ⟨htaken.consistent, htaken.countKind_le, htaken.called, htaken.calling⟩

theorem attended_handle (h : s.Attended []) (input : Input) : (s.handle input).Attended [] := by
  rcases handle_ringing_cases (s := s) input with hspared | ⟨event, rfl⟩ | ⟨firing, rfl⟩ | hended
  · exact h.spared hspared id id
  · exact attended_handleEngine_call h event
  · exact attended_handleFiring h firing
  · exact (attended_teardown h).spared hended id id

/-- **Nobody is rung up for nothing.** After a turn it rings only for somebody who waits for an answer. -/
theorem attended_turn (h : s.Attended []) (input : Input) (queued : List Notification) :
    (s.turn input queued).Attended [] :=
  (attended_handle h input).spared (sparesRinging_turn input queued) id id

/-! ## Stale firings -/

/-- A firing whose number is older than every active timer of ringing begins no ringing and no vibration,
nor does what follows it in the turn. -/
theorem sparesRinging_turn_firing (firing : Firing) (queued : List Notification)
    (h : ∀ timer ∈ s.timers.active, timer.kind.isRinging = true → firing.id.raw < timer.id.raw) :
    s.SparesRinging (s.turn (.firing firing) queued) := by
  suffices hother : (s.timers.accept firing).1 = true → firing.kind.isRinging = false from
    (sparesAudio_handleFiring hother).ringing.trans (sparesRinging_turn (.firing firing) queued)
  intro haccepted
  refine Bool.eq_false_iff.2 fun hringing => ?_
  unfold Timers.accept at haccepted
  split at haccepted
  · cases haccepted
  · rename_i timer hfind
    split at haccepted
    · cases haccepted
    · rename_i hkind
      have hid : timer.id = firing.id := by simpa using List.find?_some hfind
      have hlater := h timer (List.mem_of_find?_eq_some hfind) (not_ne_iff.1 hkind ▸ hringing)
      rw [hid] at hlater
      exact Nat.lt_irrefl _ hlater

end Softphone.Session
