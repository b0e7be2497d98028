import Softphone.Proofs.Calls.Setup
import Softphone.Proofs.Session.Dialling
import Softphone.Proofs.Session.Performed

/-!
# For whom the ringback plays

The ringback is for a call that is being set up. Every message keeps that, unless it is a late report which
asks for the ringback though its call has been answered (`Session.ringbackInSetup_turn_iff`).
-/

namespace Softphone.Session

variable {σ : Type} {s : Session σ}

/-- The ringback plays only while a call is being set up. -/
def RingbackInSetup (s : Session σ) : Prop :=
  s.player.active = some .ringback → s.calls.HasEarly

/-- Whether a message is a report that begins the ringback for a call that has been answered, with none
being set up. -/
def ringsBackLate [ToneDevice σ] [StampSource σ] (s : Session σ) : Input → Bool
  | .engine (.call event) =>
    s.registration.agent.isSome && event.kind.asksRingback &&
      (s.calls.registry.find? event.handle).any (·.state.isAnswered) && !decide s.calls.HasEarly &&
      (s.player.playRingback s.world.stamp.2).1.active = some .ringback
  | _ => false

/-- The calls are left alone, except that one may be dialled. -/
def OnlyDials (s s' : Session σ) : Prop :=
  s'.calls = s.calls ∨ ∃ call connected, s'.calls = s.calls.dialled call connected

/-! ## Actions -/

section Actions

variable [ToneDevice σ] [AudioDevice σ] {action : CallAction} {actions : List CallAction}

/-- Only the wish for it begins the ringback, and the tone of a call is stopped by the wish to. -/
theorem ringback_of_perform (h : action ≠ .playRingback)
    (hplays : (s.perform action).2.player.active = some .ringback) :
    s.player.active = some .ringback ∧ action ≠ .stopTone := by
  cases action with
  | playRingback => exact absurd rfl h
  | startRinging =>
    change (s.player.startRinging s.timers s.world).1.active = _ at hplays
    rw [Player.startRinging_active] at hplays
    cases hactive : s.player.active <;> simp_all
  | stopRinging =>
    change (s.player.stopRinging s.timers s.world).1.active = _ at hplays
    rw [Player.stopRinging_active] at hplays
    split at hplays <;> simp_all
  | stopTone =>
    change (s.player.stopTone s.world).1.active = _ at hplays
    rw [Player.stopTone_active] at hplays
    split at hplays <;> simp_all
  | playBusy =>
    have hsame : (s.perform .playBusy).2.player = (s.player.play .busy false s.world).1 := by
      unfold perform
      dsimp only
      split <;> rfl
    rw [hsame] at hplays
    refine ⟨?_, nofun⟩
    rcases Player.play_active s.player .busy false s.world with hactive | ⟨-, hbusy⟩
    · rwa [hactive] at hplays
    · rw [hbusy] at hplays
      cases hplays
  | releaseAudio | emit => exact ⟨hplays, nofun⟩

theorem playRingback_not_mem_later (action : CallAction) : .playRingback ∉ (s.perform action).1 := by
  by_cases hbusy : action = .playBusy
  · subst hbusy
    rcases perform_playBusy_cases s with ⟨-, hlater, -⟩ | ⟨-, hlater, -⟩
    · simp [hlater]
    · rw [hlater]
      exact CallBook.playRingback_not_mem_onToneFinished
  · simp [perform_later hbusy]

/-- If the ringback plays in the end, it did before, and the tone was not stopped. -/
theorem ringback_of_execute (h : .playRingback ∉ actions)
    (hplays : (s.execute actions).player.active = some .ringback) :
    s.player.active = some .ringback ∧ .stopTone ∉ actions := by
  -- A stop of the tone that was to be done is still to be done, as long as the ringback plays.
  have hkept : KeptByActions fun later (s' : Session σ) => .playRingback ∉ later ∧
      (s'.player.active = some .ringback →
        s.player.active = some .ringback ∧ (.stopTone ∈ actions → .stopTone ∈ later)) := by
    rintro s' action rest ⟨hnone, hbefore⟩
    rw [List.mem_cons, not_or] at hnone
    refine ⟨?_, fun hplays => ?_⟩
    · exact fun hmem =>
        (List.mem_append.1 hmem).elim hnone.2 (playRingback_not_mem_later action)
    · obtain ⟨hearlier, hother⟩ := ringback_of_perform (Ne.symm hnone.1) hplays
      obtain ⟨hfirst, hstop⟩ := hbefore hearlier
      refine ⟨hfirst, fun hmem => List.mem_append_left _ ?_⟩
      exact (List.mem_cons.1 (hstop hmem)).resolve_left (Ne.symm hother)
  obtain ⟨-, hend⟩ := (executed_induction @hkept ⟨h, fun hplays => ⟨hplays, id⟩⟩).2
  obtain ⟨hfirst, hstop⟩ := hend hplays
  exact ⟨hfirst, fun hmem => List.not_mem_nil (hstop hmem)⟩

end Actions

variable [Host σ]

/-! ## Messages that leave the ringback alone -/

omit [Host σ] in
theorem ringbackInSetup_congr {s' : Session σ} (hcalls : s'.calls = s.calls)
    (hactive : s'.player.active = s.player.active) : s'.RingbackInSetup ↔ s.RingbackInSetup := by
  rw [RingbackInSetup, RingbackInSetup, hcalls, hactive]

theorem ringbackInSetup_handleNotification_iff (notification : Notification) :
    (s.handleNotification notification).RingbackInSetup ↔ s.RingbackInSetup := by
  cases notification with
  | network change => cases change <;> exact ringbackInSetup_congr rfl rfl
  | audioMode mode => exact ringbackInSetup_congr rfl rfl
  | toneFinished =>
    by_cases hbusy : s.player.active = some .busy
    · rw [handleNotification_toneFinished hbusy]
      refine iff_of_true (fun hplays => ?_) fun hplays => ?_
      · cases (ringback_of_execute CallBook.playRingback_not_mem_onToneFinished hplays).1
      · rw [hbusy] at hplays
        cases hplays
    · refine ringbackInSetup_congr ?_ ?_ <;> simp [handleNotification, Player.onToneFinished, hbusy]

theorem ringbackInSetup_turn_handle_iff (input : Input) (queued : List Notification) :
    (s.turn input queued).RingbackInSetup ↔ (s.handle input).RingbackInSetup := by
  have hqueued := queued_induction (P := fun s' : Session σ =>
    s'.RingbackInSetup ↔ (s.handle input).RingbackInSetup)
    (fun notification h => (ringbackInSetup_handleNotification_iff notification).trans h) .rfl queued
  unfold turn
  dsimp only
  split
  · exact .rfl
  · exact (ringbackInSetup_congr (runPass_calls _) keeps_runPass.active).trans hqueued

theorem handleFiring_calls (s : Session σ) (firing : Firing) :
    (s.handleFiring firing).calls = s.calls := by
  unfold handleFiring handleTimer
  dsimp only
  split
  · cases firing.kind with
    | hotspotFollowUp =>
      dsimp only
      split <;> rfl
    | _ => rfl
  · rfl

/-! ## Requests -/

omit [Host σ] in
theorem withCurrent_calls {α : Type} {act : Call → Except SessionError α × Session σ}
    (h : ∀ call, (act call).2.calls = s.calls) : (s.withCurrent act).2.calls = s.calls := by
  unfold withCurrent
  split
  · exact h _
  · rfl

theorem answer_calls : s.answer.2.calls = s.calls := by
  refine withCurrent_calls fun call => ?_
  dsimp only
  split <;> rfl

theorem register_calls (s : Session σ) (agent : AgentHandle) : (s.register agent).calls = s.calls := by
  unfold register
  dsimp only
  split <;> rfl

theorem signIn_calls (account : Account) : (s.signIn account).2.calls = s.calls := by
  have hreleased : s.releaseAgent.calls = s.calls := by
    unfold releaseAgent
    split <;> rfl
  have hfollowed (s : Session σ) : s.ensureMobility.calls = s.calls := by
    unfold ensureMobility
    split <;> rfl
  unfold signIn
  split
  · rfl
  · dsimp only
    split
    · exact hreleased
    · exact (register_calls _ _).trans ((hfollowed _).trans hreleased)

theorem refresh_calls : s.refresh.2.calls = s.calls := by
  unfold refresh
  split
  · rfl
  · rfl
  · exact register_calls _ _

/-- No request but one that places a call touches the calls. -/
theorem handleCommand_calls (ticket : Ticket) {command : Command} (h : ∀ target, command ≠ .dial target) :
    (s.handleCommand ticket command).calls = s.calls := by
  have hreply : ∀ {s' : Session σ} {answer}, s'.calls = s.calls → (s'.reply ticket answer).calls = s.calls :=
    fun h => h
  cases command with
  | dial target => exact absurd rfl (h target)
  | signIn account => exact hreply (signIn_calls account)
  | answer => exact hreply answer_calls
  | hangup | reject => exact hreply (withCurrent_calls fun _ => rfl)
  | hold | setMuted => exact hreply (withCurrent_calls fun _ => rfl)
  | transfer target =>
    refine hreply ?_
    unfold transfer
    split
    · rfl
    · exact withCurrent_calls fun _ => rfl
  | sendDigits digits =>
    refine hreply ?_
    unfold sendDigits
    split
    · rfl
    · exact withCurrent_calls fun _ => rfl
  | refresh => exact hreply refresh_calls
  | unregister => exact hreply (unregister_frame s).1
  | shutdown => exact hreply teardown_calls
  | setSpeaker on => cases on <;> rfl
  | registrationState | isMicOn | isSpeakerOn | currentCall | missedCalls | stats => rfl

theorem onlyDials_dial (target : String) : s.OnlyDials (s.dial target).2 := by
  have hdial := dial_cases s target
  generalize s.dial target = r at hdial ⊢
  cases hdial with
  | declined | unallocated | taken => exact .inl rfl
  | placed => exact .inr ⟨_, _, rfl⟩

theorem onlyDials_handleCommand (ticket : Ticket) (command : Command) :
    s.OnlyDials (s.handleCommand ticket command) := by
  have hreply : ∀ {s' : Session σ} {answer}, s.OnlyDials s' → s.OnlyDials (s'.reply ticket answer) :=
    fun h => h
  cases command with
  | dial target => exact hreply (onlyDials_dial target)
  | _ => exact .inl (handleCommand_calls ticket nofun)

theorem ringbackInSetup_teardown : s.teardown.RingbackInSetup := by
  intro hplays
  rw [teardown_eq, (unregister_frame _).2.1] at hplays
  cases hplays

theorem ringbackInSetup_handleCommand (hs : s.calls.Consistent) (h : s.RingbackInSetup)
    (ticket : Ticket) (command : Command) : (s.handleCommand ticket command).RingbackInSetup := by
  by_cases hends : command = .shutdown
  · subst hends
    exact ringbackInSetup_teardown
  intro hplays
  rw [(keeps_handleCommand ticket hends).active] at hplays
  rcases onlyDials_handleCommand (s := s) ticket command with hcalls | ⟨call, connected, hcalls⟩
  · rw [hcalls]
    exact h hplays
  · rw [hcalls]
    exact (h hplays).dialled hs call connected

/-! ## Reports on calls -/

/-- After a report that does not ask for the ringback it plays only while a call is being set up. -/
theorem ringbackInSetup_of_not_asked (hs : s.calls.Consistent) (h : s.RingbackInSetup)
    {event : CallEvent} {agent : AgentHandle} (hagent : s.registration.agent = some agent)
    (hkind : event.kind.asksRingback = false) :
    (s.handleEngine (.call event)).RingbackInSetup := by
  intro hplays
  unfold handleEngine at hplays ⊢
  dsimp only at hplays ⊢
  rw [hagent] at hplays ⊢
  obtain ⟨hplayed, htone⟩ :=
    ringback_of_execute (CallBook.playRingback_not_mem_receive hkind) hplays
  have hbusy := CallBook.playBusy_not_mem_receive htone
  rw [execute_calls hbusy]
  exact CallBook.hasEarly_receive hs htone (h hplayed)

theorem ringbackInSetup_of_asked (hs : s.calls.Consistent)
    {event : CallEvent} {agent : AgentHandle} (hagent : s.registration.agent = some agent)
    (hkind : event.kind.asksRingback = true) (hfresh : s.calls.isStale event = false) :
    (s.handleEngine (.call event)).RingbackInSetup ↔ s.ringsBackLate (.engine (.call event)) = false := by
  obtain ⟨call, hcall, -⟩ := CallBook.live_of_not_stale hfresh
    (CallEventKind.admitsNewCall_of_asksRingback hkind)
  have hactions := CallBook.receive_of_asksRingback s.world.stamp.1 agent hfresh hkind
  have hearly := CallBook.hasEarly_asked_iff hs s.world.stamp.1 agent hfresh hkind hcall
  unfold handleEngine ringsBackLate
  dsimp only
  rw [hagent, hactions, hkind, hcall]
  change ((s.player.playRingback s.world.stamp.2).1.active = some .ringback →
    (s.calls.receive s.world.stamp.1 (some agent) event).2.HasEarly) ↔ _
  rw [hearly]
  by_cases hplays : (s.player.playRingback s.world.stamp.2).1.active = some .ringback
  · by_cases hsetup : s.calls.HasEarly <;> simp [hplays, hsetup]
  · simp [hplays]

/-- A report on a call keeps the ringback to calls that are being set up, unless it rings back late. -/
theorem ringbackInSetup_handleEngine_iff (hs : s.calls.Consistent) (h : s.RingbackInSetup)
    (event : CallEvent) :
    (s.handleEngine (.call event)).RingbackInSetup ↔ s.ringsBackLate (.engine (.call event)) = false := by
  cases hagent : s.registration.agent with
  | none =>
    refine iff_of_true ?_ (by simp [ringsBackLate, hagent])
    unfold handleEngine
    rw [hagent]
    exact h
  | some agent =>
    cases hkind : event.kind.asksRingback with
    | false =>
      exact iff_of_true (ringbackInSetup_of_not_asked hs h hagent hkind)
        (by simp [ringsBackLate, hkind])
    | true =>
      cases hstale : s.calls.isStale event with
      | false => exact ringbackInSetup_of_asked hs hagent hkind hstale
      | true =>
        refine iff_of_true ?_ ?_
        · unfold handleEngine
          dsimp only
          rw [CallBook.receive_of_stale hstale]
          exact h
        · rw [ringsBackLate, CallBook.not_answered_of_stale hstale]
          simp

/-- **When a turn keeps the ringback to calls that are being set up.** It does, unless its message is a
report that rings back late. -/
theorem ringbackInSetup_turn_iff (hs : s.calls.Consistent) (h : s.RingbackInSetup) (input : Input)
    (queued : List Notification) :
    (s.turn input queued).RingbackInSetup ↔ s.ringsBackLate input = false := by
  rw [ringbackInSetup_turn_handle_iff]
  cases input with
  | notification notification =>
    exact iff_of_true ((ringbackInSetup_handleNotification_iff notification).2 h) rfl
  | engine event =>
    cases event with
    | registration signal => exact iff_of_true h rfl
    | call event => exact ringbackInSetup_handleEngine_iff hs h event
  | firing firing =>
    refine iff_of_true ?_ rfl
    exact (ringbackInSetup_congr (handleFiring_calls s firing) (keeps_handleFiring firing).active).2 h
  | command ticket command => exact iff_of_true (ringbackInSetup_handleCommand hs h ticket command) rfl
  | abandoned => exact iff_of_true ringbackInSetup_teardown rfl

end Softphone.Session
