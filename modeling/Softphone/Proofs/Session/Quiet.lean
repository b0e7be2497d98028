import Softphone.Proofs.Session.Spares

/-!
# Quiet messages

Which messages leave ringing, the route and the callers alone (`Session.SparesAudio`): requests, except
for the speaker and the end, once they are answered (`Session.handleCommand_cases`), what is reported of
the networks, and the passes.
-/

namespace Softphone.Session

variable {σ : Type} {s s' : Session σ}

/-! ## Account and networks -/

section Registering

theorem sparesAudio_published (registration : Registration) :
    s.SparesAudio ({ s with registration } : Session σ).publishRegistration :=
  .of_grows rfl rfl rfl rfl (.note .refl ⟨rfl, rfl⟩)

variable [Engine σ]

theorem sparesAudio_register (agent : AgentHandle) : s.SparesAudio (s.register agent) := by
  have hasked : s.world.Grows Effect.IsSilent (s.world.register agent).2 := .step ⟨rfl, rfl⟩
  unfold register
  dsimp only
  split
  · exact .of_grows rfl rfl rfl rfl hasked
  · exact .of_grows rfl rfl rfl rfl (hasked.note ⟨rfl, rfl⟩)

theorem sparesAudio_releaseAgent : s.SparesAudio s.releaseAgent := by
  unfold releaseAgent
  split
  · exact .refl
  · exact .of_grows rfl rfl rfl rfl (.step ⟨rfl, rfl⟩)

theorem sparesAudio_refresh : s.SparesAudio s.refresh.2 := by
  unfold refresh
  split
  · exact .refl
  · exact .refl
  · exact (sparesAudio_published _).trans (sparesAudio_register _)

theorem sparesAudio_unregister : s.SparesAudio s.unregister.2 := by
  unfold unregister
  split
  · exact .refl
  · exact (sparesAudio_published _).trans (.of_grows rfl rfl rfl rfl (.step ⟨rfl, rfl⟩))

variable [Connectivity σ]

theorem sparesAudio_ensureMobility : s.SparesAudio s.ensureMobility := by
  unfold ensureMobility
  split
  · exact .refl
  · exact .of_grows rfl rfl rfl rfl (Mobility.grows_start _ _ fun _ _ => ⟨rfl, rfl⟩)

theorem sparesAudio_signIn (account : Account) : s.SparesAudio (s.signIn account).2 := by
  unfold signIn
  split
  · exact .refl
  have hasked : s.SparesAudio
      { s.releaseAgent with world := (s.releaseAgent.world.allocateAgent account).2 } :=
    sparesAudio_releaseAgent.trans (.of_grows rfl rfl rfl rfl (.step ⟨rfl, rfl⟩))
  dsimp only
  split
  · exact hasked
  · rename_i agent _
    have hattached : s.SparesAudio { s.releaseAgent with
        world := (s.releaseAgent.world.allocateAgent account).2
        registration := s.releaseAgent.registration.attach agent } :=
      hasked.trans (.of_grows rfl rfl rfl rfl .refl)
    refine .trans ?_ (sparesAudio_register agent)
    exact (hattached.trans sparesAudio_ensureMobility).trans (.of_grows rfl rfl rfl rfl .refl)

end Registering

variable [Host σ]

theorem sparesAudio_network (change : NetworkNotification) :
    s.SparesAudio (s.handleNotification (.network change)) := by
  cases change with
  | hotspotChanged enabled =>
    refine ⟨rfl, rfl, ?_, .refl, Mobility.grows_onHotspotChanged s.mobility s.world
      (fun _ _ => Effect.silent_of_isNetwork rfl) enabled s.timers⟩
    change s.timers.SetsNone _ (s.mobility.onHotspotChanged enabled s.timers s.world).2.1
    unfold Mobility.onHotspotChanged
    split
    · exact .refl
    · split
      · exact .trans (.cancelKind _ _) (.scheduleOnce rfl _ _)
      · exact .trans (.cancelKind _ _) (.cancelKind _ _)
  | _ => exact .of_grows rfl rfl rfl rfl .refl

theorem sparesAudio_runPass : s.SparesAudio s.runPass := by
  unfold runPass
  dsimp only
  split
  · exact .of_grows rfl rfl rfl rfl
      ((Mobility.grows_reconcile _ _).mono fun _ => Effect.silent_of_isNetwork)
  · exact .of_grows rfl rfl rfl rfl .refl

/-! ## Requests -/

/-- A request that is neither for the speaker nor to end the session is answered at once, and nothing
else of it is heard. -/
theorem handleCommand_cases (ticket : Ticket) {command : Command}
    (hspeaker : ∀ on, command ≠ .setSpeaker on) (hends : command ≠ .shutdown) :
    ∃ s' answer, s.SparesAudio s' ∧ s.handleCommand ticket command = s'.reply ticket answer := by
  cases command with
  | signIn account => exact ⟨_, _, sparesAudio_signIn account, rfl⟩
  | dial target => exact ⟨_, _, (controls_dial target).audio, rfl⟩
  | answer => exact ⟨_, _, controls_answer.audio, rfl⟩
  | hangup | reject => exact ⟨_, _, (controls_endCall _).audio, rfl⟩
  | hold held => exact ⟨_, _, (controls_hold held).audio, rfl⟩
  | transfer target => exact ⟨_, _, (controls_transfer target).audio, rfl⟩
  | sendDigits digits => exact ⟨_, _, (controls_sendDigits digits).audio, rfl⟩
  | setMuted muted => exact ⟨_, _, (controls_setMuted muted).audio, rfl⟩
  | setSpeaker on => exact absurd rfl (hspeaker on)
  | refresh => exact ⟨_, _, sparesAudio_refresh, rfl⟩
  | unregister => exact ⟨_, _, sparesAudio_unregister, rfl⟩
  | shutdown => exact absurd rfl hends
  | registrationState | isMicOn | isSpeakerOn | currentCall | missedCalls | stats =>
    exact ⟨_, _, .refl, rfl⟩

/-! ## Firings -/

/-- The firing of a timer that goes with no ringing. -/
theorem sparesAudio_handleFiring {firing : Firing}
    (h : (s.timers.accept firing).1 = true → firing.kind.isRinging = false) :
    s.SparesAudio (s.handleFiring firing) := by
  have htaken : s.SparesAudio { s with timers := (s.timers.accept firing).2 } :=
    ⟨rfl, rfl, .accept _ _, .refl, .refl⟩
  unfold handleFiring
  dsimp only
  split
  · rename_i haccepted
    refine htaken.trans ?_
    unfold handleTimer
    cases hkind : firing.kind with
    | hotspotDebounce =>
      generalize ({ s with timers := (s.timers.accept firing).2 } : Session σ) = s
      refine ⟨rfl, rfl, ?_, .refl, Mobility.grows_onHotspotDebounce s.mobility s.world
        (fun _ _ _ => Effect.silent_of_isNetwork rfl) s.timers⟩
      change s.timers.SetsNone _ (s.mobility.onHotspotDebounce s.timers s.world).2.1
      unfold Mobility.onHotspotDebounce
      split
      · exact .refl
      · dsimp only
        split
        · exact .scheduleOnce rfl _ _
        · exact .refl
    | hotspotFollowUp =>
      dsimp only
      split
      · exact .of_grows rfl rfl rfl rfl .refl
      · exact .refl
    | ringtoneRestart | vibrate =>
      have hother := h haccepted
      rw [hkind] at hother
      cases hother
  · exact htaken

/-- The firing of a timer of ringing comes to what the player does, if it counts, and it stops nothing. -/
theorem handleFiring_of_ringing {firing : Firing} (h : firing.kind.isRinging = true) :
    ∃ w, s.handleFiring firing = { s with timers := (s.timers.accept firing).2, world := w } ∧
      s.world.Grows Effect.IsOfPlayer w ∧ s.world.Grows (· ≠ .stopRingtone) w := by
  unfold handleFiring
  dsimp only
  split
  · unfold handleTimer
    cases hkind : firing.kind with
    | hotspotDebounce | hotspotFollowUp =>
      rw [hkind] at h
      cases h
    | ringtoneRestart =>
      exact ⟨_, rfl, Player.grows_onRestartTick _ _, Player.onRestartTick_keepsRinging _ _⟩
    | vibrate =>
      exact ⟨_, rfl, Player.grows_onVibrateTick _ _, Player.onVibrateTick_keepsRinging _ _⟩
  · exact ⟨_, rfl, .refl, .refl⟩

end Softphone.Session
