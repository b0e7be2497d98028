import Softphone.Proofs.Audio.Volumes
import Softphone.Proofs.Calls.Releasing
import Softphone.Proofs.Network.Steps
import Softphone.Proofs.Session.Performed

/-!
# The call volume is given back

As long as the volumes of before the calls are not given back a call is tracked
(`Session.VolumesHeld`). Raising them needs a live call, and the last call does not go without the
volumes: whoever lets it go has the audio released, now or when the busy tone has ended.
-/

namespace Softphone.Session

variable {σ : Type} [Host σ] {s s' s'' : Session σ} {earlier : σ}

/-- The volumes of an earlier host are in force, or they are remembered while a call is tracked. -/
structure VolumesHeld (earlier : σ) (s : Session σ) : Prop where
  remembered : s.player.Remembers earlier s.world.host
  idle : s.calls.registry.calls = [] → s.player.savedVolumes = []

/-! ## What leaves the volumes alone -/

/-- Nothing is done about volumes, and the last call does not go. -/
structure LeavesVolumes (s s' : Session σ) : Prop where
  saved : s'.player.savedVolumes = s.player.savedVolumes
  steps : Host.Steps s.world.host s'.world.host
  emptied : s'.calls.registry.calls = [] → s.calls.registry.calls = []

namespace LeavesVolumes

theorem of_steps (hplayer : s'.player.savedVolumes = s.player.savedVolumes)
    (hcalls : s'.calls = s.calls) (hsteps : Host.Steps s.world.host s'.world.host) :
    s.LeavesVolumes s' :=
  ⟨hplayer, hsteps, fun h => hcalls ▸ h⟩

theorem refl : s.LeavesVolumes s := ⟨rfl, .refl, id⟩

theorem trans (h : s.LeavesVolumes s') (h' : s'.LeavesVolumes s'') : s.LeavesVolumes s'' :=
  ⟨h'.saved.trans h.saved, h.steps.trans h'.steps, h.emptied ∘ h'.emptied⟩

theorem held [VolumesKept σ] (h : s.LeavesVolumes s') (hs : s.VolumesHeld earlier) :
    s'.VolumesHeld earlier where
  remembered := hs.remembered.steps h.saved h.steps
  idle hnone := h.saved.trans (hs.idle (h.emptied hnone))

end LeavesVolumes

/-! ### Requests -/

theorem leavesVolumes_withCurrent {α : Type} {act : Call → Except SessionError α × Session σ}
    (h : ∀ call, s.LeavesVolumes (act call).2) : s.LeavesVolumes (s.withCurrent act).2 := by
  rw [withCurrent]
  split
  · exact h _
  · exact .refl

theorem leavesVolumes_dial (target : String) : s.LeavesVolumes (s.dial target).2 := by
  have hdial := dial_cases s target
  generalize s.dial target = r at hdial ⊢
  cases hdial with
  | declined e => exact .refl
  | unallocated hagent | taken hagent => exact .of_steps rfl rfl (.one (.allocateCall _))
  | placed hagent htrack target hnew =>
    rename_i agent call tracked
    refine ⟨rfl, .snoc (.snoc (.one (.allocateCall agent)) .stamp) (.connect _ _), ?_⟩
    dsimp only
    cases (s.connection agent call.handle target).1 with
    | true =>
      obtain ⟨-, rfl⟩ := CallBook.track_eq_ok_iff.1 htrack
      rw [CallBook.dialled_connected htrack]
      intro hnone
      simp [Registry.withCurrent] at hnone
    | false =>
      rw [(CallBook.dialled_unconnected htrack).1]
      exact id

theorem leavesVolumes_endCall (status : Nat × String) : s.LeavesVolumes (s.endCall status).2 :=
  leavesVolumes_withCurrent fun _ => .of_steps rfl rfl (.one (.hangup _ _ _ _))

theorem leavesVolumes_hold (held : Bool) : s.LeavesVolumes (s.hold held).2 :=
  leavesVolumes_withCurrent fun _ => .of_steps rfl rfl (.one (.hold _ _))

theorem leavesVolumes_transfer (target : String) : s.LeavesVolumes (s.transfer target).2 := by
  rw [transfer]
  split
  · exact .refl
  · exact leavesVolumes_withCurrent fun _ => .of_steps rfl rfl (.one (.transfer _ _))

theorem steps_sendEach (call : CallHandle) (digits : List Char) (w : World σ) :
    Host.Steps w.host (sendEach call digits w).2.host :=
  sendEach_induction (P := fun w' => Host.Steps w.host w'.host)
    (fun _ digit hsteps => .trans hsteps (.one (.sendDigit call digit))) digits .refl

theorem leavesVolumes_sendDigits (digits : String) : s.LeavesVolumes (s.sendDigits digits).2 := by
  rw [sendDigits]
  split
  · exact .refl
  · exact leavesVolumes_withCurrent fun _ => .of_steps rfl rfl (steps_sendEach _ _ _)

theorem leavesVolumes_setMuted (muted : Option Bool) : s.LeavesVolumes (s.setMuted muted).2 :=
  leavesVolumes_withCurrent fun _ => .of_steps rfl rfl (.one (.muteAll _))

theorem leavesVolumes_routeAudio (ticket : Ticket) (on : Option Bool) :
    s.LeavesVolumes (s.routeAudio ticket on) := by
  cases on with
  | some on => exact .of_steps rfl rfl (Router.steps_request _ _ _ _)
  | none => exact .of_steps rfl rfl (Router.steps_request _ _ _ _)

theorem leavesVolumes_published (registration : Registration) :
    s.LeavesVolumes ({ s with registration } : Session σ).publishRegistration :=
  .of_steps rfl rfl .refl

theorem leavesVolumes_register (agent : AgentHandle) : s.LeavesVolumes (s.register agent) := by
  rw [register]
  split <;> exact .of_steps rfl rfl (.one (.register agent))

theorem leavesVolumes_releaseAgent : s.LeavesVolumes s.releaseAgent := by
  rw [releaseAgent]
  split
  · exact .refl
  · exact .of_steps rfl rfl (.one (.unregister _))

theorem leavesVolumes_ensureMobility : s.LeavesVolumes s.ensureMobility := by
  rw [ensureMobility]
  split
  · exact .refl
  · exact .of_steps rfl rfl (Mobility.steps_start _ _)

theorem leavesVolumes_signIn (account : Account) : s.LeavesVolumes (s.signIn account).2 := by
  rw [signIn]
  split
  · exact .refl
  have hasked : s.LeavesVolumes
      { s.releaseAgent with world := (s.releaseAgent.world.allocateAgent account).2 } :=
    leavesVolumes_releaseAgent.trans (.of_steps rfl rfl (.one (.allocateAgent account)))
  dsimp only
  split
  · exact hasked
  · rename_i agent _
    have hattached : s.LeavesVolumes { s.releaseAgent with
        world := (s.releaseAgent.world.allocateAgent account).2
        registration := s.releaseAgent.registration.attach agent } :=
      ⟨hasked.saved, hasked.steps, hasked.emptied⟩
    have hstarted := hattached.trans leavesVolumes_ensureMobility
    refine .trans ?_ (leavesVolumes_register agent)
    exact ⟨hstarted.saved, hstarted.steps, hstarted.emptied⟩

theorem leavesVolumes_refresh : s.LeavesVolumes s.refresh.2 := by
  rw [refresh]
  split
  · exact .refl
  · exact .refl
  · exact (leavesVolumes_published _).trans (leavesVolumes_register _)

theorem leavesVolumes_unregister : s.LeavesVolumes s.unregister.2 := by
  rw [unregister]
  split
  · exact .refl
  · exact .of_steps rfl rfl (.one (.unregister _))

theorem leavesVolumes_teardown : s.LeavesVolumes s.teardown := by
  have hhalted : s.LeavesVolumes s.halted := by
    refine .of_steps (Player.stopAll_saved _ _ _) rfl ?_
    refine .snoc (.trans ?_ (Router.steps_cancel _ _)) .abandonFocus
    exact .snoc ((Mobility.steps_stop _ _).trans (Player.steps_stopAll _ _ _)) .cancelVibration
  exact hhalted.trans leavesVolumes_unregister

/-! ### Messages without actions -/

theorem LeavesVolumes.reply (h : s.LeavesVolumes s') (ticket : Ticket) (answer : Reply) :
    s.LeavesVolumes (s'.reply ticket answer) :=
  ⟨h.saved, h.steps, h.emptied⟩

/-- A request that does not answer a call. -/
theorem leavesVolumes_handleCommand (ticket : Ticket) {command : Command}
    (h : command ≠ .answer) : s.LeavesVolumes (s.handleCommand ticket command) := by
  cases command with
  | answer => exact absurd rfl h
  | signIn account => exact (leavesVolumes_signIn account).reply _ _
  | dial target => exact (leavesVolumes_dial target).reply _ _
  | hangup | reject => exact (leavesVolumes_endCall _).reply _ _
  | hold held => exact (leavesVolumes_hold held).reply _ _
  | transfer target => exact (leavesVolumes_transfer target).reply _ _
  | sendDigits digits => exact (leavesVolumes_sendDigits digits).reply _ _
  | setMuted muted => exact (leavesVolumes_setMuted muted).reply _ _
  | setSpeaker on => exact leavesVolumes_routeAudio ticket on
  | refresh => exact leavesVolumes_refresh.reply _ _
  | unregister => exact leavesVolumes_unregister.reply _ _
  | shutdown => exact leavesVolumes_teardown.reply _ _
  | registrationState | isMicOn | isSpeakerOn | currentCall | missedCalls | stats =>
    exact LeavesVolumes.refl.reply _ _

theorem leavesVolumes_handleFiring (firing : Firing) : s.LeavesVolumes (s.handleFiring firing) := by
  rw [handleFiring]
  dsimp only
  split
  · cases firing.kind with
    | hotspotDebounce => exact .of_steps rfl rfl (Mobility.steps_onHotspotDebounce _ _ _)
    | hotspotFollowUp =>
      dsimp only [handleTimer]
      split <;> exact .of_steps rfl rfl .refl
    | ringtoneRestart => exact .of_steps rfl rfl (Player.steps_onRestartTick _ _)
    | vibrate => exact .of_steps rfl rfl (Player.steps_onVibrateTick _ _)
  · exact .of_steps rfl rfl .refl

theorem leavesVolumes_runPass : s.LeavesVolumes s.runPass := by
  rw [runPass]
  dsimp only
  split
  · exact .of_steps rfl rfl (Mobility.steps_reconcile _ _)
  · exact .of_steps rfl rfl .refl

/-! ## Actions -/

/-- The volumes of an earlier host are in force or remembered; if no call is tracked any more they are
still to be given back, or there are none. -/
structure VolumesDue (earlier : σ) (actions : List CallAction) (s : Session σ) : Prop where
  remembered : s.player.Remembers earlier s.world.host
  due : s.calls.registry.calls = [] → s.player.savedVolumes = [] ∨ .releaseAudio ∈ actions

theorem perform_leavesVolumes {action : CallAction} (h : action ≠ .releaseAudio) :
    (s.perform action).2.player.savedVolumes = s.player.savedVolumes ∧
      Host.Steps s.world.host (s.perform action).2.world.host := by
  cases action with
  | startRinging =>
    exact ⟨Player.startRinging_saved _ _ _, Player.steps_startRinging _ _ _⟩
  | stopRinging => exact ⟨Player.stopRinging_saved _ _ _, Player.steps_stopRinging _ _ _⟩
  | playRingback => exact ⟨Player.play_saved _ _ _ _, Player.steps_play _ _ _ _⟩
  | stopTone => exact ⟨Player.stopTone_saved _ _, Player.steps_stopTone _ _⟩
  | playBusy =>
    have hsaved := Player.play_saved s.player s.world .busy false
    have hsteps := Player.steps_play s.player s.world .busy false
    rw [perform]
    dsimp only
    split <;> exact ⟨hsaved, hsteps⟩
  | releaseAudio => exact absurd rfl h
  | emit event => exact ⟨rfl, .refl⟩

variable [VolumesKept σ]

/-- Whenever the audio is released the volumes of before the calls are given back. -/
theorem perform_releaseAudio_volumes (h : s.player.Remembers earlier s.world.host) :
    (s.perform .releaseAudio).2.player.savedVolumes = [] ∧
      ∀ stream, AudioDevice.volume stream (s.perform .releaseAudio).2.world.host =
        AudioDevice.volume stream earlier := by
  have hcancelled : s.player.Remembers earlier (s.router.cancel s.world).2.host :=
    h.steps rfl (Router.steps_cancel _ _)
  exact hcancelled.releaseAudio

theorem volumesDue_kept : KeptByActions (VolumesDue earlier) := by
  intro s action rest h
  by_cases haction : action = .releaseAudio
  · subst haction
    obtain ⟨hnone, hvolumes⟩ := perform_releaseAudio_volumes h.remembered
    exact ⟨.inl ⟨hnone, hvolumes⟩, fun _ => .inl hnone⟩
  obtain ⟨hsaved, hsteps⟩ := perform_leavesVolumes (s := s) haction
  refine ⟨h.remembered.steps hsaved hsteps, fun hempty => ?_⟩
  rw [hsaved]
  have hdue : s.calls.registry.calls = [] → s.player.savedVolumes = [] ∨
      .releaseAudio ∈ rest ++ (s.perform action).1 := by
    intro hnone
    refine (h.due hnone).imp_right fun hmem => List.mem_append_left _ ?_
    exact (List.mem_cons.1 hmem).resolve_left (Ne.symm haction)
  by_cases hbusy : action = .playBusy
  · subst hbusy
    rcases perform_playBusy_cases s with ⟨-, -, hcalls⟩ | ⟨-, hlater, hcalls⟩
    · rw [hcalls] at hempty
      exact hdue hempty
    · -- The closed call goes at once; if it was the last one, its end is what asks for the release.
      rw [hcalls] at hempty
      rcases CallBook.onToneFinished_of_emptied hempty with hnone | hmem
      · exact hdue hnone
      · rw [hlater]
        exact .inr (List.mem_append_right _ hmem)
  · rw [perform_calls hbusy] at hempty
    exact hdue hempty

theorem volumesHeld_executed {actions : List CallAction} (h : s.VolumesDue earlier actions) :
    (∀ e ∈ s.executed actions, e.2.player.Remembers earlier e.2.world.host) ∧
      (s.execute actions).VolumesHeld earlier := by
  obtain ⟨hactions, hend⟩ := executed_induction volumesDue_kept h
  refine ⟨fun e he => ?_, hend.remembered, fun hempty => ?_⟩
  · obtain ⟨rest, hdue⟩ := hactions e he
    exact hdue.remembered
  · exact (hend.due hempty).resolve_right List.not_mem_nil

/-! ## Messages -/

/-- Answering raises the volumes of a call that is tracked. -/
theorem volumesHeld_answer (hs : s.VolumesHeld earlier) : s.answer.2.VolumesHeld earlier := by
  rw [answer, withCurrent]
  cases hlive : s.currentLive? with
  | none => exact hs
  | some call =>
    have hasked : s.player.Remembers earlier (s.world.answer call.agent call.handle).2.host :=
      hs.remembered.steps rfl (.one (.answer _ _))
    dsimp only
    split
    · exact ⟨hasked, hs.idle⟩
    · refine ⟨hasked.applyCallVolume, fun hempty => ?_⟩
      rw [currentLive?, Registry.currentLive?_of_empty hempty] at hlive
      cases hlive

theorem volumesHeld_handleCommand (hs : s.VolumesHeld earlier) (ticket : Ticket) (command : Command) :
    (s.handleCommand ticket command).VolumesHeld earlier := by
  by_cases h : command = .answer
  · subst h
    have hanswered := volumesHeld_answer hs
    exact ⟨hanswered.remembered, hanswered.idle⟩
  · exact (leavesVolumes_handleCommand ticket h).held hs

theorem volumesHeld_handleNotification (hs : s.VolumesHeld earlier) (notification : Notification) :
    (∀ e ∈ s.notificationActions notification, e.2.player.Remembers earlier e.2.world.host) ∧
      (s.handleNotification notification).VolumesHeld earlier := by
  cases notification with
  | network change =>
    refine ⟨List.forall_mem_nil _, ?_⟩
    cases change with
    | hotspotChanged enabled =>
      have hleaves : s.LeavesVolumes
          (s.handleNotification (.network (.hotspotChanged enabled))) :=
        .of_steps rfl rfl (Mobility.steps_onHotspotChanged _ _ _ _)
      exact hleaves.held hs
    | _ => exact ⟨hs.remembered, hs.idle⟩
  | audioMode mode =>
    have hleaves : s.LeavesVolumes (s.handleNotification (.audioMode mode)) :=
      .of_steps rfl rfl (Router.steps_onModeChanged _ _ _)
    exact ⟨List.forall_mem_nil _, hleaves.held hs⟩
  | toneFinished =>
    have hsaved := Player.onToneFinished_saved s.player
    rw [notificationActions, handleNotification]
    dsimp only
    split
    · apply volumesHeld_executed
      refine ⟨hs.remembered.steps hsaved .refl, fun hempty => ?_⟩
      refine (CallBook.onToneFinished_of_emptied hempty).imp_left fun hnone => ?_
      exact hsaved.trans (hs.idle hnone)
    · exact ⟨List.forall_mem_nil _, hs.remembered.steps hsaved .refl,
        fun hnone => hsaved.trans (hs.idle hnone)⟩

theorem volumesHeld_handle (hcalls : s.calls.Consistent) (hs : s.VolumesHeld earlier) (input : Input) :
    (∀ e ∈ s.inputActions input, e.2.player.Remembers earlier e.2.world.host) ∧
      (s.handle input).VolumesHeld earlier := by
  cases input with
  | notification notification => exact volumesHeld_handleNotification hs notification
  | engine event =>
    cases event with
    | registration signal => exact ⟨List.forall_mem_nil _, hs.remembered, hs.idle⟩
    | call event =>
      apply volumesHeld_executed
      refine ⟨hs.remembered.steps rfl (.one .stamp), fun hempty => ?_⟩
      exact (CallBook.receive_of_emptied hcalls hempty).imp_left hs.idle
  | firing firing => exact ⟨List.forall_mem_nil _, (leavesVolumes_handleFiring firing).held hs⟩
  | command ticket command =>
    exact ⟨List.forall_mem_nil _, volumesHeld_handleCommand hs ticket command⟩
  | abandoned => exact ⟨List.forall_mem_nil _, leavesVolumes_teardown.held hs⟩

theorem volumesHeld_queued (hs : s.VolumesHeld earlier) (queued : List Notification) :
    (∀ e ∈ queuedActions queued s, e.2.player.Remembers earlier e.2.world.host) ∧
      (queued.foldl handleNotification s).VolumesHeld earlier := by
  induction queued generalizing s with
  | nil => exact ⟨List.forall_mem_nil _, hs⟩
  | cons notification rest ih =>
    obtain ⟨hfirst, hnext⟩ := volumesHeld_handleNotification hs notification
    obtain ⟨hrest, hend⟩ := ih hnext
    exact ⟨List.forall_mem_append.2 ⟨hfirst, hrest⟩, hend⟩

/-- Throughout a turn the volumes of before the calls are in force or remembered, and remembered only
while a call is tracked. -/
theorem volumesHeld_turn (hcalls : s.calls.Consistent) (hs : s.VolumesHeld earlier) (input : Input)
    (queued : List Notification) :
    (∀ e ∈ s.turnActions input queued, e.2.player.Remembers earlier e.2.world.host) ∧
      (s.turn input queued).VolumesHeld earlier := by
  obtain ⟨hinput, hhandled⟩ := volumesHeld_handle hcalls hs input
  obtain ⟨hqueued, hend⟩ := volumesHeld_queued hhandled (s.taken input queued)
  refine ⟨List.forall_mem_append.2 ⟨hinput, hqueued⟩, ?_⟩
  cases hended : (s.handle input).ended with
  | true =>
    rw [turn_of_ended hended]
    exact hend
  | false =>
    rw [turn_of_going hended]
    exact leavesVolumes_runPass.held hend

end Softphone.Session
