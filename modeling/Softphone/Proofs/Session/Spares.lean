import Softphone.Proofs.Audio.Effects
import Softphone.Proofs.Calls.Actions
import Softphone.Proofs.Network.Hotspot
import Softphone.Proofs.Session.Audible
import Softphone.Proofs.Session.Dialling
import Softphone.Proofs.Session.Lingering

/-!
# What leaves account and networks alone

Most of what a session does concerns neither its account nor the networks (`Session.Spares`): call control,
which is silent as well (`Session.Controls`), the actions of the book of calls, audio, and everything that
passes the session by. What it does about the account leaves the networks alone (`Session.SparesNetwork`),
and the other way round (`Session.SparesAccount`).
-/

namespace Softphone

variable {σ : Type}

/-- A request that may change the account. -/
def Command.isOfAccount : Command → Bool
  | signIn _ | refresh | unregister | shutdown => true
  | _ => false

namespace Session

variable {s s' s'' : Session σ}

/-- The account is left alone. -/
structure SparesAccount (s s' : Session σ) : Prop where
  registration : s'.registration = s.registration
  world : s.world.Grows (·.isAccount = false) s'.world

/-- What the session does about the networks is left alone, and the session goes on as before. -/
structure SparesNetwork (s s' : Session σ) : Prop where
  mobility : s'.mobility = s.mobility
  timers : s.timers.Spares TimerKind.isHotspot s'.timers
  world : s.world.Grows (·.isNetwork = false) s'.world
  ended : s'.ended = s.ended

/-- Account and networks are left alone, and the session goes on as before. -/
structure Spares (s s' : Session σ) : Prop where
  registration : s'.registration = s.registration
  mobility : s'.mobility = s.mobility
  timers : s.timers.Spares TimerKind.isHotspot s'.timers
  world : s.world.Grows Effect.IsLocal s'.world
  ended : s'.ended = s.ended

theorem SparesAccount.trans (h : s.SparesAccount s') (h' : s'.SparesAccount s'') :
    s.SparesAccount s'' :=
  ⟨h'.registration.trans h.registration, h.world.trans h'.world⟩

theorem SparesNetwork.trans (h : s.SparesNetwork s') (h' : s'.SparesNetwork s'') :
    s.SparesNetwork s'' :=
  ⟨h'.mobility.trans h.mobility, h.timers.trans h'.timers, h.world.trans h'.world,
    h'.ended.trans h.ended⟩

namespace Spares

theorem account (h : s.Spares s') : s.SparesAccount s' :=
  ⟨h.registration, h.world.mono fun _ he => he.1⟩

theorem network (h : s.Spares s') : s.SparesNetwork s' :=
  ⟨h.mobility, h.timers, h.world.mono fun _ he => he.2, h.ended⟩

theorem of_grows (hregistration : s'.registration = s.registration)
    (hmobility : s'.mobility = s.mobility) (htimers : s'.timers = s.timers)
    (hended : s'.ended = s.ended) (h : s.world.Grows Effect.IsLocal s'.world) : s.Spares s' :=
  ⟨hregistration, hmobility, htimers ▸ .refl, h, hended⟩

theorem refl : s.Spares s := .of_grows rfl rfl rfl rfl .refl

theorem trans (h : s.Spares s') (h' : s'.Spares s'') : s.Spares s'' where
  registration := h'.registration.trans h.registration
  mobility := h'.mobility.trans h.mobility
  timers := h.timers.trans h'.timers
  world := h.world.trans h'.world
  ended := h'.ended.trans h.ended

/-- A publication that does not concern the registration. -/
theorem publish {event : Event} (hevent : (Effect.publish event).IsLocal) :
    s.Spares (s.publish event) :=
  .of_grows rfl rfl rfl rfl (.note .refl hevent)

theorem reply (h : s.Spares s') (ticket : Ticket) (answer : Reply) :
    s.Spares (s'.reply ticket answer) :=
  h.trans (.of_grows rfl rfl rfl rfl (.note .refl ⟨rfl, rfl⟩))

end Spares

theorem Aside.spares (h : s.Aside s') : s.Spares s' := by
  induction h with
  | refl => exact .refl
  | reply _ ticket answer ih => exact ih.reply ticket answer
  | surroundings _ host ih =>
    exact ih.trans (.of_grows rfl rfl rfl rfl (.within .refl host))
  | setNow _ now ih => exact ih.trans ⟨rfl, rfl, .of_active rfl rfl, .refl, rfl⟩
  | fire _ ih => exact ih.trans ⟨rfl, rfl, .of_active rfl rfl, .refl, rfl⟩

/-! ## Requests about calls -/

/-- What control of calls leaves alone: account, networks, ringing and route. -/
structure Controls (s s' : Session σ) : Prop where
  spares : s.Spares s'
  audio : s.SparesAudio s'

theorem Controls.refl : s.Controls s := ⟨.refl, .refl⟩

/-- Calls are dialled, volumes are raised, and something is asked of the engine. -/
theorem Controls.of_grows {calls : CallBook} {player : Player} {world : World σ}
    (hcalls : s.calls.SameCallers calls) (hplayer : player.active = s.player.active)
    (hworld : s.world.Grows Effect.IsCalm world) : s.Controls { s with calls, player, world } where
  spares := .of_grows rfl rfl rfl rfl (hworld.mono fun _ => And.left)
  audio := ⟨Player.rings_of_active hplayer, rfl, .refl, hcalls, hworld.mono fun _ => And.right⟩

theorem Controls.of_world {world : World σ} (hworld : s.world.Grows Effect.IsCalm world) :
    s.Controls { s with world } :=
  .of_grows .refl rfl hworld

section Requests

theorem controls_withCurrent {α : Type} {act : Call → Except SessionError α × Session σ}
    (h : ∀ call, s.Controls (act call).2) : s.Controls (s.withCurrent act).2 := by
  unfold withCurrent
  split
  · exact h _
  · exact .refl

variable [Engine σ]

theorem controls_dial [StampSource σ] (target : String) : s.Controls (s.dial target).2 := by
  have hdial := dial_cases s target
  generalize s.dial target = r at hdial ⊢
  cases hdial with
  | declined e => exact .refl
  | unallocated hagent | taken hagent => exact .of_world (.step ⟨⟨rfl, rfl⟩, rfl, rfl⟩)
  | placed hagent htrack target hnew =>
    refine .of_grows (.dialled hnew.1 hnew.2 _) rfl (.moveTo (.within ?_ _) ⟨⟨rfl, rfl⟩, rfl, rfl⟩)
    exact .step ⟨⟨rfl, rfl⟩, rfl, rfl⟩

theorem controls_answer [AudioDevice σ] : s.Controls s.answer.2 := by
  refine controls_withCurrent fun call => ?_
  have hasked : s.world.Grows Effect.IsCalm (s.world.answer call.agent call.handle).2 :=
    .step ⟨⟨rfl, rfl⟩, rfl, rfl⟩
  dsimp only
  split
  · exact .of_world hasked
  · exact .of_grows .refl Player.applyCallVolume_active
      (hasked.trans (Player.grows_applyCallVolume s.player _))

theorem controls_endCall (status : Nat × String) : s.Controls (s.endCall status).2 :=
  controls_withCurrent fun _ => .of_world (.step ⟨⟨rfl, rfl⟩, rfl, rfl⟩)

theorem controls_hold (held : Bool) : s.Controls (s.hold held).2 :=
  controls_withCurrent fun _ => .of_world (.step ⟨⟨rfl, rfl⟩, rfl, rfl⟩)

theorem controls_transfer (target : String) : s.Controls (s.transfer target).2 := by
  unfold transfer
  split
  · exact .refl
  · exact controls_withCurrent fun _ => .of_world (.step ⟨⟨rfl, rfl⟩, rfl, rfl⟩)

/-- What is kept as each digit is sent holds after all that were. -/
theorem sendEach_induction {P : World σ → Prop} {call : CallHandle}
    (hsend : ∀ w digit, P w → P (w.sendDigit call digit).2) (digits : List Char) {w : World σ} (hw : P w) :
    P (sendEach call digits w).2 := by
  induction digits generalizing w with
  | nil => exact hw
  | cons digit rest ih =>
    have hsent : P (w.sendDigit call digit).2 := hsend w digit hw
    unfold sendEach
    dsimp only
    split
    · exact ih hsent
    · exact hsent

/-- Nothing but digits comes of sending them. -/
theorem grows_sendEach {p : Effect → Prop} (hp : ∀ call digit accepted, p (.sendDigit call digit accepted))
    (call : CallHandle) (digits : List Char) (w : World σ) : w.Grows p (sendEach call digits w).2 :=
  sendEach_induction (P := w.Grows p) (fun _ _ hgrown => hgrown.trans (.step (hp _ _ _))) digits .refl

theorem controls_sendDigits (digits : String) : s.Controls (s.sendDigits digits).2 := by
  unfold sendDigits
  split
  · exact .refl
  · refine controls_withCurrent fun _ => .of_world ?_
    exact grows_sendEach (fun _ _ _ => ⟨⟨rfl, rfl⟩, rfl, rfl⟩) _ _ _

theorem controls_setMuted (muted : Option Bool) : s.Controls (s.setMuted muted).2 :=
  controls_withCurrent fun _ => .of_world (.step ⟨⟨rfl, rfl⟩, rfl, rfl⟩)

end Requests

/-! ## Requests about the account -/

section Registering

/-- A change of the registration that is published. -/
theorem sparesNetwork_published (registration : Registration) :
    s.SparesNetwork ({ s with registration } : Session σ).publishRegistration :=
  ⟨rfl, .refl, .note .refl rfl, rfl⟩

variable [Engine σ]

theorem sparesNetwork_register (agent : AgentHandle) : s.SparesNetwork (s.register agent) := by
  have hasked : s.SparesNetwork { s with world := (s.world.register agent).2 } :=
    ⟨rfl, .refl, .step rfl, rfl⟩
  unfold register
  dsimp only
  split
  · exact hasked
  · exact hasked.trans ⟨rfl, .refl, .note .refl rfl, rfl⟩

theorem sparesNetwork_releaseAgent : s.SparesNetwork s.releaseAgent := by
  unfold releaseAgent
  split
  · exact ⟨rfl, .refl, .refl, rfl⟩
  · exact ⟨rfl, .refl, .step rfl, rfl⟩

theorem sparesNetwork_refresh : s.SparesNetwork s.refresh.2 := by
  unfold refresh
  split
  · exact ⟨rfl, .refl, .refl, rfl⟩
  · exact ⟨rfl, .refl, .refl, rfl⟩
  · exact (sparesNetwork_published _).trans (sparesNetwork_register _)

theorem sparesNetwork_unregister : s.SparesNetwork s.unregister.2 := by
  unfold unregister
  split
  · exact ⟨rfl, .refl, .refl, rfl⟩
  · exact (sparesNetwork_published _).trans ⟨rfl, .refl, .step rfl, rfl⟩

end Registering

/-! ## Actions of the book of calls -/

section Actions

variable [ToneDevice σ] [AudioDevice σ] {actions : List CallAction}

theorem spares_perform {action : CallAction} (h : action.isOfCall = true) :
    s.Spares (s.perform action).2 := by
  cases action with
  | startRinging =>
    exact ⟨rfl, rfl, Player.spares_startRinging _ _ _,
      (Player.grows_startRinging _ _ _).mono fun _ => And.left, rfl⟩
  | stopRinging =>
    exact ⟨rfl, rfl, Player.spares_stopRinging _ _ _,
      (Player.grows_stopRinging _ _ _).mono fun _ => And.left, rfl⟩
  | playRingback =>
    exact .of_grows rfl rfl rfl rfl ((Player.grows_play _ _ _ _).mono fun _ => And.left)
  | stopTone => exact .of_grows rfl rfl rfl rfl ((Player.grows_stopTone _ _).mono fun _ => And.left)
  | playBusy =>
    have hplayed := (Player.grows_play s.player s.world .busy false).mono fun _ => And.left
    unfold perform
    dsimp only
    split <;> exact .of_grows rfl rfl rfl rfl hplayed
  | releaseAudio =>
    refine .of_grows rfl rfl rfl rfl (.trans ?_ ((Player.grows_releaseAudio s.player _).mono fun _ => And.left))
    exact (Router.grows_cancel s.router s.world).mono fun _ => And.left
  | emit event =>
    cases event with
    | registrationChanged state => cases h
    | _ => exact .publish ⟨rfl, rfl⟩

theorem perform_later_isOfCall {action : CallAction} :
    ∀ later ∈ (s.perform action).1, later.isOfCall = true := by
  by_cases haction : action = .playBusy
  · subst haction
    rcases perform_playBusy_cases s with ⟨_, hlater, _⟩ | ⟨_, hlater, _⟩
    · rw [hlater]
      exact List.forall_mem_nil _
    · rw [hlater]
      exact CallBook.isOfCall_onToneFinished
  · rw [perform_later haction]
    exact List.forall_mem_nil _

theorem spares_performAll (h : ∀ action ∈ actions, action.isOfCall = true) :
    s.Spares (s.performAll actions).2 ∧
      ∀ later ∈ (s.performAll actions).1, later.isOfCall = true := by
  induction actions generalizing s with
  | nil => exact ⟨.refl, List.forall_mem_nil _⟩
  | cons action rest ih =>
    obtain ⟨haction, hrest⟩ := List.forall_mem_cons.1 h
    obtain ⟨hspares, hlater⟩ := ih (s := (s.perform action).2) hrest
    rw [performAll_cons]
    exact ⟨(spares_perform haction).trans hspares,
      List.forall_mem_append.2 ⟨perform_later_isOfCall, hlater⟩⟩

theorem spares_execute (h : ∀ action ∈ actions, action.isOfCall = true) :
    s.Spares (s.execute actions) := by
  obtain ⟨hspares, hlater⟩ := spares_performAll (s := s) h
  exact hspares.trans (spares_performAll hlater).1

end Actions

/-! ## Messages -/

variable [Host σ]

theorem spares_routeAudio (ticket : Ticket) (on : Option Bool) :
    s.Spares (s.routeAudio ticket on) := by
  unfold routeAudio
  cases on with
  | some on => exact .of_grows rfl rfl rfl rfl ((Router.grows_request _ _ _ _).mono fun _ => And.left)
  | none => exact .of_grows rfl rfl rfl rfl ((Router.grows_request _ _ _ _).mono fun _ => And.left)

theorem spares_handleCommand (ticket : Ticket) {command : Command}
    (h : command.isOfAccount = false) : s.Spares (s.handleCommand ticket command) := by
  cases command with
  | signIn account => cases h
  | refresh | unregister | shutdown => cases h
  | dial target => exact (controls_dial target).spares.reply _ _
  | answer => exact controls_answer.spares.reply _ _
  | hangup | reject => exact (controls_endCall _).spares.reply _ _
  | hold held => exact (controls_hold held).spares.reply _ _
  | transfer target => exact (controls_transfer target).spares.reply _ _
  | sendDigits digits => exact (controls_sendDigits digits).spares.reply _ _
  | setMuted muted => exact (controls_setMuted muted).spares.reply _ _
  | setSpeaker on => exact spares_routeAudio ticket on
  | registrationState | isMicOn | isSpeakerOn | currentCall | missedCalls | stats =>
    exact Spares.refl.reply _ _

theorem spares_handleEngine_call (event : CallEvent) : s.Spares (s.handleEngine (.call event)) := by
  refine .trans ?_ (spares_execute CallBook.isOfCall_receive)
  exact .of_grows rfl rfl rfl rfl (.within .refl _)

theorem spares_audioMode (mode : AudioMode) : s.Spares (s.handleNotification (.audioMode mode)) :=
  .of_grows rfl rfl rfl rfl ((Router.grows_onModeChanged _ _ _).mono fun _ => And.left)

theorem spares_toneFinished : s.Spares (s.handleNotification .toneFinished) := by
  unfold handleNotification
  dsimp only
  split
  · refine .trans ?_ (spares_execute CallBook.isOfCall_onToneFinished)
    exact .of_grows rfl rfl rfl rfl .refl
  · exact .of_grows rfl rfl rfl rfl .refl

/-- The firing of a timer that follows no hotspot. -/
theorem spares_handleFiring {firing : Firing} (h : firing.kind.isHotspot = false) :
    s.Spares (s.handleFiring firing) := by
  have htaken : s.Spares { s with timers := (s.timers.accept firing).2 } :=
    ⟨rfl, rfl, .accept h _, .refl, rfl⟩
  unfold handleFiring
  dsimp only
  split
  · refine htaken.trans ?_
    unfold handleTimer
    cases hkind : firing.kind with
    | hotspotDebounce | hotspotFollowUp =>
      rw [hkind] at h
      cases h
    | ringtoneRestart =>
      exact .of_grows rfl rfl rfl rfl ((Player.grows_onRestartTick _ _).mono fun _ => And.left)
    | vibrate =>
      exact .of_grows rfl rfl rfl rfl ((Player.grows_onVibrateTick _ _).mono fun _ => And.left)
  · exact htaken

/-! ## The end -/

/-- A session that has stopped everything but its registration. -/
def halted (s : Session σ) : Session σ :=
  let (mobility, world) := s.mobility.stop s.world
  let (player, timers, world) := s.player.stopAll s.timers.cancelAll world
  let (router, world) := s.router.cancel world.cancelVibration
  { s with timers, mobility, player, router, world := world.abandonFocus, ended := true }

theorem teardown_eq (s : Session σ) : s.teardown = s.halted.unregister.2 := rfl

/-- Once everything is stopped the lock is given back, and no pass is wanted. -/
theorem halted_mobility : s.halted.mobility =
    { s.mobility with running := false, pending := false, lockHeld := false } :=
  Mobility.stop_mobility

/-- All that a session does to the world when it stops concerns networks and audio. -/
theorem grows_halted : (s.mobility.stop s.world).2.Grows Effect.IsLocal s.halted.world := by
  refine .moveTo (.trans ?_ ((Router.grows_cancel s.router _).mono fun _ => And.left)) ⟨rfl, rfl⟩
  exact .moveTo ((Player.grows_stopAll s.player _ _).mono fun _ => And.left) ⟨rfl, rfl⟩

theorem sparesAccount_halted : s.SparesAccount s.halted where
  registration := rfl
  world := .trans (Mobility.grows_stop _ _ rfl) (grows_halted.mono fun _ he => he.1)

theorem running_halted : s.halted.mobility.running = false := by
  rw [halted_mobility]

theorem signIn_ended (s : Session σ) (account : Account) :
    (s.signIn account).2.ended = s.ended := by
  unfold signIn
  split
  · rfl
  have hreleased : s.releaseAgent.ended = s.ended := sparesNetwork_releaseAgent.ended
  dsimp only
  split
  · exact hreleased
  · refine (sparesNetwork_register _).ended.trans ?_
    unfold ensureMobility
    dsimp only
    split <;> exact hreleased

theorem handleFiring_ended (s : Session σ) (firing : Firing) :
    (s.handleFiring firing).ended = s.ended := by
  unfold handleFiring
  dsimp only
  split
  · unfold handleTimer
    cases firing.kind with
    | hotspotFollowUp =>
      dsimp only
      split <;> rfl
    | hotspotDebounce | ringtoneRestart | vibrate => rfl
  · rfl

/-- A message that ends the session stops everything; who asked for it is answered. So it brings about
whatever a teardown does and a reply leaves. -/
theorem ends_induction {P : Session σ → Prop}
    (hreply : ∀ {s'} ticket answer, P s' → P (s'.reply ticket answer)) (h : P s.teardown) {input : Input}
    (hends : input.ends = true) : P (s.handle input) := by
  cases input with
  | notification notification | engine event | firing firing => cases hends
  | command ticket command =>
    cases command with
    | shutdown => exact hreply ticket (.done (.ok ())) h
    | _ => cases hends
  | abandoned => exact h

/-- A session ends by a message that is meant to end it. -/
theorem handle_ended (s : Session σ) (input : Input) :
    (s.handle input).ended = (s.ended || input.ends) := by
  cases input with
  | notification notification =>
    exact (handleNotification_ended s notification).trans (Bool.or_false _).symm
  | engine event =>
    refine Eq.trans ?_ (Bool.or_false _).symm
    cases event with
    | registration signal => rfl
    | call event => exact (spares_handleEngine_call event).ended
  | firing firing => exact (handleFiring_ended s firing).trans (Bool.or_false _).symm
  | command ticket command =>
    cases command with
    | signIn account => exact (signIn_ended s account).trans (Bool.or_false _).symm
    | refresh => exact sparesNetwork_refresh.ended.trans (Bool.or_false _).symm
    | unregister => exact sparesNetwork_unregister.ended.trans (Bool.or_false _).symm
    | shutdown => exact teardown_ended.trans (Bool.or_true _).symm
    | _ => exact (spares_handleCommand ticket rfl).ended.trans (Bool.or_false _).symm
  | abandoned => exact teardown_ended.trans (Bool.or_true _).symm

/-- Nothing that follows in a turn ends the session. -/
theorem turn_ended (s : Session σ) (input : Input) (queued : List Notification) :
    (s.turn input queued).ended = (s.ended || input.ends) := by
  rw [← handle_ended, turn]
  split
  · rfl
  · rw [runPass_ended]
    exact queued_induction (P := fun s' => s'.ended = (s.handle input).ended)
      (fun notification h => (handleNotification_ended _ notification).trans h) rfl queued

/-- A session that has ended follows no networks. -/
theorem running_of_ended {input : Input} (hlive : s.ended = false)
    (hended : (s.handle input).ended = true) : (s.handle input).mobility.running = false := by
  rw [handle_ended, hlive, Bool.false_or] at hended
  have hteardown : s.teardown.mobility.running = false := by
    rw [teardown_eq, sparesNetwork_unregister.mobility]
    exact running_halted
  exact ends_induction (P := fun s' => s'.mobility.running = false) (fun _ _ h => h) hteardown hended

end Session

end Softphone
