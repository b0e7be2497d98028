import Softphone.Proofs.Audio.Playing
import Softphone.Proofs.Network.Hotspot
import Softphone.Proofs.Session.Passes

/-!
# What a message does about the networks

`networkStep_handle` says it once for all messages. Most leave alone what a session keeps of the networks,
or at most ask for a pass (`Session.KeepsNetwork`). What is left is named: a report on the hotspot, the
firing of its first timer, the sign-in with which the networks begin to be followed, and the end.
-/

namespace Softphone

variable {σ : Type}

/-- What a message reports of the hotspot, if it does. -/
def Input.hotspotReport? : Input → Option Bool
  | notification (.network (.hotspotChanged enabled)) => some enabled
  | _ => none

theorem Input.hotspotReport?_of_ends {input : Input} (h : input.ends = true) :
    input.hotspotReport? = none := by
  cases input with
  | notification notification => cases h
  | _ => rfl

namespace Session

variable {s s' s'' s₀ : Session σ}

/-- Whether a message is the firing of a timer of a kind, and counts. -/
def takesFiring (kind : TimerKind) (s : Session σ) : Input → Bool
  | .firing firing => firing.kind == kind && (s.timers.accept firing).1
  | _ => false

/-- A session with what a mobility was asked to make of networks, timers and world. -/
def withNetwork (s : Session σ) (r : Mobility × Timers × World σ) : Session σ :=
  { s with mobility := r.1, timers := r.2.1, world := r.2.2 }

@[simp] theorem withNetwork_mobility (r : Mobility × Timers × World σ) :
    (s.withNetwork r).mobility = r.1 := rfl

@[simp] theorem withNetwork_timers (r : Mobility × Timers × World σ) :
    (s.withNetwork r).timers = r.2.1 := rfl

@[simp] theorem withNetwork_world (r : Mobility × Timers × World σ) :
    (s.withNetwork r).world = r.2.2 := rfl

/-! ## What is left alone -/

/-- What is kept of the networks stays, but for wishes for a pass. Of the timers of the hotspot the second
may be used up. -/
structure KeepsNetwork (s s' : Session σ) : Prop where
  mobility : ∃ pending stats, s'.mobility = { s.mobility with pending, stats }
  debounce : s.timers.Spares (· == .hotspotDebounce) s'.timers
  followUp : s.timers.Numbered → s'.timers.isActive .hotspotFollowUp = true →
    s.timers.isActive .hotspotFollowUp = true
  world : s.world.Grows (·.isTransport = false) s'.world

namespace KeepsNetwork

theorem refl : s.KeepsNetwork s := ⟨⟨_, _, rfl⟩, .refl, fun _ => id, .refl⟩

theorem trans (h : s.KeepsNetwork s') (h' : s'.KeepsNetwork s'') : s.KeepsNetwork s'' where
  mobility := by
    obtain ⟨_, _, hmobility⟩ := h.mobility
    obtain ⟨pending, stats, hmobility'⟩ := h'.mobility
    exact ⟨pending, stats, by rw [hmobility', hmobility]⟩
  debounce := h.debounce.trans h'.debounce
  followUp hnumbered hactive :=
    h.followUp hnumbered (h'.followUp (h.debounce.numbered hnumbered) hactive)
  world := h.world.trans h'.world

/-- The timers and the world stay as they are. -/
theorem of_mobility {mobility : Mobility}
    (h : ∃ pending stats, mobility = { s.mobility with pending, stats }) :
    s.KeepsNetwork { s with mobility } :=
  ⟨h, .refl, fun _ => id, .refl⟩

theorem running (h : s.KeepsNetwork s') : s'.mobility.running = s.mobility.running := by
  obtain ⟨_, _, hmobility⟩ := h.mobility
  rw [hmobility]

theorem hotspotOn (h : s.KeepsNetwork s') : s'.mobility.hotspotOn = s.mobility.hotspotOn := by
  obtain ⟨_, _, hmobility⟩ := h.mobility
  rw [hmobility]

theorem hotspotAddresses (h : s.KeepsNetwork s') :
    s'.mobility.hotspotAddresses = s.mobility.hotspotAddresses := by
  obtain ⟨_, _, hmobility⟩ := h.mobility
  rw [hmobility]

theorem snapshot (h : s.KeepsNetwork s') : s'.mobility.snapshot = s.mobility.snapshot := by
  obtain ⟨_, _, hmobility⟩ := h.mobility
  rw [hmobility]

theorem resolvers (h : s.KeepsNetwork s') : s'.mobility.settings = s.mobility.settings ∧
    s'.mobility.resolvers = s.mobility.resolvers := by
  obtain ⟨_, _, hmobility⟩ := h.mobility
  rw [hmobility]
  exact ⟨rfl, rfl⟩

theorem lockHeld (h : s.KeepsNetwork s') : s'.mobility.lockHeld = s.mobility.lockHeld := by
  obtain ⟨_, _, hmobility⟩ := h.mobility
  rw [hmobility]

end KeepsNetwork

theorem SparesNetwork.keeps (h : s.SparesNetwork s') : s.KeepsNetwork s' where
  mobility := ⟨_, _, h.mobility⟩
  debounce := h.timers.mono fun k hk => by rw [eq_of_beq hk]; rfl
  followUp hnumbered hactive := by
    rwa [h.timers.isActive hnumbered rfl] at hactive
  world := h.world.mono fun _ => Effect.isTransport_of_not_network

theorem Aside.keepsNetwork (h : s.Aside s') : s.KeepsNetwork s' := h.spares.network.keeps

theorem keepsNetwork_request : s.KeepsNetwork { s with mobility := s.mobility.request } :=
  .of_mobility ⟨_, _, rfl⟩

/-- Whatever is reported of a network, a pass is asked for at most. -/
theorem keepsNetwork_observe (change : NetworkNotification) :
    s.KeepsNetwork { s with mobility := s.mobility.observe change } :=
  .of_mobility (Mobility.observe_mobility _ change)

section Registering

variable [Engine σ]

/-- The session that has been given an agent for an account, if the engine makes one. -/
def signedIn? (account : Account) (s : Session σ) : Option (Session σ) :=
  match account.check with
  | .error _ => none
  | .ok () =>
    let r := s.releaseAgent.world.allocateAgent account
    match r.1 with
    | .error _ => none
    | .ok agent => some { s.releaseAgent with
        world := r.2
        registration := s.releaseAgent.registration.attach agent }

/-- The session in which a message makes the networks be followed: a sign-in has been given an agent, and
they are not followed yet. -/
def begins? (s : Session σ) : Input → Option (Session σ)
  | .command _ (.signIn account) => (s.signedIn? account).filter (!·.mobility.running)
  | _ => none

theorem sparesNetwork_of_signedIn? {account : Account} (h : s.signedIn? account = some s₀) :
    s.SparesNetwork s₀ := by
  rw [signedIn?] at h
  split at h
  · cases h
  dsimp only at h
  split at h
  · cases h
  · cases h
    exact sparesNetwork_releaseAgent.trans ⟨rfl, .refl, .step rfl, rfl⟩

theorem keepsNetwork_of_begins? {input : Input} (h : s.begins? input = some s₀) :
    s.KeepsNetwork s₀ ∧ s.mobility.running = false := by
  simp only [begins?] at h
  split at h
  · obtain ⟨hsigned, hidle⟩ := Option.filter_eq_some_iff.1 h
    have hkeeps := (sparesNetwork_of_signedIn? hsigned).keeps
    refine ⟨hkeeps, ?_⟩
    rw [← hkeeps.running]
    exact Bool.not_eq_true' _ ▸ hidle
  · cases h

/-- Only a sign-in begins anything. -/
theorem begins?_of_ends {input : Input} (h : input.ends = true) : s.begins? input = none := by
  cases input with
  | command ticket command =>
    cases command with
    | shutdown => rfl
    | _ => cases h
  | _ => rfl

theorem hotspotReport?_of_begins? {input : Input} (h : s.begins? input = some s₀) :
    input.hotspotReport? = none := by
  cases input with
  | notification notification => cases h
  | _ => rfl

variable [Connectivity σ]

/-- A session that has begun to follow the networks, and asks for a pass. -/
def begun (s : Session σ) : Session σ :=
  let (mobility, world) := s.mobility.start s.world
  { s with mobility := mobility.request, world }

theorem begun_mobility (s : Session σ) : ∃ resolvers, s.begun.mobility =
    ({ s.mobility with
      running := true
      hotspotOn := s.world.platform.hotspotEnabled
      hotspotAddresses :=
        if s.world.platform.hotspotEnabled then Hotspot.discover s.world.platform.interfaces
        else s.mobility.hotspotAddresses
      resolvers } : Mobility).request := by
  obtain ⟨resolvers, hmobility⟩ := Mobility.start_mobility (m := s.mobility) (w := s.world)
  exact ⟨resolvers, congrArg Mobility.request hmobility⟩

/-- What is known of the hotspot when the networks begin to be followed is what the platform tells. -/
theorem begun_hotspot (s : Session σ) :
    s.begun.timers = s.timers ∧ s.begun.mobility.running = true ∧
      s.begun.mobility.hotspotOn = s.world.platform.hotspotEnabled ∧
      s.begun.mobility.hotspotAddresses =
        if s.world.platform.hotspotEnabled then Hotspot.discover s.world.platform.interfaces
        else s.mobility.hotspotAddresses := by
  obtain ⟨_, hmobility⟩ := s.begun_mobility
  rw [hmobility]
  exact ⟨rfl, rfl, rfl, rfl⟩

/-- A sign-in comes to nothing, or the session that was given the agent goes on from there. -/
theorem signIn_cases (s : Session σ) (account : Account) :
    (s.signedIn? account = none ∧ s.SparesNetwork (s.signIn account).2) ∨
      ∃ s₀, s.signedIn? account = some s₀ ∧
        ({ s₀.ensureMobility with mobility := s₀.ensureMobility.mobility.request } :
          Session σ).SparesNetwork (s.signIn account).2 := by
  rw [signIn, signedIn?]
  cases account.check with
  | error e => exact .inl ⟨rfl, Spares.refl.network⟩
  | ok _ =>
    dsimp only
    cases houtcome : (s.releaseAgent.world.allocateAgent account).1 with
    | error e =>
      exact .inl ⟨rfl, sparesNetwork_releaseAgent.trans ⟨rfl, .refl, .step rfl, rfl⟩⟩
    | ok agent =>
      exact .inr ⟨_, rfl, sparesNetwork_register agent⟩

end Registering

/-! ## The end -/

section Halted

variable [Host σ]

theorem spares_halted : s.timers.cancelAll.Spares TimerKind.isHotspot s.halted.timers :=
  Player.spares_stopAll _ _ _

theorem numbered_halted (hnumbered : s.timers.Numbered) : s.halted.timers.Numbered :=
  spares_halted.numbered (hnumbered.cancelWhere _)

/-- No timer is active once everything is stopped. -/
theorem active_halted : s.halted.timers.active = [] :=
  Player.stopAll_timers s.timers.active_cancelAll

theorem isActive_halted (kind : TimerKind) : s.halted.timers.isActive kind = false := by
  rw [Timers.isActive, active_halted]
  rfl

theorem sparesTransport_halted : s.world.Grows (·.isTransport = false) s.halted.world :=
  (Mobility.grows_stop (p := (·.isTransport = false)) _ _ rfl).trans
    (grows_halted.mono fun _ he => Effect.isTransport_of_not_network he.2)

end Halted

/-! ## Messages -/

variable [Host σ]

/-- What a message does about the networks. -/
inductive NetworkStep (s : Session σ) : Input → Session σ → Prop
  /-- At most it asks for a pass. -/
  | kept {input : Input} {s' : Session σ} (hreport : input.hotspotReport? = none)
    (hfiring : s.takesFiring .hotspotDebounce input = false) (hbegins : s.begins? input = none)
    (h : s.KeepsNetwork s') : NetworkStep s input s'
  | reported (enabled : Bool) :
    NetworkStep s (.notification (.network (.hotspotChanged enabled)))
      (s.withNetwork (s.mobility.onHotspotChanged enabled s.timers s.world))
  | debounced {firing : Firing} (hfiring : s.takesFiring .hotspotDebounce (.firing firing) = true) :
    NetworkStep s (.firing firing)
      (s.withNetwork (s.mobility.onHotspotDebounce (s.timers.accept firing).2 s.world))
  | began {input : Input} {s₀ s' : Session σ} (hbegins : s.begins? input = some s₀)
    (h : s₀.begun.SparesNetwork s') : NetworkStep s input s'
  | stopped {input : Input} {s' : Session σ} (hends : input.ends = true)
    (h : s.halted.KeepsNetwork s') : NetworkStep s input s'

theorem networkStep_handleNotification (notification : Notification) :
    s.NetworkStep (.notification notification) (s.handleNotification notification) := by
  cases notification with
  | network change =>
    cases change with
    | hotspotChanged enabled => exact .reported enabled
    | _ => exact .kept rfl rfl rfl (keepsNetwork_observe _)
  | audioMode mode => exact .kept rfl rfl rfl (spares_audioMode mode).network.keeps
  | toneFinished => exact .kept rfl rfl rfl spares_toneFinished.network.keeps

/-- The second timer of a hotspot asks for a pass. -/
theorem keepsNetwork_followUp {firing : Firing} (hkind : firing.kind = .hotspotFollowUp) :
    s.KeepsNetwork (s.handleFiring firing) := by
  have htaken : s.KeepsNetwork { s with timers := (s.timers.accept firing).2 } := by
    refine ⟨⟨_, _, rfl⟩, .accept (by rw [hkind]; rfl) _, fun _ hactive => ?_, .refl⟩
    obtain ⟨timer, htimer, hof⟩ := List.any_eq_true.1 hactive
    exact List.any_eq_true.2 ⟨timer, Timers.accept_active_sublist.subset htimer, hof⟩
  rw [handleFiring]
  dsimp only
  split
  · rw [hkind, handleTimer]
    split
    · exact htaken.trans keepsNetwork_request
    · exact htaken
  · exact htaken

theorem networkStep_handleFiring (firing : Firing) :
    s.NetworkStep (.firing firing) (s.handleFiring firing) := by
  cases hkind : firing.kind with
  | hotspotDebounce =>
    cases haccepted : (s.timers.accept firing).1 with
    | true =>
      have hcounts : s.takesFiring .hotspotDebounce (.firing firing) = true := by
        rw [takesFiring, hkind, haccepted]
        rfl
      have hstep := NetworkStep.debounced hcounts
      rw [handleFiring]
      dsimp only
      rw [if_pos haccepted, hkind]
      exact hstep
    | false =>
      refine .kept rfl (by rw [takesFiring, haccepted, Bool.and_false]) rfl ?_
      rw [handleFiring]
      dsimp only
      rw [if_neg (Bool.eq_false_iff.1 haccepted), Timers.accept_of_refused haccepted]
      exact .refl
  | hotspotFollowUp =>
    exact .kept rfl (by rw [takesFiring, hkind]; rfl) rfl (keepsNetwork_followUp hkind)
  | ringtoneRestart | vibrate =>
    refine .kept rfl (by rw [takesFiring, hkind]; rfl) rfl (spares_handleFiring ?_).network.keeps
    rw [hkind]
    rfl

theorem networkStep_signIn (ticket : Ticket) (account : Account) :
    s.NetworkStep (.command ticket (.signIn account))
      (s.handleCommand ticket (.signIn account)) := by
  have hanswered : ∀ {s₁ : Session σ}, s₁.SparesNetwork (s.signIn account).2 →
      s₁.SparesNetwork (s.handleCommand ticket (.signIn account)) :=
    fun h => h.trans (Spares.refl.reply ticket _).network
  rcases signIn_cases s account with ⟨hnone, hspares⟩ | ⟨s₀, hsigned, hfollows⟩
  · exact .kept rfl rfl (by rw [begins?, hnone]; rfl) (hanswered hspares).keeps
  · cases hrunning : s₀.mobility.running with
    | true =>
      rw [ensureMobility, if_pos hrunning] at hfollows
      refine .kept rfl rfl ?_ ((sparesNetwork_of_signedIn? hsigned).keeps.trans
        (keepsNetwork_request.trans (hanswered hfollows).keeps))
      rw [begins?, hsigned, Option.filter_some, hrunning]
      rfl
    | false =>
      have hbegins : s.begins? (.command ticket (.signIn account)) = some s₀ := by
        rw [begins?, hsigned, Option.filter_some, hrunning]
        rfl
      rw [ensureMobility, hrunning] at hfollows
      exact .began hbegins (hanswered hfollows)

theorem keepsNetwork_teardown : s.halted.KeepsNetwork s.teardown := sparesNetwork_unregister.keeps

theorem networkStep_handleCommand (ticket : Ticket) (command : Command) :
    s.NetworkStep (.command ticket command) (s.handleCommand ticket command) := by
  have hreply : ∀ {s₁ s₂ : Session σ} {answer}, s₁.KeepsNetwork s₂ →
      s₁.KeepsNetwork (s₂.reply ticket answer) :=
    fun h => h.trans (Spares.refl.reply ticket _).network.keeps
  cases command with
  | signIn account => exact networkStep_signIn ticket account
  | refresh => exact .kept rfl rfl rfl (hreply sparesNetwork_refresh.keeps)
  | unregister => exact .kept rfl rfl rfl (hreply sparesNetwork_unregister.keeps)
  | shutdown => exact .stopped rfl (hreply keepsNetwork_teardown)
  | _ => exact .kept rfl rfl rfl (spares_handleCommand ticket rfl).network.keeps

/-- **What a message does about the networks.** -/
theorem networkStep_handle (input : Input) : s.NetworkStep input (s.handle input) := by
  cases input with
  | notification notification => exact networkStep_handleNotification notification
  | engine event =>
    cases event with
    | registration signal => exact .kept rfl rfl rfl (sparesNetwork_published _).keeps
    | call event => exact .kept rfl rfl rfl (spares_handleEngine_call event).network.keeps
  | firing firing => exact networkStep_handleFiring firing
  | command ticket command => exact networkStep_handleCommand ticket command
  | abandoned => exact .stopped rfl keepsNetwork_teardown

/-- No number of a timer is given out twice. -/
theorem NetworkStep.numbered {input : Input} (h : s.NetworkStep input s')
    (hnumbered : s.timers.Numbered) : s'.timers.Numbered := by
  cases h with
  | kept _ _ _ hkeeps => exact hkeeps.debounce.numbered hnumbered
  | reported enabled => exact Mobility.numbered_onHotspotChanged hnumbered _ _ _
  | debounced _ => exact Mobility.numbered_onHotspotDebounce (hnumbered.accept _) _ _
  | began hbegins hspares =>
    exact hspares.timers.numbered ((keepsNetwork_of_begins? hbegins).1.debounce.numbered hnumbered)
  | stopped _ hkeeps => exact hkeeps.debounce.numbered (numbered_halted hnumbered)

/-! ## The rest of a turn -/

/-- A turn ends with a pass while the networks are followed, or it does nothing more about them. -/
theorem runPass_cases (s : Session σ) :
    s.KeepsNetwork s.runPass ∨ (s.mobility.running = true ∧ s.runPass = s.passed) := by
  cases hpending : s.mobility.pending with
  | false =>
    rw [runPass_of_idle hpending]
    exact .inl .refl
  | true =>
    cases hrunning : s.mobility.running with
    | true => exact .inr ⟨rfl, runPass_of_pending hpending hrunning⟩
    | false =>
      have hidle : ¬(s.mobility.pending && s.mobility.running) = true := by
        rw [hrunning, Bool.and_false]
        exact Bool.false_ne_true
      rw [runPass, Mobility.takePending]
      dsimp only
      rw [if_neg hidle]
      exact .inl (.of_mobility ⟨_, _, rfl⟩)

/-- A pass leaves the hotspot and its timers alone. -/
theorem runPass_hotspot (s : Session σ) :
    s.runPass.timers = s.timers ∧ s.runPass.mobility.running = s.mobility.running ∧
      s.runPass.mobility.hotspotOn = s.mobility.hotspotOn ∧
      s.runPass.mobility.hotspotAddresses = s.mobility.hotspotAddresses := by
  rw [runPass, Mobility.takePending]
  dsimp only
  split
  · rw [Mobility.reconcile_mobility]
    exact ⟨rfl, rfl, rfl, rfl⟩
  · exact ⟨rfl, rfl, rfl, rfl⟩

theorem numbered_beforePass (hnumbered : s.timers.Numbered) (input : Input)
    (queued : List Notification) : (s.beforePass input queued).timers.Numbered :=
  queued_induction (P := fun s => s.timers.Numbered)
    (fun notification h => (networkStep_handleNotification notification).numbered h)
    ((networkStep_handle input).numbered hnumbered) queued

theorem numbered_turn (hnumbered : s.timers.Numbered) (input : Input) (queued : List Notification) :
    (s.turn input queued).timers.Numbered := by
  have hbefore := numbered_beforePass hnumbered input (s.taken input queued)
  cases hended : (s.handle input).ended with
  | true =>
    rw [turn_of_ended hended]
    exact hbefore
  | false =>
    rw [turn_of_going hended, (runPass_hotspot _).1]
    exact hbefore

end Session

end Softphone
