import Softphone.Proofs.Network.Unreset
import Softphone.Proofs.Session.Lingering
import Softphone.Proofs.Session.Spares

/-!
# No reset is lost in a turn

What was changed of the engine's addresses stays accounted for in a session (`Session.Accountable`):
marked until the transport is reset, and while the networks are followed seen to by a pass or a timer.
Every message keeps that, and so does the pass after it.
-/

namespace Softphone.Session

variable {σ : Type} {s s' : Session σ}

/-- Changes that wait for a reset are marked and seen to. -/
structure Accountable (s : Session σ) : Prop where
  numbered : s.timers.Numbered
  marked : s.mobility.Marked s.world
  followed : s.mobility.Followed s.timers

theorem accountable_new (config : Config) (host : σ) : (new config host).Accountable :=
  ⟨.empty, nofun, nofun⟩

theorem SparesNetwork.accountable (h : s.SparesNetwork s') (hs : s.Accountable) : s'.Accountable where
  numbered := h.timers.numbered hs.numbered
  marked := by
    unfold Mobility.Marked
    rw [h.mobility, World.unreset_of_grows h.world]
    exact hs.marked
  followed := by
    unfold Mobility.Followed
    rw [h.mobility, h.timers.isActive hs.numbered rfl]
    exact hs.followed

theorem SparesNetwork.sparesPass (h : s.SparesNetwork s') :
    s.world.Grows (·.isOfPass = false) s'.world :=
  h.world.mono fun _ => Effect.isOfPass_of_not_network

variable [Host σ]

/-! ## Messages -/

/-- Where the networks begin to be followed a pass is wanted, so what is marked is seen to. -/
theorem accountable_ensureMobility (hs : s.Accountable) :
    ({ s.ensureMobility with mobility := s.ensureMobility.mobility.request } :
      Session σ).Accountable := by
  have hmarked : s.ensureMobility.mobility.Marked s.ensureMobility.world ∧
      s.ensureMobility.timers = s.timers := by
    unfold ensureMobility
    split
    · exact ⟨hs.marked, rfl⟩
    · exact ⟨hs.marked.start, rfl⟩
  exact ⟨hmarked.2 ▸ hs.numbered, hmarked.1, .request _ _⟩

theorem accountable_signIn (hs : s.Accountable) (account : Account) :
    (s.signIn account).2.Accountable := by
  unfold signIn
  split
  · exact hs
  have hspares : s.releaseAgent.SparesNetwork
      { s.releaseAgent with world := (s.releaseAgent.world.allocateAgent account).2 } :=
    ⟨rfl, .refl, .step rfl, rfl⟩
  have hasked := (sparesNetwork_releaseAgent.trans hspares).accountable hs
  dsimp only
  split
  · exact hasked
  · refine (sparesNetwork_register _).accountable (accountable_ensureMobility ?_)
    exact ⟨hasked.numbered, hasked.marked, hasked.followed⟩

theorem accountable_halted (hs : s.Accountable) : s.halted.Accountable where
  numbered := (Player.spares_stopAll _ _ _).numbered (hs.numbered.cancelWhere _)
  marked := by
    unfold Mobility.Marked
    rw [World.unreset_of_grows (grows_halted.mono fun _ he => he.2)]
    exact hs.marked.stop
  followed := .of_stopped running_halted

theorem accountable_teardown (hs : s.Accountable) : s.teardown.Accountable :=
  sparesNetwork_unregister.accountable (accountable_halted hs)

theorem accountable_handleCommand (hs : s.Accountable) (ticket : Ticket) (command : Command) :
    (s.handleCommand ticket command).Accountable := by
  have hreply : ∀ {s' : Session σ} {answer}, s'.Accountable → (s'.reply ticket answer).Accountable :=
    fun {s'} {answer} h' => (Spares.refl.reply ticket answer).network.accountable h'
  cases command with
  | signIn account => exact hreply (accountable_signIn hs account)
  | refresh => exact hreply (sparesNetwork_refresh.accountable hs)
  | unregister => exact hreply (sparesNetwork_unregister.accountable hs)
  | shutdown => exact hreply (accountable_teardown hs)
  | _ => exact (spares_handleCommand ticket rfl).network.accountable hs

theorem accountable_handleNotification (hs : s.Accountable) (notification : Notification) :
    (s.handleNotification notification).Accountable := by
  cases notification with
  | network change =>
    cases change with
    | hotspotChanged enabled =>
      exact ⟨Mobility.numbered_onHotspotChanged hs.numbered _ _ _, hs.marked.onHotspotChanged _,
        hs.followed.onHotspotChanged hs.numbered _⟩
    | _ => exact ⟨hs.numbered, hs.marked.observe _, hs.followed.observe _⟩
  | audioMode mode => exact (spares_audioMode mode).network.accountable hs
  | toneFinished => exact spares_toneFinished.network.accountable hs

theorem accountable_handleFiring (hs : s.Accountable) (firing : Firing) :
    (s.handleFiring firing).Accountable := by
  cases hkind : firing.kind with
  | ringtoneRestart | vibrate =>
    refine (spares_handleFiring ?_).network.accountable hs
    rw [hkind]
    rfl
  | hotspotDebounce =>
    have hspares : s.timers.Spares (· == .hotspotFollowUp) (s.timers.accept firing).2 :=
      .accept (by rw [hkind]; rfl) _
    have hfollowed : s.mobility.Followed (s.timers.accept firing).2 := by
      unfold Mobility.Followed
      rw [hspares.isActive hs.numbered rfl]
      exact hs.followed
    have hnumbered := hs.numbered.accept firing
    unfold handleFiring
    dsimp only
    split
    · rw [hkind]
      exact ⟨Mobility.numbered_onHotspotDebounce hnumbered _ _, hs.marked.onHotspotDebounce,
        hfollowed.onHotspotDebounce⟩
    · exact ⟨hnumbered, hs.marked, hfollowed⟩
  | hotspotFollowUp =>
    -- The firing may use up the last timer that sees to a mark, but then it asks for a pass itself.
    unfold handleFiring
    dsimp only
    split
    · rw [hkind]
      unfold handleTimer
      dsimp only
      split
      · exact ⟨hs.numbered.accept _, hs.marked, .request _ _⟩
      · rename_i hstopped
        exact ⟨hs.numbered.accept _, hs.marked, .of_stopped (Bool.eq_false_iff.2 hstopped)⟩
    · rename_i hrefused
      rw [Timers.accept_of_refused (Bool.eq_false_iff.2 hrefused)]
      exact hs

theorem accountable_handle (hs : s.Accountable) (input : Input) : (s.handle input).Accountable := by
  cases input with
  | notification notification => exact accountable_handleNotification hs notification
  | engine event =>
    cases event with
    | registration signal =>
      exact (sparesNetwork_published _).accountable hs
    | call event => exact (spares_handleEngine_call event).network.accountable hs
  | firing firing => exact accountable_handleFiring hs firing
  | command ticket command => exact accountable_handleCommand hs ticket command
  | abandoned => exact accountable_teardown hs

/-! ## What only passes do -/

theorem sparesPass_ensureMobility {w : World σ} (h : w.Grows (·.isOfPass = false) s.world) :
    w.Grows (·.isOfPass = false) s.ensureMobility.world := by
  unfold ensureMobility
  split
  · exact h
  · exact h.trans (Mobility.grows_start _ _ fun _ _ => rfl)

theorem sparesPass_signIn (account : Account) :
    s.world.Grows (·.isOfPass = false) (s.signIn account).2.world := by
  unfold signIn
  split
  · exact .refl
  have hasked : s.world.Grows (·.isOfPass = false) (s.releaseAgent.world.allocateAgent account).2 :=
    sparesNetwork_releaseAgent.sparesPass.moveTo rfl
  dsimp only
  split
  · exact hasked
  · refine .trans ?_ (sparesNetwork_register _).sparesPass
    exact sparesPass_ensureMobility hasked

theorem sparesPass_handleCommand (ticket : Ticket) {command : Command} (h : command ≠ .shutdown) :
    s.world.Grows (·.isOfPass = false) (s.handleCommand ticket command).world := by
  cases command with
  | signIn account => exact (sparesPass_signIn account).note rfl
  | refresh => exact sparesNetwork_refresh.sparesPass.note rfl
  | unregister => exact sparesNetwork_unregister.sparesPass.note rfl
  | shutdown => exact absurd rfl h
  | _ => exact (spares_handleCommand ticket rfl).network.sparesPass

theorem sparesPass_handleNotification (notification : Notification) :
    s.world.Grows (·.isOfPass = false) (s.handleNotification notification).world := by
  cases notification with
  | network change =>
    cases change with
    | hotspotChanged enabled => exact Mobility.grows_onHotspotChanged _ _ (fun _ _ => rfl) _ _
    | _ => exact .refl
  | audioMode mode => exact (spares_audioMode mode).network.sparesPass
  | toneFinished => exact spares_toneFinished.network.sparesPass

theorem sparesPass_handleFiring (firing : Firing) :
    s.world.Grows (·.isOfPass = false) (s.handleFiring firing).world := by
  cases hkind : firing.kind with
  | ringtoneRestart | vibrate =>
    refine (spares_handleFiring ?_).network.sparesPass
    rw [hkind]
    rfl
  | hotspotDebounce =>
    unfold handleFiring
    dsimp only
    split
    · rw [hkind]
      exact Mobility.grows_onHotspotDebounce _ _ (fun _ _ _ => rfl) _
    · exact .refl
  | hotspotFollowUp =>
    unfold handleFiring
    dsimp only
    split
    · rw [hkind]
      unfold handleTimer
      dsimp only
      split <;> exact .refl
    · exact .refl

/-- No message but one that ends the session does what a pass does. -/
theorem sparesPass_handle {input : Input} (h : input.ends = false) :
    s.world.Grows (·.isOfPass = false) (s.handle input).world := by
  cases input with
  | notification notification => exact sparesPass_handleNotification notification
  | engine event =>
    cases event with
    | registration signal => exact (sparesNetwork_published _).sparesPass
    | call event => exact (spares_handleEngine_call event).network.sparesPass
  | firing firing => exact sparesPass_handleFiring firing
  | command ticket command =>
    refine sparesPass_handleCommand ticket ?_
    rintro rfl
    cases h
  | abandoned => cases h

theorem keepsTransport_teardown : s.world.Grows (·.isReset = false) s.teardown.world := by
  refine .trans (Mobility.grows_stop s.mobility s.world rfl) (.trans ?_
    (sparesNetwork_unregister.world.mono fun _ => Effect.isReset_of_not_network))
  exact grows_halted.mono fun _ he => Effect.isReset_of_not_network he.2

/-- No message resets the transport. -/
theorem keepsTransport_handle (input : Input) :
    s.world.Grows (·.isReset = false) (s.handle input).world := by
  cases hends : input.ends with
  | false => exact (sparesPass_handle hends).mono fun _ => Effect.isReset_of_not_ofPass
  | true =>
    exact ends_induction (P := fun s' => s.world.Grows (·.isReset = false) s'.world)
      (fun _ _ h => h.note rfl) keepsTransport_teardown hends

/-! ## Passes -/

theorem accountable_runPass (hs : s.Accountable) :
    s.runPass.Accountable ∧ s.runPass.mobility.pending = false := by
  unfold runPass Mobility.takePending
  dsimp only
  split
  · have hmarked : ({ s.mobility with pending := false } : Mobility).Marked s.world := hs.marked
    refine ⟨⟨hs.numbered, fun hunreset => ?_, fun _ hdirty => ?_⟩, ?_⟩
    · rw [hmarked.reconcile] at hunreset
      cases hunreset
    · rw [Mobility.reconcile_mobility] at hdirty
      cases hdirty
    · rw [Mobility.reconcile_mobility]
  · rename_i hidle
    refine ⟨⟨hs.numbered, hs.marked, fun hrunning hdirty => .inr ?_⟩, rfl⟩
    rcases hs.followed hrunning hdirty with hpending | hactive
    · rw [hpending] at hidle
      exact absurd hrunning hidle
    · exact hactive

/-! ## A turn -/

/-- The session that has dealt with a message and with the notifications that have queued up. The pass
of a turn starts from it. -/
def beforePass (input : Input) (queued : List Notification) (s : Session σ) : Session σ :=
  queued.foldl handleNotification (s.handle input)

/-- The notifications that a turn takes: none once its message has ended the session. -/
def taken (input : Input) (queued : List Notification) (s : Session σ) : List Notification :=
  if (s.handle input).ended then [] else queued

/-- A turn whose message ends the session comes to no pass. -/
theorem turn_of_ended {input : Input} (h : (s.handle input).ended = true)
    (queued : List Notification) : s.turn input queued = s.beforePass input (s.taken input queued) := by
  rw [turn, taken, if_pos h, if_pos h]
  rfl

theorem turn_of_going {input : Input} (h : (s.handle input).ended = false)
    (queued : List Notification) :
    s.turn input queued = (s.beforePass input (s.taken input queued)).runPass := by
  have hgoes : ¬(s.handle input).ended = true := Bool.eq_false_iff.1 h
  rw [turn, taken, if_neg hgoes, if_neg hgoes]
  rfl

section Live

variable {P : Session σ → Prop}

/-- What every message keeps while the session goes on is kept until the pass of a turn. -/
theorem beforePass_induction
    (hhandle : ∀ {s} input, s.ended = false → P s → P (s.handle input)) (hlive : s.ended = false)
    (h : P s) (input : Input) (queued : List Notification) :
    P (s.beforePass input (s.taken input queued)) := by
  have hhandled := hhandle input hlive h
  unfold taken
  split
  · exact hhandled
  · rename_i hgoes
    refine (queued_induction (P := fun s' => s'.ended = false ∧ P s') ?_
      ⟨Bool.eq_false_iff.2 hgoes, hhandled⟩ queued).2
    rintro s' notification ⟨hlive', h'⟩
    exact ⟨(handleNotification_ended s' notification).trans hlive',
      hhandle (.notification notification) hlive' h'⟩

/-- What every message keeps while the session goes on, and every pass, is kept by a turn. -/
theorem turn_induction (hhandle : ∀ {s} input, s.ended = false → P s → P (s.handle input))
    (hpass : ∀ {s}, s.ended = false → P s → P s.runPass) (hlive : s.ended = false) (h : P s)
    (input : Input) (queued : List Notification) : P (s.turn input queued) := by
  have hbefore := beforePass_induction hhandle hlive h input queued
  cases hended : (s.handle input).ended with
  | true =>
    rw [turn_of_ended hended]
    exact hbefore
  | false =>
    rw [turn_of_going hended]
    refine hpass ?_ hbefore
    rw [taken, hended, if_neg Bool.false_ne_true]
    exact queued_induction (P := fun s' => s'.ended = false)
      (fun notification h => (handleNotification_ended _ notification).trans h) hended queued

end Live

theorem accountable_beforePass (hs : s.Accountable) (input : Input) (queued : List Notification) :
    (s.beforePass input queued).Accountable :=
  queued_induction (P := Accountable)
    (fun notification h => accountable_handleNotification h notification)
    (accountable_handle hs input) queued

theorem keepsTransport_beforePass (input : Input) (queued : List Notification) :
    s.world.Grows (·.isReset = false) (s.beforePass input queued).world :=
  queued_induction (P := fun s' => s.world.Grows (·.isReset = false) s'.world)
    (fun notification h => h.trans ((sparesPass_handleNotification notification).mono fun _ =>
      Effect.isReset_of_not_ofPass))
    (keepsTransport_handle input) queued

/-- At the end of a turn no pass is wanted any more, unless none can be. -/
theorem accountable_turn (hs : s.Accountable) (hlive : s.ended = false) (input : Input)
    (queued : List Notification) : (s.turn input queued).Accountable ∧
      ((s.turn input queued).mobility.running = true →
        (s.turn input queued).mobility.pending = false) := by
  unfold turn
  dsimp only
  split
  · rename_i hended
    refine ⟨accountable_handle hs input, fun hrunning => ?_⟩
    rw [running_of_ended hlive hended] at hrunning
    cases hrunning
  · obtain ⟨hafter, hpending⟩ := accountable_runPass (accountable_beforePass hs input queued)
    exact ⟨hafter, fun _ => hpending⟩

/-- A pass that runs while something waits for a reset resets the transport. -/
theorem reset_mem_runPass (hs : s.Accountable) (hpending : s.mobility.pending = true)
    (hrunning : s.mobility.running = true) (hunreset : s.world.unreset = true) :
    ∃ accepted, .resetTransport true true accepted ∈ s.runPass.world.since s.world := by
  have hworld : s.runPass.world = (s.mobility.takePending.2.reconcile s.world).2.2 := by
    unfold runPass Mobility.takePending
    dsimp only
    rw [hpending, hrunning]
    rfl
  rw [hworld, World.since_eq (Mobility.reconcile_trace _ _)]
  exact Mobility.reset_mem_passEffects (hs.marked hunreset)

end Softphone.Session
