import Softphone.Proofs.Network.Requests
import Softphone.Proofs.Session.Resetting

/-!
# One pass answers all triggers of a turn

A trigger is something that makes a session ask for a pass. `Session.triggers` counts those that a turn
handles, from what the session is like when it comes to them. A turn with a trigger ends with exactly one
pass, which comes after all of them; a turn without runs none (`Session.answered`).
-/

namespace Softphone.Session

variable {σ : Type} {s s' : Session σ}

theorem SparesNetwork.asked (h : s.SparesNetwork s') : s.mobility.Asked 0 s'.mobility :=
  h.mobility ▸ .refl

/-! ## Triggers -/

/-- How many triggers a notification is. -/
def notificationTriggers (s : Session σ) : Notification → Nat
  | .network change => (s.mobility.heeds change).toNat
  | .audioMode _ | .toneFinished => 0

variable [Host σ]

/-- How many triggers a message is: a firing that is accepted while the networks are followed, and a
sign-in for which the engine makes an agent, are one each. -/
def inputTriggers (s : Session σ) : Input → Nat
  | .notification notification => s.notificationTriggers notification
  | .firing firing =>
    (firing.kind == .hotspotFollowUp && (s.timers.accept firing).1 && s.mobility.running).toNat
  | .command _ (.signIn account) =>
    (account.check.isOk && (s.releaseAgent.world.allocateAgent account).1.isOk).toNat
  | .engine _ | .command _ _ | .abandoned => 0

/-- How many triggers there are among notifications that are taken one after another. -/
def queuedTriggers : List Notification → Session σ → Nat
  | [], _ => 0
  | notification :: rest, s =>
    s.notificationTriggers notification + queuedTriggers rest (s.handleNotification notification)

/-- How many triggers a turn handles. -/
def triggers (input : Input) (queued : List Notification) (s : Session σ) : Nat :=
  s.inputTriggers input + queuedTriggers (s.taken input queued) (s.handle input)

/-! ## Asking -/

theorem asked_handleNotification (notification : Notification) :
    s.mobility.Asked (s.notificationTriggers notification)
      (s.handleNotification notification).mobility := by
  cases notification with
  | network change =>
    cases change with
    | hotspotChanged enabled => exact Mobility.asked_onHotspotChanged _ _ enabled _
    | _ => exact Mobility.asked_observe _ nofun
  | audioMode mode => exact (spares_audioMode mode).network.asked
  | toneFinished => exact spares_toneFinished.network.asked

theorem asked_queued (queued : List Notification) (s : Session σ) :
    s.mobility.Asked (queuedTriggers queued s) (queued.foldl handleNotification s).mobility := by
  induction queued generalizing s with
  | nil => exact .refl
  | cons notification rest ih => exact (asked_handleNotification notification).trans (ih _)

theorem asked_handleFiring (firing : Firing) :
    s.mobility.Asked (s.inputTriggers (.firing firing)) (s.handleFiring firing).mobility := by
  rw [inputTriggers, handleFiring]
  dsimp only
  cases haccepted : (s.timers.accept firing).1 with
  | false =>
    rw [Bool.and_false, Bool.false_and]
    exact .refl
  | true =>
    rw [Bool.and_true, if_pos rfl]
    cases hkind : firing.kind with
    | hotspotDebounce => exact Mobility.asked_onHotspotDebounce _ _ _
    | hotspotFollowUp =>
      have hasked := Mobility.Asked.request_if_running (m := s.mobility)
      rw [handleTimer]
      split
      · rename_i hrunning
        rwa [if_pos hrunning] at hasked
      · rename_i hstopped
        rwa [if_neg hstopped] at hasked
    | ringtoneRestart | vibrate => exact .refl

/-- The networks are followed once an account is set up, and nothing has asked for a pass by then. -/
theorem asked_ensureMobility (s : Session σ) :
    s.mobility.Asked 0 s.ensureMobility.mobility ∧ s.ensureMobility.mobility.running = true := by
  rw [ensureMobility]
  split
  · rename_i hrunning
    exact ⟨.refl, hrunning⟩
  · exact Mobility.asked_start _ _

theorem asked_signIn (ticket : Ticket) (account : Account) :
    s.mobility.Asked (s.inputTriggers (.command ticket (.signIn account)))
      (s.signIn account).2.mobility := by
  rw [inputTriggers, signIn]
  cases account.check with
  | error e => exact .refl
  | ok _ =>
    have hreleased : s.releaseAgent.mobility = s.mobility := sparesNetwork_releaseAgent.mobility
    dsimp only
    cases (s.releaseAgent.world.allocateAgent account).1 with
    | error e => exact sparesNetwork_releaseAgent.asked
    | ok agent =>
      obtain ⟨hstarted, hrunning⟩ := asked_ensureMobility (
        { s.releaseAgent with
          world := (s.releaseAgent.world.allocateAgent account).2
          registration := s.releaseAgent.registration.attach agent } : Session σ)
      rw [(sparesNetwork_register agent).mobility, ← hreleased]
      exact hstarted.trans (.request hrunning)

/-- Unless it ends the session, a message asks for a pass as often as it is a trigger. -/
theorem asked_handle {input : Input} (h : input.ends = false) :
    s.mobility.Asked (s.inputTriggers input) (s.handle input).mobility := by
  cases input with
  | notification notification => exact asked_handleNotification notification
  | engine event =>
    cases event with
    | registration signal => exact .refl
    | call event => exact (spares_handleEngine_call event).network.asked
  | firing firing => exact asked_handleFiring firing
  | command ticket command =>
    cases command with
    | signIn account => exact asked_signIn ticket account
    | refresh => exact sparesNetwork_refresh.asked
    | unregister => exact sparesNetwork_unregister.asked
    | shutdown => cases h
    | _ => exact (spares_handleCommand ticket rfl).network.asked
  | abandoned => cases h

/-- A message that ends the session is no trigger, and what was pending is dropped. -/
theorem handle_rests {input : Input} (h : input.ends = true) :
    s.inputTriggers input = 0 ∧ (s.handle input).mobility.pending = false ∧
      (s.handle input).mobility.stats = s.mobility.stats := by
  have hteardown : s.teardown.mobility.pending = false ∧
      s.teardown.mobility.stats = s.mobility.stats := by
    rw [teardown_eq, sparesNetwork_unregister.mobility, halted_mobility]
    exact ⟨rfl, rfl⟩
  cases input with
  | notification notification | engine event | firing firing => cases h
  | command ticket command =>
    cases command with
    | shutdown => exact ⟨rfl, hteardown⟩
    | _ => cases h
  | abandoned => exact ⟨rfl, hteardown⟩

/-! ## Passes -/

/-- A session that has run a pass. -/
def passed (s : Session σ) : Session σ :=
  let (_, mobility, world) := s.mobility.takePending.2.reconcile s.world
  { s with mobility, world }

/-- The platform as a pass of the session surveys it for networks and addresses. -/
def surveyed (s : Session σ) : Platform := s.mobility.takePending.2.surveyed s.world

/-- A pass surveys a platform that does not mind the name servers as it is. -/
theorem surveyed_of_kept (h : ∀ servers,
    Connectivity.platform (Engine.setResolvers servers s.world.host).2 = s.world.platform) :
    s.surveyed = s.world.platform :=
  Mobility.surveyed_of_kept h

/-- The platform as a pass of the session asks it for Wi-Fi, when the engine has all the rest. -/
def surveyedForWifi (s : Session σ) : Platform := (s.mobility.takePending.2.afterReset s.world).platform

theorem passed_mobility (s : Session σ) :
    s.passed.mobility = (s.mobility.takePending.2.reconcile s.world).2.1 := rfl

theorem passed_world (s : Session σ) :
    s.passed.world = (s.mobility.takePending.2.reconcile s.world).2.2 := rfl

theorem passed_mobility_stats (s : Session σ) :
    s.passed.mobility.pending = false ∧
      s.passed.mobility.stats.passes = s.mobility.stats.passes + 1 ∧
      s.passed.mobility.stats.coalesced = s.mobility.stats.coalesced := by
  rw [passed_mobility, Mobility.reconcile_mobility]
  exact ⟨rfl, rfl, rfl⟩

theorem runPass_of_pending (hpending : s.mobility.pending = true)
    (hrunning : s.mobility.running = true) : s.runPass = s.passed := by
  rw [runPass, passed, Mobility.takePending]
  dsimp only
  rw [hpending, hrunning]
  rfl

theorem runPass_of_idle (hidle : s.mobility.pending = false) : s.runPass = s := by
  rw [runPass, Mobility.takePending]
  dsimp only
  rw [hidle, Bool.false_and, if_neg Bool.false_ne_true, ← hidle]

theorem runPass_of_unasked (hidle : s.mobility.pending = false)
    (hasked : s.mobility.Asked 0 s'.mobility) : s'.runPass = s' :=
  runPass_of_idle (hasked.pending_of_unasked.trans hidle)

theorem runPass_of_asked {n : Nat} (hasked : s.mobility.Asked n s'.mobility) (hsome : 0 < n) :
    s'.mobility.running = true ∧ s'.runPass = s'.passed := by
  have hrunning := hasked.running (.inr hsome)
  refine ⟨hrunning, runPass_of_pending ?_ hrunning⟩
  rw [hasked.pending, decide_eq_true hsome, Bool.or_true]

/-- After the end of a turn no request waits, and each has been counted. -/
theorem runPass_rests {n : Nat} (hidle : s.mobility.pending = false)
    (hasked : s.mobility.Asked n s'.mobility) : s'.runPass.mobility.pending = false ∧
      s'.runPass.mobility.stats.passes + s'.runPass.mobility.stats.coalesced =
        s.mobility.stats.passes + s.mobility.stats.coalesced + n := by
  rcases Nat.eq_zero_or_pos n with rfl | hsome
  · rw [runPass_of_unasked hidle hasked, hasked.passes, hasked.coalesced_of_unasked]
    exact ⟨hasked.pending_of_unasked.trans hidle, rfl⟩
  · obtain ⟨hrests, hpasses, hcoalesced⟩ := s'.passed_mobility_stats
    rw [(runPass_of_asked hasked hsome).2, hpasses, hcoalesced, hasked.passes]
    have := hasked.coalesced_of_pos hidle hsome
    exact ⟨hrests, by omega⟩

/-! ## A turn -/

/-- What a turn does about the triggers that it handles. -/
structure Answered (s : Session σ) (input : Input) (queued : List Notification) : Prop where
  /-- No pass runs while the message and the notifications are dealt with. -/
  passes_beforePass :
    (s.beforePass input (s.taken input queued)).mobility.stats.passes = s.mobility.stats.passes
  /-- With a trigger, the networks are followed by then, and the turn ends with one pass. -/
  pass : 0 < s.triggers input queued →
    (s.beforePass input (s.taken input queued)).mobility.running = true ∧
      s.turn input queued = (s.beforePass input (s.taken input queued)).passed
  /-- Without a trigger no pass runs. -/
  quiet : s.triggers input queued = 0 →
    s.turn input queued = s.beforePass input (s.taken input queued)
  /-- Every trigger is counted: as the pass that answers it, or as coalesced. -/
  counted : (s.turn input queued).mobility.stats.passes +
      (s.turn input queued).mobility.stats.coalesced =
    s.mobility.stats.passes + s.mobility.stats.coalesced + s.triggers input queued

theorem Answered.passes_turn {input : Input} {queued : List Notification}
    (h : s.Answered input queued) : (s.turn input queued).mobility.stats.passes =
      s.mobility.stats.passes + if 0 < s.triggers input queued then 1 else 0 := by
  split
  · rename_i hsome
    obtain ⟨_, hpassed, _⟩ := (s.beforePass input (s.taken input queued)).passed_mobility_stats
    rw [(h.pass hsome).2, hpassed, h.passes_beforePass]
  · rename_i hnone
    rw [h.quiet (Nat.eq_zero_of_not_pos hnone), h.passes_beforePass, Nat.add_zero]

theorem taken_of_ends {input : Input} (hends : input.ends = true) (queued : List Notification) :
    s.taken input queued = [] := by
  rw [taken, handle_ended, hends, Bool.or_true]
  rfl

/-- A turn that ends the session has no trigger. -/
theorem triggers_of_ends {input : Input} (hends : input.ends = true) (queued : List Notification) :
    s.triggers input queued = 0 := by
  rw [triggers, (handle_rests hends).1, taken_of_ends hends]
  rfl

theorem answered_of_ends {input : Input} (hends : input.ends = true)
    (queued : List Notification) :
    s.Answered input queued ∧ (s.turn input queued).mobility.pending = false := by
  obtain ⟨-, hrests, hstats⟩ := handle_rests (s := s) hends
  have hended : (s.handle input).ended = true := by
    rw [handle_ended, hends, Bool.or_true]
  have htaken := taken_of_ends (s := s) hends queued
  have htriggers := triggers_of_ends (s := s) hends queued
  have hbefore : s.beforePass input (s.taken input queued) = s.handle input := by
    rw [htaken]
    rfl
  have hturn := turn_of_ended hended queued
  refine ⟨⟨?_, fun hsome => ?_, fun _ => hturn, ?_⟩, ?_⟩
  · rw [hbefore, hstats]
  · rw [htriggers] at hsome
    cases hsome
  · rw [hturn, hbefore, hstats, htriggers, Nat.add_zero]
  · rw [hturn, hbefore]
    exact hrests

theorem answered_of_goes {input : Input} (hidle : s.mobility.pending = false)
    (hlive : s.ended = false) (hends : input.ends = false) (queued : List Notification) :
    s.Answered input queued ∧ (s.turn input queued).mobility.pending = false := by
  have hgoes : (s.handle input).ended = false := by
    rw [handle_ended, hlive, hends]
    rfl
  have hturn := turn_of_going hgoes queued
  have hasked : s.mobility.Asked (s.triggers input queued)
      (s.beforePass input (s.taken input queued)).mobility :=
    (asked_handle hends).trans (asked_queued _ _)
  obtain ⟨hrests, hcounted⟩ := runPass_rests hidle hasked
  refine ⟨⟨hasked.passes, fun hsome => ?_, fun hnone => ?_, ?_⟩, ?_⟩
  · obtain ⟨hrunning, hpassed⟩ := runPass_of_asked hasked hsome
    exact ⟨hrunning, hturn.trans hpassed⟩
  · rw [hnone] at hasked
    exact hturn.trans (runPass_of_unasked hidle hasked)
  · rw [hturn]
    exact hcounted
  · rw [hturn]
    exact hrests

/-- **A turn answers its triggers.** A session in which no pass is pending answers them with one pass at
most, and then no pass is pending again. -/
theorem answered (hidle : s.mobility.pending = false) (hlive : s.ended = false) (input : Input)
    (queued : List Notification) :
    s.Answered input queued ∧ (s.turn input queued).mobility.pending = false := by
  cases hends : input.ends with
  | true => exact answered_of_ends hends queued
  | false => exact answered_of_goes hidle hlive hends queued

end Softphone.Session
