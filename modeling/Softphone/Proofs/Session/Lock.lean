import Softphone.Proofs.Network.Lock
import Softphone.Proofs.Session.Networks

/-!
# The performance lock of a session

The lock of a session is kept (`Session.LockKept`). Messages leave it alone until the session ends, and then it
is given back; in between only passes move it, each to what the platform asks for.
-/

namespace Softphone.Session

variable {σ : Type} {s s' : Session σ}

/-- The lock is held as the session has it, and was taken and given back by turns. -/
def LockKept (s : Session σ) : Prop := s.mobility.LockKept s.world

theorem lockKept_new (config : Config) (host : σ) : (new config host).LockKept :=
  Mobility.lockKept_new config.network host

theorem LockKept.spared (h : s.LockKept) (hspares : s.SparesNetwork s') : s'.LockKept :=
  Mobility.LockKept.of_grows h (congrArg Mobility.lockHeld hspares.mobility)
    (hspares.sparesPass.mono fun _ => Effect.lockMove?_of_not_ofPass)

theorem lockMoves_of_sparesPass (h : s.world.Grows (·.isOfPass = false) s'.world) :
    s'.world.lockMoves = s.world.lockMoves :=
  (h.mono fun _ => Effect.lockMove?_of_not_ofPass).record

/-- What comes over a session while it takes no message does not move the lock. -/
theorem Aside.lockMoves (h : s.Aside s') : s'.world.lockMoves = s.world.lockMoves :=
  lockMoves_of_sparesPass h.spares.network.sparesPass

variable [Host σ]

/-! ## Messages -/

theorem lockHeld_handle {input : Input} (hends : input.ends = false) :
    (s.handle input).mobility.lockHeld = s.mobility.lockHeld := by
  have hstep := networkStep_handle (s := s) input
  generalize s.handle input = s' at hstep ⊢
  cases hstep with
  | kept _ _ _ hkeeps => exact hkeeps.lockHeld
  | reported enabled =>
    obtain ⟨_, _, _, _, _, _, hmobility⟩ :=
      s.mobility.onHotspotChanged_mobility enabled s.timers s.world
    rw [withNetwork_mobility, hmobility]
  | @debounced firing _ =>
    obtain ⟨_, _, _, hmobility⟩ :=
      s.mobility.onHotspotDebounce_mobility (s.timers.accept firing).2 s.world
    rw [withNetwork_mobility, hmobility]
  | @began _ s₀ _ hbegins hspares =>
    obtain ⟨_, hmobility⟩ := s₀.begun_mobility
    rw [hspares.mobility, hmobility]
    exact (keepsNetwork_of_begins? hbegins).1.lockHeld
  | stopped hstops _ =>
    rw [hends] at hstops
    cases hstops

theorem LockKept.teardown (h : s.LockKept) :
    s.teardown.LockKept ∧ s.teardown.mobility.lockHeld = false := by
  have hhalted : s.halted.LockKept := by
    refine (Mobility.LockKept.stop h).of_grows rfl (grows_halted.mono fun _ he => ?_)
    exact Effect.lockMove?_of_not_ofPass (Effect.isOfPass_of_not_network he.2)
  rw [teardown_eq]
  refine ⟨hhalted.spared sparesNetwork_unregister, ?_⟩
  rw [sparesNetwork_unregister.mobility, halted_mobility]

/-- The lock is kept by every message; one that ends the session leaves it free. -/
theorem LockKept.handle (h : s.LockKept) (input : Input) :
    (s.handle input).LockKept ∧ (input.ends = true → (s.handle input).mobility.lockHeld = false) := by
  cases hends : input.ends with
  | false =>
    refine ⟨Mobility.LockKept.of_grows h (lockHeld_handle hends) ?_, nofun⟩
    exact (sparesPass_handle hends).mono fun _ => Effect.lockMove?_of_not_ofPass
  | true =>
    obtain ⟨hkept, hfree⟩ := ends_induction (P := fun s' => s'.LockKept ∧ s'.mobility.lockHeld = false)
      (fun ticket answer h => h.imp_left (·.spared (Spares.refl.reply ticket answer).network)) h.teardown
      hends
    exact ⟨hkept, fun _ => hfree⟩

theorem lockMoves_beforePass {input : Input} (hends : input.ends = false)
    (queued : List Notification) :
    (s.beforePass input queued).world.lockMoves = s.world.lockMoves :=
  queued_induction (P := fun s' => s'.world.lockMoves = s.world.lockMoves)
    (fun notification h => (lockMoves_of_sparesPass (sparesPass_handleNotification notification)).trans h)
    (lockMoves_of_sparesPass (sparesPass_handle hends)) queued

/-! ## Passes -/

theorem LockKept.beforePass (h : s.LockKept) (input : Input) (queued : List Notification) :
    (s.beforePass input queued).LockKept :=
  queued_induction (P := LockKept) (fun notification h => (h.handle (.notification notification)).1)
    (h.handle input).1 queued

theorem LockKept.passed (h : s.LockKept) : s.passed.LockKept :=
  Mobility.LockKept.reconcile (m := s.mobility.takePending.2) (h.kept rfl rfl)

/-- After a pass the lock is held exactly if the active network has Wi-Fi. -/
theorem LockKept.lockHeld_passed (h : s.LockKept) : s.passed.world.lockHeld = true ↔
    ∃ network capabilities, s.surveyed.active = some network ∧
      s.surveyedForWifi.capabilities network = some capabilities ∧ capabilities.wifi = true := by
  rw [h.passed.held, passed_mobility, Mobility.reconcile_mobility]
  exact Mobility.usesWifi_iff

/-- **The lock is kept by a turn.** A turn that ends the session leaves it free, and one without a pass does
not move it. -/
theorem LockKept.turn (h : s.LockKept) (hidle : s.mobility.pending = false) (hlive : s.ended = false)
    (input : Input) (queued : List Notification) :
    (s.turn input queued).LockKept ∧
      (input.ends = true → (s.turn input queued).mobility.lockHeld = false) ∧
      (input.ends = false →
        (s.turn input queued).mobility.stats.passes = s.mobility.stats.passes →
          (s.turn input queued).world.lockMoves = s.world.lockMoves) := by
  obtain ⟨hanswered, -⟩ := s.answered hidle hlive input queued
  have hbefore := h.beforePass input (s.taken input queued)
  rcases Nat.eq_zero_or_pos (s.triggers input queued) with hnone | hsome
  · rw [hanswered.quiet hnone]
    refine ⟨hbefore, fun hends => ?_, fun hends _ => lockMoves_beforePass hends _⟩
    rw [taken_of_ends hends]
    exact (h.handle input).2 hends
  · rw [(hanswered.pass hsome).2]
    refine ⟨hbefore.passed, fun hends => ?_, fun _ hpasses => ?_⟩
    · rw [triggers_of_ends hends] at hsome
      cases hsome
    · rw [(passed_mobility_stats _).2.1, hanswered.passes_beforePass] at hpasses
      omega

end Softphone.Session
