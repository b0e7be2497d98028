import Softphone.Proofs.Coordinator.Agents
import Softphone.Proofs.Session.Lock

/-!
# The performance lock along a run

However the messages of a run interleave, the performance lock is taken and given back by turns, follows the
Wi-Fi from pass to pass, and is given back in the end (`Coordinator.lock_disciplined`). It is assumed that nobody
else touches the lock.
-/

namespace Softphone.Coordinator

variable {σ : Type} [Host σ] {c : Coordinator σ}

/-- The performance lock is held while it is needed, and is not leaked. -/
structure LockDisciplined (c : Coordinator σ) : Prop where
  /-- The lock is taken and given back by turns. -/
  alternate : c.session.world.lockMoves.IsChain (· ≠ ·)
  /-- It is taken first. -/
  first : c.session.world.lockMoves.head? ≠ some false
  /-- After the next pass it is held exactly if the network that the pass surveyed to be active has Wi-Fi, as
  the platform tells when the engine has all the rest. -/
  followed : ∀ input queued, (c.session.beforePass input queued).mobility.pending = true →
    (c.session.beforePass input queued).mobility.running = true →
    ((c.session.beforePass input queued).runPass.world.lockHeld = true ↔
      ∃ network capabilities,
        (c.session.beforePass input queued).surveyed.active = some network ∧
        (c.session.beforePass input queued).surveyedForWifi.capabilities network = some capabilities ∧
        capabilities.wifi = true)
  /-- Unless the session ends, nothing moves it before the pass of a turn. -/
  unmoved_beforePass : ∀ input queued, input.ends = false →
    (c.session.beforePass input queued).world.lockMoves = c.session.world.lockMoves
  /-- Whatever happens does not move it, but for a pass and the end of the session. -/
  unmoved : ∀ m, (c.move m).hasStopped = c.hasStopped →
    (c.move m).session.mobility.stats.passes = c.session.mobility.stats.passes →
    (c.move m).session.world.lockMoves = c.session.world.lockMoves
  /-- A message that ends the session stops the coordinator, whatever arrives meanwhile. -/
  stops : ∀ input, c.nextInput? = some input → input.ends = true →
    ∀ meanwhile, (c.move (.proceed meanwhile)).hasStopped = true
  /-- Once the coordinator has stopped the lock is free, and was given back as often as it was taken. -/
  released : c.hasStopped = true → c.session.world.lockHeld = false ∧
    c.session.world.lockMoves.count true = c.session.world.lockMoves.count false

theorem lockMoves_move {m : Move σ} (hkept : c.session.LockKept)
    (hidle : c.session.mobility.pending = false) (hstays : (c.move m).hasStopped = c.hasStopped)
    (hpasses : (c.move m).session.mobility.stats.passes = c.session.mobility.stats.passes) :
    (c.move m).session.world.lockMoves = c.session.world.lockMoves := by
  rcases move_cases c m with ⟨input, queued, hturn, haside⟩ | ⟨-, haside⟩
  · have hlive := live_of_turn? hturn
    have hends : input.ends = false := by
      rw [hasStopped, hasStopped, haside.ended, Session.turn_ended, hlive, Bool.false_or] at hstays
      exact hstays
    rw [haside.spares.mobility] at hpasses
    rw [haside.lockMoves]
    exact (hkept.turn hidle hlive input queued).2.2 hends hpasses
  · exact haside.lockMoves

/-- The lock is kept along a run, and a session that has ended does not hold it. -/
theorem lockKept_runMoves {config : Config} {host : σ} (hstart : start config host = .ok c)
    (ms : List (Move σ)) : (c.runMoves ms).session.LockKept ∧
      (c.runMoves ms).session.mobility.pending = false ∧
      ((c.runMoves ms).session.ended = true → (c.runMoves ms).session.mobility.lockHeld = false) := by
  refine invariant_of_turn (P := fun s => s.LockKept ∧ s.mobility.pending = false ∧
    (s.ended = true → s.mobility.lockHeld = false)) ?_ ?_ ?_ ms
  · rintro s s' haside ⟨hkept, hidle, hfree⟩
    refine ⟨hkept.spared haside.spares.network, ?_⟩
    rw [haside.spares.mobility, haside.ended]
    exact ⟨hidle, hfree⟩
  · rintro s input queued hlive ⟨hkept, hidle, -⟩
    obtain ⟨hturn, hfree, -⟩ := hkept.turn hidle hlive input queued
    refine ⟨hturn, (Session.answered hidle hlive input queued).2, fun hended => hfree ?_⟩
    rwa [Session.turn_ended, hlive, Bool.false_or] at hended
  · rw [session_of_start hstart]
    exact ⟨Session.lockKept_new config host, rfl, nofun⟩

/-- **The performance lock is kept along a run.** After any moves, with any platform, the lock was taken and
given back by turns, the next pass makes it follow the Wi-Fi, and once the coordinator has stopped it is
free. -/
theorem lock_disciplined {config : Config} {host : σ} (hstart : start config host = .ok c)
    (ms : List (Move σ)) : (c.runMoves ms).LockDisciplined := by
  obtain ⟨hkept, hidle, hfree⟩ := lockKept_runMoves hstart ms
  refine
    { alternate := hkept.varied
      first := hkept.first
      followed := fun input queued hpending hrunning => ?_
      unmoved_beforePass := fun input queued hends => Session.lockMoves_beforePass hends queued
      unmoved := fun m => lockMoves_move hkept hidle
      stops := fun input hnext hends => hasStopped_of_ends hnext hends
      released := fun hstopped => ⟨?_, hkept.count_eq (hfree hstopped)⟩ }
  · rw [Session.runPass_of_pending hpending hrunning]
    exact (hkept.beforePass input queued).lockHeld_passed
  · rw [hkept.held]
    exact hfree hstopped

/-- An account signs in on a Wi-Fi network, and the session is shut down. -/
def wifiSession : List (Move Bench) :=
  [.surroundings (onWifi {}), .ask ⟨0⟩ (.signIn bob), .loop, .ask ⟨1⟩ .shutdown, .loop]

/-- The lock is taken by the first pass, and given back when the session is shut down. -/
theorem lock_disciplined_wifiSession : start {} ({} : Bench) = .ok onBench ∧
    (onBench.runMoves wifiSession).session.world.lockMoves = [true, false] ∧
    (onBench.runMoves wifiSession).hasStopped = true ∧
    (onBench.runMoves wifiSession).LockDisciplined := by
  exact ⟨start_onBench, by decide, by decide, lock_disciplined start_onBench wifiSession⟩

end Softphone.Coordinator
