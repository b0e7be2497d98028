import Softphone.Proofs.Session.Resetting

/-!
# No reset is lost along a run

However the messages of a run interleave and whatever the engine refuses, no change of the engine's
addresses is left without a reset of the transport to come (`Coordinator.no_reset_lost`).
-/

namespace Softphone

variable {σ : Type} [Host σ]

/-- No change of the engine's addresses is left without a reset to come. -/
structure Session.NoResetLost (s : Session σ) : Prop where
  /-- While the networks are followed, what is marked waits for a timer. -/
  scheduled : s.mobility.running = true → s.mobility.dirty = true →
    s.timers.isActive .hotspotFollowUp = true
  /-- What was changed since the last reset is marked. -/
  marked : s.world.unreset = true → s.mobility.dirty = true
  /-- It is marked also once a message and notifications have been dealt with. -/
  marked_beforePass : ∀ input queued, (s.beforePass input queued).world.unreset = true →
    (s.beforePass input queued).mobility.dirty = true
  /-- No reset comes but by a pass. -/
  reset_of_pass : ∀ input queued, ∀ e ∈ (s.beforePass input queued).world.since s.world,
    e.isReset = false
  /-- If a pass then runs it resets the transport. -/
  reset_mem_runPass : ∀ input queued, (s.beforePass input queued).mobility.pending = true →
    (s.beforePass input queued).mobility.running = true →
    (s.beforePass input queued).world.unreset = true →
    ∃ accepted, .resetTransport true true accepted ∈
      (s.beforePass input queued).runPass.world.since (s.beforePass input queued).world

namespace Coordinator

variable {c : Coordinator σ}

/-- **No reset of the transport is lost.** After any moves, what was changed of the engine's addresses
since the last reset is marked, what is marked is scheduled, and the next pass resets. -/
theorem no_reset_lost {config : Config} {host : σ} (hstart : start config host = .ok c)
    (ms : List (Move σ)) : (c.runMoves ms).session.NoResetLost := by
  have hinvariant : (c.runMoves ms).session.Accountable ∧
      ((c.runMoves ms).session.mobility.running = true →
        (c.runMoves ms).session.mobility.pending = false) := by
    refine invariant_of_turn
      (P := fun s => s.Accountable ∧ (s.mobility.running = true → s.mobility.pending = false))
      ?_ ?_ ?_ ms
    · rintro s s' haside ⟨hs, hrest⟩
      refine ⟨haside.spares.network.accountable hs, ?_⟩
      rw [haside.spares.mobility]
      exact hrest
    · rintro s input queued hlive ⟨hs, _⟩
      exact Session.accountable_turn hs hlive input queued
    · rw [session_of_start hstart]
      exact ⟨Session.accountable_new config host, nofun⟩
  obtain ⟨hs, hrest⟩ := hinvariant
  refine ⟨fun hrunning hdirty => ?_, hs.marked, fun input queued => ?_, fun input queued e he => ?_,
    fun input queued => ?_⟩
  · rcases hs.followed hrunning hdirty with hpending | hactive
    · rw [hrest hrunning] at hpending
      cases hpending
    · exact hactive
  · exact (Session.accountable_beforePass hs input queued).marked
  · exact (Session.keepsTransport_beforePass input queued).of_mem_since he
  · exact Session.reset_mem_runPass (Session.accountable_beforePass hs input queued)

/-- An account signs in, a hotspot comes up, and its address is added after the delay. -/
def hotspotUp : List (Move Bench) :=
  [.ask ⟨0⟩ (.signIn bob), .loop, .notify ⟨1⟩ (.network (.hotspotChanged true)), .loop,
    .surroundings { networks := { interfaces := [⟨"ap0", [.v4 0xC0A82B01]⟩] } },
    .clock 60000, .fire, .loop]

/-- While the address of the hotspot waits for a reset, a timer is set for it. -/
theorem no_reset_lost_hotspotUp : start {} ({} : Bench) = .ok onBench ∧
    (onBench.runMoves hotspotUp).session.mobility.running = true ∧
    (onBench.runMoves hotspotUp).session.world.unreset = true ∧
    (onBench.runMoves hotspotUp).session.NoResetLost := by
  exact ⟨start_onBench, by decide, by decide, no_reset_lost start_onBench hotspotUp⟩

end Coordinator

end Softphone
