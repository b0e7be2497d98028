import Softphone.Proofs.Coordinator.Lock
import Softphone.Proofs.Session.Teardown

/-!
# The end of a run

Whenever the session is shut down, or nobody is left who could send a request, everything is given back in
order, and the world sees nothing but replies from then on (`Coordinator.tornDown_of_ends`).
-/

namespace Softphone.Coordinator

variable {σ : Type} [Host σ] {c : Coordinator σ}

/-- Nothing that happens to a coordinator that has stopped undoes the end of its session. -/
theorem tornDown_runMoves {s : Session σ} (h : s.TornDown c.session) (ms : List (Move σ)) :
    s.TornDown (c.runMoves ms).session := by
  induction ms generalizing c with
  | nil => exact h
  | cons m ms ih => exact ih (h.aside (stopped_aside h.ended m))

/-- **Everything is given back in order.** After any moves, with any engine, platform and device, a message that
ends the session frees the timers, the lock, the player, those who wait for the route and the agent, by the
effects of `Session.partingEffects`. Once the coordinator has taken such a message, nothing but replies follows
whatever happens. -/
theorem tornDown_of_ends {config : Config} {host : σ} (hstart : start config host = .ok c)
    (ms : List (Move σ)) {input : Input} (hends : input.ends = true) :
    (∀ queued, (c.runMoves ms).session.TornDown ((c.runMoves ms).session.turn input queued)) ∧
      ((c.runMoves ms).nextInput? = some input → ∀ meanwhile later,
        (c.runMoves ms).session.TornDown
          (c.runMoves (ms ++ .proceed meanwhile :: later)).session) := by
  obtain ⟨hkept, -⟩ := lockKept_runMoves hstart ms
  refine ⟨hkept.tornDown_turn hends, fun hnext meanwhile later => ?_⟩
  obtain ⟨queued, haside⟩ := proceed_of_nextInput? hnext meanwhile
  rw [runMoves_append]
  exact tornDown_runMoves ((hkept.tornDown_turn hends queued).aside haside) later

/-- A call rings on a Wi-Fi network, and somebody waits for the speaker, when the session is asked to shut
down. -/
def ringingOnWifi : List (Move Bench) :=
  [.surroundings { onWifi {} with audio.reportedMode := some .inCommunication },
    .ask ⟨0⟩ (.signIn bob), .loop] ++ reported 1 .incoming ++
    [.ask ⟨2⟩ (.setSpeaker (some true)), .loop, .ask ⟨3⟩ .shutdown]

/-- Lock, ringtone, speaker, focus and agent are given back; a request that comes later is refused. -/
theorem tornDown_ringingOnWifi : start {} ({} : Bench) = .ok onBench ∧
    (Input.command ⟨3⟩ .shutdown).ends = true ∧
    (onBench.runMoves ringingOnWifi).nextInput? = some (.command ⟨3⟩ .shutdown) ∧
    (onBench.runMoves ringingOnWifi).session.partingEffects true =
      [.releaseLock, .stopRingtone, .cancelVibration, .reply ⟨2⟩ (.isOn false), .abandonFocus,
        .publish (.registrationChanged .cleared), .unregister ⟨100⟩ true] ∧
    (onBench.runMoves (ringingOnWifi ++ [.loop, .ask ⟨4⟩ .refresh])).session.world.since
        (onBench.runMoves ringingOnWifi).session.world =
      (onBench.runMoves ringingOnWifi).session.partingEffects true ++
        [.reply ⟨3⟩ (.done (.ok ())), .reply ⟨4⟩ (.done (.error .stopped))] ∧
    (onBench.runMoves ringingOnWifi).session.TornDown
      (onBench.runMoves (ringingOnWifi ++ [.loop, .ask ⟨4⟩ .refresh])).session := by
  have hnext : (onBench.runMoves ringingOnWifi).nextInput? = some (.command ⟨3⟩ .shutdown) := by decide
  exact ⟨start_onBench, rfl, hnext, by decide, by decide,
    (tornDown_of_ends start_onBench ringingOnWifi rfl).2 hnext [] [.ask ⟨4⟩ .refresh]⟩

end Softphone.Coordinator
