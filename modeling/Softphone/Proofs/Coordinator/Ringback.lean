import Softphone.Proofs.Coordinator.Lingering
import Softphone.Proofs.Session.Ringback

/-!
# The ringback along a run

Whatever happens to a coordinator, the ringback plays only while a live call has been answered
provisionally, exactly as long as no report rings back late (`Coordinator.ringback_throughout_iff`).
-/

namespace Softphone.Coordinator

variable {σ : Type} {c : Coordinator σ}

/-- The coordinator takes a report that rings back late. -/
def ringsBackLate [ToneDevice σ] [StampSource σ] (c : Coordinator σ) (m : Move σ) : Bool :=
  match c.turn? m with
  | some (input, _) => c.session.ringsBackLate input
  | none => false

variable [Host σ]

/-- A move keeps the ringback to calls that are being set up, unless it rings back late. -/
theorem ringbackInSetup_move_iff (hs : c.session.calls.Consistent) (h : c.session.RingbackInSetup)
    (m : Move σ) : (c.move m).session.RingbackInSetup ↔ c.ringsBackLate m = false := by
  rw [ringsBackLate]
  rcases move_cases c m with ⟨input, queued, hturn, hmove⟩ | ⟨hnone, hmove⟩
  · rw [Session.ringbackInSetup_congr hmove.calls (congrArg Player.active hmove.player), hturn]
    exact Session.ringbackInSetup_turn_iff hs h input queued
  · rw [Session.ringbackInSetup_congr hmove.calls (congrArg Player.active hmove.player), hnone]
    exact iff_of_true h rfl

/-- The calls are consistent, and the ringback plays only while one of them is being set up. -/
def SoundRingback (c : Coordinator σ) : Prop :=
  c.session.calls.Consistent ∧ c.session.RingbackInSetup

theorem soundRingback_move_iff {c : Coordinator σ} (m : Move σ) (h : c.SoundRingback) :
    (c.move m).SoundRingback ↔ c.ringsBackLate m = false := by
  rw [SoundRingback, and_iff_right (consistent_move h.1 m)]
  exact ringbackInSetup_move_iff h.1 h.2 m

/-- **The ringback is for calls that are being set up.** It is so throughout a run of any moves, exactly if
no move of the run is a report that begins the ringback for a call which has been answered, with no other
being set up. -/
theorem ringback_throughout_iff {config : Config} {host : σ} (hstart : start config host = .ok c)
    (ms : List (Move σ)) :
    (∀ k, (c.runMoves (ms.take k)).session.RingbackInSetup) ↔
      ∀ k m, ms[k]? = some m → (c.runMoves (ms.take k)).ringsBackLate m = false := by
  have hfirst : c.SoundRingback := by
    refine ⟨consistent_runMoves hstart [], ?_⟩
    rw [session_of_start hstart]
    intro hplays
    cases hplays
  rw [← throughout_iff soundRingback_move_iff hfirst]
  exact forall_congr' fun k => (and_iff_right (consistent_runMoves hstart _)).symm

/-- An account signs in, a call goes out, and the other side rings. -/
def ringingBack : List (Move Bench) :=
  [.ask ⟨0⟩ (.signIn bob), .loop] ++ reported 1 .outgoing ++ reported 1 .ringing

/-- While the other side rings, the call is established. -/
def ringingAnswered : List (Move Bench) := ringingBack ++ reported 1 .established

/-- Only once the call is established, the other side is told to ring. -/
def ringingLate : List (Move Bench) :=
  [.ask ⟨0⟩ (.signIn bob), .loop] ++ reported 1 .outgoing ++ reported 1 .established ++
    reported 1 .ringing

/-- The ringback plays until the call is established. -/
theorem ringback_throughout_ringingAnswered : start {} ({} : Bench) = .ok onBench ∧
    (onBench.runMoves ringingBack).session.player.active = some .ringback ∧
    (onBench.runMoves ringingAnswered).session.player.active = none ∧
    ∀ k, (onBench.runMoves (ringingAnswered.take k)).session.RingbackInSetup := by
  have hspares : ∀ k : Fin ringingAnswered.length,
      (onBench.runMoves (ringingAnswered.take k)).ringsBackLate ringingAnswered[k] = false := by decide
  refine ⟨start_onBench, by decide, by decide, ?_⟩
  refine (ringback_throughout_iff start_onBench ringingAnswered).2 fun k m hm => ?_
  obtain ⟨hk, rfl⟩ := List.getElem?_eq_some_iff.1 hm
  exact hspares ⟨k, hk⟩

/-- After a late report the ringback plays during the call. -/
theorem ringback_during_call : start {} ({} : Bench) = .ok onBench ∧
    (¬ ∀ k, (onBench.runMoves (ringingLate.take k)).session.RingbackInSetup) ∧
    (onBench.runMoves ringingLate).session.player.active = some .ringback ∧
    (onBench.runMoves ringingLate).session.calls.registry.calls.map (·.state) = [.established] := by
  refine ⟨start_onBench, fun h => ?_, by decide, by decide⟩
  have hearly := h ringingLate.length (by decide)
  revert hearly
  decide

end Softphone.Coordinator
