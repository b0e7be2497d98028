import Softphone.Proofs.Coordinator.Run
import Softphone.Proofs.Session.Releasing

/-!
# Where the audio is given back along a run

Whenever a run gives the audio back no live call is current (`Coordinator.release_spares_current`). It
may take the audio from a call that is live and not current: the call that came in last was current and
closes, and an established one goes on without audio (`Coordinator.release_hits_established`).
-/

namespace Softphone.Coordinator

variable {σ : Type} [Host σ]

/-- The actions that the session carries out while one thing happens, each with the session that it is
carried out in. -/
def actions (c : Coordinator σ) (m : Move σ) : List (CallAction × Session σ) :=
  match c.turn? m with
  | some (input, queued) => c.session.turnActions input queued
  | none => []

/-- The actions that the session carries out while several things happen in order. -/
def actionsAlong : Coordinator σ → List (Move σ) → List (CallAction × Session σ)
  | _, [] => []
  | c, m :: ms => c.actions m ++ actionsAlong (c.move m) ms

theorem currentLive?_of_actions (c : Coordinator σ) (m : Move σ) :
    ∀ e ∈ c.actions m, e.1 = .releaseAudio → e.2.currentLive? = none := by
  rw [actions]
  split
  · exact Session.currentLive?_of_released _ _ _
  · exact List.forall_mem_nil _

/-- **The audio is never taken from the current call.** Along a run of any moves, whenever the audio is
given back no live call is current. -/
theorem release_spares_current (c : Coordinator σ) (ms : List (Move σ)) :
    ∀ e ∈ c.actionsAlong ms, e.1 = .releaseAudio → e.2.currentLive? = none := by
  induction ms generalizing c with
  | nil => exact List.forall_mem_nil _
  | cons m ms ih => exact List.forall_mem_append.2 ⟨currentLive?_of_actions c m, ih _⟩

/-- Two calls come in and close in the same order. -/
def firstCallGoesFirst : List (Move Bench) :=
  [.ask ⟨0⟩ (.signIn bob), .loop] ++ reported 1 .incoming ++ reported 2 .incoming ++
    reported 1 (.closed none) ++ reported 2 (.closed none)

/-- The audio is given back once, with the second call. -/
theorem release_spares_current_firstCallGoesFirst : start {} ({} : Bench) = .ok onBench ∧
    (onBench.actionsAlong firstCallGoesFirst).countP (·.1 = .releaseAudio) = 1 ∧
    ∃ e ∈ onBench.actionsAlong firstCallGoesFirst, e.1 = .releaseAudio ∧
      e.2.currentLive? = none := by
  have honce : (onBench.actionsAlong firstCallGoesFirst).countP (·.1 = .releaseAudio) = 1 := by
    decide
  obtain ⟨e, hmem, hrelease⟩ := List.countP_pos_iff.1 (honce ▸ Nat.one_pos)
  have haction := of_decide_eq_true hrelease
  exact ⟨start_onBench, honce, e, hmem, haction,
    release_spares_current onBench firstCallGoesFirst e hmem haction⟩

/-- A call comes in, is answered and established, and a second one comes in and closes. -/
def secondCallGoes : List (Move Bench) :=
  [.ask ⟨0⟩ (.signIn bob), .loop] ++ reported 1 .incoming ++ [.ask ⟨1⟩ .answer, .loop] ++
    reported 1 .established ++ reported 2 .incoming ++ reported 2 (.closed none)

/-- The audio is given back with the second call although the first is established. -/
theorem release_hits_established : start {} ({} : Bench) = .ok onBench ∧
    ¬ ∀ e ∈ onBench.actionsAlong secondCallGoes, e.1 = .releaseAudio →
      ∀ call ∈ e.2.calls.registry.calls, call.isLive = false := by
  refine ⟨start_onBench, fun hidle => ?_⟩
  revert hidle
  decide

end Softphone.Coordinator
