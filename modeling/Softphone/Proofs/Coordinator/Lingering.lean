import Softphone.Proofs.Coordinator.Run
import Softphone.Proofs.Session.Lingering

/-!
# Lingering calls along a run

Whatever happens to a coordinator, its session tracks a closed call exactly while the busy tone plays, as
long as no report on another call cuts that tone (`Coordinator.inStep_throughout_iff`). A report that
cuts it leaves the closed call behind.
-/

namespace Softphone.Coordinator

variable {σ : Type} {c : Coordinator σ}

/-- The coordinator takes a report that cuts the busy tone. -/
def cutsBusy (c : Coordinator σ) (m : Move σ) : Bool :=
  match c.turn? m with
  | some (.engine (.call event), _) => c.session.cutsBusy event
  | _ => false

theorem consistent_aside {s s' : Session σ} (h : s.Aside s') (hs : s.calls.Consistent) :
    s'.calls.Consistent := by
  rw [h.calls]
  exact hs

theorem inStep_aside {s s' : Session σ} (h : s.Aside s') (hs : s.calls.Consistent) :
    s'.InStep ↔ s.InStep := by
  rw [Session.inStep_iff (consistent_aside h hs), Session.inStep_iff hs, h.calls, h.player]

theorem cutsBusy_turn {m : Move σ} {input : Input} {queued : List Notification}
    (h : c.turn? m = some (input, queued)) : c.cutsBusy m = false ↔
      ∀ event, input = .engine (.call event) → c.session.cutsBusy event = false := by
  unfold cutsBusy
  rw [h]
  split
  · rename_i event _ heq
    obtain ⟨rfl, rfl⟩ := Prod.mk.inj (Option.some.inj heq)
    constructor
    · rintro hspares other hother
      cases hother
      exact hspares
    · exact fun hspares => hspares event rfl
  · rename_i hother
    refine iff_of_true rfl fun event heq => ?_
    subst heq
    exact absurd rfl (hother event queued)

variable [Host σ]

/-- A move keeps a session that goes on in step, unless it cuts the busy tone. -/
theorem inStep_move_iff (hs : c.session.calls.Consistent) (hstep : c.session.InStep) {m : Move σ}
    (hlive : (c.move m).hasStopped = false) :
    (c.move m).session.InStep ↔ c.cutsBusy m = false := by
  rcases move_cases c m with ⟨input, queued, hturn, hmove⟩ | ⟨hnone, hmove⟩
  · rw [inStep_aside hmove (Session.consistent_turn hs input queued), cutsBusy_turn hturn]
    exact Session.inStep_turn_iff hs hstep (hmove.ended.symm.trans hlive)
  · rw [inStep_aside hmove hs]
    refine iff_of_true hstep ?_
    unfold cutsBusy
    rw [hnone]

/-- A move that cuts the busy tone leaves the session going. -/
theorem live_of_cutsBusy {m : Move σ} (h : c.cutsBusy m = true) :
    c.hasStopped = false ∧ (c.move m).hasStopped = false := by
  rcases move_cases c m with ⟨input, queued, hturn, hmove⟩ | ⟨hnone, -⟩
  · have hlive := live_of_turn? hturn
    refine ⟨hlive, ?_⟩
    unfold cutsBusy at h
    rw [hturn] at h
    split at h
    · rename_i event _ heq
      obtain ⟨rfl, rfl⟩ := Prod.mk.inj (Option.some.inj heq)
      exact hmove.ended.trans ((Session.turn_engine_ended _ _ _).trans hlive)
    · cases h
  · unfold cutsBusy at h
    rw [hnone] at h
    cases h

theorem stopped_move (hended : c.hasStopped = true) (m : Move σ) :
    (c.move m).hasStopped = true :=
  (stopped_aside hended m).ended.trans hended

theorem consistent_move (hs : c.session.calls.Consistent) (m : Move σ) :
    (c.move m).session.calls.Consistent :=
  invariant_of_turn consistent_aside
    (fun input queued _ hs => Session.consistent_turn hs input queued) hs [m]

theorem consistent_runMoves {config : Config} {host : σ} (hstart : start config host = .ok c)
    (ms : List (Move σ)) : (c.runMoves ms).session.calls.Consistent := by
  refine invariant_of_turn consistent_aside ?_ ?_ ms
  · intro s input queued _ hs
    exact Session.consistent_turn hs input queued
  · rw [session_of_start hstart]
    exact CallBook.Consistent.empty

/-- **When a closed call is tracked exactly while its busy tone plays.** It is so throughout a run of any
moves, until the session ends, exactly if no move of the run cuts the busy tone. -/
theorem inStep_throughout_iff {config : Config} {host : σ} (hstart : start config host = .ok c)
    (ms : List (Move σ)) :
    (∀ k, (c.runMoves (ms.take k)).hasStopped = false →
        (c.runMoves (ms.take k)).session.InStep) ↔
      ∀ k m, ms[k]? = some m → (c.runMoves (ms.take k)).cutsBusy m = false := by
  have hconsistent := consistent_runMoves hstart
  constructor
  · intro hstep k m hm
    -- A cut ends no session, so the state after it would have to be in step as well.
    by_contra hcuts
    rw [Bool.not_eq_false] at hcuts
    obtain ⟨hbefore, hafter⟩ := live_of_cutsBusy hcuts
    have hkept := hstep (k + 1)
    rw [runMoves_take_succ hm] at hkept
    have hspares := (inStep_move_iff (hconsistent _) (hstep k hbefore) hafter).1 (hkept hafter)
    exact Bool.false_ne_true (hspares.symm.trans hcuts)
  · intro hspares k
    -- A coordinator that goes on after `k + 1` moves went on after `k`, so the step lemma applies.
    induction k with
    | zero =>
      intro _
      rw [Session.inStep_iff (hconsistent _), List.take_zero, runMoves, List.foldl_nil,
        session_of_start hstart]
      exact iff_of_false Bool.false_ne_true (by simp [Session.new])
    | succ k ih =>
      intro hlive
      cases hm : ms[k]? with
      | none =>
        rw [runMoves_take_of_none hm] at hlive ⊢
        exact ih hlive
      | some m =>
        rw [runMoves_take_succ hm] at hlive ⊢
        have hbefore := Bool.eq_false_iff.2 fun hended =>
          Bool.false_ne_true (hlive.symm.trans (stopped_move hended m))
        exact (inStep_move_iff (hconsistent _) (ih hbefore) hlive).2 (hspares k m hm)

/-- An account signs in, two calls come in, and the second closes busy. -/
def secondBusy : List (Move Bench) :=
  [.ask ⟨0⟩ (.signIn ⟨"bob", "example.com", "secret", none, defaultStunServer⟩), .loop] ++
    reported 1 .incoming ++ reported 2 .incoming ++ reported 2 (.closed (some CallBook.busyHint))

/-- While the tone of the second call plays, the first call closes too. -/
def busyCut : List (Move Bench) := secondBusy ++ reported 1 (.closed none)

/-- The busy tone of the second call comes to its end. -/
def busyEnded : List (Move Bench) := secondBusy ++ [.notify ⟨3⟩ .toneFinished, .loop]

/-- Once its tone is cut the closed call is tracked on, and is still current. -/
theorem busyCut_outlives_tone : start {} ({} : Bench) = .ok onBench ∧
    (¬ ∀ k, (onBench.runMoves (busyCut.take k)).hasStopped = false →
      (onBench.runMoves (busyCut.take k)).session.InStep) ∧
    (onBench.runMoves busyCut).session.player.active = none ∧
    (onBench.runMoves busyCut).session.calls.registry.current?.map (·.state) = some .closed := by
  refine ⟨start_onBench, fun h => ?_, by decide, by decide⟩
  have hcut := (h 10 (by decide)).closed_iff
  revert hcut
  decide

/-- Where no tone is cut, the closed call is gone at the end of its tone. -/
theorem inStep_throughout_busyEnded : start {} ({} : Bench) = .ok onBench ∧
    (onBench.runMoves secondBusy).session.player.active = some .busy ∧
    (onBench.runMoves busyEnded).session.player.active = none ∧
    ∀ k, (onBench.runMoves (busyEnded.take k)).hasStopped = false →
      (onBench.runMoves (busyEnded.take k)).session.InStep := by
  have hspares : ∀ k : Fin busyEnded.length,
      (onBench.runMoves (busyEnded.take k)).cutsBusy busyEnded[k] = false := by decide
  refine ⟨start_onBench, by decide, by decide, ?_⟩
  refine (inStep_throughout_iff start_onBench busyEnded).2 fun k m hm => ?_
  obtain ⟨hk, rfl⟩ := List.getElem?_eq_some_iff.1 hm
  exact hspares ⟨k, hk⟩

end Softphone.Coordinator
