import Softphone.Proofs.Coordinator.Run
import Softphone.Proofs.Session.Passes

/-!
# No trigger is lost along a run

At every moment of a run no pass is pending, the turn that comes next answers all its triggers with one
pass, whatever notifications arrive while it is at work, and passes and coalesced requests together count
every trigger so far (`Coordinator.passes_lose_no_trigger`).
-/

namespace Softphone.Coordinator

variable {σ : Type} [Host σ] {c : Coordinator σ}

/-- How many triggers the session handles while one thing happens. -/
def triggers (c : Coordinator σ) (m : Move σ) : Nat :=
  match c.turn? m with
  | some (input, queued) => c.session.triggers input queued
  | none => 0

/-- How many triggers the session handles while several things happen in order. -/
def triggersAlong : Coordinator σ → List (Move σ) → Nat
  | _, [] => 0
  | c, m :: ms => c.triggers m + triggersAlong (c.move m) ms

/-- Passes and coalesced requests so far. -/
def answers (c : Coordinator σ) : Nat :=
  c.session.mobility.stats.passes + c.session.mobility.stats.coalesced

/-- The coordinator runs one pass at a time and forgets no trigger. -/
structure SingleFlight (c : Coordinator σ) : Prop where
  idle : c.session.mobility.pending = false
  /-- What comes next, if it is a turn, answers the triggers that it handles, those among them that arrive
  while the turn is at work. -/
  answered : ∀ meanwhile input queued, c.nextTurn? meanwhile = some (input, queued) →
    c.session.Answered input queued ∧
      (c.session.turn input queued).Beside (c.move (.proceed meanwhile)).session
  /-- Nothing but a turn with triggers runs a pass, and such a turn runs one. -/
  passes_move : ∀ m, (c.move m).session.mobility.stats.passes =
    c.session.mobility.stats.passes + if 0 < c.triggers m then 1 else 0

/-- What happens is a turn of the session and handles its triggers, or it passes the session by and
handles none. -/
theorem move_triggers (c : Coordinator σ) (m : Move σ) :
    (∃ input queued, c.turn? m = some (input, queued) ∧
        c.triggers m = c.session.triggers input queued ∧
        (c.session.turn input queued).Aside (c.move m).session) ∨
      (c.triggers m = 0 ∧ c.session.Aside (c.move m).session) := by
  rcases move_cases c m with ⟨input, queued, hturn, haside⟩ | ⟨hnone, haside⟩
  · refine .inl ⟨input, queued, hturn, ?_, haside⟩
    rw [triggers, hturn]
  · refine .inr ⟨?_, haside⟩
    rw [triggers, hnone]

theorem answered_of_turn? (hidle : c.session.mobility.pending = false) {m : Move σ} {input : Input}
    {queued : List Notification} (hturn : c.turn? m = some (input, queued)) :
    c.session.Answered input queued ∧ (c.session.turn input queued).mobility.pending = false :=
  Session.answered hidle (live_of_turn? hturn) input queued

theorem singleFlight_of_idle (hidle : c.session.mobility.pending = false) : c.SingleFlight where
  idle := hidle
  answered := by
    intro meanwhile input queued hnext
    refine ⟨(answered_of_turn? (m := .proceed meanwhile) hidle hnext).1, ?_⟩
    rcases proceed_cases c meanwhile with ⟨_, _, hturn, hbeside⟩ | ⟨hnone, _⟩
    · obtain ⟨rfl, rfl⟩ := Prod.mk.inj (Option.some.inj (hturn.symm.trans hnext))
      exact hbeside
    · rw [hnone] at hnext
      cases hnext
  passes_move := by
    intro m
    rcases move_triggers c m with ⟨input, queued, hturn, htriggers, haside⟩ | ⟨hnone, haside⟩
    · rw [haside.spares.mobility, htriggers]
      exact (answered_of_turn? hidle hturn).1.passes_turn
    · rw [haside.spares.mobility, hnone]
      rfl

/-- One thing that happens leaves no pass pending, and all triggers that it handles are answered. -/
theorem answers_move (hidle : c.session.mobility.pending = false) (m : Move σ) :
    (c.move m).session.mobility.pending = false ∧ (c.move m).answers = c.answers + c.triggers m := by
  rcases move_triggers c m with ⟨input, queued, hturn, htriggers, haside⟩ | ⟨hnone, haside⟩
  · obtain ⟨hanswered, hrests⟩ := answered_of_turn? hidle hturn
    rw [answers, haside.spares.mobility, htriggers]
    exact ⟨hrests, hanswered.counted⟩
  · rw [answers, haside.spares.mobility, hnone]
    exact ⟨hidle, rfl⟩

theorem answers_runMoves (hidle : c.session.mobility.pending = false) (ms : List (Move σ)) :
    (c.runMoves ms).session.mobility.pending = false ∧
      (c.runMoves ms).answers = c.answers + c.triggersAlong ms := by
  induction ms generalizing c with
  | nil => exact ⟨hidle, rfl⟩
  | cons m ms ih =>
    obtain ⟨hrests, hanswers⟩ := answers_move hidle m
    obtain ⟨hlater, hsum⟩ := ih hrests
    refine ⟨hlater, hsum.trans ?_⟩
    rw [hanswers, triggersAlong, Nat.add_assoc]

/-- **No trigger is lost.** After any moves no pass is pending, what comes next answers its triggers with
one pass, and the triggers so far are the passes and the coalesced requests together. -/
theorem passes_lose_no_trigger {config : Config} {host : σ} (hstart : start config host = .ok c)
    (ms : List (Move σ)) :
    (c.runMoves ms).SingleFlight ∧ (c.runMoves ms).answers = c.triggersAlong ms := by
  have hnew : c.session.mobility.pending = false ∧ c.answers = 0 := by
    rw [answers, session_of_start hstart]
    exact ⟨rfl, rfl⟩
  obtain ⟨hrests, hanswers⟩ := answers_runMoves hnew.1 ms
  refine ⟨singleFlight_of_idle hrests, ?_⟩
  rw [hanswers, hnew.2, Nat.zero_add]

/-- An account signs in, and a network is reported while that is dealt with. It is about to be lost, and is
lost while that is dealt with. -/
def burst : List (Move Bench) :=
  [.ask ⟨0⟩ (.signIn bob), .proceed [.notify ⟨1⟩ (.network (.available ⟨7⟩))],
    .notify ⟨2⟩ (.network (.losing ⟨7⟩)), .proceed [.notify ⟨3⟩ (.network (.lost ⟨7⟩))]]

/-- The network comes with the request to sign in, and one pass answers both. A network that is only about to be
lost is no trigger, so the second pass answers one. -/
theorem passes_lose_no_trigger_burst : start {} ({} : Bench) = .ok onBench ∧
    (onBench.runMoves (burst.take 1)).turn? burst[1] =
      some (.command ⟨0⟩ (.signIn bob), [.network (.available ⟨7⟩)]) ∧
    onBench.triggersAlong burst = 3 ∧
    (onBench.runMoves burst).session.mobility.stats.passes = 2 ∧
    (onBench.runMoves burst).SingleFlight ∧ (onBench.runMoves burst).answers = 3 := by
  obtain ⟨hflight, hanswers⟩ := passes_lose_no_trigger start_onBench burst
  exact ⟨start_onBench, rfl, by decide, by decide, hflight, hanswers.trans (by decide)⟩

end Softphone.Coordinator
