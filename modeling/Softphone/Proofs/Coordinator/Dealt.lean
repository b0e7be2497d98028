import Softphone.Proofs.Coordinator.Run
import Softphone.Proofs.Session.Resetting

/-!
# The messages of a run

The messages that a session deals with along a run, in order, and each with the session that it finds. A
property of what was dealt with so far and of the session now holds along every run if each message keeps
it, each pass, and everything that passes the session by (`Coordinator.dealt_induction`).
-/

namespace Softphone

variable {σ : Type} [Host σ]

namespace Session

variable {s : Session σ}

/-- Notifications that are taken one after another, each with the session that it finds. -/
def dealtQueued : List Notification → Session σ → List (Session σ × Input)
  | [], _ => []
  | notification :: rest, s =>
    (s, .notification notification) :: dealtQueued rest (s.handleNotification notification)

/-- The messages of a turn, each with the session that it finds. -/
def dealt (input : Input) (queued : List Notification) (s : Session σ) :
    List (Session σ × Input) :=
  (s, input) :: dealtQueued (s.taken input queued) (s.handle input)

variable {P : List (Session σ × Input) → Session σ → Prop} {past : List (Session σ × Input)}

theorem dealtQueued_induction
    (hhandle : ∀ {past s} input, P past s → P (past ++ [(s, input)]) (s.handle input))
    (h : P past s) (queued : List Notification) :
    P (past ++ dealtQueued queued s) (queued.foldl handleNotification s) := by
  induction queued generalizing past s with
  | nil =>
    rw [dealtQueued, List.append_nil]
    exact h
  | cons notification rest ih =>
    have hlater := ih (hhandle (.notification notification) h)
    rwa [List.append_assoc] at hlater

/-- What every message keeps holds of the messages of a turn, and of the session from which its pass starts. -/
theorem dealt_beforePass_induction
    (hhandle : ∀ {past s} input, P past s → P (past ++ [(s, input)]) (s.handle input)) (h : P past s)
    (input : Input) (queued : List Notification) :
    P (past ++ s.dealt input queued) (s.beforePass input (s.taken input queued)) := by
  have hlater := dealtQueued_induction hhandle (hhandle input h) (s.taken input queued)
  rwa [List.append_assoc] at hlater

theorem dealt_induction
    (hhandle : ∀ {past s} input, P past s → P (past ++ [(s, input)]) (s.handle input))
    (hpass : ∀ {past s}, P past s → P past s.runPass) (h : P past s) (input : Input)
    (queued : List Notification) : P (past ++ s.dealt input queued) (s.turn input queued) := by
  have htaken := dealt_beforePass_induction hhandle h input queued
  cases hended : (s.handle input).ended with
  | true =>
    rw [turn_of_ended hended]
    exact htaken
  | false =>
    rw [turn_of_going hended]
    exact hpass htaken

end Session

namespace Coordinator

variable {c : Coordinator σ}

/-- The messages that the session deals with while one thing happens. -/
def dealt (c : Coordinator σ) (m : Move σ) : List (Session σ × Input) :=
  match c.turn? m with
  | some (input, queued) => c.session.dealt input queued
  | none => []

/-- The messages that the session deals with while several things happen in order. -/
def dealtAlong : Coordinator σ → List (Move σ) → List (Session σ × Input)
  | _, [] => []
  | c, m :: ms => c.dealt m ++ dealtAlong (c.move m) ms

variable {P : List (Session σ × Input) → Session σ → Prop} {past : List (Session σ × Input)}

theorem dealt_move (haside : ∀ {past s s'}, s.Aside s' → P past s → P past s')
    (hhandle : ∀ {past s} input, P past s → P (past ++ [(s, input)]) (s.handle input))
    (hpass : ∀ {past s}, P past s → P past s.runPass) (h : P past c.session) (m : Move σ) :
    P (past ++ c.dealt m) (c.move m).session := by
  rcases move_cases c m with ⟨input, queued, hturn, hmove⟩ | ⟨hnone, hmove⟩
  · have hdealt : c.dealt m = c.session.dealt input queued := by
      rw [dealt, hturn]
    rw [hdealt]
    exact haside hmove (Session.dealt_induction (P := P) hhandle hpass h input queued)
  · rw [dealt, hnone, List.append_nil]
    exact haside hmove h

/-- What holds when nothing has been dealt with, and is kept by every message, by every pass and by
everything that passes the session by, holds of what a run has dealt with and of its session. -/
theorem dealt_induction (haside : ∀ {past s s'}, s.Aside s' → P past s → P past s')
    (hhandle : ∀ {past s} input, P past s → P (past ++ [(s, input)]) (s.handle input))
    (hpass : ∀ {past s}, P past s → P past s.runPass) (h : P [] c.session) (ms : List (Move σ)) :
    P (c.dealtAlong ms) (c.runMoves ms).session := by
  suffices hrun : ∀ {c : Coordinator σ} past, P past c.session →
      P (past ++ c.dealtAlong ms) (c.runMoves ms).session from hrun [] h
  induction ms with
  | nil =>
    intro c past hpast
    rw [dealtAlong, List.append_nil]
    exact hpast
  | cons m ms ih =>
    intro c past hpast
    rw [dealtAlong, ← List.append_assoc]
    exact ih _ (dealt_move (P := P) haside hhandle hpass hpast m)

end Coordinator

end Softphone
