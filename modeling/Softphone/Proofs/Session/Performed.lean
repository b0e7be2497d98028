import Softphone.Proofs.Session.Actions
import Softphone.Proofs.Session.Resetting

/-!
# The actions of a turn

`Session.turnActions` lists the actions that a turn carries out, each with the session that it is carried
out in. What holds of the actions that are still to be done, and is kept by doing the first of them, holds
at each of them and at the end (`Session.executed_induction`).
-/

namespace Softphone.Session

variable {σ : Type}

/-! ## The list of actions -/

section Actions

variable [ToneDevice σ] [AudioDevice σ]

/-- Some actions that are carried out in order. -/
def performed : List CallAction → Session σ → List (CallAction × Session σ)
  | [], _ => []
  | action :: rest, s => (action, s) :: performed rest (s.perform action).2

/-- Some actions that are carried out in order, and those that were put off. -/
def executed (actions : List CallAction) (s : Session σ) : List (CallAction × Session σ) :=
  s.performed actions ++ (s.performAll actions).2.performed (s.performAll actions).1

/-- The actions of a notification: those of a busy tone that has ended. -/
def notificationActions (s : Session σ) : Notification → List (CallAction × Session σ)
  | .toneFinished =>
    let (wasBusy, player) := s.player.onToneFinished
    let (actions, s) := { s with player }.finishTone
    if wasBusy then s.executed actions else []
  | .network _ | .audioMode _ => []

end Actions

section Turn

variable [Host σ]

/-- The actions of a message: those of a report on a call, or of a busy tone that has ended. -/
def inputActions (s : Session σ) : Input → List (CallAction × Session σ)
  | .notification notification => s.notificationActions notification
  | .engine (.call event) =>
    let (stamp, world) := s.world.stamp
    let (actions, calls) := s.calls.receive stamp s.registration.agent event
    { s with calls, world }.executed actions
  | .engine (.registration _) | .firing _ | .command _ _ | .abandoned => []

/-- The actions of notifications that are taken one after another. -/
def queuedActions : List Notification → Session σ → List (CallAction × Session σ)
  | [], _ => []
  | notification :: rest, s =>
    s.notificationActions notification ++ queuedActions rest (s.handleNotification notification)

/-- The actions of a turn. -/
def turnActions (input : Input) (queued : List Notification) (s : Session σ) :
    List (CallAction × Session σ) :=
  s.inputActions input ++ queuedActions (s.taken input queued) (s.handle input)

end Turn

/-! ## Actions that are still to be done -/

section Actions

variable [ToneDevice σ] [AudioDevice σ] {s : Session σ} {actions later : List CallAction}
  {P : List CallAction → Session σ → Prop}

/-- What a step keeps of the actions to be done: the first is done, and what is put off comes last. -/
def KeptByActions (P : List CallAction → Session σ → Prop) : Prop :=
  ∀ {s : Session σ} {action rest}, P (action :: rest) s →
    P (rest ++ (s.perform action).1) (s.perform action).2

theorem performAll_induction (hkept : KeptByActions P) (h : P (actions ++ later) s) :
    (∀ e ∈ s.performed actions, ∃ rest, P (e.1 :: rest) e.2) ∧
      P (later ++ (s.performAll actions).1) (s.performAll actions).2 := by
  induction actions generalizing s later with
  | nil =>
    rw [performAll, List.append_nil]
    exact ⟨List.forall_mem_nil _, h⟩
  | cons action rest ih =>
    rw [List.cons_append] at h
    have hnext := hkept h
    rw [List.append_assoc] at hnext
    obtain ⟨hrest, hend⟩ := ih hnext
    rw [performAll_cons, ← List.append_assoc]
    exact ⟨List.forall_mem_cons.2 ⟨⟨_, h⟩, hrest⟩, hend⟩

theorem playBusy_not_mem_performAll : .playBusy ∉ (s.performAll actions).1 := by
  induction actions generalizing s with
  | nil => exact List.not_mem_nil
  | cons action rest ih =>
    rw [performAll_cons, List.mem_append, not_or]
    refine ⟨?_, ih⟩
    by_cases haction : action = .playBusy
    · subst haction
      rcases perform_playBusy_cases s with ⟨-, hlater, -⟩ | ⟨-, hlater, -⟩
      · rw [hlater]
        exact List.not_mem_nil
      · rw [hlater]
        exact (onToneFinished_calm s.calls).1
    · rw [perform_later haction]
      exact List.not_mem_nil

/-- What holds with some actions to be done, and is kept by doing the first, holds at each action that is
carried out, and at the end with nothing to be done. -/
theorem executed_induction (hkept : KeptByActions P) (h : P actions s) :
    (∀ e ∈ s.executed actions, ∃ rest, P (e.1 :: rest) e.2) ∧ P [] (s.execute actions) := by
  rw [← List.append_nil actions] at h
  obtain ⟨hfirst, hmiddle⟩ := performAll_induction hkept h
  rw [List.nil_append, ← List.append_nil (s.performAll actions).1] at hmiddle
  obtain ⟨hsecond, hend⟩ := performAll_induction hkept hmiddle
  rw [performAll_later playBusy_not_mem_performAll] at hend
  exact ⟨List.forall_mem_append.2 ⟨hfirst, hsecond⟩, hend⟩

theorem foldl_performed : (s.performed actions).foldl (fun s e => (s.perform e.1).2) s =
    (s.performAll actions).2 := by
  induction actions generalizing s with
  | nil => rfl
  | cons action rest ih => exact ih

/-- The listed actions, carried out one after another, lead to the session in the end. -/
theorem foldl_executed : (s.executed actions).foldl (fun s e => (s.perform e.1).2) s =
    s.execute actions := by
  rw [executed, List.foldl_append, foldl_performed, foldl_performed]
  rfl

end Actions

end Softphone.Session
