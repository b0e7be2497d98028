import Softphone.Proofs.Audio.Playing
import Softphone.Proofs.Calls.Closing
import Softphone.Session.Actions

/-!
# Actions carried out

What carrying out actions does to the calls and to the busy tone. Only a busy tone that cannot be
started touches the calls, and the busy tone is heard on unless the tone of a call is stopped.
-/

namespace Softphone.Session

variable {σ : Type} [ToneDevice σ] [AudioDevice σ] {s : Session σ} {action : CallAction}
  {actions : List CallAction}

theorem perform_later (h : action ≠ .playBusy) : (s.perform action).1 = [] := by
  cases action with
  | playBusy => exact absurd rfl h
  | startRinging | stopRinging | playRingback | stopTone | releaseAudio | emit => rfl

theorem perform_calls (h : action ≠ .playBusy) : (s.perform action).2.calls = s.calls := by
  cases action with
  | playBusy => exact absurd rfl h
  | startRinging | stopRinging | playRingback | stopTone | releaseAudio | emit => rfl

theorem perform_busy_iff (h : action ≠ .playBusy) :
    (s.perform action).2.player.active = some .busy ↔
      s.player.active = some .busy ∧ action ≠ .stopTone := by
  cases action with
  | startRinging =>
    change (s.player.startRinging s.timers s.world).1.active = _ ↔ _
    rw [Player.startRinging_active]
    cases s.player.active <;> simp
  | stopRinging =>
    change (s.player.stopRinging s.timers s.world).1.active = _ ↔ _
    rw [Player.stopRinging_active]
    split <;> simp_all
  | playRingback =>
    change (s.player.play .ringback true s.world).1.active = _ ↔ _
    rcases Player.play_active s.player .ringback true s.world with hsame | ⟨hnone, hplays⟩
    · simp [hsame]
    · simp [hplays, hnone, Player.playingOf]
  | stopTone =>
    change (s.player.stopTone s.world).1.active = _ ↔ _
    rw [Player.stopTone_active]
    split <;> simp_all
  | playBusy => exact absurd rfl h
  | releaseAudio | emit => exact (and_iff_left nofun).symm

/-- The busy tone plays, or the closed call is dropped as if it had ended. -/
theorem perform_playBusy_cases (s : Session σ) :
    ((s.perform .playBusy).2.player.active = some .busy ∧ (s.perform .playBusy).1 = [] ∧
        (s.perform .playBusy).2.calls = s.calls) ∨
      ((s.perform .playBusy).2.player.active ≠ some .busy ∧
        (s.perform .playBusy).1 = s.calls.onToneFinished.1 ∧
        (s.perform .playBusy).2.calls = s.calls.onToneFinished.2) := by
  unfold perform
  dsimp only
  split
  · rename_i hplays
    exact .inl ⟨Player.playBusy_plays.1 hplays, rfl, rfl⟩
  · rename_i hsilent
    exact .inr ⟨fun hbusy => hsilent (Player.playBusy_plays.2 hbusy), rfl, rfl⟩

/-! ## Many actions -/

theorem performAll_cons (action : CallAction) (rest : List CallAction) :
    s.performAll (action :: rest) =
      ((s.perform action).1 ++ ((s.perform action).2.performAll rest).1,
        ((s.perform action).2.performAll rest).2) := rfl

theorem performAll_append (xs ys : List CallAction) :
    s.performAll (xs ++ ys) =
      ((s.performAll xs).1 ++ ((s.performAll xs).2.performAll ys).1,
        ((s.performAll xs).2.performAll ys).2) := by
  induction xs generalizing s with
  | nil => rfl
  | cons x xs ih => rw [List.cons_append, performAll_cons, ih, performAll_cons, List.append_assoc]

theorem performAll_later (h : .playBusy ∉ actions) : (s.performAll actions).1 = [] := by
  induction actions generalizing s with
  | nil => rfl
  | cons action rest ih =>
    rw [List.mem_cons, not_or] at h
    rw [performAll_cons, perform_later (Ne.symm h.1), ih h.2, List.append_nil]

theorem performAll_calls (h : .playBusy ∉ actions) : (s.performAll actions).2.calls = s.calls := by
  induction actions generalizing s with
  | nil => rfl
  | cons action rest ih =>
    rw [List.mem_cons, not_or] at h
    rw [performAll_cons, ih h.2, perform_calls (Ne.symm h.1)]

theorem performAll_busy_iff (h : .playBusy ∉ actions) :
    (s.performAll actions).2.player.active = some .busy ↔
      s.player.active = some .busy ∧ .stopTone ∉ actions := by
  induction actions generalizing s with
  | nil => simp [performAll]
  | cons action rest ih =>
    rw [List.mem_cons, not_or] at h
    rw [performAll_cons, ih h.2, perform_busy_iff (Ne.symm h.1), List.mem_cons, not_or, and_assoc,
      ne_comm]

theorem execute_of_calm (h : .playBusy ∉ actions) :
    s.execute actions = (s.performAll actions).2 := by
  change ((s.performAll actions).2.performAll (s.performAll actions).1).2 = _
  rw [performAll_later h]
  rfl

theorem execute_calls (h : .playBusy ∉ actions) : (s.execute actions).calls = s.calls := by
  rw [execute_of_calm h]
  exact performAll_calls h

theorem execute_busy_iff (h : .playBusy ∉ actions) :
    (s.execute actions).player.active = some .busy ↔
      s.player.active = some .busy ∧ .stopTone ∉ actions := by
  rw [execute_of_calm h]
  exact performAll_busy_iff h

theorem onToneFinished_calm (b : CallBook) :
    .playBusy ∉ b.onToneFinished.1 ∧ .stopTone ∉ b.onToneFinished.1 := by
  unfold CallBook.onToneFinished
  split
  · simp
  · dsimp only
    split <;> simp

/-- The actions of a call that closes with a busy tone: the tone plays and the call stays, or the tone
cannot be started and the call goes. -/
theorem execute_playBusy_cases (s : Session σ) {rest : List CallAction} (hbusy : .playBusy ∉ rest)
    (htone : .stopTone ∉ rest) :
    ((s.execute ([.stopRinging, .stopTone, .playBusy] ++ rest)).player.active = some .busy ∧
        (s.execute ([.stopRinging, .stopTone, .playBusy] ++ rest)).calls = s.calls) ∨
      ((s.execute ([.stopRinging, .stopTone, .playBusy] ++ rest)).player.active ≠ some .busy ∧
        (s.execute ([.stopRinging, .stopTone, .playBusy] ++ rest)).calls =
          s.calls.onToneFinished.2) := by
  have hopening : .playBusy ∉ [CallAction.stopRinging, .stopTone] := by simp
  generalize hs₁ : (s.performAll [.stopRinging, .stopTone]).2 = s₁
  have hcalm := (onToneFinished_calm s₁.calls).1
  have hcalls : s₁.calls = s.calls := by
    rw [← hs₁]
    exact performAll_calls hopening
  have hexecute : s.execute ([.stopRinging, .stopTone, .playBusy] ++ rest) =
      (((s₁.perform .playBusy).2.performAll rest).2.performAll (s₁.perform .playBusy).1).2 := by
    unfold execute
    rw [show [CallAction.stopRinging, .stopTone, .playBusy] ++ rest =
      [.stopRinging, .stopTone] ++ .playBusy :: rest from rfl, performAll_append,
      performAll_later hopening, hs₁, performAll_cons, performAll_later hbusy, List.append_nil,
      List.nil_append]
  rw [hexecute]
  -- What was put off is what the end of a tone asks for, and that stops no tone.
  rcases perform_playBusy_cases s₁ with ⟨hplays, hlater, hkept⟩ | ⟨hsilent, hlater, hdropped⟩
  · rw [hlater]
    refine .inl ⟨(performAll_busy_iff hbusy).2 ⟨hplays, htone⟩, ?_⟩
    exact (performAll_calls hbusy).trans (hkept.trans hcalls)
  · rw [hlater]
    refine .inr ⟨?_, ?_⟩
    · rw [ne_eq, performAll_busy_iff hcalm, performAll_busy_iff hbusy]
      exact fun hafter => hsilent hafter.1.1
    · rw [performAll_calls hcalm, performAll_calls hbusy, hdropped, hcalls]

/-! ## The session goes on -/

theorem perform_ended (s : Session σ) (action : CallAction) :
    (s.perform action).2.ended = s.ended := by
  cases action with
  | playBusy =>
    unfold perform
    dsimp only
    split
    · rfl
    · rfl
  | startRinging | stopRinging | playRingback | stopTone | releaseAudio | emit => rfl

theorem performAll_ended (s : Session σ) (actions : List CallAction) :
    (s.performAll actions).2.ended = s.ended := by
  induction actions generalizing s with
  | nil => rfl
  | cons action rest ih => exact (ih _).trans (perform_ended s action)

theorem execute_ended (s : Session σ) (actions : List CallAction) :
    (s.execute actions).ended = s.ended :=
  (performAll_ended _ _).trans (performAll_ended s actions)

/-! ## Consistent books -/

theorem perform_consistent (h : s.calls.Consistent) (action : CallAction) :
    (s.perform action).2.calls.Consistent := by
  by_cases haction : action = .playBusy
  · subst haction
    rcases perform_playBusy_cases s with ⟨_, _, hkept⟩ | ⟨_, _, hdropped⟩
    · rw [hkept]
      exact h
    · rw [hdropped]
      exact h.onToneFinished
  · rw [perform_calls haction]
    exact h

theorem performAll_consistent (h : s.calls.Consistent) (actions : List CallAction) :
    (s.performAll actions).2.calls.Consistent := by
  induction actions generalizing s with
  | nil => exact h
  | cons action rest ih => exact ih (perform_consistent h action)

theorem execute_consistent (h : s.calls.Consistent) (actions : List CallAction) :
    (s.execute actions).calls.Consistent :=
  performAll_consistent (performAll_consistent h _) _

end Softphone.Session
