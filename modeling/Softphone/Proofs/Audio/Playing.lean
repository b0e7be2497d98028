import Softphone.Audio.Player
import Softphone.Proofs.Trace

/-!
# What plays

What plays after each operation of the player, and by which effects it stops.
-/

namespace Softphone.Player

variable {σ : Type} [ToneDevice σ] {p : Player} {timers : Timers} {w : World σ}

theorem startRinging_active : (p.startRinging timers w).1.active = p.active.or (some .ringtone) := by
  unfold startRinging
  cases hactive : p.active with
  | none => rfl
  | some playing => exact hactive

theorem stopRinging_active : (p.stopRinging timers w).1.active =
    if p.active = some .ringtone then none else p.active := by
  unfold stopRinging
  dsimp only
  split
  · rfl
  · rfl

theorem stopTone_active : (p.stopTone w).1.active =
    if p.active = some .ringback ∨ p.active = some .busy then none else p.active := by
  unfold stopTone
  split
  · rfl
  · rfl

theorem play_active (p : Player) (tone : Tone) (looping : Bool) (w : World σ) :
    (p.play tone looping w).1.active = p.active ∨
      (p.active = none ∧ (p.play tone looping w).1.active = some (playingOf tone)) := by
  unfold play
  cases hactive : p.active with
  | some playing => exact .inl hactive
  | none =>
    dsimp only
    split
    · exact .inl hactive
    · split
      · exact .inr ⟨rfl, rfl⟩
      · exact .inl hactive

/-- The player of what plays is stopped. -/
def partingEffects (p : Player) : List Effect :=
  match p.active with
  | some .ringtone => [.stopRingtone]
  | some .ringback | some .busy => [.stopTone]
  | none => []

/-- While no timer is active only the player of what plays is stopped. -/
theorem stopAll_trace (h : timers.active = []) :
    (p.stopAll timers w).2.2.trace = w.trace ++ p.partingEffects := by
  have hcalm : (timers.cancelKind .ringtoneRestart).isActive .vibrate = false := by
    simp [Timers.cancelKind, Timers.cancelWhere, Timers.isActive, h]
  obtain ⟨settings, active, savedVolumes⟩ := p
  unfold stopAll stopRinging
  simp only [hcalm, Bool.false_eq_true, if_false]
  cases active with
  | none => exact (List.append_nil _).symm
  | some playing => cases playing <;> exact World.trace_moveTo

theorem stopAll_timers (h : timers.active = []) : (p.stopAll timers w).2.1.active = [] := by
  have hnone : ((timers.cancelKind .ringtoneRestart).cancelKind .vibrate).active = [] := by
    simp [Timers.cancelKind, Timers.cancelWhere, h]
  unfold stopAll stopRinging
  dsimp only
  split
  · exact hnone
  · exact hnone

theorem playBusy_plays : (p.playBusy w).1 = true ↔ (p.playBusy w).2.1.active = some .busy :=
  decide_eq_true_iff

omit [ToneDevice σ] in
theorem applyCallVolume_active [AudioDevice σ] : (p.applyCallVolume w).1.active = p.active := by
  unfold applyCallVolume raiseVolume saveVolume
  split
  · rfl
  · dsimp only
    split <;> split <;> rfl

end Softphone.Player
