import Softphone.Proofs.Audio.Effects

/-!
# Ringing

Whether the ringtone plays, and the timers that go with it. Beginning to ring sets at most one timer of
each kind (`Player.countKind_startRinging_le`), and the end of ringing leaves none
(`Player.countKind_stopRinging`). Everything else that is played or taken down leaves ringing as it is.
-/

namespace Softphone

variable {σ : Type}

/-- Whether timers of this kind go with ringing. -/
def TimerKind.isRinging : TimerKind → Bool
  | ringtoneRestart | vibrate => true
  | hotspotDebounce | hotspotFollowUp => false

namespace Player

/-- Whether the ringtone plays. -/
def rings (p : Player) : Bool := p.active = some .ringtone

theorem rings_iff {p : Player} : p.rings = true ↔ p.active = some .ringtone := decide_eq_true_iff

theorem rings_of_active {p p' : Player} (h : p'.active = p.active) : p'.rings = p.rings := by
  rw [rings, rings, h]

theorem onToneFinished_rings (p : Player) : p.onToneFinished.2.rings = p.rings := by
  unfold onToneFinished
  split
  · rename_i hbusy
    simp [rings, hbusy]
  · rfl

section Tones

variable [ToneDevice σ] (p : Player) (timers : Timers) (w : World σ)

theorem play_rings (tone : Tone) (looping : Bool) : (p.play tone looping w).1.rings = p.rings := by
  unfold play
  cases hactive : p.active with
  | some playing => rfl
  | none =>
    dsimp only
    split
    · rfl
    · split
      · cases tone <;> simp [rings, playingOf, hactive]
      · rfl

theorem stopTone_rings : (p.stopTone w).1.rings = p.rings := by
  unfold stopTone
  split
  · rename_i hplays
    rcases hplays with hplays | hplays <;> simp [rings, hplays]
  · rfl

theorem stopRinging_rings : (p.stopRinging timers w).1.rings = false := by
  unfold stopRinging
  dsimp only
  split
  · rfl
  · exact decide_eq_false ‹_›

theorem startRinging_keepsRinging : w.Grows (· ≠ .stopRingtone) (p.startRinging timers w).2.2 := by
  unfold startRinging
  split
  · exact .refl
  · exact .step nofun

theorem onRestartTick_keepsRinging : w.Grows (· ≠ .stopRingtone) (p.onRestartTick w) := by
  unfold onRestartTick
  split
  · exact .step nofun
  · exact .refl

theorem onVibrateTick_keepsRinging : w.Grows (· ≠ .stopRingtone) (p.onVibrateTick w) := by
  unfold onVibrateTick
  split
  · exact .step nofun
  · exact .refl

/-! ## The timers of ringing -/

theorem startRinging_of_playing (hplays : p.active.isSome = true) :
    p.startRinging timers w = (p, timers, w) := if_pos hplays

theorem startRinging_advances : timers.Advances (p.startRinging timers w).2.1 :=
  startRinging_timers p timers w .refl fun _ h => h.trans (.scheduleRepeating _ _ _ _)

/-- Beginning to ring sets at most one timer of each kind, and none unless nothing plays. -/
theorem countKind_startRinging_le (kind : TimerKind) :
    (p.startRinging timers w).2.1.countKind kind ≤
      timers.countKind kind + if p.active.isSome then 0 else 1 := by
  unfold startRinging
  cases p.active with
  | some playing => exact Nat.le_refl _
  | none =>
    simp only [Option.isSome_none, Bool.false_eq_true, if_false]
    generalize hrestart : (if ToneDevice.canLoopRingtone w.host then timers else _) = restarting
    have hone : restarting.countKind kind ≤
        timers.countKind kind + if .ringtoneRestart = kind then 1 else 0 := by
      subst hrestart
      split
      · exact Nat.le_add_right _ _
      · exact Nat.le_of_eq (Timers.countKind_scheduleRepeating _ _ _ _ _)
    split
    · rw [Timers.countKind_scheduleRepeating]
      cases kind <;> simp at hone ⊢ <;> omega
    · split at hone <;> omega

theorem stopRinging_advances : timers.Advances (p.stopRinging timers w).2.1 := by
  have hcancelled : timers.Advances ((timers.cancelKind .ringtoneRestart).cancelKind .vibrate) :=
    .trans (.cancelWhere _ _) (.cancelWhere _ _)
  unfold stopRinging
  dsimp only
  split <;> exact hcancelled

/-- No timer of ringing is active once ringing has ended. -/
theorem not_ringing_of_mem_stopRinging {timer : Timer}
    (h : timer ∈ (p.stopRinging timers w).2.1.active) : timer.kind.isRinging = false := by
  have hcancelled : timer ∈ ((timers.cancelKind .ringtoneRestart).cancelKind .vibrate).active := by
    unfold stopRinging at h
    dsimp only at h
    split at h <;> exact h
  simp only [Timers.cancelKind, Timers.cancelWhere, List.mem_filter] at hcancelled
  obtain ⟨⟨-, hrestart⟩, hvibrate⟩ := hcancelled
  cases hkind : timer.kind <;> simp_all [TimerKind.isRinging]

theorem countKind_stopRinging {kind : TimerKind} (hkind : kind.isRinging = true) :
    (p.stopRinging timers w).2.1.countKind kind = 0 := by
  refine List.countP_eq_zero.2 fun timer htimer hof => ?_
  have hother := not_ringing_of_mem_stopRinging p timers w htimer
  rw [of_decide_eq_true hof, hkind] at hother
  cases hother

end Tones

end Player

end Softphone
