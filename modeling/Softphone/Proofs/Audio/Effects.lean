import Softphone.Audio.Player
import Softphone.Audio.Router
import Softphone.Proofs.Network.Effects
import Softphone.Proofs.Timers.Numbered

/-!
# What playing and routing do to the world

Whatever is played or routed, nothing of it concerns the account or the networks, and the timers that it
takes follow no hotspot. The player answers no requests, and the router neither begins nor ends ringing.
-/

namespace Softphone

variable {σ : Type}

/-- Whether timers of this kind follow a hotspot. -/
def TimerKind.isHotspot : TimerKind → Bool
  | hotspotDebounce | hotspotFollowUp => true
  | ringtoneRestart | vibrate => false

namespace Effect

/-- The ringtone is started or stopped, or the device vibrates. -/
def isRinging : Effect → Bool
  | startRingtone _ | stopRingtone | vibrate _ => true
  | _ => false

/-- Nothing is done about ringing, and no request is answered. -/
def IsSilent (e : Effect) : Prop := e.isRinging = false ∧ e.reply? = none

/-- The player may do this. -/
def IsOfPlayer (e : Effect) : Prop := e.IsLocal ∧ e.reply? = none

/-- The router may do this. -/
def IsOfRouter (e : Effect) : Prop := e.IsLocal ∧ e.isRinging = false

/-- What is done concerns neither account nor networks, and is silent. -/
def IsCalm (e : Effect) : Prop := e.IsLocal ∧ e.IsSilent

theorem IsCalm.ofPlayer {e : Effect} (h : e.IsCalm) : e.IsOfPlayer := ⟨h.1, h.2.2⟩

theorem IsCalm.ofRouter {e : Effect} (h : e.IsCalm) : e.IsOfRouter := ⟨h.1, h.2.1⟩

theorem silent_of_isNetwork {e : Effect} (h : e.isNetwork = true) : e.IsSilent := by
  cases e <;> first | exact ⟨rfl, rfl⟩ | cases h

end Effect

namespace Player

section Tones

variable [ToneDevice σ] (p : Player) (timers : Timers) (w : World σ)

/-- Beginning to ring sets its timers one after the other, and does nothing else to timers. -/
theorem startRinging_timers {P : Timers → Prop} (h : P timers)
    (hset : ∀ {t : Timers} {kind initial period}, kind.isHotspot = false → P t →
      P (t.scheduleRepeating kind initial period).2) : P (p.startRinging timers w).2.1 := by
  have hvibrate : ∀ {t : Timers}, P t → ∀ vibrates : Bool,
      P (if vibrates then (t.scheduleRepeating .vibrate vibrationDelay vibrationPeriod).2 else t) := by
    intro t ht vibrates
    split
    · exact hset rfl ht
    · exact ht
  unfold startRinging
  split
  · exact h
  · refine hvibrate ?_ _
    split
    · exact h
    · exact hset rfl h

theorem spares_startRinging :
    timers.Spares TimerKind.isHotspot (p.startRinging timers w).2.1 :=
  startRinging_timers p timers w .refl fun hkind h => h.trans (.scheduleRepeating hkind _ _ _)

theorem grows_startRinging : w.Grows Effect.IsOfPlayer (p.startRinging timers w).2.2 := by
  unfold startRinging
  split
  · exact .refl
  · exact .step ⟨⟨rfl, rfl⟩, rfl⟩

theorem spares_stopRinging :
    timers.Spares TimerKind.isHotspot (p.stopRinging timers w).2.1 := by
  have hcancelled : timers.Spares TimerKind.isHotspot
      ((timers.cancelKind .ringtoneRestart).cancelKind .vibrate) :=
    .trans (.cancelKind rfl _) (.cancelKind rfl _)
  unfold stopRinging
  dsimp only
  split <;> exact hcancelled

theorem grows_stopRinging : w.Grows Effect.IsOfPlayer (p.stopRinging timers w).2.2 := by
  have hcancelled : ∀ vibrates : Bool,
      w.Grows Effect.IsOfPlayer (if vibrates then w.cancelVibration else w) := by
    intro vibrates
    split
    · exact .step ⟨⟨rfl, rfl⟩, rfl⟩
    · exact .refl
  unfold stopRinging
  dsimp only
  split
  · exact (hcancelled _).trans (.step ⟨⟨rfl, rfl⟩, rfl⟩)
  · exact hcancelled _

theorem grows_onRestartTick : w.Grows Effect.IsOfPlayer (p.onRestartTick w) := by
  unfold onRestartTick
  split
  · exact .step ⟨⟨rfl, rfl⟩, rfl⟩
  · exact .refl

theorem grows_onVibrateTick : w.Grows Effect.IsOfPlayer (p.onVibrateTick w) := by
  unfold onVibrateTick
  split
  · exact .step ⟨⟨rfl, rfl⟩, rfl⟩
  · exact .refl

theorem grows_play (tone : Tone) (looping : Bool) :
    w.Grows Effect.IsCalm (p.play tone looping w).2 := by
  unfold play
  split
  · exact .refl
  · exact .step ⟨⟨rfl, rfl⟩, rfl, rfl⟩

theorem grows_stopTone : w.Grows Effect.IsCalm (p.stopTone w).2 := by
  unfold stopTone
  split
  · exact .step ⟨⟨rfl, rfl⟩, rfl, rfl⟩
  · exact .refl

theorem spares_stopAll : timers.Spares TimerKind.isHotspot (p.stopAll timers w).2.1 :=
  spares_stopRinging p timers w

theorem grows_stopAll : w.Grows Effect.IsOfPlayer (p.stopAll timers w).2.2 :=
  (grows_stopRinging p timers w).trans ((grows_stopTone _ _).mono fun _ => Effect.IsCalm.ofPlayer)

end Tones

variable [AudioDevice σ] (p : Player) (w : World σ)

theorem grows_applyCallVolume : w.Grows Effect.IsCalm (p.applyCallVolume w).2 := by
  unfold applyCallVolume
  split
  · exact .refl
  · exact .moveTo (.step ⟨⟨rfl, rfl⟩, rfl, rfl⟩) ⟨⟨rfl, rfl⟩, rfl, rfl⟩

theorem grows_resetVolume : w.Grows Effect.IsCalm (p.resetVolume w).2 := by
  unfold resetVolume
  dsimp only
  induction p.savedVolumes generalizing w with
  | nil => exact .refl
  | cons saved rest ih => exact .trans (.step ⟨⟨rfl, rfl⟩, rfl, rfl⟩) (ih _)

theorem grows_releaseAudio : w.Grows Effect.IsCalm (p.releaseAudio w).2 :=
  .moveTo (.moveTo (grows_resetVolume p w) ⟨⟨rfl, rfl⟩, rfl, rfl⟩) ⟨⟨rfl, rfl⟩, rfl, rfl⟩

end Player

namespace Router

theorem grows_answerAll (on : Bool) (tickets : List Ticket) (w : World σ) :
    w.Grows Effect.IsOfRouter (answerAll on tickets w) := by
  unfold answerAll
  induction tickets generalizing w with
  | nil => exact .refl
  | cons ticket rest ih => exact .trans (.note .refl ⟨⟨rfl, rfl⟩, rfl⟩) (ih _)

theorem grows_cancel (r : Router) (w : World σ) : w.Grows Effect.IsOfRouter (r.cancel w).2 :=
  grows_answerAll false r.waiting w

variable [AudioDevice σ]

theorem grows_switchToSpeaker (w : World σ) : w.Grows Effect.IsCalm (switchToSpeaker w).2 :=
  .moveTo (.step ⟨⟨rfl, rfl⟩, rfl, rfl⟩) ⟨⟨rfl, rfl⟩, rfl, rfl⟩

theorem grows_switchToEarpiece (w : World σ) : w.Grows Effect.IsCalm (switchToEarpiece w) := by
  unfold switchToEarpiece
  split
  · have hswitched : w.Grows Effect.IsCalm (w.clearRoute.applyRoute .earpiece).2 :=
      .moveTo (.step ⟨⟨rfl, rfl⟩, rfl, rfl⟩) ⟨⟨rfl, rfl⟩, rfl, rfl⟩
    dsimp only
    split
    · exact hswitched.moveTo ⟨⟨rfl, rfl⟩, rfl, rfl⟩
    · exact hswitched
  · exact .step ⟨⟨rfl, rfl⟩, rfl, rfl⟩

theorem grows_change (r : Router) (speaker : Bool) (ticket : Ticket) (w : World σ) :
    w.Grows Effect.IsOfRouter (r.change speaker ticket w).2 := by
  unfold change
  split
  · exact ((grows_switchToEarpiece w).mono fun _ => Effect.IsCalm.ofRouter).note ⟨⟨rfl, rfl⟩, rfl⟩
  · split
    · exact .note (.step ⟨⟨rfl, rfl⟩, rfl⟩) ⟨⟨rfl, rfl⟩, rfl⟩
    · split
      · exact ((grows_switchToSpeaker w).mono fun _ => Effect.IsCalm.ofRouter).note
          ⟨⟨rfl, rfl⟩, rfl⟩
      · exact .step ⟨⟨rfl, rfl⟩, rfl⟩

theorem grows_request (r : Router) (speaker : Bool) (ticket : Ticket) (w : World σ) :
    w.Grows Effect.IsOfRouter (r.request speaker ticket w).2 := by
  unfold request
  split
  · exact .note .refl ⟨⟨rfl, rfl⟩, rfl⟩
  split
  · exact .refl
  have hgivenUp : w.Grows Effect.IsOfRouter (if r.switching then r.cancel w else (r, w)).2 := by
    split
    · exact grows_cancel r w
    · exact .refl
  generalize (if r.switching then r.cancel w else (r, w)) = given at hgivenUp ⊢
  dsimp only
  split
  · exact hgivenUp.note ⟨⟨rfl, rfl⟩, rfl⟩
  · exact hgivenUp.trans (grows_change _ _ _ _)

theorem grows_onModeChanged (r : Router) (mode : AudioMode) (w : World σ) :
    w.Grows Effect.IsOfRouter (r.onModeChanged mode w).2 := by
  unfold onModeChanged
  split
  · exact ((grows_switchToSpeaker w).mono fun _ => Effect.IsCalm.ofRouter).trans
      (grows_answerAll _ _ _)
  · exact .refl

end Router

end Softphone
