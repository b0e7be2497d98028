import Softphone.Audio.Player
import Softphone.Audio.Router
import Softphone.Proofs.Host

/-!
# Volumes

A player raises the volumes for a call and gives them back: until then it remembers what they were before
(`Player.Remembers`), however often it raises them. Nothing else that is played or routed sets a volume.
-/

namespace Softphone

variable {σ : Type}

namespace Player

variable [Host σ] (p : Player) (timers : Timers) (w : World σ)

/-! ## Playing -/

theorem steps_startRinging : Host.Steps w.host (p.startRinging timers w).2.2.host := by
  rw [startRinging]
  split
  · exact .refl
  · exact .one (.startRingtone _)

theorem startRinging_saved : (p.startRinging timers w).1.savedVolumes = p.savedVolumes := by
  rw [startRinging]
  split <;> rfl

theorem steps_stopRinging : Host.Steps w.host (p.stopRinging timers w).2.2.host := by
  have hcancelled : ∀ vibrates : Bool,
      Host.Steps w.host (if vibrates then w.cancelVibration else w).host := by
    intro vibrates
    cases vibrates with
    | true => exact .one .cancelVibration
    | false => exact .refl
  rw [stopRinging]
  split
  · exact .snoc (hcancelled _) .stopRingtone
  · exact hcancelled _

theorem stopRinging_saved : (p.stopRinging timers w).1.savedVolumes = p.savedVolumes := by
  rw [stopRinging]
  split <;> rfl

theorem steps_onRestartTick : Host.Steps w.host (p.onRestartTick w).host := by
  rw [onRestartTick]
  split
  · exact .one (.startRingtone _)
  · exact .refl

theorem steps_onVibrateTick : Host.Steps w.host (p.onVibrateTick w).host := by
  rw [onVibrateTick]
  split
  · exact .one (.vibrate _)
  · exact .refl

theorem steps_play (tone : Tone) (looping : Bool) :
    Host.Steps w.host (p.play tone looping w).2.host := by
  rw [play]
  split
  · exact .refl
  · exact .one (.playTone _ _ _)

theorem play_saved (tone : Tone) (looping : Bool) :
    (p.play tone looping w).1.savedVolumes = p.savedVolumes := by
  rw [play]
  split
  · rfl
  · dsimp only
    split <;> rfl

theorem steps_stopTone : Host.Steps w.host (p.stopTone w).2.host := by
  rw [stopTone]
  split
  · exact .one .stopTone
  · exact .refl

theorem stopTone_saved : (p.stopTone w).1.savedVolumes = p.savedVolumes := by
  rw [stopTone]
  split <;> rfl

theorem onToneFinished_saved : p.onToneFinished.2.savedVolumes = p.savedVolumes := by
  rw [onToneFinished]
  split <;> rfl

theorem steps_stopAll : Host.Steps w.host (p.stopAll timers w).2.2.host :=
  .trans (steps_stopRinging p timers w) (steps_stopTone _ _)

theorem stopAll_saved : (p.stopAll timers w).1.savedVolumes = p.savedVolumes :=
  (stopTone_saved _ _).trans (stopRinging_saved p timers w)

/-! ## Volumes given back -/

variable {p w} {earlier : σ}

/-- The volumes of an earlier host are in force, or the player remembers them. -/
def Remembers (earlier : σ) (p : Player) (h : σ) : Prop :=
  (p.savedVolumes = [] ∧
      ∀ stream, AudioDevice.volume stream h = AudioDevice.volume stream earlier) ∨
    p.savedVolumes = [(.music, AudioDevice.volume .music earlier),
      (.voiceCall, AudioDevice.volume .voiceCall earlier)]

variable [VolumesKept σ]

/-- Nothing is done about volumes. -/
theorem Remembers.steps {h h' : σ} {p' : Player} (hp : p.Remembers earlier h)
    (hsaved : p'.savedVolumes = p.savedVolumes) (hsteps : Host.Steps h h') : p'.Remembers earlier h' := by
  rw [Remembers, hsaved]
  refine hp.imp_left fun ⟨hnone, hvolumes⟩ => ⟨hnone, fun stream => ?_⟩
  rw [hsteps.volume]
  exact hvolumes stream

omit [VolumesKept σ] in
theorem saveVolume_of_saved {stream : AudioStream}
    (h : p.savedVolumes.any (·.1 = stream) = true) : p.saveVolume stream w = p := by
  rw [saveVolume, if_pos h]

/-- However often the volumes are raised, those from before the first time are remembered. -/
theorem Remembers.applyCallVolume (hp : p.Remembers earlier w.host) :
    (p.applyCallVolume w).1.Remembers earlier (p.applyCallVolume w).2.host := by
  rw [Player.applyCallVolume]
  split
  · exact hp
  refine .inr ?_
  rcases hp with ⟨hnone, hvolumes⟩ | hsaved
  · have hvoice : ∀ volume, AudioDevice.volume .voiceCall
        (AudioDevice.setVolume .music volume w.host) = AudioDevice.volume .voiceCall earlier := by
      intro volume
      have hother : AudioStream.voiceCall ≠ .music := nofun
      rw [VolumesKept.volume_setVolume_of_ne _ _ hother]
      exact hvolumes .voiceCall
    have hmusic : (p.saveVolume .music w).savedVolumes =
        [(.music, AudioDevice.volume .music earlier)] := by
      rw [saveVolume, hnone, ← hvolumes .music]
      rfl
    dsimp only [raiseVolume]
    rw [saveVolume, hmusic, if_neg (by simp)]
    exact congrArg
      (fun volume => [(AudioStream.music, AudioDevice.volume .music earlier), (.voiceCall, volume)])
      (hvoice _)
  · dsimp only [raiseVolume]
    have hmusic : p.saveVolume .music w = p := saveVolume_of_saved (by rw [hsaved]; rfl)
    rw [hmusic, saveVolume_of_saved (by rw [hsaved]; rfl), hsaved]

/-- What is given back are the remembered volumes. -/
theorem Remembers.releaseAudio (hp : p.Remembers earlier w.host) :
    (p.releaseAudio w).1.savedVolumes = [] ∧
      ∀ stream, AudioDevice.volume stream (p.releaseAudio w).2.host =
        AudioDevice.volume stream earlier := by
  refine ⟨rfl, fun stream => ?_⟩
  have hrest : Host.Steps (p.resetVolume w).2.host (p.releaseAudio w).2.host :=
    .snoc (.one .abandonFocus) (.setMode .normal)
  rw [hrest.volume, resetVolume]
  rcases hp with ⟨hnone, hvolumes⟩ | hsaved
  · rw [hnone]
    exact hvolumes stream
  · rw [hsaved]
    change AudioDevice.volume stream
      (AudioDevice.setVolume .voiceCall (AudioDevice.volume .voiceCall earlier)
        (AudioDevice.setVolume .music (AudioDevice.volume .music earlier) w.host)) =
      AudioDevice.volume stream earlier
    cases stream with
    | music =>
      have hother : AudioStream.music ≠ .voiceCall := nofun
      rw [VolumesKept.volume_setVolume_of_ne _ _ hother]
      exact VolumesKept.volume_setVolume _ _ _
    | voiceCall => exact VolumesKept.volume_setVolume _ _ _

end Player

/-! ## Routing -/

namespace Router

theorem host_answerAll (on : Bool) (tickets : List Ticket) (w : World σ) :
    (answerAll on tickets w).host = w.host := by
  rw [answerAll]
  induction tickets generalizing w with
  | nil => rfl
  | cons ticket rest ih => exact ih _

variable [Host σ]

theorem steps_cancel (r : Router) (w : World σ) : Host.Steps w.host (r.cancel w).2.host := by
  rw [cancel, host_answerAll]
  exact .refl

theorem steps_switchToSpeaker (w : World σ) : Host.Steps w.host (switchToSpeaker w).2.host :=
  .snoc (.one (.applyRoute _)) (.setMode _)

theorem steps_switchToEarpiece (w : World σ) : Host.Steps w.host (switchToEarpiece w).host := by
  rw [switchToEarpiece]
  split
  · have hswitched : Host.Steps w.host (w.clearRoute.applyRoute .earpiece).2.host :=
      .snoc (.one .clearRoute) (.applyRoute _)
    dsimp only
    split
    · exact .snoc hswitched (.setMode _)
    · exact hswitched
  · exact .one (.applyRoute _)

theorem steps_change (r : Router) (speaker : Bool) (ticket : Ticket) (w : World σ) :
    Host.Steps w.host (r.change speaker ticket w).2.host := by
  rw [change]
  split
  · exact steps_switchToEarpiece w
  · split
    · exact .one (.applyRoute _)
    · split
      · exact steps_switchToSpeaker w
      · exact .one (.setMode _)

theorem steps_request (r : Router) (speaker : Bool) (ticket : Ticket) (w : World σ) :
    Host.Steps w.host (r.request speaker ticket w).2.host := by
  rw [request]
  split
  · exact .refl
  split
  · exact .refl
  have hgivenUp : Host.Steps w.host (if r.switching then r.cancel w else (r, w)).2.host := by
    split
    · exact steps_cancel r w
    · exact .refl
  generalize (if r.switching then r.cancel w else (r, w)) = given at hgivenUp ⊢
  dsimp only
  split
  · exact hgivenUp
  · exact hgivenUp.trans (steps_change _ _ _ _)

theorem steps_onModeChanged (r : Router) (mode : AudioMode) (w : World σ) :
    Host.Steps w.host (r.onModeChanged mode w).2.host := by
  rw [onModeChanged]
  split
  · dsimp only
    rw [host_answerAll]
    exact steps_switchToSpeaker w
  · exact .refl

end Router

end Softphone
