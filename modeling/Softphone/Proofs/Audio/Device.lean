import Softphone.Proofs.Audio.Routing
import Softphone.Proofs.Audio.Sounding

/-!
# Sound is a matter of the device

What is played, how loud, and where it comes out is asked of the device, and whoever waits for it is answered.
Nothing of all this is asked of the engine.
-/

namespace Softphone

variable {σ : Type}

/-- The device is asked for something about its sound, or a request is answered. -/
def Effect.isOfDevice : Effect → Bool
  | applyRoute _ _ | clearRoute | setMode _ | setVolume _ _ | abandonFocus | startRingtone _ | stopRingtone
  | playTone _ _ _ _ | stopTone | vibrate _ | cancelVibration | reply _ _ => true
  | _ => false

namespace Cue

theorem Takes.isOfDevice {e : Effect} {active active' : Option Playing}
    (h : Takes (.effect e) active active') : e.isOfDevice = true := by
  cases h <;> rfl

theorem Course.isOfDevice {active active' : Option Playing} {cues : List Cue}
    (h : Course active cues active') : ∀ e, .effect e ∈ cues → e.isOfDevice = true := by
  induction h with
  | nil => exact fun e he => nomatch he
  | cons hx _ ih =>
    intro e he
    rcases List.mem_cons.1 he with rfl | hlater
    · exact hx.isOfDevice
    · exact ih e hlater

end Cue

namespace Player

variable {p p' : Player} {w w' : World σ}

/-- All that a player does to sound is asked of the device. -/
theorem Plays.device (h : p.Plays w p' w') : w.Grows (·.isOfDevice = true) w' := by
  obtain ⟨es, htrace, hes⟩ := h
  exact .of_trace htrace fun e he => hes.isOfDevice e (List.mem_map_of_mem he)

variable [AudioDevice σ]

theorem device_applyCallVolume : w.Grows (·.isOfDevice = true) (p.applyCallVolume w).2 := by
  unfold applyCallVolume
  split
  · exact .refl
  · refine .moveTo (.step ?_) ?_ <;> rfl

theorem device_resetVolume : w.Grows (·.isOfDevice = true) (p.resetVolume w).2 := by
  unfold resetVolume
  dsimp only
  induction p.savedVolumes generalizing w with
  | nil => exact .refl
  | cons saved rest ih => exact .trans (.step rfl) ih

theorem device_releaseAudio : w.Grows (·.isOfDevice = true) (p.releaseAudio w).2 :=
  .moveTo (.moveTo device_resetVolume rfl) rfl

end Player

namespace Router

variable {r : Router} {w : World σ}

theorem device_answerAll (on : Bool) (tickets : List Ticket) :
    w.Grows (·.isOfDevice = true) (answerAll on tickets w) := by
  refine .of_trace (trace_answerAll on tickets w) fun e he => ?_
  obtain ⟨ticket, -, rfl⟩ := List.mem_map.1 he
  rfl

theorem device_cancel : w.Grows (·.isOfDevice = true) (r.cancel w).2 := device_answerAll _ _

variable [AudioDevice σ]

theorem device_switchToSpeaker : w.Grows (·.isOfDevice = true) (switchToSpeaker w).2 := by
  refine .moveTo (.step ?_) ?_ <;> rfl

theorem device_switchToEarpiece : w.Grows (·.isOfDevice = true) (switchToEarpiece w) := by
  unfold switchToEarpiece
  split
  · have hswitched : w.Grows (·.isOfDevice = true) (w.clearRoute.applyRoute .earpiece).2 := by
      refine .moveTo (.step ?_) ?_ <;> rfl
    dsimp only
    split
    · exact hswitched.moveTo rfl
    · exact hswitched
  · exact .step rfl

theorem device_change (speaker : Bool) (ticket : Ticket) :
    w.Grows (·.isOfDevice = true) (r.change speaker ticket w).2 := by
  unfold change
  split
  · exact device_switchToEarpiece.note rfl
  · split
    · refine .note (.step ?_) ?_ <;> rfl
    · split
      · exact device_switchToSpeaker.note rfl
      · exact .step rfl

theorem device_request (speaker : Bool) (ticket : Ticket) :
    w.Grows (·.isOfDevice = true) (r.request speaker ticket w).2 := by
  unfold request
  split
  · exact .note .refl rfl
  split
  · exact .refl
  have hgivenUp : w.Grows (·.isOfDevice = true) (if r.switching then r.cancel w else (r, w)).2 := by
    split
    · exact device_cancel
    · exact .refl
  generalize (if r.switching then r.cancel w else (r, w)) = given at hgivenUp ⊢
  dsimp only
  split
  · exact hgivenUp.note rfl
  · exact hgivenUp.trans (device_change _ _)

theorem device_onModeChanged (mode : AudioMode) :
    w.Grows (·.isOfDevice = true) (r.onModeChanged mode w).2 := by
  unfold onModeChanged
  split
  · exact device_switchToSpeaker.trans (device_answerAll _ _)
  · exact .refl

end Router

end Softphone
