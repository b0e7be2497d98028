import Softphone.Bench

/-!
# What is done to a host

Every operation on a host but one is a `Host.Step`: none of them is meant to change a volume, and a volume
that was there before can be set again (`VolumesKept`).
-/

namespace Softphone

variable {σ : Type}

/-- One operation on a host that sets no volume. -/
inductive Host.Step [Host σ] (h : σ) : σ → Prop
  | allocateAgent (account : Account) : Step h (Engine.allocateAgent account h).2
  | register (agent : AgentHandle) : Step h (Engine.register agent h).2
  | unregister (agent : AgentHandle) : Step h (Engine.unregister agent h).2
  | allocateCall (agent : AgentHandle) : Step h (Engine.allocateCall agent h).2
  | connect (call : CallHandle) (target : String) : Step h (Engine.connect call target h).2
  | answer (agent : AgentHandle) (call : CallHandle) : Step h (Engine.answer agent call h).2
  | hangup (agent : AgentHandle) (call : CallHandle) (code : Nat) (reason : String) :
    Step h (Engine.hangup agent call code reason h).2
  | hold (call : CallHandle) (held : Bool) : Step h (Engine.hold call held h).2
  | transfer (call : CallHandle) (target : String) : Step h (Engine.transfer call target h).2
  | sendDigit (call : CallHandle) (digit : Char) : Step h (Engine.sendDigit call digit h).2
  | muteAll (muted : Bool) : Step h (Engine.muteAll muted h)
  | addAddress (address : Address) (interface : String) :
    Step h (Engine.addAddress address interface h).2
  | removeAddress (address : Address) : Step h (Engine.removeAddress address h).2
  | resetTransport : Step h (Engine.resetTransport true true h).2
  | setResolvers (servers : List Endpoint) : Step h (Engine.setResolvers servers h).2
  | acquireLock : Step h (Connectivity.acquireLock h)
  | releaseLock : Step h (Connectivity.releaseLock h)
  | applyRoute (route : AudioRoute) : Step h (AudioDevice.applyRoute route h).2
  | clearRoute : Step h (AudioDevice.clearRoute h)
  | setMode (mode : AudioMode) : Step h (AudioDevice.setMode mode h)
  | abandonFocus : Step h (AudioDevice.abandonFocus h)
  | startRingtone (looping : Bool) : Step h (ToneDevice.startRingtone looping h)
  | stopRingtone : Step h (ToneDevice.stopRingtone h)
  | playTone (tone : Tone) (resource : String) (looping : Bool) :
    Step h (ToneDevice.playTone tone resource looping h).2
  | stopTone : Step h (ToneDevice.stopTone h)
  | vibrate (ms : Nat) : Step h (ToneDevice.vibrate ms h)
  | cancelVibration : Step h (ToneDevice.cancelVibration h)
  | stamp : Step h (StampSource.stamp h).2

/-- Any number of operations on a host that set no volume. -/
inductive Host.Steps [Host σ] (h : σ) : σ → Prop
  | refl : Steps h h
  | snoc {h' h'' : σ} (hsteps : Steps h h') (hstep : Host.Step h' h'') : Steps h h''

/-- A host that takes back the volumes it has had, and changes none unless it is told to. -/
class VolumesKept (σ : Type) [Host σ] : Prop where
  volume_setVolume : ∀ (stream : AudioStream) (earlier h : σ),
    AudioDevice.volume stream
        (AudioDevice.setVolume stream (AudioDevice.volume stream earlier) h) =
      AudioDevice.volume stream earlier
  volume_setVolume_of_ne : ∀ {stream other : AudioStream} (volume : Nat) (h : σ), other ≠ stream →
    AudioDevice.volume other (AudioDevice.setVolume stream volume h) = AudioDevice.volume other h
  volume_of_step : ∀ {h h' : σ}, Host.Step h h' → ∀ stream,
    AudioDevice.volume stream h' = AudioDevice.volume stream h

instance : VolumesKept Bench where
  volume_setVolume := by
    intro stream earlier h
    cases stream <;> rfl
  volume_setVolume_of_ne := by
    intro stream other volume h hne
    cases stream <;> cases other <;> first | rfl | exact absurd rfl hne
  volume_of_step := by
    intro h h' hstep stream
    cases hstep with
    | applyRoute route =>
      change (h.audio.applyRoute route).2.volumes.get stream = h.audio.volumes.get stream
      rw [Bench.Audio.applyRoute]
      split <;> rfl
    | _ => rfl

namespace Host.Steps

variable [Host σ] {h h' h'' : σ}

theorem one (hstep : Host.Step h h') : Host.Steps h h' := .snoc .refl hstep

theorem trans (hfirst : Host.Steps h h') (hsecond : Host.Steps h' h'') : Host.Steps h h'' := by
  induction hsecond with
  | refl => exact hfirst
  | snoc _ hstep ih => exact .snoc ih hstep

theorem volume [VolumesKept σ] (hsteps : Host.Steps h h') (stream : AudioStream) :
    AudioDevice.volume stream h' = AudioDevice.volume stream h := by
  induction hsteps with
  | refl => rfl
  | snoc _ hstep ih => exact (VolumesKept.volume_of_step hstep stream).trans ih

end Host.Steps

end Softphone
