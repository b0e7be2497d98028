import Softphone.Bench.Audio
import Softphone.Bench.Exchange
import Softphone.Bench.Networks
import Softphone.Host

/-!
# The bench

A host whose every answer is scripted, on which sessions are tried out without an engine and without a
device.
-/

namespace Softphone

/-- A scripted engine, platform and device, and a count from which stamps are drawn. -/
structure Bench where
  engine : Bench.Exchange := {}
  networks : Bench.Networks := {}
  audio : Bench.Audio := {}
  tones : Bench.Tones := {}
  drawn : Nat := 0

namespace Bench

instance : Inhabited Bench := ⟨{}⟩

/-- The outcome of a request to the engine, and the bench with the engine as it is then. -/
def afterEngine {α : Type} (b : Bench) (r : α × Bench.Exchange) : α × Bench :=
  (r.1, { b with engine := r.2 })

instance : Softphone.Engine Bench where
  allocateAgent _ b := b.afterEngine b.engine.allocateAgent
  register _ b := (b.engine.register, b)
  unregister _ b := (!b.engine.refuses .unregister, b)
  allocateCall _ b := b.afterEngine b.engine.allocateCall
  connect call target b := b.afterEngine (b.engine.connect call target)
  answer _ _ b := (b.engine.unlessRefused .answer "answer", b)
  hangup _ _ _ _ b := (b.engine.unlessRefused .hangup "hangup", b)
  hold call held b := b.afterEngine (b.engine.hold call held)
  transfer _ _ b := (!b.engine.refuses .transfer, b)
  sendDigit _ digit b := (!b.engine.refuses (.digit digit), b)
  isMuted _ b := b.engine.muted
  muteAll muted b := { b with engine.muted := muted }
  addAddress address _ b := (!b.engine.unbindable.contains address, b)
  removeAddress address b := (!b.engine.stuck.contains address, b)
  resetTransport _ _ b := (!b.engine.refuses .resetTransport, b)
  setResolvers _ b := (!b.engine.fails .resolvers, b)

instance : Connectivity Bench where
  platform b := b.networks.platform
  acquireLock b := { b with networks := b.networks.acquireLock }
  releaseLock b := { b with networks := b.networks.releaseLock }

instance : AudioDevice Bench where
  availableRoutes b := b.audio.routes
  currentRoute b := b.audio.route
  applyRoute route b :=
    let r := b.audio.applyRoute route
    (r.1, { b with audio := r.2 })
  clearRoute b := b
  mode b := b.audio.reportedMode.getD b.audio.mode
  setMode mode b := { b with audio := b.audio.setMode mode }
  speakerNeedsNormalMode b := b.audio.needsNormalMode
  volume stream b := b.audio.volumes.get stream
  maxVolume stream b := b.audio.maxVolumes.get stream
  setVolume stream volume b := { b with audio := b.audio.setVolume stream volume }
  abandonFocus b := { b with audio.focusAbandoned := true }

instance : ToneDevice Bench where
  ringerMode b := b.tones.ringerMode
  ringVolume b := b.tones.ringVolume
  vibrateWhenRinging b := b.tones.vibrateWhenRinging
  canLoopRingtone b := b.tones.canLoopRingtone
  startRingtone _ b := { b with tones := b.tones.startRingtone }
  isRingtonePlaying b := b.tones.ringtonePlaying
  stopRingtone b := { b with tones := b.tones.stopRingtone }
  playTone tone _ _ b :=
    let r := b.tones.playTone tone
    (r.1, { b with tones := r.2 })
  stopTone b := { b with tones := b.tones.stopTone }
  vibrate _ b := { b with tones.vibrations := b.tones.vibrations + 1 }
  cancelVibration b := b

instance : StampSource Bench where
  stamp b :=
    (⟨⟨BitVec.ofNat 128 b.drawn⟩, .epoch⟩, { b with drawn := b.drawn + 1 })

instance : Host Bench where

end Bench

end Softphone
