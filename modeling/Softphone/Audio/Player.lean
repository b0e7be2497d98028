import Softphone.Audio.Volume
import Softphone.Config
import Softphone.Host
import Softphone.Timer

/-!
# Playing

The ringtone, the ringback and the busy tone, of which one at most plays at a time; vibration while
ringing; and the volumes of a call. Starting a tone while another plays does nothing.
-/

namespace Softphone

/-- What is playing. -/
inductive Playing
  | ringtone
  | ringback
  | busy
  deriving DecidableEq, Repr

/-- What is playing, and the volumes from before the call. -/
structure Player where
  settings : AudioSettings := {}
  active : Option Playing := none
  savedVolumes : List (AudioStream × Nat) := []
  deriving DecidableEq, Repr

namespace Player

variable {σ : Type}

/-- Between two looks at a ringtone that does not repeat by itself, in milliseconds. -/
def restartPeriod : Nat := 1000

/-- From the start of ringing to the first vibration. -/
def vibrationDelay : Nat := 500

/-- Between the beginnings of two vibrations. -/
def vibrationPeriod : Nat := 2000

/-- The length of one vibration. -/
def vibrationLength : Nat := 500

/-! ## Ringing -/

section

variable [ToneDevice σ]

/-- Whether the user's settings ask for vibration while it rings. -/
def shouldVibrate (host : σ) : Bool :=
  match ToneDevice.ringerMode host with
  | .silent => false
  | .vibrate => true
  | .normal => ToneDevice.ringVolume host ≠ 0 && ToneDevice.vibrateWhenRinging host

/-- Begins to ring, unless something plays. A ringtone that cannot repeat by itself is started again
by a timer. -/
def startRinging (p : Player) (timers : Timers) (w : World σ) : Player × Timers × World σ :=
  if p.active.isSome then (p, timers, w)
  else
    let looping := ToneDevice.canLoopRingtone w.host
    let w := w.startRingtone looping
    let timers :=
      if looping then timers
      else (timers.scheduleRepeating .ringtoneRestart restartPeriod restartPeriod).2
    let timers :=
      if shouldVibrate w.host then
        (timers.scheduleRepeating .vibrate vibrationDelay vibrationPeriod).2
      else timers
    ({ p with active := some .ringtone }, timers, w)

/-- Stops ringing and vibrating. -/
def stopRinging (p : Player) (timers : Timers) (w : World σ) : Player × Timers × World σ :=
  let timers := timers.cancelKind .ringtoneRestart
  let w := if timers.isActive .vibrate then w.cancelVibration else w
  let timers := timers.cancelKind .vibrate
  if p.active = some .ringtone then ({ p with active := none }, timers, w.stopRingtone)
  else (p, timers, w)

/-- Starts the ringtone again if it has ended. -/
def onRestartTick (p : Player) (w : World σ) : World σ :=
  if p.active = some .ringtone && !ToneDevice.isRingtonePlaying w.host then w.startRingtone false
  else w

/-- Vibrates once. -/
def onVibrateTick (p : Player) (w : World σ) : World σ :=
  if p.active = some .ringtone then w.vibrate vibrationLength else w

/-! ## Tones of a call -/

/-- What plays once a tone has started. -/
def playingOf : Tone → Playing
  | .ringback => .ringback
  | .busy => .busy

/-- Plays a tone, unless something plays; its resource may be missing. -/
def play (p : Player) (tone : Tone) (looping : Bool) (w : World σ) : Player × World σ :=
  if p.active.isSome then (p, w)
  else
    let r := w.playTone tone (tone.resource p.settings.toneCountry) looping
    (if r.1 then { p with active := some (playingOf tone) } else p, r.2)

/-- Plays the ringback over and over. -/
def playRingback (p : Player) (w : World σ) : Player × World σ := p.play .ringback true w

/-- Plays the busy tone once; tells whether it plays. -/
def playBusy (p : Player) (w : World σ) : Bool × Player × World σ :=
  let (p, w) := p.play .busy false w
  (p.active = some .busy, p, w)

/-- Stops the tone of a call, if one plays. -/
def stopTone (p : Player) (w : World σ) : Player × World σ :=
  if p.active = some .ringback ∨ p.active = some .busy then
    ({ p with active := none }, w.stopTone)
  else (p, w)

/-- A tone has come to its end; tells whether it was the busy tone. -/
def onToneFinished (p : Player) : Bool × Player :=
  if p.active = some .busy then (true, { p with active := none }) else (false, p)

/-- Stops whatever plays. -/
def stopAll (p : Player) (timers : Timers) (w : World σ) : Player × Timers × World σ :=
  let (p, timers, w) := p.stopRinging timers w
  let (p, w) := p.stopTone w
  ({ p with active := none }, timers, w)

end

/-! ## Volumes -/

section

variable [AudioDevice σ]

/-- Remembers the volume of a stream, unless one is remembered already. -/
def saveVolume (p : Player) (stream : AudioStream) (w : World σ) : Player :=
  if p.savedVolumes.any (·.1 = stream) then p
  else { p with
    savedVolumes := p.savedVolumes ++ [(stream, AudioDevice.volume stream w.host)] }

/-- Sets a stream to the call volume. -/
def raiseVolume (p : Player) (stream : AudioStream) (w : World σ) : Player × World σ :=
  (p.saveVolume stream w,
    w.setVolume stream
      (Volume.scaled p.settings.callVolume (AudioDevice.maxVolume stream w.host)))

/-- Sets the streams of a call to the call volume, unless that is zero. -/
def applyCallVolume (p : Player) (w : World σ) : Player × World σ :=
  if p.settings.callVolume = 0 then (p, w)
  else
    let (p, w) := p.raiseVolume .music w
    p.raiseVolume .voiceCall w

/-- Gives the streams their volumes from before the call. -/
def resetVolume (p : Player) (w : World σ) : Player × World σ :=
  ({ p with savedVolumes := [] },
    p.savedVolumes.foldl (fun w saved => w.setVolume saved.1 saved.2) w)

/-- Gives the audio back: volumes, focus and mode are as before the call. -/
def releaseAudio (p : Player) (w : World σ) : Player × World σ :=
  let (p, w) := p.resetVolume w
  (p, w.abandonFocus.setMode .normal)

end

end Player

end Softphone
