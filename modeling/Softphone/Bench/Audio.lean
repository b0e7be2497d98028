import Softphone.Audio.Sound

/-!
# Scripted audio

Routes, mode and volumes that are what they were last set to. It begins on the earpiece in normal mode.
-/

namespace Softphone.Bench

/-- A value for each stream. -/
structure Volumes where
  music : Nat
  voiceCall : Nat
  deriving DecidableEq, Repr

namespace Volumes

def get (v : Volumes) : AudioStream → Nat
  | .music => v.music
  | .voiceCall => v.voiceCall

def set (v : Volumes) (stream : AudioStream) (volume : Nat) : Volumes :=
  match stream with
  | .music => { v with music := volume }
  | .voiceCall => { v with voiceCall := volume }

end Volumes

/-- An audio device that follows a script. -/
structure Audio where
  routes : List AudioRoute := [.earpiece, .speaker]
  route : AudioRoute := .earpiece
  mode : AudioMode := .normal
  /-- The mode that the device reports in place of its own. -/
  reportedMode : Option AudioMode := none
  needsNormalMode : Bool := true
  /-- Every choice of a route fails. -/
  refusesRoutes : Bool := false
  volumes : Volumes := ⟨5, 5⟩
  maxVolumes : Volumes := ⟨15, 15⟩
  focusAbandoned : Bool := false
  /-- How often a route was chosen. -/
  switches : Nat := 0
  /-- How often a mode was set. -/
  modeRequests : Nat := 0
  deriving DecidableEq, Repr

namespace Audio

def applyRoute (a : Audio) (route : AudioRoute) : Bool × Audio :=
  if a.refusesRoutes || !a.routes.contains route then (false, a)
  else (true, { a with route, switches := a.switches + 1 })

def setMode (a : Audio) (mode : AudioMode) : Audio :=
  { a with mode, modeRequests := a.modeRequests + 1 }

def setVolume (a : Audio) (stream : AudioStream) (volume : Nat) : Audio :=
  { a with volumes := a.volumes.set stream volume }

def setMaxVolume (a : Audio) (stream : AudioStream) (volume : Nat) : Audio :=
  { a with maxVolumes := a.maxVolumes.set stream volume }

end Audio

/-- A player and vibrator that follow a script. -/
structure Tones where
  ringerMode : RingerMode := .normal
  ringVolume : Nat := 5
  vibrateWhenRinging : Bool := false
  canLoopRingtone : Bool := true
  ringtonePlaying : Bool := false
  /-- How often the ringtone was started. -/
  ringtoneStarts : Nat := 0
  tonePlaying : Option Tone := none
  /-- How many tones were started. -/
  played : Nat := 0
  /-- Every tone lacks its resource. -/
  missing : Bool := false
  vibrations : Nat := 0
  deriving DecidableEq, Repr

namespace Tones

def startRingtone (t : Tones) : Tones :=
  { t with ringtonePlaying := true, ringtoneStarts := t.ringtoneStarts + 1 }

def stopRingtone (t : Tones) : Tones := { t with ringtonePlaying := false }

def playTone (t : Tones) (tone : Tone) : Bool × Tones :=
  if t.missing then (false, t)
  else (true, { t with tonePlaying := some tone, played := t.played + 1 })

def stopTone (t : Tones) : Tones := { t with tonePlaying := none }

end Tones

end Softphone.Bench
