import Softphone.Effect
import Softphone.Network.Link

/-!
# Hosts

A host is whatever the session core runs on: the engine, the platform's networks, the audio and the
tone player of the device, and a clock. Its state is of any type; the classes say how a state answers
and what it is afterwards. A `World` is a host together with the trace of what was done to it, and the
operations on worlds both ask the host and write the trace.
-/

namespace Softphone

/-- The protocol engine. A request whose reason for failing nobody reads answers whether it was
accepted. -/
class Engine (σ : Type) where
  allocateAgent : Account → σ → Except SessionError AgentHandle × σ
  register : AgentHandle → σ → Except SessionError Unit × σ
  unregister : AgentHandle → σ → Bool × σ
  allocateCall : AgentHandle → σ → Option CallHandle × σ
  connect : CallHandle → String → σ → Bool × σ
  answer : AgentHandle → CallHandle → σ → Except SessionError Unit × σ
  hangup : AgentHandle → CallHandle → Nat → String → σ → Except SessionError Unit × σ
  hold : CallHandle → Bool → σ → Bool × σ
  transfer : CallHandle → String → σ → Bool × σ
  sendDigit : CallHandle → Char → σ → Bool × σ
  isMuted : CallHandle → σ → Bool
  muteAll : Bool → σ → σ
  addAddress : Address → String → σ → Bool × σ
  removeAddress : Address → σ → Bool × σ
  resetTransport : Bool → Bool → σ → Bool × σ
  setResolvers : List Endpoint → σ → Bool × σ

/-- The networks of the platform, and the lock that keeps Wi-Fi at full performance. -/
class Connectivity (σ : Type) where
  platform : σ → Platform
  acquireLock : σ → σ
  releaseLock : σ → σ

/-- Routes, mode, volumes and focus. -/
class AudioDevice (σ : Type) where
  availableRoutes : σ → List AudioRoute
  currentRoute : σ → AudioRoute
  applyRoute : AudioRoute → σ → Bool × σ
  clearRoute : σ → σ
  mode : σ → AudioMode
  setMode : AudioMode → σ → σ
  /-- Whether the speaker can be chosen in normal mode only. -/
  speakerNeedsNormalMode : σ → Bool
  volume : AudioStream → σ → Nat
  maxVolume : AudioStream → σ → Nat
  setVolume : AudioStream → Nat → σ → σ
  abandonFocus : σ → σ

/-- The ringtone, the tones of a call, the vibrator and the wishes of the user. -/
class ToneDevice (σ : Type) where
  ringerMode : σ → RingerMode
  ringVolume : σ → Nat
  /-- Whether the user wants the device to vibrate while it rings. -/
  vibrateWhenRinging : σ → Bool
  canLoopRingtone : σ → Bool
  startRingtone : Bool → σ → σ
  isRingtonePlaying : σ → Bool
  stopRingtone : σ → σ
  playTone : Tone → String → Bool → σ → Bool × σ
  stopTone : σ → σ
  vibrate : Nat → σ → σ
  cancelVibration : σ → σ

/-- The source of identifiers and of the time. -/
class StampSource (σ : Type) where
  stamp : σ → Stamp × σ

/-- All that a session needs. -/
class Host (σ : Type) extends
  Engine σ, Connectivity σ, AudioDevice σ, ToneDevice σ, StampSource σ

/-- A host and what was done to it, the latest effect first. -/
structure World (σ : Type) where
  host : σ
  past : List Effect := []

namespace World

variable {σ : Type}

/-- What was done to the host, the first effect first. -/
def trace (w : World σ) : List Effect := w.past.reverse

/-- Writes down an effect. -/
def note (w : World σ) (e : Effect) : World σ := { w with past := e :: w.past }

/-- Moves the host to a new state by an effect. -/
def moveTo (w : World σ) (host : σ) (e : Effect) : World σ := ⟨host, e :: w.past⟩

/-- Publishes an event. -/
def publish (w : World σ) (event : Event) : World σ := w.note (.publish event)

/-- Answers a request. -/
def reply (w : World σ) (ticket : Ticket) (answer : Reply) : World σ :=
  w.note (.reply ticket answer)

/-! ## The engine -/

section

variable [Engine σ]

def allocateAgent (w : World σ) (account : Account) :
    Except SessionError AgentHandle × World σ :=
  let r := Engine.allocateAgent account w.host
  (r.1, w.moveTo r.2 (.allocateAgent account r.1))

def register (w : World σ) (agent : AgentHandle) : Except SessionError Unit × World σ :=
  let r := Engine.register agent w.host
  (r.1, w.moveTo r.2 (.register agent r.1))

def unregister (w : World σ) (agent : AgentHandle) : World σ :=
  let r := Engine.unregister agent w.host
  w.moveTo r.2 (.unregister agent r.1)

def allocateCall (w : World σ) (agent : AgentHandle) : Option CallHandle × World σ :=
  let r := Engine.allocateCall agent w.host
  (r.1, w.moveTo r.2 (.allocateCall agent r.1))

def connect (w : World σ) (call : CallHandle) (target : String) : Bool × World σ :=
  let r := Engine.connect call target w.host
  (r.1, w.moveTo r.2 (.connect call target r.1))

def answer (w : World σ) (agent : AgentHandle) (call : CallHandle) :
    Except SessionError Unit × World σ :=
  let r := Engine.answer agent call w.host
  (r.1, w.moveTo r.2 (.answer agent call r.1))

def hangup (w : World σ) (agent : AgentHandle) (call : CallHandle) (code : Nat)
    (reason : String) : Except SessionError Unit × World σ :=
  let r := Engine.hangup agent call code reason w.host
  (r.1, w.moveTo r.2 (.hangup agent call code reason r.1))

def hold (w : World σ) (call : CallHandle) (held : Bool) : Bool × World σ :=
  let r := Engine.hold call held w.host
  (r.1, w.moveTo r.2 (.hold call held r.1))

def transfer (w : World σ) (call : CallHandle) (target : String) : Bool × World σ :=
  let r := Engine.transfer call target w.host
  (r.1, w.moveTo r.2 (.transfer call target r.1))

def sendDigit (w : World σ) (call : CallHandle) (digit : Char) : Bool × World σ :=
  let r := Engine.sendDigit call digit w.host
  (r.1, w.moveTo r.2 (.sendDigit call digit r.1))

def muteAll (w : World σ) (muted : Bool) : World σ :=
  w.moveTo (Engine.muteAll muted w.host) (.muteAll muted)

def addAddress (w : World σ) (address : Address) (interface : String) : Bool × World σ :=
  let r := Engine.addAddress address interface w.host
  (r.1, w.moveTo r.2 (.addAddress address interface r.1))

def removeAddress (w : World σ) (address : Address) : Bool × World σ :=
  let r := Engine.removeAddress address w.host
  (r.1, w.moveTo r.2 (.removeAddress address r.1))

/-- Binds the transport again, registers again and renegotiates the calls. -/
def resetTransport (w : World σ) : World σ :=
  let r := Engine.resetTransport true true w.host
  w.moveTo r.2 (.resetTransport true true r.1)

def setResolvers (w : World σ) (servers : List Endpoint) : Bool × World σ :=
  let r := Engine.setResolvers servers w.host
  (r.1, w.moveTo r.2 (.setResolvers servers r.1))

end

/-! ## The performance lock -/

section

variable [Connectivity σ]

def platform (w : World σ) : Platform := Connectivity.platform w.host

def acquireLock (w : World σ) : World σ :=
  w.moveTo (Connectivity.acquireLock w.host) .acquireLock

def releaseLock (w : World σ) : World σ :=
  w.moveTo (Connectivity.releaseLock w.host) .releaseLock

end

/-! ## Audio -/

section

variable [AudioDevice σ]

def isSpeakerOn (w : World σ) : Bool := AudioDevice.currentRoute w.host == .speaker

def applyRoute (w : World σ) (route : AudioRoute) : Bool × World σ :=
  let r := AudioDevice.applyRoute route w.host
  (r.1, w.moveTo r.2 (.applyRoute route r.1))

def clearRoute (w : World σ) : World σ := w.moveTo (AudioDevice.clearRoute w.host) .clearRoute

def setMode (w : World σ) (mode : AudioMode) : World σ :=
  w.moveTo (AudioDevice.setMode mode w.host) (.setMode mode)

def setVolume (w : World σ) (stream : AudioStream) (volume : Nat) : World σ :=
  w.moveTo (AudioDevice.setVolume stream volume w.host) (.setVolume stream volume)

def abandonFocus (w : World σ) : World σ :=
  w.moveTo (AudioDevice.abandonFocus w.host) .abandonFocus

end

/-! ## Tones -/

section

variable [ToneDevice σ]

def startRingtone (w : World σ) (looping : Bool) : World σ :=
  w.moveTo (ToneDevice.startRingtone looping w.host) (.startRingtone looping)

def stopRingtone (w : World σ) : World σ :=
  w.moveTo (ToneDevice.stopRingtone w.host) .stopRingtone

def playTone (w : World σ) (tone : Tone) (resource : String) (looping : Bool) :
    Bool × World σ :=
  let r := ToneDevice.playTone tone resource looping w.host
  (r.1, w.moveTo r.2 (.playTone tone resource looping r.1))

def stopTone (w : World σ) : World σ := w.moveTo (ToneDevice.stopTone w.host) .stopTone

def vibrate (w : World σ) (ms : Nat) : World σ :=
  w.moveTo (ToneDevice.vibrate ms w.host) (.vibrate ms)

def cancelVibration (w : World σ) : World σ :=
  w.moveTo (ToneDevice.cancelVibration w.host) .cancelVibration

end

/-- Draws an identifier and the time. -/
def stamp [StampSource σ] (w : World σ) : Stamp × World σ :=
  let r := StampSource.stamp w.host
  (r.1, { w with host := r.2 })

end World

end Softphone
