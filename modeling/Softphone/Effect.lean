import Softphone.Account
import Softphone.Address
import Softphone.Audio.Sound
import Softphone.Event
import Softphone.Reply

/-!
# Effects

Everything that is done to the world outside is written down in order: requests to the engine with
their outcomes, the performance lock, audio, tones, events published and requests answered.
-/

namespace Softphone

/-- One thing done to the world outside. -/
inductive Effect
  | allocateAgent (account : Account) (outcome : Except SessionError AgentHandle)
  | register (agent : AgentHandle) (outcome : Except SessionError Unit)
  | unregister (agent : AgentHandle) (accepted : Bool)
  | allocateCall (agent : AgentHandle) (call : Option CallHandle)
  | connect (call : CallHandle) (target : String) (accepted : Bool)
  | answer (agent : AgentHandle) (call : CallHandle) (outcome : Except SessionError Unit)
  | hangup (agent : AgentHandle) (call : CallHandle) (code : Nat) (reason : String)
    (outcome : Except SessionError Unit)
  | hold (call : CallHandle) (held : Bool) (accepted : Bool)
  | transfer (call : CallHandle) (target : String) (accepted : Bool)
  | sendDigit (call : CallHandle) (digit : Char) (accepted : Bool)
  | muteAll (muted : Bool)
  | addAddress (address : Address) (interface : String) (accepted : Bool)
  | removeAddress (address : Address) (accepted : Bool)
  | resetTransport (register reinvite accepted : Bool)
  | setResolvers (servers : List Endpoint) (accepted : Bool)
  | acquireLock
  | releaseLock
  | applyRoute (route : AudioRoute) (applied : Bool)
  | clearRoute
  | setMode (mode : AudioMode)
  | setVolume (stream : AudioStream) (volume : Nat)
  | abandonFocus
  | startRingtone (looping : Bool)
  | stopRingtone
  | playTone (tone : Tone) (resource : String) (looping started : Bool)
  | stopTone
  | vibrate (ms : Nat)
  | cancelVibration
  | publish (event : Event)
  | reply (ticket : Ticket) (reply : Reply)
  deriving DecidableEq

namespace Effect

/-- The entry of an effect in the journal, which names what was done to engine, lock, focus and
players. -/
def journalLine? : Effect → Option String
  | allocateAgent _ _ => some "engine.allocate_agent"
  | register _ _ => some "engine.register"
  | unregister _ _ => some "engine.unregister"
  | allocateCall _ _ => some "engine.allocate_call"
  | connect _ _ _ => some "engine.connect"
  | answer _ _ _ => some "engine.answer"
  | hangup _ _ _ _ _ => some "engine.hangup"
  | hold _ _ _ => some "engine.hold"
  | transfer _ _ _ => some "engine.transfer"
  | sendDigit _ _ _ => some "engine.send_dtmf"
  | muteAll _ => some "engine.mute_all"
  | addAddress _ _ _ => some "engine.add_address"
  | removeAddress _ _ => some "engine.remove_address"
  | resetTransport _ _ _ => some "engine.reset_transport"
  | setResolvers _ _ => some "engine.set_dns_servers"
  | acquireLock => some "network.acquire_lock"
  | releaseLock => some "network.release_lock"
  | abandonFocus => some "audio.abandon_focus"
  | stopRingtone => some "tones.stop_ringtone"
  | stopTone => some "tones.stop_tone"
  | _ => none

/-- The event that an effect publishes. -/
def event? : Effect → Option Event
  | publish event => some event
  | _ => none

/-- The request that an effect answers, and the answer. -/
def reply? : Effect → Option (Ticket × Reply)
  | reply ticket content => some (ticket, content)
  | _ => none

end Effect

end Softphone
