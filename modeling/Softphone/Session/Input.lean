import Softphone.Account
import Softphone.Audio.Sound
import Softphone.Network.Link
import Softphone.Reply
import Softphone.Signal
import Softphone.Timer

/-!
# Inputs

Everything that reaches a session is a message: a notification of the platform, a report of the
engine, the firing of a timer, or a request of the application.
-/

namespace Softphone

/-- What the platform reports. -/
inductive Notification
  | network (change : NetworkNotification)
  /-- The device has changed its audio mode. -/
  | audioMode (mode : AudioMode)
  /-- A tone that plays once has come to its end. -/
  | toneFinished
  deriving DecidableEq, Repr

/-- What the application can ask for. -/
inductive Command
  | signIn (account : Account)
  | dial (target : String)
  | answer
  | hangup
  | reject
  | hold (held : Bool)
  | transfer (target : String)
  | sendDigits (digits : String)
  /-- Mute the microphone or not; change over when nothing is said. -/
  | setMuted (muted : Option Bool)
  /-- Choose the speaker or the earpiece; change over when nothing is said. -/
  | setSpeaker (on : Option Bool)
  | refresh
  | unregister
  | registrationState
  | isMicOn
  | isSpeakerOn
  | currentCall
  | missedCalls
  | stats
  | shutdown
  deriving DecidableEq, Repr

/-- A message to a session. -/
inductive Input
  | notification (notification : Notification)
  | engine (event : EngineEvent)
  | firing (firing : Firing)
  | command (ticket : Ticket) (command : Command)
  /-- Nobody is left who could ask for anything. -/
  | abandoned
  deriving DecidableEq, Repr

/-- A message that is meant to end the session. -/
def Input.ends : Input → Bool
  | command _ .shutdown | abandoned => true
  | _ => false

end Softphone
