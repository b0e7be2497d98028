import Softphone.Audio.Player
import Softphone.Audio.Router
import Softphone.CallBook
import Softphone.Network.Mobility

/-!
# Sessions

Everything that one softphone keeps: its calls, its registration, the mobility of its network, its
audio and its timers, and the world it acts on. The modules below this one say what a session does
when something is asked of it or reported to it.
-/

namespace Softphone

/-- The state of a softphone, and the world it acts on. -/
structure Session (σ : Type) where
  calls : CallBook := {}
  registration : Registration := {}
  mobility : Mobility := {}
  router : Router := {}
  player : Player := {}
  timers : Timers := {}
  /-- The session was torn down and does nothing any more. -/
  ended : Bool := false
  world : World σ

namespace Session

variable {σ : Type}

/-- A session in which nothing has happened yet. -/
def new (config : Config) (host : σ) : Session σ where
  mobility := { settings := config.network }
  player := { settings := config.audio }
  world := { host }

/-- Publishes an event. -/
def publish (s : Session σ) (event : Event) : Session σ :=
  { s with world := s.world.publish event }

/-- Publishes the state of the registration. -/
def publishRegistration (s : Session σ) : Session σ :=
  s.publish (.registrationChanged s.registration.state)

/-- Answers a request. -/
def reply (s : Session σ) (ticket : Ticket) (answer : Reply) : Session σ :=
  { s with world := s.world.reply ticket answer }

/-- The call that call control acts on. -/
def currentLive? (s : Session σ) : Option Call := s.calls.registry.currentLive?

/-- Whether a call is current and its microphone is not muted. -/
def isMicOn [Engine σ] (s : Session σ) : Bool :=
  match s.currentLive? with
  | some call => !Engine.isMuted call.handle s.world.host
  | none => false

/-- Whether sound comes out of the speaker. -/
def isSpeakerOn [AudioDevice σ] (s : Session σ) : Bool := s.world.isSpeakerOn

/-- The identifier of the current call, a closed one included. -/
def currentCallId? (s : Session σ) : Option CallId := s.calls.registry.current?.map (·.id)

end Session

end Softphone
