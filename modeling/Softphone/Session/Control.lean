import Softphone.Session
import Softphone.Target

/-!
# Call control

What the application asks about calls. Control acts on the current call while that is live. A request
that the engine refuses fails with the engine's error where the caller must know, and is in vain where
the caller may just try again.
-/

namespace Softphone.Session

variable {σ : Type}

/-- Code and reason with which the current call is ended. -/
def hangupStatus : Nat × String := (487, "Request Terminated")

/-- Code and reason with which an incoming call is declined. -/
def rejectStatus : Nat × String := (500, "Busy Now")

/-- Does something to the current call, if it is live. -/
def withCurrent {α : Type} (s : Session σ)
    (act : Call → Except SessionError α × Session σ) : Except SessionError α × Session σ :=
  match s.currentLive? with
  | some call => act call
  | none => (.error .noCurrentCall, s)

variable [Engine σ]

/-- Tracks a call that the engine has allocated, and makes it current. -/
def trackDialled [StampSource σ] (s : Session σ) (handle : CallHandle) (agent : AgentHandle)
    (target : String) : Except SessionError (Session σ) :=
  let (stamp, world) := s.world.stamp
  (s.calls.track (Call.new stamp handle agent .outbound target)).map fun calls =>
    { s with calls, world }

/-- Connects a tracked call. A call that the engine cannot connect is dropped. -/
def connectDialled (s : Session σ) (handle : CallHandle) (target : String) :
    Bool × Session σ :=
  let r := s.world.connect handle target
  let s := { s with world := r.2 }
  if r.1 then (true, s)
  else (false, { s with calls.registry := s.calls.registry.remove handle })

/-- Places a call; tells whether the engine could set it up. -/
def dial [StampSource σ] (target : String) (s : Session σ) :
    Except SessionError Bool × Session σ :=
  match Target.normalize target with
  | .error e => (.error e, s)
  | .ok target =>
    match s.registration.agent with
    | none => (.error .noSession, s)
    | some agent =>
      let r := s.world.allocateCall agent
      let s := { s with world := r.2 }
      match r.1 with
      | none => (.ok false, s)
      | some handle =>
        match s.trackDialled handle agent target with
        | .error e => (.error e, s)
        | .ok s =>
          let (connected, s) := s.connectDialled handle target
          (.ok connected, s)

/-- Accepts the current call, and raises the volumes. -/
def answer [AudioDevice σ] (s : Session σ) : Except SessionError Unit × Session σ :=
  s.withCurrent fun call =>
    let r := s.world.answer call.agent call.handle
    match r.1 with
    | .error e => (.error e, { s with world := r.2 })
    | .ok () =>
      let (player, world) := s.player.applyCallVolume r.2
      (.ok (), { s with player, world })

/-- Ends the current call with a code and a reason. -/
def endCall (status : Nat × String) (s : Session σ) : Except SessionError Unit × Session σ :=
  s.withCurrent fun call =>
    let r := s.world.hangup call.agent call.handle status.1 status.2
    (r.1, { s with world := r.2 })

/-- Puts the current call on hold or resumes it. -/
def hold (held : Bool) (s : Session σ) : Except SessionError Bool × Session σ :=
  s.withCurrent fun call =>
    let r := s.world.hold call.handle held
    (.ok r.1, { s with world := r.2 })

/-- Hands the current call over to another party. -/
def transfer (target : String) (s : Session σ) : Except SessionError Bool × Session σ :=
  match Target.normalize target with
  | .error e => (.error e, s)
  | .ok target =>
    s.withCurrent fun call =>
      let r := s.world.transfer call.handle target
      (.ok r.1, { s with world := r.2 })

/-- Sends digits one by one up to the first that the engine refuses. -/
def sendEach (call : CallHandle) : List Char → World σ → Bool × World σ
  | [], w => (true, w)
  | digit :: rest, w =>
    let r := w.sendDigit call digit
    if r.1 then sendEach call rest r.2 else (false, r.2)

/-- Sends digits during the current call. -/
def sendDigits (digits : String) (s : Session σ) : Except SessionError Bool × Session σ :=
  match Digits.check digits with
  | .error e => (.error e, s)
  | .ok () =>
    s.withCurrent fun call =>
      let r := sendEach call.handle digits.toList s.world
      (.ok r.1, { s with world := r.2 })

/-- Mutes the microphone or not, or changes over; tells whether the microphone is then on. -/
def setMuted (muted : Option Bool) (s : Session σ) : Except SessionError Bool × Session σ :=
  s.withCurrent fun call =>
    let muted := muted.getD (!Engine.isMuted call.handle s.world.host)
    (.ok (!muted), { s with world := s.world.muteAll muted })

end Softphone.Session
