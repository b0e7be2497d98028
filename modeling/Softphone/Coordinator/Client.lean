import Softphone.Broadcast
import Softphone.Coordinator

/-!
# The application's side

A client sends messages to a coordinator, each under a number, and observes what comes of them: the
replies to its open requests, the effects on the world, and the events that its readers get.
-/

namespace Softphone

/-- A message from outside, and whether its sender waits for room in the mailbox. -/
inductive Message
  | command (command : Command)
  /-- A line of the engine, on a call or on the registration. -/
  | report (text : String) (call : Option CallHandle) (waits : Bool)
  | notify (notification : Notification) (waits : Bool)
  deriving DecidableEq, Repr

/-- A coordinator with the requests whose callers still wait, and the readers of its events. -/
structure Client (σ : Type) where
  coordinator : Coordinator σ
  nextNumber : Nat := 0
  /-- The requests that are not answered yet and not given up. -/
  pending : List Ticket := []
  events : Broadcast Event
  /-- How many effects were observed. -/
  observed : Nat := 0
  /-- The current calls in the order in which they were first seen. -/
  seenCalls : List CallId := []

/-- What a client sees at one moment. -/
structure Observation where
  /-- The replies since the last moment, by the number of their requests. -/
  replies : List (Ticket × Reply)
  effects : List Effect
  events : List (Delivery Event)

namespace Client

variable {σ : Type}

/-- The reader that follows the events. -/
def follower : Nat := 0

/-- The reader that reads at the end. -/
def collector : Nat := 1

/-- Starts a coordinator and subscribes to its events. -/
def start (config : Config) (host : σ) : Except SessionError (Client σ) :=
  (Coordinator.start config host).map fun coordinator =>
    let events := Broadcast.new config.eventCapacity.toNat
    { coordinator, events := events.subscribe.2.subscribe.2 }

/-- Sends a message under the next number. -/
def send (c : Client σ) (message : Message) : Client σ :=
  let ticket : Ticket := ⟨c.nextNumber⟩
  let target := c.coordinator
  let coordinator := match message with
    | .command command => target.ask ticket command
    | .notify notification true => target.notify ticket notification
    | .notify notification false => target.tryNotify ticket notification
    | .report text call waits =>
      match EngineEvent.parse? text call, waits with
      | some event, true => target.report ticket event
      | some event, false => target.tryReport ticket event
      | none, true => target.reply ticket (.done (.ok ()))
      | none, false => target.reply ticket .ignored
  { c with coordinator, nextNumber := c.nextNumber + 1, pending := c.pending ++ [ticket] }

/-- Lets everything happen that can happen now. -/
def settle [Host σ] (c : Client σ) : Client σ := { c with coordinator := c.coordinator.settle }

/-- Lets time pass. -/
def advance [Host σ] (c : Client σ) (ms : Nat) : Client σ :=
  { c with coordinator := c.coordinator.advance ms }

/-- Gives up the open requests. -/
def abandon (c : Client σ) : Client σ := { c with pending := [] }

/-- Gives up the open requests and lets go of the coordinator. -/
def release (c : Client σ) : Client σ :=
  { c.abandon with coordinator := c.coordinator.release }

/-- The host behind the coordinator. -/
def host (c : Client σ) : σ := c.coordinator.session.world.host

/-- Changes the host behind the coordinator's back. -/
def changeHost (c : Client σ) (host : σ) : Client σ :=
  let session := c.coordinator.session
  { c with coordinator := { c.coordinator with
      session := { session with world := { session.world with host } } } }

/-- The replies among some effects, by number. -/
def repliesIn (pending : List Ticket) (effects : List Effect) : List (Ticket × Reply) :=
  let replies := (effects.filterMap (·.reply?)).filter fun r => pending.contains r.1
  replies.mergeSort fun a b => a.1.number ≤ b.1.number

/-- Observes what has happened since the last time. Events end once nobody is left to publish. -/
def observe (c : Client σ) : Observation × Client σ :=
  let past := c.coordinator.session.world.past
  let effects := (past.take (past.length - c.observed)).reverse
  let replies := repliesIn c.pending effects
  let published := (effects.filterMap (·.event?)).foldl Broadcast.publish c.events
  let ended := c.coordinator.hasStopped && c.coordinator.released
  let (events, broadcast) :=
    (if ended then published.close else published).read follower published.limit
  let answered := replies.map (·.1)
  ({ replies, effects, events },
    { c with
      events := broadcast
      observed := past.length
      pending := c.pending.filter fun ticket => !answered.contains ticket })

/-- The number of the current call, counted by first sight. -/
def currentCallNumber (c : Client σ) : Option Nat × Client σ :=
  match c.coordinator.session.currentCallId? with
  | none => (none, c)
  | some id =>
    let seenCalls := if c.seenCalls.contains id then c.seenCalls else c.seenCalls ++ [id]
    (some (seenCalls.idxOf id), { c with seenCalls })

/-- What the reader gets that was opened at the start and reads only now. -/
def collect (c : Client σ) : List (Delivery Event) :=
  (c.events.readKept collector c.events.limit).1

end Client

end Softphone
