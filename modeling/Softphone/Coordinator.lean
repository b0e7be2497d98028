import Softphone.Intake
import Softphone.Session.Turn

/-!
# The coordinator

A session with its queues. Notifications, reports of the engine and requests each have a mailbox of
the same size; firings of timers queue without bound. The coordinator takes notifications first, then
reports, firings and requests, and gives the session one message after another, each with the
notifications that have arrived by the time it is dealt with.
-/

namespace Softphone

/-- A session with what is on its way to it. -/
structure Coordinator (σ : Type) where
  session : Session σ
  notifications : Mailbox (Envelope Notification)
  reports : Mailbox (Envelope EngineEvent)
  firings : List Firing := []
  commands : Mailbox (Ticket × Command)
  /-- Nobody is left who could send a request. -/
  released : Bool := false

namespace Coordinator

variable {σ : Type}

/-- Starts a session, if its configuration can be used. -/
def start (config : Config) (host : σ) : Except SessionError (Coordinator σ) :=
  config.check.map fun _ =>
    let capacity := config.eventCapacity.toNat
    { session := .new config host
      notifications := { capacity }
      reports := { capacity }
      commands := { capacity } }

/-- Whether the session has ended. -/
def hasStopped (c : Coordinator σ) : Bool := c.session.ended

/-- Answers a request. -/
def reply (c : Coordinator σ) (ticket : Ticket) (answer : Reply) : Coordinator σ :=
  { c with session := c.session.reply ticket answer }

/-- Tells a sender how sending went. -/
def tell (c : Coordinator σ) (receipt : Receipt) : Coordinator σ :=
  match receipt.sender with
  | some ticket => c.reply ticket (.done receipt.outcome)
  | none => c

/-- Tells senders how sending went. -/
def tellAll (c : Coordinator σ) (receipts : List Receipt) : Coordinator σ := receipts.foldl tell c

/-! ## Sending -/

/-- What a request is told that comes too late. There is nothing left to shut down then. -/
def refusal : Command → Reply
  | .shutdown => .done (.ok ())
  | _ => .done (.error .stopped)

/-- Sends a request. -/
def ask (c : Coordinator σ) (ticket : Ticket) (command : Command) : Coordinator σ :=
  if c.hasStopped then c.reply ticket (refusal command)
  else { c with commands := c.commands.send (ticket, command) }

/-- Sends a notification; the sender is answered when it has entered. -/
def notify (c : Coordinator σ) (ticket : Ticket) (notification : Notification) : Coordinator σ :=
  if c.hasStopped then c.reply ticket (.done (.error .stopped))
  else
    let sent := c.notifications.post ticket notification
    { c with notifications := sent.1 }.tellAll sent.2

/-- Sends a notification unless its mailbox is full. -/
def tryNotify (c : Coordinator σ) (ticket : Ticket) (notification : Notification) :
    Coordinator σ :=
  if c.hasStopped then c.reply ticket (.done (.error .stopped))
  else
    let sent := c.notifications.tryPost ticket notification notificationsFull
    { c with notifications := sent.1 }.tellAll sent.2

/-- Sends a report; the sender is answered when it has entered. -/
def report (c : Coordinator σ) (ticket : Ticket) (event : EngineEvent) : Coordinator σ :=
  if c.hasStopped then c.reply ticket (.done (.error .stopped))
  else
    let sent := c.reports.post ticket event
    { c with reports := sent.1 }.tellAll sent.2

/-- Sends a report unless its mailbox is full. -/
def tryReport (c : Coordinator σ) (ticket : Ticket) (event : EngineEvent) : Coordinator σ :=
  if c.hasStopped then c.reply ticket (.done (.error .stopped))
  else
    let sent := c.reports.tryPost ticket event
      (.engine "event_queue" "engine event channel is full")
    { c with reports := sent.1 }.tellAll sent.2

/-- Lets go of the last handle: no request can be sent any more. -/
def release (c : Coordinator σ) : Coordinator σ := { c with released := true }

/-! ## Taking messages -/

/-- Takes the next message, in the order in which the mailboxes come. -/
def next? (c : Coordinator σ) : Option (Input × Coordinator σ) :=
  match c.notifications.take? with
  | some (e, notifications) => some (.notification e.message, { c with notifications })
  | none =>
    match c.reports.take? with
    | some (e, reports) => some (.engine e.message, { c with reports })
    | none =>
      match c.firings with
      | firing :: firings => some (.firing firing, { c with firings })
      | [] =>
        match c.commands.take? with
        | some (e, commands) => some (.command e.1 e.2, { c with commands })
        | none => none

/-- Tells everybody who still waits that the session has ended, and empties the mailboxes. -/
def close (c : Coordinator σ) : Coordinator σ :=
  let c := (c.commands.queue ++ c.commands.waiting).foldl (fun c e => c.reply e.1 (refusal e.2)) c
  let c := c.tellAll (c.notifications.dismissed ++ c.reports.dismissed)
  { c with
    notifications := { capacity := c.notifications.capacity }
    reports := { capacity := c.reports.capacity }
    commands := { capacity := c.commands.capacity }
    firings := [] }

/-- Gives the session a message together with the notifications that are in the mailbox, or come into it
while the session is at work. -/
def give [Host σ] (c : Coordinator σ) (input : Input) (meanwhile : List Incident) : Coordinator σ :=
  let intake := Intake.during c.notifications input meanwhile
  let session := c.session.turn input intake.taken
  let c := { c with session, notifications := intake.mailbox }.tellAll intake.receipts
  if c.hasStopped then c.close else c

/-- Whether a sender waits for room. -/
def hasWaiting (c : Coordinator σ) : Bool :=
  !(c.notifications.waiting.isEmpty && c.reports.waiting.isEmpty && c.commands.waiting.isEmpty)

/-- Lets waiting messages enter as far as there is room. -/
def refill (c : Coordinator σ) : Coordinator σ :=
  { c with
    notifications := c.notifications.refill
    reports := c.reports.refill
    commands := c.commands.refill }.tellAll (c.notifications.admitted ++ c.reports.admitted)

/-- Whether a timer is due now. -/
def hasDue (c : Coordinator σ) : Bool :=
  (c.session.timers.nextDueBy? c.session.timers.now).isSome

/-- Lets the timers fire that are due now. -/
def fire (c : Coordinator σ) : Coordinator σ :=
  let (firings, timers) := c.session.timers.fire
  { c with firings := c.firings ++ firings, session := { c.session with timers } }

/-! ## Running -/

/-- The next thing that happens at the current time, if anything does, and what happens at the mailbox for
notifications meanwhile if that is to deal with a message. Timers fire only when there is nothing to
take, and senders who wait enter only when no timer is due. -/
def step? [Host σ] (c : Coordinator σ) (meanwhile : List Incident) : Option (Coordinator σ) :=
  if c.hasStopped then none
  else match c.next? with
    | some (input, c) => some (c.give input meanwhile)
    | none =>
      if c.hasDue then some c.fire
      else if c.hasWaiting then some c.refill
      else if c.released then some (c.give .abandoned meanwhile)
      else none

/-- Lets things happen, at most `fuel` of them, while nobody sends anything. -/
def run [Host σ] : (fuel : Nat) → Coordinator σ → Coordinator σ
  | 0, c => c
  | fuel + 1, c =>
    match c.step? [] with
    | some c => run fuel c
    | none => c

/-- How many messages and timers there are. -/
def load (c : Coordinator σ) : Nat :=
  c.notifications.size + c.reports.size + c.commands.size + c.firings.length +
    c.session.timers.size + c.session.timers.alarms.length

/-- Lets everything happen that can happen at the current time. A message takes at most two steps of its
own and may set a timer, whose firing takes two and may set one more. -/
def settle [Host σ] (c : Coordinator σ) : Coordinator σ := c.run (8 * c.load + 8)

/-- Sets the clock. -/
def setNow (c : Coordinator σ) (now : Nat) : Coordinator σ :=
  { c with session := { c.session with timers := c.session.timers.setNow now } }

/-- Moves the clock from one due timer to the next as far as `target`, and lets everything happen each
time. The fuel bounds the milliseconds passed. -/
def advanceTo [Host σ] (target : Nat) : (fuel : Nat) → Coordinator σ → Coordinator σ
  | 0, c => c.setNow target
  | fuel + 1, c =>
    match c.session.timers.nextDueBy? target with
    | none => c.setNow target
    | some time => advanceTo target fuel (c.setNow time).settle

/-- Lets time pass, at most the longest delay. -/
def advance [Host σ] (c : Coordinator σ) (ms : Nat) : Coordinator σ :=
  c.advanceTo (Timers.momentAfter c.session.timers.now ms) (ms + 2)

end Coordinator

end Softphone
