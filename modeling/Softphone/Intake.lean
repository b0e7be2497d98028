import Softphone.Mailbox
import Softphone.Session.Input

/-!
# Senders and what is taken in

A message in a mailbox carries the request of its sender as long as that waits for room, and senders are told
by receipts how sending went. While a session deals with a message its notifications go on arriving, and it
takes them in before it runs a pass (`Intake`).
-/

namespace Softphone

/-- A message, and the request of its sender when that waits for the message to enter. -/
structure Envelope (α : Type) where
  message : α
  sender : Option Ticket := none

/-- How sending went, for the sender if that waits. -/
structure Receipt where
  sender : Option Ticket
  outcome : Except SessionError Unit

namespace Mailbox

variable {α : Type}

/-- Sends a message; the sender is told when it has entered. -/
def post (m : Mailbox (Envelope α)) (ticket : Ticket) (message : α) :
    Mailbox (Envelope α) × List Receipt :=
  match m.trySend? ⟨message, none⟩ with
  | some m => (m, [⟨some ticket, .ok ()⟩])
  | none => (m.send ⟨message, some ticket⟩, [])

/-- Sends a message unless the mailbox is full; the sender is told at once. -/
def tryPost (m : Mailbox (Envelope α)) (ticket : Ticket) (message : α) (full : SessionError) :
    Mailbox (Envelope α) × List Receipt :=
  match m.trySend? ⟨message, none⟩ with
  | some m => (m, [⟨some ticket, .ok ()⟩])
  | none => (m, [⟨some ticket, .error full⟩])

/-- What the senders are told whose messages `refill` lets in. -/
def admitted (m : Mailbox (Envelope α)) : List Receipt :=
  m.entering.map fun e => ⟨e.sender, .ok ()⟩

/-- What the senders are told who wait when the session ends. -/
def dismissed (m : Mailbox (Envelope α)) : List Receipt :=
  m.waiting.map fun e => ⟨e.sender, .error .stopped⟩

end Mailbox

/-- Why a notification is not taken. -/
def notificationsFull : SessionError := .internal "platform notification channel is full"

/-- Something that happens at the mailbox for notifications while a session is at work. -/
inductive Incident
  | notify (ticket : Ticket) (notification : Notification)
  | tryNotify (ticket : Ticket) (notification : Notification)
  /-- Senders who wait enter as far as there is room. -/
  | enter
  /-- The session has dealt with what it took, and takes the first notification that is in the mailbox. -/
  | absorb
  deriving DecidableEq, Repr

/-- What becomes of notifications while a session is at work. -/
structure Intake where
  mailbox : Mailbox (Envelope Notification)
  /-- What the session has taken, in order. -/
  taken : List Notification := []
  receipts : List Receipt := []

namespace Intake

/-- Lets one thing happen. -/
def meet (i : Intake) : Incident → Intake
  | .notify ticket notification =>
    let sent := i.mailbox.post ticket notification
    { i with mailbox := sent.1, receipts := i.receipts ++ sent.2 }
  | .tryNotify ticket notification =>
    let sent := i.mailbox.tryPost ticket notification notificationsFull
    { i with mailbox := sent.1, receipts := i.receipts ++ sent.2 }
  | .enter => { i with
      mailbox := i.mailbox.refill
      receipts := i.receipts ++ i.mailbox.admitted }
  | .absorb =>
    match i.mailbox.take? with
    | some (e, mailbox) => { i with mailbox, taken := i.taken ++ [e.message] }
    | none => i

/-- Takes what is left in the mailbox. -/
def finish (i : Intake) : Intake :=
  let (queued, mailbox) := i.mailbox.drain
  { i with mailbox, taken := i.taken ++ queued.map (·.message) }

/-- What becomes of notifications while a message is dealt with, and those after it. The session takes them
until it finds its mailbox empty, but none after a message that ends it. -/
def during (mailbox : Mailbox (Envelope Notification)) (input : Input) (incidents : List Incident) :
    Intake :=
  let seen := if input.ends then incidents.filter (· ≠ .absorb) else incidents
  (seen.foldl meet { mailbox }).finish

end Intake

end Softphone
