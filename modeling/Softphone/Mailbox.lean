/-!
# Mailboxes

A queue with a fixed number of places. A sender who finds no place either gives up or waits, and the
senders who wait enter in order once there is room.
-/

namespace Softphone

/-- A bounded queue: the messages in it, and those that wait for a place. -/
structure Mailbox (α : Type) where
  capacity : Nat
  queue : List α := []
  waiting : List α := []

namespace Mailbox

variable {α : Type}

/-- Whether a message can enter at once. -/
def hasRoom (m : Mailbox α) : Bool :=
  m.waiting.isEmpty && decide (m.queue.length < m.capacity)

/-- Puts a message in the queue, or in line for it. -/
def send (m : Mailbox α) (message : α) : Mailbox α :=
  if m.hasRoom then { m with queue := m.queue ++ [message] }
  else { m with waiting := m.waiting ++ [message] }

/-- Puts a message in the queue if there is room. -/
def trySend? (m : Mailbox α) (message : α) : Option (Mailbox α) :=
  if m.hasRoom then some { m with queue := m.queue ++ [message] } else none

/-- Takes the first message. -/
def take? (m : Mailbox α) : Option (α × Mailbox α) :=
  match m.queue with
  | [] => none
  | message :: queue => some (message, { m with queue })

/-- Takes all messages that are in the queue. -/
def drain (m : Mailbox α) : List α × Mailbox α := (m.queue, { m with queue := [] })

/-- How many waiting messages there are places for. -/
def room (m : Mailbox α) : Nat := m.capacity - m.queue.length

/-- Lets waiting messages enter as far as there is room. -/
def refill (m : Mailbox α) : Mailbox α :=
  { m with queue := m.queue ++ m.waiting.take m.room, waiting := m.waiting.drop m.room }

/-- The messages that `refill` lets in. -/
def entering (m : Mailbox α) : List α := m.waiting.take m.room

/-- All messages, those in line included. -/
def size (m : Mailbox α) : Nat := m.queue.length + m.waiting.length

end Mailbox

end Softphone
