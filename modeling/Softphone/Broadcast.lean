/-!
# Broadcasting

Every reader gets every value that is published after it subscribed, unless it falls behind by more
than the ring holds: then it is told how many values it lost and goes on with the oldest one kept.
-/

namespace Softphone

/-- What a reader gets. -/
inductive Delivery (α : Type)
  | value (a : α)
  /-- So many values were lost. -/
  | lagged (lost : Nat)
  /-- There will be no more values. -/
  | finished
  deriving DecidableEq, Repr

/-- A ring of values, how many were published in all, whether the publisher is gone, and for each
reader the number of the value it reads next. A reader that has left has no such number. -/
structure Broadcast (α : Type) where
  capacity : Nat
  /-- The latest values, the oldest first. -/
  kept : List α := []
  published : Nat := 0
  closed : Bool := false
  readers : List (Option Nat) := []

namespace Broadcast

variable {α : Type}

/-- A ring whose size is the least power of two that is not below `capacity`. -/
def new (capacity : Nat) : Broadcast α := { capacity := (max capacity 1).nextPowerOfTwo }

/-- Adds a reader, which will get the values published from now on. -/
def subscribe (b : Broadcast α) : Nat × Broadcast α :=
  (b.readers.length, { b with readers := b.readers ++ [some b.published] })

/-- Lets a reader leave. -/
def unsubscribe (b : Broadcast α) (reader : Nat) : Broadcast α :=
  { b with readers := b.readers.set reader none }

/-- How many readers there are. -/
def readerCount (b : Broadcast α) : Nat := b.readers.countP (·.isSome)

/-- Publishes a value; the oldest one goes when the ring is full. -/
def publish (b : Broadcast α) (a : α) : Broadcast α :=
  let kept := b.kept ++ [a]
  { b with kept := kept.drop (kept.length - b.capacity), published := b.published + 1 }

/-- Ends the broadcast. -/
def close (b : Broadcast α) : Broadcast α := { b with closed := true }

/-- The number of the oldest value kept. -/
def oldest (b : Broadcast α) : Nat := b.published - b.kept.length

/-- What a reader that waits for the value `next` gets now, if anything, and what it waits for then. -/
def poll? (b : Broadcast α) (next : Nat) : Option (Delivery α × Nat) :=
  if next < b.oldest then some (.lagged (b.oldest - next), b.oldest)
  else match b.kept[next - b.oldest]? with
    | some a => some (.value a, next + 1)
    | none => if b.closed then some (.finished, next) else none

/-- Everything there is for a reader, but at most `limit` items. -/
def collect (b : Broadcast α) : (limit next : Nat) → List (Delivery α) × Nat
  | 0, next => ([], next)
  | limit + 1, next =>
    match b.poll? next with
    | none => ([], next)
    | some (.finished, next) => ([.finished], next)
    | some (item, next) =>
      let (items, next) := collect b limit next
      (item :: items, next)

/-- How many items at most there can be for a reader. -/
def limit (b : Broadcast α) : Nat := b.kept.length + 2

/-- Reads on from a place that is found from the reader's own. A reader that has left gets nothing. -/
def readFrom (b : Broadcast α) (place : Nat → Nat) (reader limit : Nat) :
    List (Delivery α) × Broadcast α :=
  match (b.readers[reader]?).join with
  | none => ([], b)
  | some next =>
    let (items, next) := b.collect limit (place next)
    (items, { b with readers := b.readers.set reader (some next) })

/-- Reads what is there, but at most `limit` items. -/
def read (b : Broadcast α) (reader limit : Nat) : List (Delivery α) × Broadcast α :=
  b.readFrom id reader limit

/-- Reads what is there, but at most `limit` items, and is not told of lost values. -/
def readKept (b : Broadcast α) (reader limit : Nat) : List (Delivery α) × Broadcast α :=
  b.readFrom (max b.oldest) reader limit

end Broadcast

end Softphone
