/-!
# Timers

One-shot and repeating timers on a clock of milliseconds. A timer that is due sends a firing; whoever
takes the firing asks `accept` whether it still counts. Cancelling a timer stops its alarm and forgets
its number, so a firing sent before is refused. A delay or a period is no longer than thirty years; a
moment may lie further away.
-/

namespace Softphone

/-- What a timer is for. -/
inductive TimerKind
  /-- A hotspot was reported; look at its interfaces. -/
  | hotspotDebounce
  /-- Hotspot addresses were added; run a pass. -/
  | hotspotFollowUp
  /-- Start a ringtone that has ended again. -/
  | ringtoneRestart
  /-- Vibrate while ringing. -/
  | vibrate
  deriving DecidableEq, Repr

/-- The number of a timer. No number is used twice. -/
structure TimerId where
  raw : Nat
  deriving DecidableEq, Repr

def TimerId.text (id : TimerId) : String := "timer#" ++ toString id.raw

/-- The message that a timer sends when it is due. -/
structure Firing where
  id : TimerId
  kind : TimerKind
  deriving DecidableEq, Repr

/-- A timer whose firings count: it was not cancelled and, if it fires once, not used up. -/
structure Timer where
  id : TimerId
  kind : TimerKind
  repeats : Bool
  deriving DecidableEq, Repr

/-- When a timer fires next, and how long after that again if it repeats. -/
structure Alarm where
  firing : Firing
  due : Nat
  period : Option Nat
  deriving DecidableEq, Repr

/-- The clock, the timers in the order they were set, and their alarms in the order they were last
set. -/
structure Timers where
  now : Nat := 0
  nextId : Nat := 1
  active : List Timer := []
  alarms : List Alarm := []
  deriving DecidableEq, Repr

namespace Timers

/-- Thirty years of 365 days, in milliseconds. -/
def longestDelay : Nat := 30 * 365 * 24 * 60 * 60 * 1000

/-- The moment after a delay, of which no more counts than the longest. -/
def momentAfter (now delay : Nat) : Nat := now + min delay longestDelay

/-- The number of the next timer. -/
def freshId (t : Timers) : TimerId := ⟨t.nextId⟩

/-- Sets a timer that fires once after a delay. -/
def scheduleOnce (t : Timers) (kind : TimerKind) (delay : Nat) : TimerId × Timers :=
  (t.freshId,
    { t with
      nextId := t.nextId + 1
      active := t.active ++ [⟨t.freshId, kind, false⟩]
      alarms := t.alarms ++ [⟨⟨t.freshId, kind⟩, momentAfter t.now delay, none⟩] })

/-- Sets a timer that fires at the moment `initial` from now and then again and again. One without a
period between its firings has no alarm. -/
def scheduleRepeating (t : Timers) (kind : TimerKind) (initial period : Nat) :
    TimerId × Timers :=
  (t.freshId,
    { t with
      nextId := t.nextId + 1
      active := t.active ++ [⟨t.freshId, kind, true⟩]
      alarms :=
        if period = 0 then t.alarms
        else t.alarms ++ [⟨⟨t.freshId, kind⟩, t.now + initial, some period⟩] })

/-- The timer with a number. -/
def find? (t : Timers) (id : TimerId) : Option Timer := t.active.find? (·.id = id)

/-- Cancels the timers that pass a test: they are forgotten, and their alarms are stopped. -/
def cancelWhere (t : Timers) (test : Timer → Bool) : Timers :=
  let cancelled := (t.active.filter test).map (·.id)
  { t with
    active := t.active.filter (!test ·)
    alarms := t.alarms.filter fun alarm => !cancelled.contains alarm.firing.id }

/-- Cancels one timer; tells whether it was active. -/
def cancel (t : Timers) (id : TimerId) : Bool × Timers :=
  ((t.find? id).isSome, t.cancelWhere (·.id = id))

/-- How many timers of a kind are active. -/
def countKind (t : Timers) (kind : TimerKind) : Nat := t.active.countP (·.kind = kind)

/-- Cancels all timers of a kind. -/
def cancelKind (t : Timers) (kind : TimerKind) : Timers := t.cancelWhere (·.kind = kind)

def cancelAll (t : Timers) : Timers := t.cancelWhere fun _ => true

def isActive (t : Timers) (kind : TimerKind) : Bool := t.active.any (·.kind = kind)

def size (t : Timers) : Nat := t.active.length

def isEmpty (t : Timers) : Bool := t.active.isEmpty

/-- Whether a firing counts: its timer is active and of its kind. A timer that fires once is then used
up. -/
def accept (t : Timers) (firing : Firing) : Bool × Timers :=
  match t.find? firing.id with
  | none => (false, t)
  | some timer =>
    if timer.kind ≠ firing.kind then (false, t)
    else (true,
      if timer.repeats then t else { t with active := t.active.filter (·.id ≠ firing.id) })

/-! ## The clock -/

/-- The alarm after it has rung, if the timer repeats. -/
def nextAlarm? (now : Nat) (alarm : Alarm) : Option Alarm :=
  alarm.period.map fun period => { alarm with due := momentAfter now period }

/-- Lets every timer fire that is due now, in the order in which their alarms were last set. The
alarms that ring again are set anew, after all others. -/
def fire (t : Timers) : List Firing × Timers :=
  let (due, later) := t.alarms.partition (·.due ≤ t.now)
  (due.map (·.firing), { t with alarms := later ++ due.filterMap (nextAlarm? t.now) })

/-- The time at which the next timer is due. -/
def nextDue? (t : Timers) : Option Nat := (t.alarms.map (·.due)).min?

/-- Sets the clock. -/
def setNow (t : Timers) (now : Nat) : Timers := { t with now }

/-- The next time at which a timer is due, if that comes no later than `target`. -/
def nextDueBy? (t : Timers) (target : Nat) : Option Nat := t.nextDue?.filter (· ≤ target)

/-- Moves the clock from firing to firing, as far as `target`; gives the firings with their times. The
fuel bounds the milliseconds passed. -/
def runUntil (target : Nat) : (fuel : Nat) → Timers → List (Nat × Firing) × Timers
  | 0, t => ([], t.setNow target)
  | fuel + 1, t =>
    match t.nextDueBy? target with
    | none => ([], t.setNow target)
    | some time =>
      let (firings, t) := (t.setNow time).fire
      let (later, t) := runUntil target fuel t
      (firings.map (time, ·) ++ later, t)

/-- Lets time pass. -/
def advance (t : Timers) (ms : Nat) : List (Nat × Firing) × Timers :=
  t.runUntil (t.now + ms) (ms + 2)

/-- A short description. -/
def text (t : Timers) : String :=
  "Timers \x7b active: " ++ toString t.size ++ ", next_id: " ++ toString t.nextId ++ " \x7d"

end Timers

end Softphone
