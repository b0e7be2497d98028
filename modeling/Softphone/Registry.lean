import Softphone.Call
import Softphone.SessionError

/-!
# The registry of calls

The calls that are tracked, each under its handle, and which of them is current.
-/

namespace Softphone

/-- The tracked calls in the order they came, the current one, and how many came and went. -/
structure Registry where
  calls : List Call := []
  currentHandle : Option CallHandle := none
  added : Nat := 0
  removed : Nat := 0
  deriving DecidableEq, Repr

namespace Registry

/-- The call with a handle. -/
def find? (r : Registry) (handle : CallHandle) : Option Call :=
  r.calls.find? (·.handle = handle)

def contains (r : Registry) (handle : CallHandle) : Bool := (r.find? handle).isSome

/-- Adds a call; its handle must be new. -/
def put (r : Registry) (call : Call) : Except SessionError Registry :=
  if r.contains call.handle then .error (.callAlreadyExists call.handle)
  else .ok { r with calls := r.calls ++ [call], added := r.added + 1 }

/-- Drops a call, which is then no longer current either. -/
def remove (r : Registry) (handle : CallHandle) : Registry :=
  if r.contains handle then
    { r with
      calls := r.calls.filter (·.handle ≠ handle)
      currentHandle := r.currentHandle.filter (· ≠ handle)
      removed := r.removed + 1 }
  else r

/-- Makes a tracked call the current one. -/
def setCurrent (r : Registry) (handle : CallHandle) : Except SessionError Registry :=
  if r.contains handle then .ok { r with currentHandle := some handle }
  else .error (.callNotFound handle)

/-- Changes the call with a handle, if there is one. -/
def modify (r : Registry) (handle : CallHandle) (change : Call → Call) : Registry :=
  { r with calls := r.calls.map fun c => if c.handle = handle then change c else c }

/-- The current call. -/
def current? (r : Registry) : Option Call := r.currentHandle.bind r.find?

/-- The current call, if call control may act on it. -/
def currentLive? (r : Registry) : Option Call := r.current?.filter (·.isLive)

def size (r : Registry) : Nat := r.calls.length

def isEmpty (r : Registry) : Bool := r.calls.isEmpty

end Registry

end Softphone
