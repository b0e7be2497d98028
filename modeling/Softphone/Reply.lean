import Softphone.Call
import Softphone.Registration
import Softphone.SessionError

/-!
# Requests and replies

A request of the application has a number, its ticket, and is answered by one reply.
-/

namespace Softphone

/-- The number of a request. -/
structure Ticket where
  number : Nat
  deriving DecidableEq, Repr

/-- How often passes ran, how many triggers an already pending pass absorbed, how often the transport
was reset, and how many changes of an address failed. -/
structure MobilityStats where
  passes : Nat := 0
  coalesced : Nat := 0
  transportResets : Nat := 0
  addressFailures : Nat := 0
  deriving DecidableEq, Repr

/-- The answer to a request. -/
inductive Reply
  | done (outcome : Except SessionError Unit)
  /-- The outcome of an operation that may also be in vain. -/
  | success (outcome : Except SessionError Bool)
  /-- Whether something is on. -/
  | isOn (on : Bool)
  | registration (state : RegistrationState)
  | currentCall (id : Option CallId)
  | missedCalls (calls : List MissedCall)
  | stats (stats : MobilityStats)
  /-- The message says nothing and was dropped. -/
  | ignored
  deriving DecidableEq

end Softphone
