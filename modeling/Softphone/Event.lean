import Softphone.Call
import Softphone.Json.Holdable
import Softphone.Registration

/-!
# Events

What the application is told. In JSON an event is its name and its body; for the bridge to the
application an event without a body has an empty one.
-/

namespace Softphone

/-- An event published to the application. -/
inductive Event
  | registrationChanged (state : RegistrationState)
  | ring (remote : String) (direction : CallDirection)
  | up
  | paused
  | resuming
  | hangup
  | missed (remote : String) (time : Timestamp)
  | error (message : String)
  deriving DecidableEq, Repr

namespace Event

/-- The name by which the application knows an event. -/
def name : Event → String
  | registrationChanged _ => "AccountRegistrationStateChanged"
  | ring _ _ => "Ring"
  | up => "Up"
  | paused => "Paused"
  | resuming => "Resuming"
  | hangup => "Hangup"
  | missed _ _ => "Missed"
  | error _ => "Error"

/-- What goes with the name, if anything does. -/
def body? : Event → Option Json
  | registrationChanged state => some (.record [("registrationState", state.toJson)])
  | ring remote direction =>
    some (.record [("username", .str remote), ("callType", direction.toJson)])
  | missed remote time => some (.record [("username", .str remote), ("at", time.toJson)])
  | error message => some (.record [("message", .str message)])
  | up | paused | resuming | hangup => none

def toJson (e : Event) : Json :=
  match e.body? with
  | some body => .record [("event", .str e.name), ("body", body)]
  | none => .record [("event", .str e.name)]

/-- The form for the bridge, which always has a body. -/
def toBridgeJson (e : Event) : Json :=
  .record [("event", .str e.name), ("body", e.body?.getD (.obj []))]

/-- Lets an empty object stand for the missing payload of a case. -/
def fillPayload : Json → Json
  | .obj [(name, .obj [])] => .obj [(name, .null)]
  | j => j

/-- The fields of a body, which must be an object. -/
def fields? (known : List String) : Option Json → Option Json.Record
  | some (.obj members) => Json.record? known (.obj members)
  | _ => none

/-- An event without a body. -/
def bare? (e : Event) : Option Json → Option Event
  | none | some .null => some e
  | some _ => none

/-- Reads the body of the event with a given name. A body that was held until the name was known may
write the cases of its fields with an empty payload. -/
def ofBody? (held : Bool) (name : String) (body : Option Json) : Option Event :=
  let case := fun j => if held then fillPayload j else j
  match name with
  | "AccountRegistrationStateChanged" => do
    let r ← fields? ["registrationState"] body
    return registrationChanged
      (← r.required "registrationState" fun j => RegistrationState.ofJson? (case j))
  | "Ring" => do
    let r ← fields? ["username", "callType"] body
    return ring (← r.required "username" Json.str?)
      (← r.required "callType" fun j => CallDirection.ofJson? (case j))
  | "Up" => bare? up body
  | "Paused" => bare? paused body
  | "Resuming" => bare? resuming body
  | "Hangup" => bare? hangup body
  | "Missed" => do
    let r ← fields? ["username", "at"] body
    return missed (← r.required "username" Json.str?) (← r.required "at" Timestamp.ofJson?)
  | "Error" => do
    let r ← fields? ["message"] body
    return error (← r.required "message" Json.str?)
  | _ => none

/-- The name of an event, written as a case without a payload. -/
def name? (j : Json) : Option String :=
  match j.case? with
  | some (name, none) => some name
  | some (name, some .null) => some name
  | _ => none

/-- How deep the containers of a body may nest that stands before the name of its event; the event
itself is a container too. -/
def heldDepth : Nat := Json.deepest - 1

/-- Reads an event: an object with its name and body in either order, or an array of the two with the
name as a plain string. -/
def ofJson? : Json → Option Event
  | .arr [.str name, body] => ofBody? false name (some body)
  | .obj members =>
    match Json.knownMembers? ["event", "body"] members with
    | some [("event", name)] => do ofBody? false (← name? name) none
    | some [("event", name), ("body", body)] => do ofBody? false (← name? name) (some body)
    | some [("body", body), ("event", name)] =>
      if body.isHoldable heldDepth then do ofBody? true (← name? name) (some body) else none
    | _ => none
  | _ => none

end Event

end Softphone
