import Softphone.CallId
import Softphone.Handle
import Softphone.Timestamp.Reader

/-!
# Calls

A call lives from its announcement until it closes. It is established once media has been agreed, and
it may then be held and resumed.
-/

namespace Softphone

/-- Who placed a call. -/
inductive CallDirection
  | inbound
  | outbound
  deriving DecidableEq, Repr

namespace CallDirection

def text : CallDirection → String
  | inbound => "inbound"
  | outbound => "outbound"

def toJson (d : CallDirection) : Json := .str d.text

def ofJson? : Json → Option CallDirection :=
  Json.choice? [("inbound", inbound), ("outbound", outbound)]

end CallDirection

/-- How far a call has come. -/
inductive CallState
  /-- Allocated here; the engine has reported nothing yet. -/
  | idle
  | ringing (direction : CallDirection)
  /-- The other side has answered provisionally, or sends media already. -/
  | early
  | established
  | held
  /-- Over. The call is kept only while a closing tone plays. -/
  | closed
  deriving DecidableEq, Repr

namespace CallState

def isTerminal : CallState → Bool
  | closed => true
  | _ => false

/-- Whether the call was answered and is not over. -/
def isAnswered : CallState → Bool
  | established | held => true
  | _ => false

def text : CallState → String
  | idle => "Idle"
  | ringing direction => "Ringing(" ++ direction.text ++ ")"
  | early => "Early"
  | established => "Established"
  | held => "Held"
  | closed => "Closed"

def toJson : CallState → Json
  | idle => .str "Idle"
  | ringing direction => .record [("Ringing", direction.toJson)]
  | early => .str "Early"
  | established => .str "Established"
  | held => .str "Held"
  | closed => .str "Closed"

def ofJson? (j : Json) : Option CallState :=
  match j.case? with
  | some ("Ringing", some direction) => (CallDirection.ofJson? direction).map ringing
  | _ => j.choice? [("Idle", idle), ("Early", early), ("Established", established),
      ("Held", held), ("Closed", closed)]

end CallState

/-- What a new call is given by the world outside: an identifier and the time. -/
structure Stamp where
  id : CallId
  time : Timestamp
  deriving DecidableEq, Repr, Inhabited

/-- A call as it is tracked. -/
structure Call where
  id : CallId
  handle : CallHandle
  agent : AgentHandle
  direction : CallDirection
  /-- The other party. -/
  remote : String
  state : CallState
  createdAt : Timestamp
  /-- When the call was first established. -/
  establishedAt : Option Timestamp
  deriving DecidableEq, Repr

namespace Call

/-- A call of which nothing is known yet but who placed it. -/
def new (stamp : Stamp) (handle : CallHandle) (agent : AgentHandle) (direction : CallDirection)
    (remote : String) : Call where
  id := stamp.id
  handle := handle
  agent := agent
  direction := direction
  remote := remote
  state := .idle
  createdAt := stamp.time
  establishedAt := none

/-- Whether the call was ever established. -/
def wasEstablished (c : Call) : Bool := c.establishedAt.isSome

/-- Whether call control may still act on the call. -/
def isLive (c : Call) : Bool := !c.state.isTerminal

def toJson (c : Call) : Json := .record [
  ("id", c.id.toJson),
  ("handle", c.handle.toJson),
  ("agent", c.agent.toJson),
  ("direction", c.direction.toJson),
  ("remote", .str c.remote),
  ("state", c.state.toJson),
  ("created_at", c.createdAt.toJson),
  ("established_at", .opt Timestamp.toJson c.establishedAt)]

def ofJson? (j : Json) : Option Call := do
  let r ← j.record? ["id", "handle", "agent", "direction", "remote", "state", "created_at",
    "established_at"]
  return {
    id := ← r.required "id" CallId.ofJson?
    handle := ← r.required "handle" CallHandle.ofJson?
    agent := ← r.required "agent" AgentHandle.ofJson?
    direction := ← r.required "direction" CallDirection.ofJson?
    remote := ← r.required "remote" Json.str?
    state := ← r.required "state" CallState.ofJson?
    createdAt := ← r.required "created_at" Timestamp.ofJson?
    establishedAt := ← r.optional "established_at" Timestamp.ofJson? }

end Call

/-- An inbound call that was over before it was answered. -/
structure MissedCall where
  remote : String
  time : Timestamp
  deriving DecidableEq, Repr

namespace MissedCall

def toJson (m : MissedCall) : Json := .record [
  ("remote", .str m.remote),
  ("at", m.time.toJson)]

def ofJson? (j : Json) : Option MissedCall := do
  let r ← j.record? ["remote", "at"]
  return {
    remote := ← r.required "remote" Json.str?
    time := ← r.required "at" Timestamp.ofJson? }

end MissedCall

end Softphone
