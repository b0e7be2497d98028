import Softphone.Handle

/-!
# Registration

Keeps the state of the registration and the user agent it belongs to. Signals of the engine set the
state; requests of the application begin a refresh or let go of the agent.
-/

namespace Softphone

/-- The state of the registration as the application sees it. -/
inductive RegistrationState
  /-- Nothing was tried yet, or a confirmation came without a user agent. -/
  | none
  | progress
  | ok
  /-- Unregistered on request. -/
  | cleared
  | failed
  /-- A refresh was asked for and is on its way. -/
  | refreshing
  deriving DecidableEq, Repr

namespace RegistrationState

def text : RegistrationState → String
  | none => "None"
  | progress => "Progress"
  | ok => "Ok"
  | cleared => "Cleared"
  | failed => "Failed"
  | refreshing => "Refreshing"

def toJson (s : RegistrationState) : Json := .str s.text

def ofJson? : Json → Option RegistrationState :=
  Json.choice? [("None", none), ("Progress", progress), ("Ok", ok), ("Cleared", cleared),
    ("Failed", failed), ("Refreshing", refreshing)]

end RegistrationState

/-- What the engine reports about the registration. -/
inductive RegistrationSignal
  | registering
  | unregistering
  | registered
  | failed (reason : Option String)
  deriving DecidableEq, Repr

/-- What a request to refresh amounts to. -/
inductive RefreshDecision
  | alreadyRegistered
  /-- Register this agent again. -/
  | register (agent : AgentHandle)
  | noAgent
  deriving DecidableEq, Repr

/-- The registration and the agent it is for. -/
structure Registration where
  state : RegistrationState := .none
  agent : Option AgentHandle := none
  deriving DecidableEq, Repr

namespace Registration

/-- Takes a newly made agent. The state stays until the engine reports. -/
def attach (r : Registration) (agent : AgentHandle) : Registration :=
  { r with agent := some agent }

/-- The state that a signal leads to. A confirmation counts only while there is an agent. -/
def stateAfter (r : Registration) : RegistrationSignal → RegistrationState
  | .registering | .unregistering => .progress
  | .registered => if r.agent.isSome then .ok else .none
  | .failed _ => .failed

/-- Applies a signal of the engine. -/
def receive (r : Registration) (signal : RegistrationSignal) : Registration :=
  { r with state := r.stateAfter signal }

/-- What a refresh should do now. -/
def refreshDecision (r : Registration) : RefreshDecision :=
  match r.agent with
  | none => .noAgent
  | some agent => if r.state = .ok then .alreadyRegistered else .register agent

/-- Begins a refresh: the state shows it if there is something to register. -/
def refresh (r : Registration) : RefreshDecision × Registration :=
  match r.refreshDecision with
  | .register agent => (.register agent, { r with state := .refreshing })
  | decision => (decision, r)

/-- Lets go of the agent, which is to be unregistered. Without one nothing changes. -/
def release (r : Registration) : Option AgentHandle × Registration :=
  match r.agent with
  | none => (none, r)
  | some agent => (some agent, ⟨.cleared, none⟩)

end Registration

end Softphone
