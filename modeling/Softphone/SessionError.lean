import Softphone.Handle

/-!
# Errors

What can go wrong, by cause. `text` is the wording, `category` the group for a log, and two tests
tell which errors may pass when the operation is tried again and which the caller brought about.
-/

namespace Softphone

/-- The cause of a failure. -/
inductive SessionError
  /-- Call control was asked for while no call is current. -/
  | noCurrentCall
  /-- An operation needs a user agent and there is none. -/
  | noSession
  | callNotFound (handle : CallHandle)
  | callAlreadyExists (handle : CallHandle)
  | invalidArgument (field reason : String)
  | invalidConfiguration (field reason : String)
  /-- The engine refused to make a user agent for the account. -/
  | agentAllocationFailed (reason : String)
  | callSetupFailed (reason : String)
  | engine (operation reason : String)
  /-- The coordinator is no longer running. -/
  | stopped
  | internal (message : String)
  deriving DecidableEq, Repr

/-- Outcomes are compared by cause and by value. -/
instance instDecidableEqOutcome {α : Type} [DecidableEq α] :
    DecidableEq (Except SessionError α)
  | .ok a, .ok b => decidable_of_iff (a = b) (by simp)
  | .error a, .error b => decidable_of_iff (a = b) (by simp)
  | .ok _, .error _ => .isFalse nofun
  | .error _, .ok _ => .isFalse nofun

namespace SessionError

/-- The wording of an error. -/
def text : SessionError → String
  | noCurrentCall => "No current call"
  | noSession => "No session: initialize must succeed first"
  | callNotFound handle => "Call not found: " ++ handle.text
  | callAlreadyExists handle => "Call already exists: " ++ handle.text
  | invalidArgument field reason => "Invalid argument " ++ field ++ ": " ++ reason
  | invalidConfiguration field reason => "Invalid configuration for " ++ field ++ ": " ++ reason
  | agentAllocationFailed reason => "Agent allocation failed: " ++ reason
  | callSetupFailed reason => "Call setup failed: " ++ reason
  | engine operation reason => "Engine operation " ++ operation ++ " failed: " ++ reason
  | stopped => "Coordinator stopped"
  | internal message => "Internal error: " ++ message

/-- The group of an error. -/
def category : SessionError → String
  | noCurrentCall | callNotFound _ | callAlreadyExists _ | callSetupFailed _ => "call"
  | noSession | agentAllocationFailed _ => "session"
  | invalidArgument _ _ => "argument"
  | invalidConfiguration _ _ => "configuration"
  | engine _ _ => "engine"
  | stopped | internal _ => "system"

/-- Whether the same operation could succeed later. -/
def isRecoverable : SessionError → Bool
  | engine _ _ | callSetupFailed _ | noCurrentCall => true
  | _ => false

/-- Whether the way the operation was called is to blame. -/
def isCallerError : SessionError → Bool
  | noCurrentCall | noSession | callNotFound _ | callAlreadyExists _ | invalidArgument _ _ => true
  | _ => false

end SessionError

end Softphone
