import Softphone.Handle
import Softphone.Registration
import Softphone.Text

/-!
# Signals of the engine

The engine reports in lines of fields parted by commas. The first field is the class of the report.
Reports on a call come with the handle of the call, and their last field is the other party; the
arguments of a class stand between.
-/

namespace Softphone

/-- The class of a report on a call, with its arguments. -/
inductive CallEventKind
  | incoming
  | outgoing
  | ringing
  /-- A provisional answer with flags for the direction of its media. -/
  | progress (flags : UInt32)
  /-- The outcome of a renegotiation. -/
  | update (code : UInt32)
  | established
  /-- The end of a call, perhaps with a hint which tone to play. -/
  | closed (tone : Option String)
  deriving DecidableEq, Repr

namespace CallEventKind

def name : CallEventKind → String
  | incoming => "incoming"
  | outgoing => "outgoing"
  | ringing => "ringing"
  | progress _ => "progress"
  | update _ => "update"
  | established => "established"
  | closed _ => "closed"

/-- Whether a report of this class may bring in a call that nobody knew. -/
def admitsNewCall : CallEventKind → Bool
  | incoming | outgoing => true
  | _ => false

end CallEventKind

/-- A report on a call. -/
structure CallEvent where
  handle : CallHandle
  kind : CallEventKind
  /-- The other party. -/
  remote : String
  deriving DecidableEq, Repr

/-- A report of the engine. -/
inductive EngineEvent
  | registration (signal : RegistrationSignal)
  | call (event : CallEvent)
  deriving DecidableEq, Repr

namespace EngineEvent

/-- The fields of a line, without the blanks around them. -/
def fields (text : String) : List String :=
  (Text.splitOn ',' text.toList).map fun field => String.ofList (Text.trimChars field)

/-- A number of 32 bits in one of the fields. -/
def number? (fields : List String) (index : Nat) : Option UInt32 :=
  (fields[index]?.bind fun field => Text.readUnsigned? UInt32.size field.toList).map UInt32.ofNat

/-- A text, unless it is empty. -/
def nonempty? (s : Option String) : Option String := s.filter (· ≠ "")

/-- Reads a report on the registration. A failure may give its reason in the second field. -/
def registrationSignal? (fields : List String) : Option RegistrationSignal :=
  match fields.headD "" with
  | "registering" => some .registering
  | "unregistering" => some .unregistering
  | "registered" => some .registered
  | "registering failed" => some (.failed (nonempty? fields[1]?))
  | _ => none

/-- The tone hint of a closed call: the field before the other party, if at least one field with a
reason comes before it. -/
def toneHint? (fields : List String) : Option String :=
  if 4 ≤ fields.length then nonempty? fields[fields.length - 2]? else none

/-- Reads the class and the arguments of a report on a call. -/
def callEventKind? (fields : List String) : Option CallEventKind :=
  match fields.headD "" with
  | "call incoming" => some .incoming
  | "call outgoing" => some .outgoing
  | "call ringing" => some .ringing
  | "call progress" => some (.progress ((number? fields 1).getD 0))
  | "call update" => (number? fields 1).map .update
  | "call established" => some .established
  | "call closed" => some (.closed (toneHint? fields))
  | _ => none

/-- The other party: the last field, unless the class is the only one. -/
def remote (fields : List String) : String :=
  if 1 < fields.length then fields.getLast?.getD "" else ""

/-- Reads a report: on the given call, or on the registration when there is none. -/
def parse? (text : String) (call : Option CallHandle) : Option EngineEvent :=
  let fields := fields text
  match call with
  | none => (registrationSignal? fields).map .registration
  | some handle => (callEventKind? fields).map fun kind => .call ⟨handle, kind, remote fields⟩

end EngineEvent

end Softphone
