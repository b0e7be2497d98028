import Softphone.Signal

/-!
# Writing signals

The line of a report on a call: its class, its arguments and the other party, with commas between.
-/

namespace Softphone

/-- The arguments of a class as they stand in a line. A tone hint comes after `reasons`, one field or more of
them with commas between; one empty field stands for a call that closes without a hint. -/
def CallEventKind.arguments (reasons : String) : CallEventKind → List String
  | .progress flags => [toString flags.toNat]
  | .update code => [toString code.toNat]
  | .closed (some tone) => [reasons, tone]
  | .closed none => [""]
  | .incoming | .outgoing | .ringing | .established => []

/-- The line that reports an event. -/
def CallEvent.line (reasons : String) (e : CallEvent) : String :=
  ",".intercalate (("call " ++ e.kind.name) :: (e.kind.arguments reasons ++ [e.remote]))

end Softphone
