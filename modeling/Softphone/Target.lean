import Softphone.SessionError
import Softphone.Text

/-!
# What a user enters

Targets of calls and transfers, and the digits sent during a call.
-/

namespace Softphone

namespace Target

/-- Whether a target names its scheme. -/
def hasScheme (target : String) : Bool :=
  "sip:".toList.isPrefixOf target.toList || "sips:".toList.isPrefixOf target.toList

/-- A target without the blanks around it and with a scheme, which is `sip:` unless it names one. -/
def normalize (target : String) : Except SessionError String :=
  let target := Text.trim target
  if target = "" then .error (.invalidArgument "target" "must not be empty")
  else if hasScheme target then .ok target
  else .ok ("sip:" ++ target)

end Target

namespace Digits

/-- The digits of a telephone and the four letters beside them. -/
def isDigit (c : Char) : Bool :=
  ('0' ≤ c && c ≤ '9') || c == '*' || c == '#' || ('A' ≤ c && c ≤ 'D')

/-- Finds the first character that is no digit; there must be one digit at least. -/
def check (digits : String) : Except SessionError Unit :=
  if digits = "" then .error (.invalidArgument "digits" "must not be empty")
  else match digits.toList.find? (!isDigit ·) with
    | some bad =>
      .error (.invalidArgument "digits" ("'" ++ String.singleton bad ++ "' is not a DTMF digit"))
    | none => .ok ()

end Digits

end Softphone
