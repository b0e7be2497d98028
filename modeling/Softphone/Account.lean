import Softphone.Json.Decode
import Softphone.SessionError
import Softphone.Text

/-!
# Accounts

The account that the engine registers, and the line by which it is told of it.
-/

namespace Softphone

/-- The server that is asked for the public address unless the account names another. -/
def defaultStunServer : String := "stun:stun.l.google.com:19302"

/-- The registration interval in seconds unless the account names another. -/
def defaultRegistrationInterval : UInt32 := 900

/-- An account at a registrar. -/
structure Account where
  username : String
  domain : String
  password : String
  /-- The registration interval in seconds. -/
  expires : Option UInt32 := none
  stunServer : String := defaultStunServer
  deriving DecidableEq, Repr

namespace Account

/-- The interval in seconds after which the registration is renewed. -/
def registrationInterval (a : Account) : UInt32 :=
  a.expires.getD defaultRegistrationInterval

/-- The address of record. -/
def aor (a : Account) : String :=
  "sip:" ++ a.username ++ "@" ++ a.domain

/-- The account in the syntax of the engine's account file. -/
def line (a : Account) : String :=
  "<" ++ a.aor ++ ">;auth_pass=" ++ a.password ++ ";stunserver=\"" ++ a.stunServer ++
    "\";regq=0.5;pubint=0;regint=" ++ toString a.registrationInterval.toNat

/-- Finds the first field that cannot be used. -/
def check (a : Account) : Except SessionError Unit :=
  if Text.isBlankText a.username then
    .error (.invalidConfiguration "username" "must not be empty")
  else if Text.isBlankText a.domain then
    .error (.invalidConfiguration "domain" "must not be empty")
  else if a.expires = some 0 then
    .error (.invalidConfiguration "expires" "must be positive")
  else .ok ()

def withExpires (a : Account) (seconds : UInt32) : Account :=
  { a with expires := some seconds }

def withStunServer (a : Account) (server : String) : Account :=
  { a with stunServer := server }

def toJson (a : Account) : Json := .record [
  ("username", .str a.username),
  ("domain", .str a.domain),
  ("password", .str a.password),
  ("expires", .opt (fun n => .nat n.toNat) a.expires),
  ("stun_server", .str a.stunServer)]

def ofJson? (j : Json) : Option Account := do
  let r ← j.record? ["username", "domain", "password", "expires", "stun_server"]
  return {
    username := ← r.required "username" Json.str?
    domain := ← r.required "domain" Json.str?
    password := ← r.required "password" Json.str?
    expires := ← r.withDefault "expires" none (Json.opt? Json.uint32?)
    stunServer := ← r.withDefault "stun_server" defaultStunServer Json.str? }

end Account

end Softphone
