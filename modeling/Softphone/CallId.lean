import Softphone.Json.Decode
import Softphone.Text

/-!
# Call identifiers

A call is known to the application by a universally unique identifier of 128 bits.
-/

namespace Softphone

/-- The identifier of a call, the same for as long as the call is known. -/
structure CallId where
  bits : BitVec 128
  deriving DecidableEq, Repr

namespace CallId

instance : Inhabited CallId := ⟨⟨0⟩⟩

/-- The hyphenated form in lower case. -/
def text (id : CallId) : String :=
  let part := fun low width => Text.hexDigits width ((id.bits.toNat >>> low) % (1 <<< (4 * width)))
  String.ofList (part 96 8 ++ '-' :: part 80 4 ++ '-' :: part 64 4 ++ '-' :: part 48 4 ++
    '-' :: part 0 12)

/-- Reads thirty-two hexadecimal digits. -/
def ofDigits? (digits : List Char) : Option CallId :=
  if digits.length = 32 then (Text.ofHex? digits).map fun n => ⟨BitVec.ofNat 128 n⟩ else none

/-- Reads the hyphenated form. -/
def ofHyphenated? (s : List Char) : Option CallId :=
  match s.splitAt 8 with
  | (a, '-' :: s) => match s.splitAt 4 with
    | (b, '-' :: s) => match s.splitAt 4 with
      | (c, '-' :: s) => match s.splitAt 4 with
        | (d, '-' :: e) => ofDigits? (a ++ b ++ c ++ d ++ e)
        | _ => none
      | _ => none
    | _ => none
  | _ => none

/-- Reads any of the usual forms: plain digits, hyphenated, hyphenated in braces, or as a name of
the `uuid` namespace in either case. -/
def parse? (text : String) : Option CallId :=
  match text.toList with
  | '\x7b' :: body =>
    if body.getLast? = some '\x7d' then ofHyphenated? body.dropLast else none
  | s =>
    let (scheme, body) := s.splitAt 9
    if scheme.map Char.toLower = "urn:uuid:".toList then ofHyphenated? body
    else if s.length = 32 then ofDigits? s
    else ofHyphenated? s

def toJson (id : CallId) : Json := .str id.text

def ofJson? (j : Json) : Option CallId := j.str?.bind parse?

end CallId

end Softphone
