import Softphone.Json
import Softphone.Text

/-!
# Writing JSON

Values on one line without blanks. Strings escape quotes, backslashes and control characters only,
by one letter where there is one and by number otherwise.
-/

namespace Softphone.Json

/-- The letter by which a character is escaped. -/
def letter? : Char → Option Char
  | '"' => some '"'
  | '\\' => some '\\'
  | '\x08' => some 'b'
  | '\x0c' => some 'f'
  | '\n' => some 'n'
  | '\r' => some 'r'
  | '\t' => some 't'
  | _ => none

/-- A character inside a string literal. -/
def escapeChar (c : Char) : List Char :=
  match letter? c with
  | some letter => ['\\', letter]
  | none => if c.toNat < 0x20 then '\\' :: 'u' :: Text.hexDigits 4 c.toNat else [c]

/-- Appends a string literal. -/
def quoteOnto (out : String) (s : String) : String :=
  (s.toList.foldl (fun out c => (escapeChar c).foldl String.push out) (out.push '"')).push '"'

/-- Appends a number that is not an integer. -/
def realOnto (out : String) (whole fraction : List Char) (exponent : Int) : String :=
  let out := whole.foldl String.push out
  let out := if fraction.isEmpty then out else fraction.foldl String.push (out.push '.')
  out.push 'e' ++ toString exponent

mutual

/-- Appends the text of a value. -/
def printOnto (out : String) : Json → String
  | null => out ++ "null"
  | bool true => out ++ "true"
  | bool false => out ++ "false"
  | int n => out ++ toString n
  | real whole fraction exponent => realOnto out whole fraction exponent
  | str s => quoteOnto out s
  | brokenStr => out ++ "null"
  | arr [] => out ++ "[]"
  | arr (item :: items) => itemsOnto (printOnto (out.push '[') item) items
  | obj [] => out ++ "\x7b\x7d"
  | obj ((name, value) :: members) =>
    membersOnto (printOnto ((quoteOnto (out.push '\x7b') (name.getD "")).push ':') value) members

/-- Appends the further items of an array and its end. -/
def itemsOnto (out : String) : List Json → String
  | [] => out.push ']'
  | item :: rest => itemsOnto (printOnto (out.push ',') item) rest

/-- Appends the further members of an object and its end. -/
def membersOnto (out : String) : List (Option String × Json) → String
  | [] => out.push '\x7d'
  | (name, value) :: rest =>
    membersOnto (printOnto ((quoteOnto (out.push ',') (name.getD "")).push ':') value) rest

end

/-- The text of a value. -/
def text (j : Json) : String := printOnto "" j

end Softphone.Json
