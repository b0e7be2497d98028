import Softphone.Json
import Softphone.Text

/-!
# Reading JSON

Strict JSON: blanks are the four of the standard, there are no comments and no trailing commas,
numbers have no plus sign and no zeros in front, and strings hold no raw control characters.
Containers may nest to any depth.
-/

namespace Softphone.Json

/-- Drops blanks in front. -/
def skipBlanks (s : List Char) : List Char :=
  s.dropWhile fun c => c == ' ' || c == '\t' || c == '\n' || c == '\r'

/-- A part of a string literal: a character, or the code unit that an escape names. -/
inductive Piece
  | char (c : Char)
  | unit (n : Nat)

/-- The character of a one-letter escape. -/
def escape? : Char → Option Char
  | '"' => some '"'
  | '\\' => some '\\'
  | '/' => some '/'
  | 'b' => some '\x08'
  | 'f' => some '\x0c'
  | 'n' => some '\n'
  | 'r' => some '\r'
  | 't' => some '\t'
  | _ => none

/-- Reads a string literal after its opening quote, as pieces in order. -/
def readPieces (acc : List Piece) : List Char → Option (List Piece × List Char)
  | '"' :: rest => some (acc.reverse, rest)
  | '\\' :: 'u' :: a :: b :: c :: d :: rest =>
    match Text.ofHex? [a, b, c, d] with
    | some n => readPieces (.unit n :: acc) rest
    | none => none
  | '\\' :: e :: rest =>
    match escape? e with
    | some c => readPieces (.char c :: acc) rest
    | none => none
  | c :: rest => if c.toNat < 0x20 ∨ c = '\\' then none else readPieces (.char c :: acc) rest
  | [] => none

def isHighSurrogate (n : Nat) : Bool := 0xD800 ≤ n && n ≤ 0xDBFF

def isLowSurrogate (n : Nat) : Bool := 0xDC00 ≤ n && n ≤ 0xDFFF

/-- The text of pieces. The two halves of a surrogate pair make one character, and a half on its own
has no text. -/
def joinPieces (acc : List Char) : List Piece → Option (List Char)
  | [] => some acc.reverse
  | .char c :: rest => joinPieces (c :: acc) rest
  | .unit hi :: .unit lo :: rest =>
    if isHighSurrogate hi && isLowSurrogate lo then
      joinPieces (Char.ofNat (0x10000 + (hi - 0xD800) * 0x400 + (lo - 0xDC00)) :: acc) rest
    else if isHighSurrogate hi || isLowSurrogate hi then none
    else joinPieces (Char.ofNat hi :: acc) (.unit lo :: rest)
  | .unit n :: rest =>
    if isHighSurrogate n || isLowSurrogate n then none
    else joinPieces (Char.ofNat n :: acc) rest

/-- Reads a string literal after its opening quote; a broken one has no text. -/
def readString? (s : List Char) : Option (Option String × List Char) := do
  let (pieces, rest) ← readPieces [] s
  return ((joinPieces [] pieces).map String.ofList, rest)

/-- Reads one or more digits. -/
def readDigits? (s : List Char) : Option (List Char × List Char) :=
  let digits := s.takeWhile Char.isDigit
  if digits.isEmpty then none else some (digits, s.dropWhile Char.isDigit)

/-- Reads the fraction of a number, if there is one. -/
def readFraction? : List Char → Option (List Char × List Char)
  | '.' :: s => readDigits? s
  | s => some ([], s)

/-- Reads the exponent of a number, if there is one. -/
def readExponent? : List Char → Option (Option Int × List Char)
  | c :: s =>
    if c = 'e' ∨ c = 'E' then
      let (negative, body) := match s with
        | '-' :: body => (true, body)
        | '+' :: body => (false, body)
        | _ => (false, s)
      (readDigits? body).map fun (digits, rest) =>
        let n : Int := Text.ofDigits digits
        (some (if negative then -n else n), rest)
    else some (none, c :: s)
  | [] => some (none, [])

/-- Reads a number. -/
def readNumber? (s : List Char) : Option (Json × List Char) := do
  let (negative, body) := match s with
    | '-' :: body => (true, body)
    | _ => (false, s)
  let (whole, rest) ← readDigits? body
  if 1 < whole.length ∧ whole.head? = some '0' then none
  let (fraction, rest) ← readFraction? rest
  let (exponent, rest) ← readExponent? rest
  let n : Int := Text.ofDigits whole
  if fraction.isEmpty && exponent.isNone && !(negative && n == 0) then
    return (int (if negative then -n else n), rest)
  return (real whole fraction (exponent.getD 0), rest)

/-- Drops a word that must stand here. -/
def readWord? : List Char → List Char → Option (List Char)
  | [], s => some s
  | w :: word, c :: s => if w = c then readWord? word s else none
  | _ :: _, [] => none

mutual

/-- Reads one value. The fuel bounds the characters read. -/
def readValue : (fuel : Nat) → List Char → Option (Json × List Char)
  | 0, _ => none
  | fuel + 1, s =>
    match skipBlanks s with
    | '{' :: rest =>
      match skipBlanks rest with
      | '}' :: rest => some (obj [], rest)
      | rest => (readMembers fuel rest).map fun r => (obj r.1, r.2)
    | '[' :: rest =>
      match skipBlanks rest with
      | ']' :: rest => some (arr [], rest)
      | rest => (readItems fuel rest).map fun r => (arr r.1, r.2)
    | '"' :: rest =>
      (readString? rest).map fun r => (match r.1 with | some t => str t | none => brokenStr, r.2)
    | 't' :: rest => (readWord? "rue".toList rest).map (bool true, ·)
    | 'f' :: rest => (readWord? "alse".toList rest).map (bool false, ·)
    | 'n' :: rest => (readWord? "ull".toList rest).map (null, ·)
    | rest => readNumber? rest

/-- Reads the items of an array up to its end; there is at least one. -/
def readItems : (fuel : Nat) → List Char → Option (List Json × List Char)
  | 0, _ => none
  | fuel + 1, s =>
    match readValue fuel s with
    | none => none
    | some (item, rest) =>
      match skipBlanks rest with
      | ']' :: rest => some ([item], rest)
      | ',' :: rest => (readItems fuel rest).map fun r => (item :: r.1, r.2)
      | _ => none

/-- Reads the members of an object up to its end; there is at least one. -/
def readMembers : (fuel : Nat) → List Char → Option (List (Option String × Json) × List Char)
  | 0, _ => none
  | fuel + 1, s =>
    match skipBlanks s with
    | '"' :: rest =>
      match readString? rest with
      | none => none
      | some (name, rest) =>
        match skipBlanks rest with
        | ':' :: rest =>
          match readValue fuel rest with
          | none => none
          | some (value, rest) =>
            match skipBlanks rest with
            | '}' :: rest => some ([(name, value)], rest)
            | ',' :: rest => (readMembers fuel rest).map fun r => ((name, value) :: r.1, r.2)
            | _ => none
        | _ => none
    | _ => none

end

/-- Reads a value from the whole of a text. -/
def parse? (text : String) : Option Json :=
  let s := text.toList
  match readValue (s.length + 1) s with
  | some (value, rest) => if (skipBlanks rest).isEmpty then some value else none
  | none => none

end Softphone.Json
