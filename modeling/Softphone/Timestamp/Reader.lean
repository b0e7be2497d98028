import Softphone.Timestamp
import Softphone.Text
import Softphone.Json.Decode

/-!
# Reading points in time

The form of RFC 3339, read with some liberty: numbers may lack zeros in front, blanks may stand
before numbers and separators, the date and the time are parted by `T`, `t` or a blank, the seconds
may have any number of decimals, of which nine count, and the offset may be `UTC`.
-/

namespace Softphone.Timestamp

/-- Reads a number of one to `width` digits after blanks. -/
def readNumber? (width : Nat) (s : List Char) : Option (Nat × List Char) :=
  let s := Text.trimStart s
  let digits := (s.takeWhile Char.isDigit).take width
  if digits.isEmpty then none else some (Text.ofDigits digits, s.drop digits.length)

/-- Reads a year: up to four digits, or any number of them after a sign. -/
def readYear? (s : List Char) : Option (Int × List Char) :=
  match Text.trimStart s with
  | '-' :: rest =>
    if (rest.head?.map Char.isDigit).getD false then
      (readNumber? rest.length rest).map fun r => (-(r.1 : Int), r.2)
    else none
  | '+' :: rest =>
    if (rest.head?.map Char.isDigit).getD false then
      (readNumber? rest.length rest).map fun r => ((r.1 : Int), r.2)
    else none
  | rest => (readNumber? 4 rest).map fun r => ((r.1 : Int), r.2)

/-- Drops blanks and then one given character. -/
def dropMark? (mark : Char) (s : List Char) : Option (List Char) :=
  match Text.trimStart s with
  | c :: rest => if c = mark then some rest else none
  | [] => none

/-- Reads the decimals of a second as nanoseconds, if there are any. -/
def readNano? : List Char → Option (Nat × List Char)
  | '.' :: s =>
    let digits := (s.takeWhile Char.isDigit).take 9
    if digits.isEmpty then none
    else some (Text.ofDigits digits * Nat.pow 10 (9 - digits.length), s.dropWhile Char.isDigit)
  | s => some (0, s)

/-- Reads an offset from universal time as signed minutes. -/
def readOffset? (s : List Char) : Option (Int × List Char) :=
  let signed? := fun (negative : Bool) (body : List Char) =>
    match body with
    | a :: b :: rest =>
      if a.isDigit && b.isDigit then
        match rest.dropWhile fun c => c == ':' || Text.isBlank c with
        | c :: d :: rest =>
          if c.isDigit && d.isDigit && Text.ofDigits [c, d] < 60 then
            let minutes : Int := 60 * Text.ofDigits [a, b] + Text.ofDigits [c, d]
            some (if negative then -minutes else minutes, rest)
          else none
        | _ => none
      else none
    | _ => none
  match s with
  | 'Z' :: rest => some (0, rest)
  | 'z' :: rest => some (0, rest)
  | '+' :: rest => signed? false rest
  | '-' :: rest => signed? true rest
  | '\u2212' :: rest => signed? true rest
  | a :: b :: c :: rest =>
    if [a, b, c].map Char.toUpper = ['U', 'T', 'C'] then some (0, rest) else none
  | _ => none

/-- A point in time from a local date and time and the offset of the clock in minutes. -/
def ofLocal? (year : Int) (month day hour minute second nano : Nat) (offset : Int) :
    Option Timestamp :=
  if isYear year && isDate year month day && hour ≤ 23 && minute ≤ 59 && second ≤ 60 &&
      offset.natAbs < 1440 then
    let leap := second == 60
    let secondOfDay : Int := hour * 3600 + minute * 60 + (if leap then 59 else second)
    let universal := secondOfDay - offset * 60
    let date := dayOfDate year month day + universal / 86400
    let rest := (universal % 86400).toNat
    let nano := if leap then nano + 1000000000 else nano
    if h : isInstant date rest nano then some ⟨date, rest, nano, h⟩ else none
  else none

/-- Reads a point in time from the whole of a text. -/
def parse? (text : String) : Option Timestamp := do
  let (year, s) ← readYear? text.toList
  let (month, s) ← readNumber? 2 (← dropMark? '-' s)
  let (day, s) ← readNumber? 2 (← dropMark? '-' s)
  let s ← match s with
    | c :: rest => if c = 'T' ∨ c = 't' ∨ c = ' ' then some rest else none
    | [] => none
  let (hour, s) ← readNumber? 2 s
  let (minute, s) ← readNumber? 2 (← dropMark? ':' s)
  let (second, s) ← readNumber? 2 (← dropMark? ':' s)
  let (nano, s) ← readNano? s
  let (offset, s) ← readOffset? (Text.trimStart s)
  if (Text.trimStart s).isEmpty then ofLocal? year month day hour minute second nano offset
  else none

def toJson (t : Timestamp) : Json := .str t.text

def ofJson? (j : Json) : Option Timestamp := j.str?.bind parse?

end Softphone.Timestamp
