import Softphone.Json
import Softphone.Text

/-!
# Points in time

A date and a time of day in coordinated universal time, to the nanosecond. A leap second is the last
second of a minute with more than a second's worth of nanoseconds.
-/

namespace Softphone

namespace Timestamp

/-- Days in the years of four hundred. -/
def daysPerEra : Int := 146097

/-- The number of a civil date, counted in days from 1 January 1970. Years are taken to begin with
March, so that the leap day is the last of a year. -/
def dayOfDate (year : Int) (month day : Nat) : Int :=
  let y := if month ≤ 2 then year - 1 else year
  let era := y / 400
  let yearOfEra := y - era * 400
  let monthFromMarch : Int := if 2 < month then month - 3 else month + 9
  let dayOfYear := (153 * monthFromMarch + 2) / 5 + day - 1
  let dayOfEra := yearOfEra * 365 + yearOfEra / 4 - yearOfEra / 100 + dayOfYear
  era * daysPerEra + dayOfEra - 719468

/-- Year, month and day of a day number. -/
def dateOfDay (n : Int) : Int × Nat × Nat :=
  let z := n + 719468
  let era := z / daysPerEra
  let dayOfEra := z - era * daysPerEra
  let yearOfEra := (dayOfEra - dayOfEra / 1460 + dayOfEra / 36524 - dayOfEra / 146096) / 365
  let dayOfYear := dayOfEra - (365 * yearOfEra + yearOfEra / 4 - yearOfEra / 100)
  let monthFromMarch := (5 * dayOfYear + 2) / 153
  let day := dayOfYear - (153 * monthFromMarch + 2) / 5 + 1
  let month := if monthFromMarch < 10 then monthFromMarch + 3 else monthFromMarch - 9
  let year := yearOfEra + era * 400
  (if month ≤ 2 then year + 1 else year, month.toNat, day.toNat)

/-- Whether a date is in the calendar. -/
def isDate (year : Int) (month day : Nat) : Bool :=
  1 ≤ month && month ≤ 12 && 1 ≤ day && dateOfDay (dayOfDate year month day) == (year, month, day)

/-- The years that can be told apart. -/
def isYear (year : Int) : Bool := -262143 ≤ year && year ≤ 262142

/-- Whether a day, a second of the day and nanoseconds make a point in time. The nanoseconds reach a
second only where a leap second can be: at the end of a minute. -/
def isInstant (day : Int) (second nano : Nat) : Bool :=
  isYear (dateOfDay day).1 && second < 86400 &&
    (nano < 1000000000 || (nano < 2000000000 && second % 60 == 59))

end Timestamp

/-- A point in time: days since 1 January 1970, seconds of the day and nanoseconds, where the
nanoseconds reach two seconds during a leap second. -/
structure Timestamp where
  day : Int
  second : Nat
  nano : Nat
  valid : Timestamp.isInstant day second nano = true
  deriving DecidableEq, Repr

namespace Timestamp

/-- The beginning of 1 January 1970. -/
def epoch : Timestamp := ⟨0, 0, 0, by decide⟩

instance : Inhabited Timestamp := ⟨epoch⟩

/-- The fraction of a second in 0, 3, 6 or 9 digits, the fewest that lose nothing. -/
def fractionText (nano : Nat) : List Char :=
  if nano = 0 then []
  else if nano % 1000000 = 0 then '.' :: Text.padded 3 (nano / 1000000)
  else if nano % 1000 = 0 then '.' :: Text.padded 6 (nano / 1000)
  else '.' :: Text.padded 9 nano

/-- A year in four digits; one that needs more, or a negative one, has a sign. -/
def yearText (year : Int) : List Char :=
  if 0 ≤ year ∧ year ≤ 9999 then Text.padded 4 year.toNat
  else (if year < 0 then '-' else '+') :: Text.padded 4 year.natAbs

/-- The written form, which ends in `Z`. -/
def text (t : Timestamp) : String :=
  let (year, month, day) := dateOfDay t.day
  let two := Text.padded 2
  let leap := decide (1000000000 ≤ t.nano)
  let seconds := t.second % 60 + if leap then 1 else 0
  let nano := if leap then t.nano - 1000000000 else t.nano
  String.ofList (yearText year ++ '-' :: two month ++ '-' :: two day ++ 'T' ::
    two (t.second / 3600) ++ ':' :: two (t.second / 60 % 60) ++ ':' :: two seconds ++
    fractionText nano ++ ['Z'])

end Timestamp

end Softphone
