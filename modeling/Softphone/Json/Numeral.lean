import Softphone.Double
import Softphone.Text

/-!
# Decimal numerals

What a number is worth that was written in decimal with more digits than a machine word holds. Digits
are taken as long as the word holds them; of the others only the place value counts. The word and the
power of ten are each rounded to double precision, and so is their product.
-/

namespace Softphone.Json

/-- A machine word times a power of ten. -/
structure Numeral where
  word : Nat
  scale : Int
  deriving DecidableEq, Repr

namespace Numeral

/-- Appends digits to a word as long as it stays below 2 ^ 64; gives the digits that are left. -/
def appendDigits (word : Nat) : List Char → Nat × List Char
  | [] => (word, [])
  | c :: rest =>
    let longer := 10 * word + Text.ofDigits [c]
    if longer < UInt64.size then appendDigits longer rest else (word, c :: rest)

/-- The numeral of the digits before and after the point and an exponent. Each digit before the point
that is left out counts as a zero; one after the point does not count. -/
def ofDigits (whole fraction : List Char) (exponent : Int) : Numeral :=
  let (word, omitted) := appendDigits 0 whole
  let (word, ignored) := appendDigits word fraction
  ⟨word, exponent + omitted.length + ignored.length - fraction.length⟩

/-- The numeral of a whole number. -/
def ofNat (n : Nat) : Numeral := ofDigits (Nat.toDigits 10 n) [] 0

/-- The highest power of ten in double precision. -/
def highestScale : Int := 308

/-- Whether a numeral has a finite value in double precision. -/
def isFinite (n : Numeral) : Bool :=
  if n.word = 0 ∨ n.scale < 0 then true
  else if highestScale < n.scale then false
  else
    let power := Double.round (Nat.pow 10 n.scale.toNat)
    decide (Double.round (Double.round n.word * power) < Double.limit)

end Numeral

end Softphone.Json
