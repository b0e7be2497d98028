/-!
# Double precision

Whole numbers that are not negative, as double-precision numbers: rounding keeps the leading bits, to
even on a tie, and a number that rounds to `limit` or more is infinite.
-/

namespace Softphone.Double

/-- The number of bits of a mantissa. -/
def precision : Nat := 53

/-- The first power of two that is too large. -/
def limit : Nat := 1 <<< 1024

/-- A quotient rounded to the nearest whole number, to even on a tie. -/
def divToEven (n d : Nat) : Nat :=
  let q := n / d
  let twice := 2 * (n % d)
  if d < twice ∨ (twice = d ∧ q % 2 = 1) then q + 1 else q

/-- The nearest number with as many significant bits as a mantissa has. -/
def round (n : Nat) : Nat :=
  let unit := 1 <<< (n.log2 + 1 - precision)
  divToEven n unit * unit

end Softphone.Double
