import Softphone.Double

/-!
# Call volume

A call volume is given in tenths of the maximum of a stream. The tenth is the double-precision number
next to it, and both products round to double precision; the volume is the nearest whole number, and a
half goes up.
-/

namespace Softphone.Volume

/-- The mantissa of the double-precision number next to a tenth. -/
def tenthMantissa : Nat := 3602879701896397

/-- By how many bits that mantissa is shifted. -/
def tenthShift : Nat := 55

/-- The volume for a step of the call volume on a stream with the given maximum. -/
def scaled (step : UInt8) (max : Nat) : Nat :=
  let product := Double.round (Double.round (step.toNat * tenthMantissa) * max)
  min ((product + (1 <<< (tenthShift - 1))) >>> tenthShift) (UInt32.size - 1)

end Softphone.Volume
