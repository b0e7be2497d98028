import Softphone.Address
import Softphone.Text

/-!
# Writing addresses

Version 4 is four decimal octets. Version 6 is eight hexadecimal groups, of which the first longest
run of two or more zero groups is left out; only an address that embeds one of version 4 after
`::ffff:` ends in octets.
-/

namespace Softphone.Address

/-- Four octets with dots between them. -/
def dotted (n : Nat) : String :=
  ".".intercalate ([24, 16, 8, 0].map fun shift => toString ((n >>> shift) % 256))

/-- The eight groups of sixteen bits, the highest first. -/
def groups (n : Nat) : List Nat :=
  [112, 96, 80, 64, 48, 32, 16, 0].map fun shift => (n >>> shift) % 65536

/-- Start and length of the first longest run of zeros. -/
def zeroRun : List Nat → Nat × Nat
  | [] => (0, 0)
  | g :: rest =>
    let here := ((g :: rest).takeWhile (· == 0)).length
    let later := zeroRun rest
    if later.2 ≤ here then (0, here) else (later.1 + 1, later.2)

/-- Groups with colons between them. -/
def colons (gs : List Nat) : String :=
  ":".intercalate (gs.map fun g => String.ofList (Text.toHex g))

/-- The text of the address of version 6 with the number `n`. -/
def coloned (n : Nat) : String :=
  if n / UInt32.size = 0xFFFF then "::ffff:" ++ dotted (n % UInt32.size)
  else
    let gs := groups n
    let run := zeroRun gs
    if run.2 ≤ 1 then colons gs
    else colons (gs.take run.1) ++ "::" ++ colons (gs.drop (run.1 + run.2))

/-- The written form of an address. -/
def text : Address → String
  | v4 bits => dotted bits.toNat
  | v6 bits => coloned bits.toNat

instance : ToString Address := ⟨text⟩

end Softphone.Address

namespace Softphone.Endpoint

/-- The address and the port; an address of version 6 stands in square brackets. -/
def text (e : Endpoint) : String :=
  let host := if e.address.isV4 then e.address.text else "[" ++ e.address.text ++ "]"
  host ++ ":" ++ toString e.port

end Softphone.Endpoint
