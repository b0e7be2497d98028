import Softphone.Address
import Softphone.Text

/-!
# Reading addresses

The strict forms only: four decimal octets without zeros in front, or up to eight hexadecimal groups
of at most four digits, of which one run may be left out and the last two may be written as octets.
Zones, brackets and blanks are refused.
-/

namespace Softphone.Address

/-- Reads one octet. -/
def readOctet? (s : List Char) : Option (Nat × List Char) :=
  let digits := s.takeWhile Char.isDigit
  let value := Text.ofDigits digits
  if digits.length = 0 ∨ 3 < digits.length then none
  else if 1 < digits.length ∧ digits.head? = some '0' then none
  else if 255 < value then none
  else some (value, s.dropWhile Char.isDigit)

/-- Reads the octets that are still missing, each after a dot. -/
def readOctets? : (count : Nat) → (acc : Nat) → List Char → Option (Nat × List Char)
  | 0, acc, s => some (acc, s)
  | count + 1, acc, '.' :: s => do
    let (octet, rest) ← readOctet? s
    readOctets? count (256 * acc + octet) rest
  | _ + 1, _, _ => none

/-- Reads four octets as one number. -/
def readDotted? (s : List Char) : Option (Nat × List Char) := do
  let (octet, rest) ← readOctet? s
  readOctets? 3 octet rest

/-- Reads one group of one to four hexadecimal digits. -/
def readGroup? (s : List Char) : Option (Nat × List Char) := do
  let isHex := fun c => (Text.hexDigit? c).isSome
  let digits := s.takeWhile isHex
  if digits.length = 0 ∨ 4 < digits.length then none
  else some (← Text.ofHex? digits, s.dropWhile isHex)

/-- What follows the separator; the first group has none in front. -/
def afterColon? (first : Bool) : List Char → Option (List Char)
  | s => if first then some s else match s with
    | ':' :: rest => some rest
    | _ => none

/-- Reads as many groups as there are, at most `room`. Where two still fit they may be written as
four octets, which end the reading; the flag tells whether they did. -/
def readGroups : (room : Nat) → (first : Bool) → List Char → List Nat × Bool × List Char
  | 0, _, s => ([], false, s)
  | room + 1, first, s =>
    match afterColon? first s with
    | none => ([], false, s)
    | some body =>
      match if room = 0 then none else readDotted? body with
      | some (n, rest) => ([n / 65536, n % 65536], true, rest)
      | none =>
        match readGroup? body with
        | none => ([], false, s)
        | some (g, rest) =>
          let more := readGroups room false rest
          (g :: more.1, more.2)

/-- The number that groups write, the highest first. -/
def ofGroups (gs : List Nat) : Nat :=
  gs.foldl (fun n g => 65536 * n + g) 0

/-- Reads an address of version 6 as a number. -/
def readColoned? (s : List Char) : Option (Nat × List Char) :=
  let (head, octets, rest) := readGroups 8 true s
  if head.length = 8 then some (ofGroups head, rest)
  else if octets then none
  else match rest with
    | ':' :: ':' :: rest =>
      let (tail, _, rest) := readGroups (7 - head.length) true rest
      let gap := List.replicate (8 - head.length - tail.length) 0
      some (ofGroups (head ++ gap ++ tail), rest)
    | _ => none

/-- Reads an address from the whole of a text. -/
def parse? (text : String) : Option Address :=
  let s := text.toList
  match readDotted? s with
  | some (n, []) => some (v4 (BitVec.ofNat 32 n))
  | _ =>
    match readColoned? s with
    | some (n, []) => some (v6 (BitVec.ofNat 128 n))
    | _ => none

end Softphone.Address
