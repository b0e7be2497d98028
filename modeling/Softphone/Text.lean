/-!
# Plain text

Trimming, cutting into fields and reading unsigned decimal numbers, all over lists of characters.
The functions on `String` below wrap them.
-/

namespace Softphone.Text

/-- The characters that separate words: those with the Unicode property White_Space. -/
def isBlank (c : Char) : Bool :=
  let n := c.toNat
  (0x9 ≤ n && n ≤ 0xD) || n == 0x20 || n == 0x85 || n == 0xA0 || n == 0x1680 ||
    (0x2000 ≤ n && n ≤ 0x200A) || n == 0x2028 || n == 0x2029 || n == 0x202F ||
    n == 0x205F || n == 0x3000

/-- Drops the blanks in front. -/
def trimStart (s : List Char) : List Char :=
  s.dropWhile isBlank

/-- Drops the blanks at both ends. -/
def trimChars (s : List Char) : List Char :=
  ((trimStart s).reverse.dropWhile isBlank).reverse

/-- A text without the blanks at its two ends. -/
def trim (s : String) : String :=
  String.ofList (trimChars s.toList)

/-- Whether a text has blanks only. -/
def isBlankText (s : String) : Bool :=
  s.toList.all isBlank

/-- The fields between separators. There is one more field than there are separators. -/
def splitOn (sep : Char) : List Char → List (List Char)
  | [] => [[]]
  | c :: rest =>
    if c = sep then [] :: splitOn sep rest
    else match splitOn sep rest with
      | [] => [[c]]
      | field :: more => (c :: field) :: more

/-- Whether `part` stands somewhere in a text. -/
def occursIn (part : List Char) : List Char → Bool
  | [] => part.isEmpty
  | c :: rest => part.isPrefixOf (c :: rest) || occursIn part rest

/-- A text from the place on where `part` first stands. -/
def suffixFrom? (part : List Char) : List Char → Option (List Char)
  | [] => if part.isEmpty then some [] else none
  | c :: rest => if part.isPrefixOf (c :: rest) then some (c :: rest) else suffixFrom? part rest

/-- The lines of a text that a line feed follows. A carriage return at the end of a line is no part
of it. -/
def lines (s : List Char) : List (List Char) :=
  (splitOn '\n' s).map fun line => if line.getLast? = some '\r' then line.dropLast else line

/-- The number that decimal digits write. -/
def ofDigits (s : List Char) : Nat :=
  s.foldl (fun n c => 10 * n + (c.toNat - '0'.toNat)) 0

/-- Reads one or more decimal digits and nothing else. -/
def readDigits? (s : List Char) : Option Nat :=
  if s.isEmpty || !s.all Char.isDigit then none else some (ofDigits s)

/-- Reads a number below `bound`: decimal digits, perhaps after one plus sign. -/
def readUnsigned? (bound : Nat) (s : List Char) : Option Nat :=
  let digits := match s with
    | '+' :: rest => rest
    | _ => s
  (readDigits? digits).filter (· < bound)

/-- The value of a hexadecimal digit of either case. -/
def hexDigit? (c : Char) : Option Nat :=
  if '0' ≤ c ∧ c ≤ '9' then some (c.toNat - '0'.toNat)
  else if 'a' ≤ c ∧ c ≤ 'f' then some (c.toNat - 'a'.toNat + 10)
  else if 'A' ≤ c ∧ c ≤ 'F' then some (c.toNat - 'A'.toNat + 10)
  else none

/-- The number that hexadecimal digits write, or nothing when one of them is no digit. -/
def ofHex? (s : List Char) : Option Nat :=
  s.foldlM (fun n c => (hexDigit? c).map (16 * n + ·)) 0

/-- A number in lower-case hexadecimal digits, without zeros in front. -/
def toHex (n : Nat) : List Char :=
  Nat.toDigits 16 n

/-- A number in hexadecimal digits, filled up with zeros in front to `width` digits. -/
def hexDigits (width n : Nat) : List Char :=
  let digits := toHex n
  List.replicate (width - digits.length) '0' ++ digits

/-- A number in decimal digits, filled up with zeros in front to `width` digits. -/
def padded (width n : Nat) : List Char :=
  let digits := Nat.toDigits 10 n
  List.replicate (width - digits.length) '0' ++ digits

end Softphone.Text
