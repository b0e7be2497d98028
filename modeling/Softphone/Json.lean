/-!
# JSON values

A value as it was written. Two kinds of literal are kept apart because they have no plain meaning
here: numbers that are not written as integers, and strings that escape half of a surrogate pair.
-/

namespace Softphone

/-- A JSON value. A member of an object whose name escapes half of a surrogate pair has no name. -/
inductive Json
  | null
  | bool (value : Bool)
  | int (value : Int)
  /-- A number written with a fraction or an exponent, or as minus zero: its digits before and after
  the point, and its exponent. -/
  | real (whole fraction : List Char) (exponent : Int)
  | str (value : String)
  /-- A string with half of a surrogate pair. -/
  | brokenStr
  | arr (items : List Json)
  | obj (members : List (Option String × Json))

namespace Json

instance : Inhabited Json := ⟨null⟩

/-- An object from its members in order. -/
def record (members : List (String × Json)) : Json :=
  obj (members.map fun m => (some m.1, m.2))

/-- A number that is not negative. -/
def nat (n : Nat) : Json := int n

/-- A value that may be missing. -/
def opt {α : Type} (encode : α → Json) : Option α → Json
  | none => null
  | some a => encode a

/-- The values of a list in order. -/
def list {α : Type} (encode : α → Json) (items : List α) : Json :=
  arr (items.map encode)

end Json

end Softphone
