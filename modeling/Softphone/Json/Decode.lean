import Softphone.Json

/-!
# Decoding JSON values

How the types of this library are read from values. A record is an object, of which unknown members
are passed over, or an array with the values of its fields in order. A choice is the name of one of
its cases, or an object with that name as its only member.
-/

namespace Softphone.Json

def bool? : Json → Option Bool
  | bool b => some b
  | _ => none

def str? : Json → Option String
  | str s => some s
  | _ => none

/-- An integer from zero up to, but not including, `bound`. -/
def natBelow? (bound : Nat) : Json → Option Nat
  | int n => if 0 ≤ n ∧ n < bound then some n.toNat else none
  | _ => none

def uint8? (j : Json) : Option UInt8 := (natBelow? UInt8.size j).map UInt8.ofNat

def uint32? (j : Json) : Option UInt32 := (natBelow? UInt32.size j).map UInt32.ofNat

def uint64? (j : Json) : Option UInt64 := (natBelow? UInt64.size j).map UInt64.ofNat

/-- A list of values that all decode. -/
def list? {α : Type} (decode : Json → Option α) : Json → Option (List α)
  | arr items => items.mapM decode
  | _ => none

/-- A value, or nothing for null. -/
def opt? {α : Type} (decode : Json → Option α) : Json → Option (Option α)
  | null => some none
  | j => (decode j).map some

/-- The case of a choice: its name and, when it is written as an object, what goes with it. -/
def case? : Json → Option (String × Option Json)
  | str name => some (name, none)
  | obj [(some name, value)] => some (name, some value)
  | _ => none

/-- One of several names. -/
def choice? {α : Type} (names : List (String × α)) (j : Json) : Option α :=
  match case? j with
  | some (name, none) => names.lookup name
  | some (name, some null) => names.lookup name
  | _ => none

/-- The fields of a record that were written, and whether they were written by name. -/
structure Record where
  named : Bool
  fields : List (String × Json)

/-- The members of an object that a record knows, or nothing when a member has no name or a known
one is repeated. -/
def knownMembers? (known : List String) :
    List (Option String × Json) → Option (List (String × Json))
  | [] => some []
  | (none, _) :: _ => none
  | (some name, value) :: rest =>
    match knownMembers? known rest with
    | none => none
    | some fields =>
      if !known.contains name then some fields
      else if (fields.lookup name).isSome then none
      else some ((name, value) :: fields)

/-- Reads a record with the given fields. An array has at most as many items as there are fields. -/
def record? (known : List String) : Json → Option Record
  | obj members => (knownMembers? known members).map fun fields => ⟨true, fields⟩
  | arr items => if items.length ≤ known.length then some ⟨false, known.zip items⟩ else none
  | _ => none

namespace Record

variable {α : Type}

/-- A field that must be written. -/
def required (r : Record) (name : String) (decode : Json → Option α) : Option α :=
  (r.fields.lookup name).bind decode

/-- A field that may be null, and may be left out where fields are named. -/
def optional (r : Record) (name : String) (decode : Json → Option α) : Option (Option α) :=
  match r.fields.lookup name with
  | some j => opt? decode j
  | none => if r.named then some none else none

/-- A field with a value for when it is left out. -/
def withDefault (r : Record) (name : String) (value : α) (decode : Json → Option α) : Option α :=
  match r.fields.lookup name with
  | some j => decode j
  | none => some value

end Record

end Softphone.Json
