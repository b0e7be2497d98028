import Softphone.Json
import Softphone.Json.Numeral

/-!
# Values held before their type is known

A value that comes before what says its type has to be held as it is. It can be held when its strings
have a meaning, its numbers are finite, and its containers do not nest too deep.
-/

namespace Softphone.Json

/-- How deep the containers of a value may nest that is held as it is. -/
def deepest : Nat := 127

mutual

/-- Whether a value can be held as it is, with containers that nest at most `depth` deep. -/
def isHoldable (depth : Nat) : Json → Bool
  | null => true
  | bool _ => true
  | int n => (Numeral.ofNat n.natAbs).isFinite
  | real whole fraction exponent => (Numeral.ofDigits whole fraction exponent).isFinite
  | str _ => true
  | brokenStr => false
  | arr items => decide (0 < depth) && itemsHoldable (depth - 1) items
  | obj members => decide (0 < depth) && membersHoldable (depth - 1) members

/-- Whether every item is holdable. -/
def itemsHoldable (depth : Nat) : List Json → Bool
  | [] => true
  | item :: rest => isHoldable depth item && itemsHoldable depth rest

/-- Whether every member has a name and a holdable value. -/
def membersHoldable (depth : Nat) : List (Option String × Json) → Bool
  | [] => true
  | (name, value) :: rest =>
    name.isSome && isHoldable depth value && membersHoldable depth rest

end

end Softphone.Json
