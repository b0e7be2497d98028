import Softphone.Json.Decode

/-!
# Records, lists and choices

What was written as a record, a list, a number or a name decodes to what it was, if its parts do.
-/

namespace Softphone.Json

variable {α : Type} {encode : α → Json} {decode : Json → Option α} {members : List (String × Json)}
  {known : List String}

/-! ## Plain types -/

@[simp] theorem natBelow?_nat {bound n : Nat} (h : n < bound) : natBelow? bound (nat n) = some n := by
  simp [natBelow?, nat, h]

@[simp] theorem uint8?_nat (n : UInt8) : uint8? (nat n.toNat) = some n := by
  simp [uint8?, natBelow?_nat n.toNat_lt]

@[simp] theorem uint32?_nat (n : UInt32) : uint32? (nat n.toNat) = some n := by
  simp [uint32?, natBelow?_nat n.toNat_lt]

@[simp] theorem uint64?_nat (n : UInt64) : uint64? (nat n.toNat) = some n := by
  simp [uint64?, natBelow?_nat n.toNat_lt]

/-! ## Lists and missing values -/

theorem list?_list (h : ∀ a, decode (encode a) = some a) (items : List α) :
    list? decode (list encode items) = some items := by
  rw [list, list?]
  induction items with
  | nil => rfl
  | cons item items ih => simp [h, ih]

theorem opt?_opt (h : ∀ a, decode (encode a) = some a) (hnull : ∀ a, encode a ≠ null) (value : Option α) :
    opt? decode (opt encode value) = some value := by
  cases value with
  | none => rfl
  | some a =>
    rw [opt, opt?]
    · rw [h]
      rfl
    · exact hnull a

/-! ## Records -/

/-- The members of a record are known, if they are the known ones at most, each once. -/
theorem knownMembers?_record (known : List String) (members : List (String × Json))
    (hknown : ∀ m ∈ members, m.1 ∈ known) (hnodup : (members.map Prod.fst).Nodup) :
    knownMembers? known (members.map fun m => (some m.1, m.2)) = some members := by
  induction members with
  | nil => rfl
  | cons m members ih =>
    rw [List.forall_mem_cons] at hknown
    rw [List.map_cons, List.nodup_cons] at hnodup
    have hfresh : members.lookup m.1 = none := by
      rw [List.lookup_eq_none_iff]
      intro other hother
      have hne : m.1 ≠ other.1 := fun heq => hnodup.1 (heq ▸ List.mem_map_of_mem hother)
      simpa using hne
    simp [knownMembers?, ih hknown.2 hnodup.2, hknown.1, hfresh]

theorem record?_record (hknown : ∀ m ∈ members, m.1 ∈ known) (hnodup : (members.map Prod.fst).Nodup) :
    (record members).record? known = some ⟨true, members⟩ := by
  rw [record, record?, knownMembers?_record known members hknown hnodup]
  rfl

end Softphone.Json
