import Softphone.Proofs.Network.Convergence

/-!
# Differences of snapshots

The steps between two snapshots are exactly what is to be done: they lead from the one to the other and back
again, every address is in the lists that its change asks for, and nothing is in them twice
(`between_exact`).
-/

namespace Softphone.SnapshotDiff

/-- Takes the removed addresses out of a table, and then puts the added entries in. -/
def apply (d : SnapshotDiff) (t : AddressTable) : AddressTable :=
  d.added.foldl (fun t e => t.insert e.1 e.2) (d.removed.foldl AddressTable.erase t)

/-- Steps lead from one table to another, and each address is in the lists that its change asks for. -/
structure Exact (d : SnapshotDiff) (old new : AddressTable) : Prop where
  reaches : d.apply old = new
  removed_ascending : d.removed.Pairwise (· < ·)
  added_ascending : (d.added.map (·.1)).Pairwise (· < ·)
  /-- An address that both have on one interface stays. -/
  stayed {a : Address} {name : String} (hold : old.get? a = some name) (hnew : new.get? a = some name) :
    a ∉ d.removed ∧ a ∉ d.added.map (·.1)
  /-- An address that goes to another interface is removed and added. -/
  moved {a : Address} {name name' : String} (hold : old.get? a = some name)
    (hnew : new.get? a = some name') (hmoved : name ≠ name') : a ∈ d.removed ∧ (a, name') ∈ d.added
  /-- An address that only the old table has is removed. -/
  vanished {a : Address} {name : String} (hold : old.get? a = some name) (hnew : new.get? a = none) :
    a ∈ d.removed ∧ a ∉ d.added.map (·.1)
  /-- An address that only the new table has is added. -/
  appeared {a : Address} {name : String} (hold : old.get? a = none) (hnew : new.get? a = some name) :
    a ∉ d.removed ∧ (a, name) ∈ d.added
  /-- Of an address that neither has nothing is said. -/
  unknown {a : Address} (hold : old.get? a = none) (hnew : new.get? a = none) :
    a ∉ d.removed ∧ a ∉ d.added.map (·.1)
  balance : old.size + d.added.length = new.size + d.removed.length

variable {old new : Snapshot} {t : AddressTable} {a : Address}

theorem mem_map_added_iff : a ∈ (between old new).added.map (·.1) ↔
    old.addresses.get? a ≠ new.addresses.get? a ∧ ∃ name, new.addresses.get? a = some name := by
  have hturned : (between old new).added.map (·.1) = (between new old).removed := rfl
  rw [hturned, mem_removed_iff, ne_comm]

/-- An address of which both snapshots say the same is in neither list. -/
theorem not_mem_of_same (hsame : old.addresses.get? a = new.addresses.get? a) :
    a ∉ (between old new).removed ∧ a ∉ (between old new).added.map (·.1) :=
  ⟨fun h => (mem_removed_iff.1 h).1 hsame, fun h => (mem_map_added_iff.1 h).1 hsame⟩

theorem get?_apply_between : ((between old new).apply t).get? a =
    (if new.addresses.get? a = old.addresses.get? a then none else new.addresses.get? a).or
      (if a ∈ (between old new).removed then none else t.get? a) := by
  have hinserted := AddressTable.get?_foldl_insert (b := a) (missingTable new.addresses old.addresses).ascending
    ((between old new).removed.foldl AddressTable.erase t)
  rw [AddressTable.get?_foldl_erase] at hinserted
  rw [← get?_missingTable]
  exact hinserted

/-- Whatever the old table is, the steps lead to the new one. -/
theorem apply_between (old new : Snapshot) : (between old new).apply old.addresses = new.addresses := by
  refine AddressTable.ext_get? fun a => ?_
  rw [get?_apply_between]
  by_cases hsame : new.addresses.get? a = old.addresses.get? a
  · rw [if_pos hsame, if_neg (not_mem_of_same hsame.symm).1, Option.none_or, hsame]
  · rw [if_neg hsame]
    cases hnew : new.addresses.get? a with
    | some name => rfl
    | none =>
      obtain ⟨name, hold⟩ := Option.ne_none_iff_exists'.1 fun hold => hsame (hnew.trans hold.symm)
      have hremoved : a ∈ (between old new).removed := mem_removed_iff.2 ⟨Ne.symm hsame, name, hold⟩
      rw [if_pos hremoved, Option.none_or]

theorem isEmpty_between_iff : (between old new).isEmpty = true ↔ old.addresses = new.addresses := by
  constructor
  · intro hempty
    obtain ⟨hadded, hremoved⟩ := (Bool.and_eq_true_iff.1 hempty).imp List.isEmpty_iff.1 List.isEmpty_iff.1
    have hreached := apply_between old new
    rw [apply, hadded, hremoved] at hreached
    exact hreached
  · intro hsame
    have hnone : ∀ a, old.addresses.get? a = new.addresses.get? a := fun a => congrArg (·.get? a) hsame
    have hremoved : (between old new).removed = [] :=
      List.eq_nil_iff_forall_not_mem.2 fun a => (not_mem_of_same (hnone a)).1
    have hadded : (between old new).added = [] :=
      List.eq_nil_iff_forall_not_mem.2 fun e he =>
        (not_mem_of_same (hnone e.1)).2 (List.mem_map_of_mem he)
    rw [isEmpty, hremoved, hadded]
    rfl

/-- **The steps between two snapshots.** They are exactly what changed, they undo those that lead the other
way, and there are none exactly if nothing changed. -/
theorem between_exact (old new : Snapshot) :
    (between old new).Exact old.addresses new.addresses ∧
      (between new old).apply ((between old new).apply old.addresses) = old.addresses ∧
      ((between old new).isEmpty = true ↔ old.addresses = new.addresses) := by
  refine ⟨{ reaches := apply_between old new
            removed_ascending := (missingTable old.addresses new.addresses).addresses_ascending
            added_ascending := (missingTable new.addresses old.addresses).addresses_ascending
            stayed := fun hold hnew => not_mem_of_same (hold.trans hnew.symm)
            moved := fun hold hnew hmoved => ?_
            vanished := fun hold hnew => ?_
            appeared := fun hold hnew => ?_
            unknown := fun hold hnew => not_mem_of_same (hold.trans hnew.symm)
            balance := ?_ }, ?_, isEmpty_between_iff⟩
  · refine ⟨mem_removed_iff.2 ⟨fun hsame => ?_, _, hold⟩, mem_added_iff.2 ⟨hnew, fun hsame => ?_⟩⟩
    · rw [hold, hnew] at hsame
      exact hmoved (Option.some.inj hsame)
    · rw [hold] at hsame
      exact hmoved (Option.some.inj hsame)
  · refine ⟨mem_removed_iff.2 ⟨?_, _, hold⟩, fun h => ?_⟩
    · rw [hold, hnew]
      exact Option.some_ne_none _
    · obtain ⟨-, name, hname⟩ := mem_map_added_iff.1 h
      cases hnew.symm.trans hname
  · refine ⟨fun h => ?_, mem_added_iff.2 ⟨hnew, ?_⟩⟩
    · obtain ⟨-, name, hname⟩ := mem_removed_iff.1 h
      cases hold.symm.trans hname
    · rw [hold]
      exact (Option.some_ne_none _).symm
  · have hbalance := length_balance old new
    omega
  · rw [apply_between]
    exact apply_between new old

end Softphone.SnapshotDiff
