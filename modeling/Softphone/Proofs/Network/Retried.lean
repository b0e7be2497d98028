import Softphone.Proofs.Network.Convergence
import Softphone.Proofs.Network.Held

/-!
# Addresses of a hotspot that are tried again

A pass of which nothing is refused leaves the engine with what is wanted, and with what it has that the stored
snapshot lacks (`Mobility.mem_bound_reconcile_of_accepted`). Of a hotspot only the addresses that are known
are wanted, and at the end of the delay only those become known that the engine takes
(`Mobility.mem_hotspotAddresses_addHotspot_iff`).
-/

namespace Softphone.Mobility

variable {σ : Type} [Engine σ] {m : Mobility} {w : World σ} {a : Address}

theorem since_addHotspot_cons (m : Mobility) (b : Address) (other : String) (rest : List (Address × String))
    (w : World σ) : (m.addHotspot rest (w.addAddress b other).2).2.2.since w =
      .addAddress b other (w.addAddress b other).1 ::
        (m.addHotspot rest (w.addAddress b other).2).2.2.since (w.addAddress b other).2 := by
  have hfirst : w.Grows (fun _ => True) (w.addAddress b other).2 := .step trivial
  have hrest : (w.addAddress b other).2.Grows (fun _ => True)
      (m.addHotspot rest (w.addAddress b other).2).2.2 :=
    grows_addHotspot _ _ (fun _ _ _ => trivial) rest
  rw [hfirst.since_trans hrest, World.since_eq World.trace_addAddress]
  rfl

/-- An address is known of a hotspot once all were offered exactly if it was known before or the engine took
it. -/
theorem mem_hotspotAddresses_addHotspot_iff (m : Mobility) (found : List (Address × String)) (w : World σ) :
    a ∈ (m.addHotspot found w).2.1.hotspotAddresses.addresses ↔ a ∈ m.hotspotAddresses.addresses ∨
      ∃ name, .addAddress a name true ∈ (m.addHotspot found w).2.2.since w := by
  induction found generalizing m w with
  | nil => simp [addHotspot]
  | cons e rest ih =>
    obtain ⟨b, other⟩ := e
    rw [addHotspot]
    dsimp only
    rw [ih, since_addHotspot_cons]
    cases (w.addAddress b other).1 with
    | false => simp
    | true =>
      simp only [if_true, AddressTable.mem_addresses_insert, List.mem_cons, Effect.addAddress.injEq, and_true,
        exists_or, exists_and_left, exists_eq]
      rw [or_assoc, or_left_comm]

variable [Connectivity σ]

theorem mem_wanted_iff {p : Platform} : a ∈ (m.wanted p).addresses.addresses ↔
    a ∈ (Snapshot.collect p m.settings.family).addresses.addresses ∨
      (m.hotspotOn = true ∧ m.settings.family.admits a = true) ∧ a ∈ m.hotspotAddresses.addresses := by
  rw [← not_iff_not, not_or, not_and, ← AddressTable.get?_eq_none_iff, ← AddressTable.get?_eq_none_iff,
    ← AddressTable.get?_eq_none_iff, get?_wanted, Option.or_eq_none_iff, ite_eq_right_iff]

/-! ## A pass of which nothing is refused -/

section Accepted

variable (haccepted : ∀ e ∈ m.passEffects w, e.isRefusal = false)
include haccepted

theorem get?_bound_reconcile_of_accepted : (m.reconcile w).2.2.bound.get? a =
    (if (m.wanted (m.surveyed w)).addresses.get? a = m.snapshot.addresses.get? a then none
      else (m.wanted (m.surveyed w)).addresses.get? a).or
      (if a ∈ (m.steps (m.surveyed w)).removed then none else w.bound.get? a) := by
  simp only [get?_bound_reconcile, unadded_eq_nil haccepted, unremoved_eq_nil haccepted, find?_added,
    List.not_mem_nil, if_false, not_false_eq_true, and_true]

/-- What is wanted is added, unless it is stored and the engine has had it all along. -/
theorem mem_bound_reconcile_of_wanted (hheld : m.Held w) {name : String}
    (hwanted : (m.wanted (m.surveyed w)).addresses.get? a = some name) :
    a ∈ (m.reconcile w).2.2.bound.addresses := by
  have hpassed := get?_bound_reconcile_of_accepted haccepted (a := a)
  rw [hwanted] at hpassed
  by_cases hstored : m.snapshot.addresses.get? a = some name
  · have hstays : a ∉ (m.steps (m.surveyed w)).removed := fun hgone =>
      (SnapshotDiff.mem_removed_iff.1 hgone).1 (hstored.trans hwanted.symm)
    rw [hstored, if_pos rfl, if_neg hstays, Option.none_or] at hpassed
    rw [AddressTable.mem_addresses_iff, hpassed, ← AddressTable.mem_addresses_iff]
    exact hheld a (AddressTable.mem_addresses_iff.2 ⟨name, hstored⟩)
  · rw [if_neg (Ne.symm hstored)] at hpassed
    exact AddressTable.mem_addresses_iff.2 ⟨name, hpassed⟩

/-- What is not wanted is removed if it is stored, and else it stays. -/
theorem mem_bound_reconcile_of_unwanted (hwanted : (m.wanted (m.surveyed w)).addresses.get? a = none) :
    a ∈ (m.reconcile w).2.2.bound.addresses ↔
      a ∈ w.bound.addresses ∧ a ∉ m.snapshot.addresses.addresses := by
  have hremoved : a ∈ (m.steps (m.surveyed w)).removed ↔ a ∈ m.snapshot.addresses.addresses := by
    refine SnapshotDiff.mem_removed_iff.trans ?_
    rw [AddressTable.mem_addresses_iff, and_iff_right_iff_imp]
    rintro ⟨name, hstored⟩ hsame
    rw [hwanted, hstored] at hsame
    cases hsame
  rw [AddressTable.mem_addresses_iff, get?_bound_reconcile_of_accepted haccepted, hwanted, ite_self,
    Option.none_or]
  by_cases hstored : a ∈ m.snapshot.addresses.addresses
  · simp [hremoved, hstored]
  · rw [if_neg (mt hremoved.1 hstored), ← AddressTable.mem_addresses_iff, and_iff_left hstored]

/-- After a pass of which nothing is refused the engine has what is wanted, and what it has had that the
snapshot lacks. -/
theorem mem_bound_reconcile_of_accepted (hheld : m.Held w) :
    a ∈ (m.reconcile w).2.2.bound.addresses ↔ a ∈ (m.wanted (m.surveyed w)).addresses.addresses ∨
      a ∈ w.bound.addresses ∧ a ∉ m.snapshot.addresses.addresses := by
  cases hwanted : (m.wanted (m.surveyed w)).addresses.get? a with
  | some name =>
    have hmem : a ∈ (m.wanted (m.surveyed w)).addresses.addresses :=
      AddressTable.mem_addresses_iff.2 ⟨name, hwanted⟩
    exact iff_of_true (mem_bound_reconcile_of_wanted haccepted hheld hwanted) (.inl hmem)
  | none =>
    rw [or_iff_right (AddressTable.get?_eq_none_iff.1 hwanted)]
    exact mem_bound_reconcile_of_unwanted haccepted hwanted

end Accepted

end Softphone.Mobility
