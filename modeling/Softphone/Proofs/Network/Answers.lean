import Softphone.Proofs.Network.Bound
import Softphone.Proofs.Network.Convergence

/-!
# Passes that are refused some of their calls

A pass asks the engine once for every step from the stored addresses to the wanted ones, whatever it is
refused on the way. What it stores and what it counts follows from the answers alone
(`Mobility.reconcile_answered`).
-/

namespace Softphone

/-- What a pass asks of the engine about addresses and transport, with the answers. -/
structure PassCalls where
  removals : List (Address × Bool)
  additions : List ((Address × String) × Bool)
  reset : Option Bool

namespace PassCalls

variable {α : Type} {key : α → Address} {refusals : List Address} {xs : List α}

/-- Of some calls those that the engine accepted. -/
def accepted (calls : List (α × Bool)) : List α := (calls.filter (·.2)).map (·.1)

/-- Of some calls those that the engine refused. -/
def refused (calls : List (α × Bool)) : List α := (calls.filter (!·.2)).map (·.1)

def removed (calls : PassCalls) : List Address := accepted calls.removals

def notRemoved (calls : PassCalls) : List Address := refused calls.removals

def added (calls : PassCalls) : List (Address × String) := accepted calls.additions

def notAdded (calls : PassCalls) : List (Address × String) := refused calls.additions

/-- The calls in the order in which they are made: removals, additions, the reset of the transport. -/
def effects (calls : PassCalls) : List Effect :=
  (calls.removals.map fun x => .removeAddress x.1 x.2) ++
    (calls.additions.map fun x => .addAddress x.1.1 x.1.2 x.2) ++
    calls.reset.toList.map (.resetTransport true true)

/-! ## Answers -/

/-- Some calls with their answers: all are accepted but those on an address of `refusals`. -/
def answered (key : α → Address) (xs : List α) (refusals : List Address) : List (α × Bool) :=
  xs.map fun x => (x, key x ∉ refusals)

@[simp] theorem map_answered : (answered key xs refusals).map (·.1) = xs := by
  simp [answered, Function.comp_def]

theorem accepted_answered :
    accepted (answered key xs refusals) = xs.filter (key · ∉ refusals) := by
  simp [accepted, answered, List.filter_map, Function.comp_def]

theorem refused_answered :
    refused (answered key xs refusals) = xs.filter (key · ∈ refusals) := by
  simp [refused, answered, List.filter_map, Function.comp_def]

/-- The addresses that were refused, each of them once, are as many as the calls that were refused. -/
theorem length_refused_answered (hnodup : (xs.map key).Nodup)
    (hsublist : refusals.Sublist (xs.map key)) :
    (refused (answered key xs refusals)).length = refusals.length := by
  have hmap : ((refused (answered key xs refusals)).map key).Perm refusals := by
    rw [refused_answered]
    refine (List.perm_ext_iff_of_nodup ?_ (hnodup.sublist hsublist)).2 fun a => ?_
    · exact hnodup.sublist (List.filter_sublist.map key)
    · simp only [List.mem_map, List.mem_filter, decide_eq_true_eq]
      constructor
      · rintro ⟨x, ⟨-, hrefused⟩, rfl⟩
        exact hrefused
      · intro hrefused
        obtain ⟨x, hx, rfl⟩ := List.mem_map.1 (hsublist.subset hrefused)
        exact ⟨x, ⟨hx, hrefused⟩, rfl⟩
  rw [← hmap.length_eq, List.length_map]

theorem length_accepted_answered (hnodup : (xs.map key).Nodup)
    (hsublist : refusals.Sublist (xs.map key)) :
    (accepted (answered key xs refusals)).length = xs.length - refusals.length := by
  have hrefused := length_refused_answered hnodup hsublist
  have hall := List.length_eq_length_filter_add (l := xs) (key · ∈ refusals)
  rw [refused_answered] at hrefused
  rw [accepted_answered, hall, hrefused, Nat.add_sub_cancel_left]
  simp only [decide_not]

end PassCalls

namespace Mobility

variable {σ : Type} [Engine σ] [Connectivity σ]

/-- A pass made these calls, and came to what their answers say. -/
structure Answered (m : Mobility) (w : World σ) (calls : PassCalls) : Prop where
  /-- What is wanted are the addresses of the platform, and those of the hotspot that the platform lacks. -/
  wanted : ∀ a, (m.wanted (m.surveyed w)).addresses.get? a =
    ((Snapshot.collect (m.surveyed w) m.settings.family).addresses.get? a).or
      (if m.hotspotOn ∧ m.settings.family.admits a then m.hotspotAddresses.get? a else none)
  /-- Each stored address that is not wanted, or is wanted on another interface, is removed once. -/
  removals : (calls.removals.map (·.1)).Pairwise (· < ·) ∧
    ∀ a, a ∈ calls.removals.map (·.1) ↔ ∃ name, m.snapshot.addresses.get? a = some name ∧
      (m.wanted (m.surveyed w)).addresses.get? a ≠ some name
  /-- Each wanted address that is not stored, or is stored with another interface, is added once. -/
  additions : (calls.additions.map (·.1.1)).Pairwise (· < ·) ∧
    ∀ a name, (a, name) ∈ calls.additions.map (·.1) ↔
      (m.wanted (m.surveyed w)).addresses.get? a = some name ∧ m.snapshot.addresses.get? a ≠ some name
  /-- The transport is reset if the engine accepted a change, another network is active, or the addresses were
  changed outside a pass. -/
  reset : calls.reset.isSome ↔ calls.added ≠ [] ∨ calls.removed ≠ [] ∨
    (m.surveyed w).active ≠ m.snapshot.active ∨ m.dirty = true
  /-- But for the name servers before them and the lock after them the calls are all that is done. -/
  effects : (m.reconcile w).2.2.since w = m.resolverEffects w.platform w ++ calls.effects ++
    m.lockEffects (m.wifiInUse w)
  stored : ∀ a, (m.reconcile w).2.1.snapshot.addresses.get? a =
    if m.snapshot.addresses.get? a = (m.wanted (m.surveyed w)).addresses.get? a ∨
        a ∈ calls.added.map (·.1) then
      (m.wanted (m.surveyed w)).addresses.get? a
    else if a ∈ calls.notRemoved then m.snapshot.addresses.get? a
    else none
  outcome : (m.reconcile w).1 =
    { added := calls.added.length
      removed := calls.removed.length
      failures := calls.notRemoved.length + calls.notAdded.length
      transportReset := calls.reset.isSome
      dnsChanged := (m.updateResolvers w.platform w).1 }
  /-- All else that a pass changes of what is known. -/
  mobility : (m.reconcile w).2.1 =
    { m with
      resolvers := (m.updateResolvers w.platform w).2.1.resolvers
      snapshot := ⟨(m.reconcile w).2.1.snapshot.addresses, (m.surveyed w).active⟩
      lockHeld := m.wifiInUse w
      dirty := false
      stats := { m.stats with
        passes := m.stats.passes + 1
        addressFailures :=
          m.stats.addressFailures + (calls.notRemoved.length + calls.notAdded.length)
        transportResets := m.stats.transportResets + if calls.reset.isSome then 1 else 0 } }

variable (m : Mobility) (w : World σ)

/-- The calls of a pass. -/
def passCalls : PassCalls where
  removals := PassCalls.answered id (m.steps (m.surveyed w)).removed (m.unremoved w)
  additions := PassCalls.answered (·.1) (m.steps (m.surveyed w)).added (m.unadded w)
  reset :=
    if m.resets w then some (Engine.resetTransport true true (m.additions w).2.host).1 else none

theorem map_removals_passCalls :
    (m.passCalls w).removals.map (·.1) = (m.steps (m.surveyed w)).removed :=
  PassCalls.map_answered

theorem map_additions_passCalls :
    (m.passCalls w).additions.map (·.1) = (m.steps (m.surveyed w)).added :=
  PassCalls.map_answered

theorem isSome_reset_passCalls : (m.passCalls w).reset.isSome = m.resets w := by
  rw [passCalls]
  cases m.resets w <;> rfl

theorem length_passCalls : (m.passCalls w).removed.length = m.removedCount w ∧
    (m.passCalls w).notRemoved.length = (m.unremoved w).length ∧
    (m.passCalls w).added.length = m.addedCount w ∧
    (m.passCalls w).notAdded.length = (m.unadded w).length := by
  have hremoved : ((m.steps (m.surveyed w)).removed.map id).Nodup := by
    rw [List.map_id]
    exact nodup_removed m (m.surveyed w)
  have hunremoved : (m.unremoved w).Sublist ((m.steps (m.surveyed w)).removed.map id) := by
    rw [List.map_id]
    exact removeAll_sublist _ _
  have hadded := nodup_added m (m.surveyed w)
  have hunadded : (m.unadded w).Sublist ((m.steps (m.surveyed w)).added.map (·.1)) :=
    addAll_sublist _ _
  exact ⟨PassCalls.length_accepted_answered hremoved hunremoved,
    PassCalls.length_refused_answered hremoved hunremoved,
    PassCalls.length_accepted_answered hadded hunadded,
    PassCalls.length_refused_answered hadded hunadded⟩

theorem effects_passCalls : (m.passCalls w).effects =
    removalEffects (m.steps (m.surveyed w)).removed (m.unremoved w) ++
      additionEffects (m.steps (m.surveyed w)).added (m.unadded w) ++ m.resetEffects w := by
  have hreset : (m.passCalls w).reset.toList.map (.resetTransport true true) = m.resetEffects w := by
    rw [passCalls, resetEffects]
    cases m.resets w <;> rfl
  rw [PassCalls.effects, hreset]
  simp only [passCalls, PassCalls.answered, List.map_map]
  rfl

variable {m w} {a : Address}

theorem mem_notRemoved_passCalls : a ∈ (m.passCalls w).notRemoved ↔ a ∈ m.unremoved w := by
  have hsublist : (m.unremoved w).Sublist (m.steps (m.surveyed w)).removed := removeAll_sublist _ _
  rw [PassCalls.notRemoved, passCalls]
  dsimp only
  rw [PassCalls.refused_answered]
  simpa using fun hrefused => hsublist.subset hrefused

theorem mem_added_passCalls : a ∈ (m.passCalls w).added.map (·.1) ↔
    (∃ name, (m.wanted (m.surveyed w)).addresses.get? a = some name ∧
      m.snapshot.addresses.get? a ≠ some name) ∧ a ∉ m.unadded w := by
  rw [PassCalls.added, passCalls]
  dsimp only
  rw [PassCalls.accepted_answered]
  simp only [List.mem_map, List.mem_filter, decide_eq_true_eq]
  constructor
  · rintro ⟨⟨b, name⟩, ⟨hadded, htaken⟩, rfl⟩
    exact ⟨⟨name, SnapshotDiff.mem_added_iff.1 hadded⟩, htaken⟩
  · rintro ⟨⟨name, hadded⟩, htaken⟩
    exact ⟨(a, name), ⟨SnapshotDiff.mem_added_iff.2 hadded, htaken⟩, rfl⟩

/-- What is stored of an address after a pass: what was wanted, if it was stored already or the engine took it,
and else what was stored before, if the engine would not let go of it. -/
theorem get?_stored_passCalls : (m.reconcile w).2.1.snapshot.addresses.get? a =
    if m.snapshot.addresses.get? a = (m.wanted (m.surveyed w)).addresses.get? a ∨
        a ∈ (m.passCalls w).added.map (·.1) then
      (m.wanted (m.surveyed w)).addresses.get? a
    else if a ∈ (m.passCalls w).notRemoved then m.snapshot.addresses.get? a
    else none := by
  rw [reconcile_mobility, reachedAddresses, get?_reached]
  simp only [mem_added_passCalls, mem_notRemoved_passCalls]
  by_cases hsame : m.snapshot.addresses.get? a = (m.wanted (m.surveyed w)).addresses.get? a
  · -- An address that stays as it is is in no call.
    have htaken : a ∉ m.unadded w := by
      intro hrefused
      obtain ⟨name, hname⟩ := mem_added_of_mem_unadded hrefused
      obtain ⟨hwanted, hstored⟩ := SnapshotDiff.mem_added_iff.1 hname
      exact hstored (hsame.trans hwanted)
    have hgone : a ∉ m.unremoved w := fun hrefused =>
      (SnapshotDiff.mem_removed_iff.1 (mem_removed_of_mem_unremoved hrefused)).1 hsame
    rw [if_neg htaken, if_neg hgone, if_pos (.inl hsame), Option.or_none]
  · cases hwanted : (m.wanted (m.surveyed w)).addresses.get? a with
    | none => simp [hwanted ▸ hsame]
    | some name =>
      rw [hwanted] at hsame
      by_cases hrefused : a ∈ m.unadded w <;> simp [hsame, hrefused]

/-- **A pass that is refused some of its calls.** Whatever is stored, whatever the platform tells and whichever
calls the engine refuses, a pass makes each call once and in order, and what it stores and counts is what the
answers say. -/
theorem reconcile_answered (m : Mobility) (w : World σ) : ∃ calls, m.Answered w calls := by
  obtain ⟨hremoved, hnotRemoved, hadded, hnotAdded⟩ := m.length_passCalls w
  have hmissing : ∀ source target : AddressTable,
      (SnapshotDiff.missingTable source target).addresses.Pairwise (· < ·) := fun source target =>
    List.pairwise_map.2 (SnapshotDiff.missingTable source target).ascending
  refine ⟨m.passCalls w, fun a => get?_wanted, ⟨?_, fun a => ?_⟩, ⟨?_, fun a name => ?_⟩, ?_, ?_,
    fun a => get?_stored_passCalls, ?_, ?_⟩
  · rw [map_removals_passCalls]
    exact hmissing _ _
  · rw [map_removals_passCalls, steps, SnapshotDiff.mem_removed_iff]
    constructor
    · rintro ⟨hdiffers, name, hname⟩
      exact ⟨name, hname, fun hwanted => hdiffers (hname.trans hwanted.symm)⟩
    · rintro ⟨name, hname, hdiffers⟩
      exact ⟨fun hsame => hdiffers (hsame.symm.trans hname), name, hname⟩
  · have hkeys := congrArg (List.map (·.1)) (map_additions_passCalls m w)
    rw [List.map_map] at hkeys
    exact hkeys ▸ hmissing _ _
  · rw [map_additions_passCalls]
    exact SnapshotDiff.mem_added_iff
  · rw [isSome_reset_passCalls, resets, ← hremoved, ← hadded]
    simp only [Bool.or_eq_true, decide_eq_true_eq, List.length_pos_iff, or_assoc]
  · refine World.since_eq ?_
    rw [reconcile_trace, passEffects, effects_passCalls]
    simp only [List.append_assoc]
  · rw [reconcile_outcome, hremoved, hnotRemoved, hadded, hnotAdded, isSome_reset_passCalls]
  · rw [hnotRemoved, hnotAdded, isSome_reset_passCalls, reconcile_mobility]

end Mobility

end Softphone
