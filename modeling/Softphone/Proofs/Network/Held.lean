import Softphone.Proofs.Network.Bound
import Softphone.Proofs.Network.Effects
import Softphone.Proofs.Network.Hotspot

/-!
# Addresses that are removed

The engine should be asked to let go only of addresses that it has (`World.RemovesHeld`). It has every address
of the stored snapshot, whatever it refuses (`Mobility.Held`), and so a pass asks for nothing else
(`Mobility.removesHeld_reconcile`). When the hotspot goes down all its known addresses are removed, and the
engine may have only some of them (`Mobility.removesHeld_removeAll`).
-/

namespace Softphone

variable {σ : Type}

namespace Effect

theorem isChange_of_not_transport {e : Effect} (h : e.isTransport = false) : e.isChange = false := by
  cases e <;> first | rfl | cases h

theorem isRemoval_of_not_change {e : Effect} (h : e.isChange = false) : e.isRemoval = false :=
  (Bool.or_eq_false_iff.1 h).2

end Effect

namespace World

variable {w w' : World σ} {es : List Effect} {a b : Address}

/-- Whenever the engine was asked to let go of an address, it had it. -/
def RemovesHeld (w : World σ) : Prop :=
  EachAfter (fun before e => ∀ a accepted, e = .removeAddress a accepted →
    a ∈ (before.foldl AddressTable.after .empty).addresses) w.trace

theorem removesHeld_of_trace (h : w'.trace = w.trace ++ es) (hes : ∀ e ∈ es, e.isRemoval = false) :
    w'.RemovesHeld ↔ w.RemovesHeld := by
  rw [RemovesHeld, h]
  apply eachAfter_append_iff
  rintro more e he a accepted rfl
  cases hes _ he

theorem removesHeld_of_grows (h : w.Grows (·.isRemoval = false) w') :
    w'.RemovesHeld ↔ w.RemovesHeld := by
  obtain ⟨es, htrace, hes⟩ := h.exists_trace
  exact removesHeld_of_trace htrace hes

theorem bound_of_grows (h : w.Grows (·.isChange = false) w') : w'.bound = w.bound := by
  obtain ⟨es, htrace, hes⟩ := h.exists_trace
  exact bound_of_not_change htrace hes

section Engine

variable [Engine σ]

theorem removesHeld_removeAddress :
    (w.removeAddress a).2.RemovesHeld ↔ w.RemovesHeld ∧ a ∈ w.bound.addresses := by
  rw [RemovesHeld, trace_removeAddress, eachAfter_concat_iff]
  refine and_congr_right fun _ => ⟨fun h => h a _ rfl, ?_⟩
  rintro hbound b accepted heq
  obtain ⟨rfl, -⟩ := Effect.removeAddress.inj heq
  exact hbound

/-- To let go of one address leaves the others. -/
theorem mem_bound_removeAddress_of_ne (hne : b ≠ a) :
    b ∈ (w.removeAddress a).2.bound.addresses ↔ b ∈ w.bound.addresses := by
  rw [bound_eq trace_removeAddress]
  cases (w.removeAddress a).1 with
  | true =>
    simp only [AddressTable.mem_addresses_iff, List.foldl_cons, List.foldl_nil, AddressTable.after,
      AddressTable.get?_erase, if_neg hne]
  | false => rfl

end Engine

end World

namespace Mobility

variable {m : Mobility} {w : World σ} {a : Address}

/-- The engine has every address of the stored snapshot. -/
def Held (m : Mobility) (w : World σ) : Prop :=
  ∀ a ∈ m.snapshot.addresses.addresses, a ∈ w.bound.addresses

section Hotspots

variable [Engine σ]

/-- Addresses are removed one after another, and the engine has each of them if it had all of them before the
first. -/
theorem removesHeld_removeAll {as : List Address} (h : as.Nodup) :
    (removeAll as w).2.RemovesHeld ↔ w.RemovesHeld ∧ ∀ a ∈ as, a ∈ w.bound.addresses := by
  induction as generalizing w with
  | nil => exact (and_iff_left (List.forall_mem_nil _)).symm
  | cons a as ih =>
    obtain ⟨ha, has⟩ := List.nodup_cons.1 h
    have hothers : (∀ b ∈ as, b ∈ (w.removeAddress a).2.bound.addresses) ↔
        ∀ b ∈ as, b ∈ w.bound.addresses := by
      refine forall₂_congr fun b hb => World.mem_bound_removeAddress_of_ne ?_
      rintro rfl
      exact ha hb
    rw [removeAll]
    dsimp only
    rw [ih has, World.removesHeld_removeAddress, hothers, List.forall_mem_cons, and_assoc]

/-- After a report only what the engine has was removed, unless the hotspot went down with it and the engine
is without one of the known addresses. -/
theorem removesHeld_onHotspotChanged_iff {enabled : Bool} {t : Timers} :
    (m.onHotspotChanged enabled t w).2.2.RemovesHeld ↔ w.RemovesHeld ∧
      ¬ (enabled = false ∧ m.hotspotOn = true ∧
        ∃ a ∈ m.hotspotAddresses.addresses, a ∉ w.bound.addresses) := by
  rcases m.onHotspotChanged_cases enabled t w with
    ⟨hsame, heq⟩ | ⟨rfl, -, heq⟩ | ⟨rfl, hon, _, _, _, heq⟩
  · rw [heq, hsame]
    refine (and_iff_left ?_).symm
    rintro ⟨rfl, hon, -⟩
    cases hon
  · rw [heq]
    exact (and_iff_left fun hunheld => by cases hunheld.1).symm
  · rw [heq, removesHeld_removeAll (AddressTable.nodup_addresses _), hon]
    simp

theorem Held.onHotspotChanged (h : m.Held w) (enabled : Bool) (t : Timers) :
    (m.onHotspotChanged enabled t w).1.Held (m.onHotspotChanged enabled t w).2.2 := by
  rcases m.onHotspotChanged_cases enabled t w with
    ⟨-, heq⟩ | ⟨-, -, heq⟩ | ⟨-, -, _, _, _, heq⟩
  · rw [heq]
    exact h
  · rw [heq]
    exact h
  · rw [heq]
    intro a hstored
    obtain ⟨hother, hold⟩ := AddressTable.mem_addresses_foldl_erase.1 hstored
    obtain ⟨name, hbound⟩ := AddressTable.mem_addresses_iff.1 (h a hold)
    refine AddressTable.mem_addresses_iff.2 ⟨name, ?_⟩
    rw [get?_bound_removeAll (AddressTable.nodup_addresses _), if_neg fun hgone => hother hgone.1]
    exact hbound

theorem Held.addHotspot (h : m.Held w) (found : List (Address × String)) :
    (m.addHotspot found w).2.1.Held (m.addHotspot found w).2.2 := by
  induction found generalizing m w with
  | nil => exact h
  | cons e rest ih =>
    obtain ⟨a, name⟩ := e
    rw [Mobility.addHotspot]
    apply ih
    rw [Held, World.bound_addAddress]
    split
    · intro b hstored
      rw [AddressTable.mem_addresses_insert] at hstored ⊢
      exact hstored.imp_right (h b)
    · exact h

end Hotspots

variable [Engine σ] [Connectivity σ]

theorem Held.onHotspotDebounce (h : m.Held w) (t : Timers) :
    (m.onHotspotDebounce t w).1.Held (m.onHotspotDebounce t w).2.2 := by
  cases hon : m.hotspotOn with
  | false =>
    rw [onHotspotDebounce_off hon]
    exact h
  | true =>
    obtain ⟨_, _, -, heq⟩ := onHotspotDebounce_on (w := w) (t := t) hon
    rw [heq]
    exact h.addHotspot _

/-- After the delay nothing is removed. -/
theorem removesHeld_onHotspotDebounce {t : Timers} :
    (m.onHotspotDebounce t w).2.2.RemovesHeld ↔ w.RemovesHeld := by
  cases hon : m.hotspotOn with
  | false => rw [onHotspotDebounce_off hon]
  | true =>
    obtain ⟨_, _, -, heq⟩ := onHotspotDebounce_on (w := w) (t := t) hon
    rw [heq]
    exact World.removesHeld_of_grows (grows_addHotspot _ _ (fun _ _ _ => rfl) _)

/-! ## Passes -/

/-- The engine has every address that a pass stores, whatever it refuses. -/
theorem Held.reconcile (h : m.Held w) : (m.reconcile w).2.1.Held (m.reconcile w).2.2 := by
  rw [Held, reconcile_mobility]
  intro a hstored
  by_contra hunbound
  have hnever : w.bound.get? a = none → m.snapshot.addresses.get? a = none := by
    rw [AddressTable.get?_eq_none_iff, AddressTable.get?_eq_none_iff]
    exact mt (h a)
  rw [← AddressTable.get?_eq_none_iff, get?_bound_reconcile, find?_added, Option.or_eq_none_iff]
    at hunbound
  obtain ⟨hadded, hkept⟩ := hunbound
  have hunremoved :
      (if a ∈ m.unremoved w then m.snapshot.addresses.get? a else none) = none := by
    split
    · rename_i hstays
      rw [if_neg fun hgone => hgone.2 hstays] at hkept
      exact hnever hkept
    · rfl
  have hwanted :
      (if a ∈ m.unadded w then none else (m.wanted (m.surveyed w)).addresses.get? a) = none := by
    split
    · rfl
    · rename_i htaken
      rw [if_neg htaken] at hadded
      split at hadded
      · rename_i hsame
        have hstays : a ∉ (m.steps (m.surveyed w)).removed := fun hgone =>
          (SnapshotDiff.mem_removed_iff.1 hgone).1 hsame.symm
        rw [if_neg fun hgone => hstays hgone.1] at hkept
        rw [hsame, hnever hkept]
      · exact hadded
  refine AddressTable.get?_eq_none_iff.1 ?_ hstored
  rw [reachedAddresses, get?_reached, hwanted, hunremoved]
  rfl

/-- **A pass asks only for what the engine has.** -/
theorem removesHeld_reconcile (h : m.Held w) :
    (m.reconcile w).2.2.RemovesHeld ↔ w.RemovesHeld := by
  have hresolvers := updateResolvers_trace m w.platform w
  have hchanges : ∀ e ∈ m.resolverEffects w.platform w, e.isChange = false :=
    forall_mem_resolverEffects fun _ _ => rfl
  have hremoved : ∀ a ∈ (m.steps (m.surveyed w)).removed, a ∈ w.bound.addresses := by
    intro a ha
    obtain ⟨-, name, hstored⟩ := SnapshotDiff.mem_removed_iff.1 ha
    exact h a (AddressTable.mem_addresses_iff.2 ⟨name, hstored⟩)
  -- After the removals a pass only adds, resets the transport and sees to the lock.
  have hrest : ∀ e ∈ additionEffects (m.steps (m.surveyed w)).added (m.unadded w) ++
      (m.resetEffects w ++ m.lockEffects (m.wifiInUse w)),
      e.isRemoval = false := by
    simp only [List.forall_mem_append]
    exact ⟨forall_mem_callEffects fun _ _ => rfl, forall_mem_resetEffects fun _ => rfl,
      forall_mem_lockEffects rfl rfl⟩
  rw [World.removesHeld_of_trace (reconcile_trace_removals m w) hrest, removals,
    removesHeld_removeAll (nodup_removed m (m.surveyed w)),
    World.bound_of_not_change hresolvers hchanges, and_iff_left hremoved]
  exact World.removesHeld_of_trace hresolvers fun e he =>
    Effect.isRemoval_of_not_change (hchanges e he)

end Mobility

end Softphone
