import Mathlib.Data.List.Induction
import Softphone.Bench
import Softphone.Proofs.Network.Pass

/-!
# Convergence

A chain of passes whose changes the engine all accepts ends with the addresses that the last platform
offers, whatever the platforms before it offered (`passes_converge`).
-/

namespace Softphone

/-! ## Counting steps -/

namespace SnapshotDiff

variable {old new : Snapshot}

theorem length_removed : (between old new).removed.length =
    (missingTable old.addresses new.addresses).size := List.length_map _

theorem length_added : (between old new).added.length =
    (missingTable new.addresses old.addresses).size := rfl

theorem size_missingTable_add (t u : AddressTable) :
    (missingTable t u).size + (t.filter fun e => u.get? e.1 = some e.2).size = t.size := by
  have h := List.length_eq_length_filter_add (l := t.entries) fun e => u.get? e.1 ≠ some e.2
  simpa [AddressTable.size, missingTable, AddressTable.filter] using h.symm

/-- The entries that two tables share are the same seen from either. -/
theorem filter_shared (t u : AddressTable) :
    (t.filter fun e => u.get? e.1 = some e.2) = u.filter fun e => t.get? e.1 = some e.2 := by
  refine AddressTable.ext_get? fun a => ?_
  rw [AddressTable.get?_filter, AddressTable.get?_filter]
  ext name
  simp only [Option.filter_eq_some_iff, decide_eq_true_eq]
  exact and_comm

theorem length_balance (old new : Snapshot) :
    (between old new).added.length + old.addresses.size =
      (between old new).removed.length + new.addresses.size := by
  have hold := size_missingTable_add old.addresses new.addresses
  have hnew := size_missingTable_add new.addresses old.addresses
  rw [filter_shared] at hnew
  rw [length_added, length_removed]
  omega

end SnapshotDiff

namespace Mobility

variable {σ : Type} [Engine σ] [Connectivity σ] {m : Mobility} {w : World σ}

/-- The addresses of a platform, and those of the hotspot that the platform lacks. -/
theorem get?_wanted {p : Platform} {a : Address} : (m.wanted p).addresses.get? a =
    ((Snapshot.collect p m.settings.family).addresses.get? a).or
      (if m.hotspotOn ∧ m.settings.family.admits a then m.hotspotAddresses.get? a else none) := by
  have hhotspot : m.hotspotWanted.get? a =
      if m.hotspotOn ∧ m.settings.family.admits a then m.hotspotAddresses.get? a else none := by
    unfold hotspotWanted
    by_cases hon : m.hotspotOn = true
    · rw [if_pos hon, AddressTable.get?_filter]
      cases m.hotspotAddresses.get? a <;> by_cases ha : m.settings.family.admits a <;>
        simp [hon, ha]
    · simp [hon]
  rw [← hhotspot]
  exact AddressTable.get?_merge

/-! ## One pass -/

theorem countP_isAddition_passEffects : (m.passEffects w).countP Effect.isAddition =
    (m.steps (m.surveyed w)).added.length := by
  have hremovals : (removalEffects (m.steps (m.surveyed w)).removed (m.unremoved w)).countP
      Effect.isAddition = 0 := countP_callEffects_eq_zero fun _ _ => rfl
  have hadditions : (additionEffects (m.steps (m.surveyed w)).added (m.unadded w)).countP
      Effect.isAddition = (m.steps (m.surveyed w)).added.length := countP_callEffects fun _ _ => rfl
  rw [countP_passEffects, hremovals, hadditions, Nat.zero_add]
  exact fun e he => (Bool.or_eq_false_iff.1 he).1

theorem countP_isRemoval_passEffects : (m.passEffects w).countP Effect.isRemoval =
    (m.steps (m.surveyed w)).removed.length := by
  have hremovals : (removalEffects (m.steps (m.surveyed w)).removed (m.unremoved w)).countP
      Effect.isRemoval = (m.steps (m.surveyed w)).removed.length := countP_callEffects fun _ _ => rfl
  have hadditions : (additionEffects (m.steps (m.surveyed w)).added (m.unadded w)).countP
      Effect.isRemoval = 0 := countP_callEffects_eq_zero fun _ _ => rfl
  rw [countP_passEffects, hremovals, hadditions, Nat.add_zero]
  exact fun e he => (Bool.or_eq_false_iff.1 he).2

theorem unremoved_eq_nil (h : ∀ e ∈ m.passEffects w, e.isRefusal = false) : m.unremoved w = [] := by
  refine List.eq_nil_iff_forall_not_mem.2 fun a ha => ?_
  have hmem := (m.mem_passEffects_iff w).2
    (.inr (.inl ⟨a, (removeAll_sublist _ _).subset ha, rfl⟩))
  simpa [Effect.isRefusal, ha] using h _ hmem

theorem unadded_eq_nil (h : ∀ e ∈ m.passEffects w, e.isRefusal = false) : m.unadded w = [] := by
  refine List.eq_nil_iff_forall_not_mem.2 fun a ha => ?_
  obtain ⟨x, hx, rfl⟩ := List.mem_map.1 ((addAll_sublist _ _).subset ha)
  have hmem := (m.mem_passEffects_iff w).2 (.inr (.inr (.inl ⟨x, hx, rfl⟩)))
  simpa [Effect.isRefusal, ha] using h _ hmem

/-- A pass of which nothing is refused stores what was wanted. -/
theorem snapshot_reconcile_of_accepted (h : ∀ e ∈ m.passEffects w, e.isRefusal = false) :
    (m.reconcile w).2.1.snapshot = m.wanted (m.surveyed w) := by
  rw [reconcile_mobility, reachedAddresses, unremoved_eq_nil h, unadded_eq_nil h]
  rfl

/-! ## Chains of passes -/

/-- Passes one after the other, each beginning in a state of the host of its own. -/
def passes (m : Mobility) (w : World σ) (hosts : List σ) : Mobility × World σ :=
  hosts.foldl (fun s host => (s.1.reconcile (s.2.within host)).2) (m, w)

theorem passes_concat (hosts : List σ) (last : σ) : m.passes w (hosts ++ [last]) =
    ((m.passes w hosts).1.reconcile ((m.passes w hosts).2.within last)).2 :=
  List.foldl_concat ..

/-- The platform as the last pass of a chain surveys it. -/
def surveyedLast (m : Mobility) (w : World σ) (hosts : List σ) (last : σ) : Platform :=
  (m.passes w hosts).1.surveyed ((m.passes w hosts).2.within last)

theorem passes_settings (hosts : List σ) :
    (m.passes w hosts).1.settings = m.settings ∧
      (m.passes w hosts).1.hotspotOn = m.hotspotOn ∧
      (m.passes w hosts).1.hotspotAddresses = m.hotspotAddresses := by
  induction hosts using List.reverseRecOn with
  | nil => exact ⟨rfl, rfl, rfl⟩
  | append_singleton hosts last ih => rwa [passes_concat, reconcile_mobility]

theorem trace_passes_concat (hosts : List σ) (last : σ) :
    (m.passes w (hosts ++ [last])).2.trace = (m.passes w hosts).2.trace ++
      (m.passes w hosts).1.passEffects ((m.passes w hosts).2.within last) := by
  rw [passes_concat, reconcile_trace, World.trace_within]

theorem trace_passes (hosts : List σ) :
    (m.passes w hosts).2.trace = w.trace ++ (m.passes w hosts).2.since w := by
  induction hosts using List.reverseRecOn with
  | nil => simp [passes]
  | append_singleton hosts last ih =>
    have h := trace_passes_concat (m := m) (w := w) hosts last
    rw [ih, List.append_assoc] at h
    rw [World.since_eq h, h]

theorem since_passes_concat (hosts : List σ) (last : σ) :
    (m.passes w (hosts ++ [last])).2.since w = (m.passes w hosts).2.since w ++
      (m.passes w hosts).1.passEffects ((m.passes w hosts).2.within last) := by
  refine World.since_eq ?_
  rw [trace_passes_concat, trace_passes, List.append_assoc]

/-- Over a chain of passes of which nothing is refused, the additions less the removals are what the
snapshot grows by. -/
theorem passes_balance (hosts : List σ)
    (h : ∀ e ∈ (m.passes w hosts).2.since w, e.isRefusal = false) :
    ((m.passes w hosts).2.since w).countP Effect.isAddition + m.snapshot.addresses.size =
      ((m.passes w hosts).2.since w).countP Effect.isRemoval +
        (m.passes w hosts).1.snapshot.addresses.size := by
  induction hosts using List.reverseRecOn with
  | nil => simp [passes]
  | append_singleton hosts last ih =>
    rw [since_passes_concat] at h ⊢
    obtain ⟨hbefore, hlast⟩ := List.forall_mem_append.1 h
    have hgrown := ih hbefore
    have hstored : (m.passes w (hosts ++ [last])).1.snapshot =
        (m.passes w hosts).1.wanted (m.surveyedLast w hosts last) := by
      rw [passes_concat]
      exact snapshot_reconcile_of_accepted hlast
    have hstep := SnapshotDiff.length_balance (m.passes w hosts).1.snapshot
      ((m.passes w hosts).1.wanted (m.surveyedLast w hosts last))
    rw [List.countP_append, List.countP_append, countP_isAddition_passEffects,
      countP_isRemoval_passEffects, hstored]
    change _ + ((m.passes w hosts).1.steps (m.surveyedLast w hosts last)).added.length + _ =
      _ + ((m.passes w hosts).1.steps (m.surveyedLast w hosts last)).removed.length + _
    unfold steps
    omega

/-- **Convergence.** A chain of passes, each on a platform of its own, of which the engine refuses no
change: whatever came before, the snapshot at the end has the addresses of the platform as the last pass
surveys it, and those of the hotspot that it lacks; the additions less the removals are what the snapshot
grew by; and a chain that ends on the platform whose addresses it began with ends with the snapshot it
began with. A platform that stays the same during the last pass is surveyed as it is. -/
theorem passes_converge (m : Mobility) (w : World σ) (hosts : List σ) (last : σ)
    (h : ∀ e ∈ (m.passes w (hosts ++ [last])).2.since w, e.isRefusal = false) :
    ((∀ servers, Connectivity.platform (Engine.setResolvers servers last).2 =
        Connectivity.platform last) →
      m.surveyedLast w hosts last = Connectivity.platform last) ∧
    (∀ a, (m.passes w (hosts ++ [last])).1.snapshot.addresses.get? a =
      ((Snapshot.collect (m.surveyedLast w hosts last) m.settings.family).addresses.get? a).or
        (if m.hotspotOn ∧ m.settings.family.admits a then m.hotspotAddresses.get? a else none)) ∧
    (((m.passes w (hosts ++ [last])).2.since w).countP Effect.isAddition : Int) -
        ((m.passes w (hosts ++ [last])).2.since w).countP Effect.isRemoval =
      (m.passes w (hosts ++ [last])).1.snapshot.addresses.size - m.snapshot.addresses.size ∧
    (m.snapshot = m.wanted (m.surveyedLast w hosts last) →
      (m.passes w (hosts ++ [last])).1.snapshot = m.snapshot ∧
      ((m.passes w (hosts ++ [last])).2.since w).countP Effect.isAddition =
        ((m.passes w (hosts ++ [last])).2.since w).countP Effect.isRemoval) := by
  have hstored : (m.passes w (hosts ++ [last])).1.snapshot =
      m.wanted (m.surveyedLast w hosts last) := by
    obtain ⟨hsettings, hon, haddresses⟩ := passes_settings (m := m) (w := w) hosts
    have hlast : ∀ e ∈ (m.passes w hosts).1.passEffects ((m.passes w hosts).2.within last),
        e.isRefusal = false := by
      rw [since_passes_concat] at h
      exact (List.forall_mem_append.1 h).2
    rw [passes_concat, snapshot_reconcile_of_accepted hlast]
    unfold wanted hotspotWanted
    rw [hsettings, hon, haddresses]
    rfl
  have hbalance := passes_balance _ h
  refine ⟨fun hkept => surveyed_of_kept hkept, fun a => ?_, ?_,
    fun hconverged => ⟨hstored.trans hconverged.symm, ?_⟩⟩
  · rw [hstored]
    exact get?_wanted
  · omega
  · rw [hstored, ← hconverged] at hbalance
    exact Nat.add_right_cancel hbalance

/-- A network with the address 10.0.0.5 on an interface. -/
def networkBench (interface : String) : Bench where
  networks := {
    attached := [{
      id := ⟨1⟩
      properties := some { interface := some interface, addresses := [⟨.v4 0x0A000005, .global⟩] }
      capabilities := some { foreground := true } }] }

/-- A mobility that is settled on the address over Wi-Fi. -/
def settledOnWifi : Mobility where
  snapshot := { addresses := .ofList [(.v4 0x0A000005, "wlan0")] }

/-- The address moves to another interface and back: two additions and two removals. -/
theorem passes_converge_roaming :
    (∀ e ∈ (settledOnWifi.passes ⟨networkBench "wlan0", []⟩
        ([networkBench "rmnet0"] ++ [networkBench "wlan0"])).2.since ⟨networkBench "wlan0", []⟩,
      e.isRefusal = false) ∧
    (settledOnWifi.passes ⟨networkBench "wlan0", []⟩
        ([networkBench "rmnet0"] ++ [networkBench "wlan0"])).1.snapshot = settledOnWifi.snapshot ∧
    ((settledOnWifi.passes ⟨networkBench "wlan0", []⟩
        ([networkBench "rmnet0"] ++ [networkBench "wlan0"])).2.since
          ⟨networkBench "wlan0", []⟩).countP Effect.isRemoval = 2 := by
  have haccepted : ∀ e ∈ (settledOnWifi.passes ⟨networkBench "wlan0", []⟩
        ([networkBench "rmnet0"] ++ [networkBench "wlan0"])).2.since ⟨networkBench "wlan0", []⟩,
      e.isRefusal = false := by decide
  have hsettled : settledOnWifi.snapshot =
      settledOnWifi.wanted (Connectivity.platform (networkBench "wlan0")) := by decide
  obtain ⟨hsurveyed, -, -, hreturn⟩ := passes_converge settledOnWifi ⟨networkBench "wlan0", []⟩
    [networkBench "rmnet0"] (networkBench "wlan0") haccepted
  rw [hsurveyed fun _ => rfl] at hreturn
  exact ⟨haccepted, (hreturn hsettled).1, by decide⟩

end Mobility

end Softphone
