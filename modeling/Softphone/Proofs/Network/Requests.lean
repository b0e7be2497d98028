import Softphone.Proofs.Network.Pass

/-!
# Asking for a pass

`Mobility.Asked n` says what it comes to when a mobility is asked for a pass `n` times and runs none: the
first request makes the pass pending and all others are counted as coalesced. Requests add up
(`Mobility.Asked.trans`), so it is enough to say of each operation how often it asks.
-/

namespace Softphone.Mobility

variable {σ : Type} {m m' m'' : Mobility} {n n' : Nat}

/-- Whether a change of a network makes the mobility ask for a pass. -/
def heeds (m : Mobility) : NetworkNotification → Bool
  | .losing _ => false
  | .hotspotChanged enabled => m.running && m.hotspotOn && !enabled
  | .available _ | .lost _ | .capabilitiesChanged _ | .linkPropertiesChanged _ => m.running

/-- The mobility has been asked for a pass `n` times, and has run none. -/
structure Asked (n : Nat) (m m' : Mobility) : Prop where
  running : m.running = true ∨ 0 < n → m'.running = true
  pending : m'.pending = (m.pending || decide (0 < n))
  passes : m'.stats.passes = m.stats.passes
  /-- Each request is counted, but for the one that a pending pass answers. -/
  coalesced : m'.stats.coalesced + m'.pending.toNat = m.stats.coalesced + m.pending.toNat + n

namespace Asked

/-- Nothing of what requests change is touched. -/
theorem of_eq (hrunning : m.running = true → m'.running = true) (hpending : m'.pending = m.pending)
    (hstats : m'.stats = m.stats) : Asked 0 m m' := by
  refine ⟨fun h => hrunning (h.resolve_right (Nat.lt_irrefl 0)), ?_, by rw [hstats], ?_⟩
  · rw [hpending]
    exact (Bool.or_false _).symm
  · rw [hpending, hstats]
    rfl

theorem refl : Asked 0 m m := .of_eq id rfl rfl

theorem trans (h : Asked n m m') (h' : Asked n' m' m'') : Asked (n + n') m m'' where
  running := by
    intro hasked
    apply h'.running
    by_cases hn : 0 < n
    · exact .inl (h.running (.inr hn))
    · rcases hasked with hrunning | hsum
      · exact .inl (h.running (.inl hrunning))
      · exact .inr (by omega)
  pending := by
    have hsum : decide (0 < n + n') = (decide (0 < n) || decide (0 < n')) := by
      rw [← Bool.decide_or]
      exact decide_eq_decide.2 (by omega)
    rw [h'.pending, h.pending, hsum, Bool.or_assoc]
  passes := h'.passes.trans h.passes
  coalesced := by
    have := h.coalesced
    have := h'.coalesced
    omega

/-- A request while the mobility runs. -/
theorem request (hrunning : m.running = true) : Asked 1 m m.request := by
  refine ⟨fun _ => hrunning, (Bool.or_true _).symm, rfl, ?_⟩
  rw [Mobility.request]
  cases m.pending <;> rfl

/-- A request that is made only while the mobility runs. -/
theorem request_if_running :
    Asked m.running.toNat m (if m.running then m.request else m) := by
  cases hrunning : m.running with
  | false => exact .refl
  | true => exact .request hrunning

theorem pending_of_unasked (h : Asked 0 m m') : m'.pending = m.pending := by
  rw [h.pending]
  exact Bool.or_false _

theorem coalesced_of_unasked (h : Asked 0 m m') : m'.stats.coalesced = m.stats.coalesced := by
  have hcoalesced := h.coalesced
  rw [h.pending_of_unasked] at hcoalesced
  exact Nat.add_right_cancel hcoalesced

/-- Once a pass is pending every further request is coalesced. -/
theorem coalesced_of_pos (h : Asked n m m') (hm : m.pending = false) (hn : 0 < n) :
    m'.stats.coalesced + 1 = m.stats.coalesced + n := by
  have hcoalesced := h.coalesced
  rwa [h.pending, hm, decide_eq_true hn] at hcoalesced

end Asked

/-! ## Operations -/

theorem asked_observe (m : Mobility) {change : NetworkNotification}
    (h : ∀ enabled, change ≠ .hotspotChanged enabled) :
    Asked (m.heeds change).toNat m (m.observe change) := by
  cases change with
  | losing network => exact .refl
  | hotspotChanged enabled => exact absurd rfl (h enabled)
  | available network | lost network | capabilitiesChanged network | linkPropertiesChanged network =>
    exact .request_if_running

section Host

variable [Engine σ] (m : Mobility) (w : World σ)

theorem asked_onHotspotChanged (enabled : Bool) (timers : Timers) :
    Asked (m.heeds (.hotspotChanged enabled)).toNat m (m.onHotspotChanged enabled timers w).1 := by
  rw [heeds, onHotspotChanged]
  by_cases hsame : enabled = m.hotspotOn
  · rw [if_pos hsame, hsame, Bool.and_assoc, Bool.and_not_self, Bool.and_false]
    exact .refl
  · rw [if_neg hsame]
    cases enabled with
    | true =>
      rw [Bool.not_true, Bool.and_false]
      exact .of_eq id rfl rfl
    | false =>
      have hon : m.hotspotOn = true := by
        rwa [eq_comm, Bool.not_eq_false] at hsame
      rw [hon, Bool.and_true, Bool.not_false, Bool.and_true, if_neg Bool.false_ne_true,
        ← Nat.zero_add m.running.toNat]
      have hdown : Asked 0 m { m with
          hotspotOn := false
          hotspotAddresses := .empty
          snapshot.addresses :=
            m.hotspotAddresses.addresses.foldl AddressTable.erase m.snapshot.addresses
          dirty := m.dirty || !m.hotspotAddresses.addresses.isEmpty } := .of_eq id rfl rfl
      have hasked := hdown.trans .request_if_running
      exact hasked

theorem asked_addHotspot (found : List (Address × String)) :
    Asked 0 m (m.addHotspot found w).2.1 := by
  induction found generalizing m w with
  | nil => exact .refl
  | cons e rest ih =>
    obtain ⟨a, interface⟩ := e
    have htaken : Asked 0 m (if (w.addAddress a interface).1 then
        { m with
          snapshot.addresses := m.snapshot.addresses.insert a interface
          hotspotAddresses := m.hotspotAddresses.insert a interface }
        else m) := by
      split
      · exact .of_eq id rfl rfl
      · exact .refl
    exact htaken.trans (ih _ _)

variable [Connectivity σ]

/-- Beginning to follow the platform asks for nothing. -/
theorem asked_start : Asked 0 m (m.start w).1 ∧ (m.start w).1.running = true := by
  rw [start]
  dsimp only
  split
  · exact ⟨.of_eq (fun _ => rfl) rfl rfl, rfl⟩
  · split
    · exact ⟨.of_eq (fun _ => rfl) rfl rfl, rfl⟩
    · exact ⟨.of_eq (fun _ => rfl) rfl rfl, rfl⟩

theorem asked_onHotspotDebounce (timers : Timers) :
    Asked 0 m (m.onHotspotDebounce timers w).1 := by
  rw [onHotspotDebounce]
  split
  · exact .refl
  · dsimp only
    split
    · have hadded := asked_addHotspot m w ((Hotspot.discover w.platform.interfaces).entries.filter
        fun e => m.settings.family.admits e.1)
      exact ⟨hadded.running, hadded.pending, hadded.passes, hadded.coalesced⟩
    · exact asked_addHotspot m w _

end Host

end Softphone.Mobility
