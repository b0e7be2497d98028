import Softphone.Network.Mobility
import Softphone.Proofs.Address.Table

/-!
# What a mobility does about hotspots

One equation for each thing that can happen: a report that changes nothing, a hotspot that comes up or goes
down, the end of the delay after it came up, the beginning, which looks at the hotspot afresh, and what leaves
hotspots alone: reports of other networks and the end.
-/

namespace Softphone.Mobility

variable {σ : Type} {m : Mobility} {w : World σ} {t : Timers}

/-- The addresses of the hotspot that the engine is offered once the delay is over. -/
def offered (m : Mobility) (p : Platform) : List (Address × String) :=
  (Hotspot.discover p.interfaces).entries.filter fun e => m.settings.family.admits e.1

section Reports

variable [Engine σ]

theorem onHotspotChanged_same {enabled : Bool} (h : m.hotspotOn = enabled) :
    m.onHotspotChanged enabled t w = (m, t, w) := by
  rw [onHotspotChanged, if_pos h.symm]

/-- A hotspot comes up: its timer is set anew. -/
theorem onHotspotChanged_up (hoff : m.hotspotOn = false) :
    m.onHotspotChanged true t w =
      ({ m with hotspotOn := true },
        ((t.cancelKind .hotspotDebounce).scheduleOnce .hotspotDebounce
          m.settings.hotspotDebounce.toNat).2, w) := by
  rw [onHotspotChanged, hoff, if_neg Bool.false_ne_true.symm, if_pos rfl]

/-- A hotspot goes down: its timers are cancelled, and its addresses are forgotten. -/
theorem onHotspotChanged_down (hon : m.hotspotOn = true) :
    ∃ pending dirty stats, m.onHotspotChanged false t w =
      ({ m with
          hotspotOn := false
          hotspotAddresses := .empty
          snapshot.addresses :=
            m.hotspotAddresses.addresses.foldl AddressTable.erase m.snapshot.addresses
          pending, dirty, stats },
        (t.cancelKind .hotspotDebounce).cancelKind .hotspotFollowUp,
        (removeAll m.hotspotAddresses.addresses w).2) := by
  rw [onHotspotChanged, hon, if_neg Bool.false_ne_true, if_neg Bool.false_ne_true]
  dsimp only
  split
  · exact ⟨_, _, _, rfl⟩
  · exact ⟨_, _, _, rfl⟩

/-- A report says what is known already, or the hotspot comes up or goes down with it. -/
theorem onHotspotChanged_cases (m : Mobility) (enabled : Bool) (t : Timers) (w : World σ) :
    (m.hotspotOn = enabled ∧ m.onHotspotChanged enabled t w = (m, t, w)) ∨
      (enabled = true ∧ m.hotspotOn = false ∧ m.onHotspotChanged enabled t w =
        ({ m with hotspotOn := true },
          ((t.cancelKind .hotspotDebounce).scheduleOnce .hotspotDebounce
            m.settings.hotspotDebounce.toNat).2, w)) ∨
      (enabled = false ∧ m.hotspotOn = true ∧
        ∃ pending dirty stats, m.onHotspotChanged enabled t w =
          ({ m with
              hotspotOn := false
              hotspotAddresses := .empty
              snapshot.addresses :=
                m.hotspotAddresses.addresses.foldl AddressTable.erase m.snapshot.addresses
              pending, dirty, stats },
            (t.cancelKind .hotspotDebounce).cancelKind .hotspotFollowUp,
            (removeAll m.hotspotAddresses.addresses w).2)) := by
  cases hon : m.hotspotOn with
  | true =>
    cases enabled with
    | true => exact .inl ⟨rfl, onHotspotChanged_same hon⟩
    | false => exact .inr (.inr ⟨rfl, rfl, onHotspotChanged_down hon⟩)
  | false =>
    cases enabled with
    | true => exact .inr (.inl ⟨rfl, rfl, onHotspotChanged_up hon⟩)
    | false => exact .inl ⟨rfl, onHotspotChanged_same hon⟩

/-- What is known of a hotspot after it was offered to the engine was known before, or was offered. -/
theorem get?_hotspotAddresses_addHotspot {found : List (Address × String)} {a : Address} {name : String}
    (h : (m.addHotspot found w).2.1.hotspotAddresses.get? a = some name) :
    m.hotspotAddresses.get? a = some name ∨ (a, name) ∈ found := by
  induction found generalizing m w with
  | nil => exact .inl h
  | cons e rest ih =>
    obtain ⟨b, other⟩ := e
    rw [List.mem_cons, or_left_comm]
    rcases ih h with hknown | hrest
    · split at hknown
      · dsimp only at hknown
        rw [AddressTable.get?_insert] at hknown
        split at hknown
        · rename_i hsame
          rw [hsame, Option.some.inj hknown]
          exact .inl rfl
        · exact .inr (.inl hknown)
      · exact .inr (.inl hknown)
    · exact .inr (.inr hrest)

theorem mem_hotspotAddresses_addHotspot {found : List (Address × String)} {a : Address}
    (h : a ∈ (m.addHotspot found w).2.1.hotspotAddresses.addresses) :
    a ∈ m.hotspotAddresses.addresses ∨ a ∈ found.map (·.1) := by
  obtain ⟨name, hname⟩ := AddressTable.mem_addresses_iff.1 h
  rcases get?_hotspotAddresses_addHotspot hname with hknown | hfound
  · exact .inl (AddressTable.mem_addresses_iff.2 ⟨name, hknown⟩)
  · exact .inr (List.mem_map_of_mem hfound)

/-- Of a mobility that offers addresses only what it knows of them may change. -/
theorem addHotspot_mobility (m : Mobility) (found : List (Address × String)) (w : World σ) :
    (m.addHotspot found w).2.1 =
      { m with
        snapshot := (m.addHotspot found w).2.1.snapshot
        hotspotAddresses := (m.addHotspot found w).2.1.hotspotAddresses } := by
  induction found generalizing m w with
  | nil => rfl
  | cons e rest ih =>
    obtain ⟨a, name⟩ := e
    unfold addHotspot
    dsimp only
    rw [ih]
    split <;> rfl

/-- A report on a hotspot changes what is known of it and of the engine's addresses, and may ask for a pass. -/
theorem onHotspotChanged_mobility (m : Mobility) (enabled : Bool) (t : Timers) (w : World σ) :
    ∃ snapshot hotspotOn hotspotAddresses pending dirty stats, (m.onHotspotChanged enabled t w).1 =
      { m with snapshot, hotspotOn, hotspotAddresses, pending, dirty, stats } := by
  rcases m.onHotspotChanged_cases enabled t w with ⟨-, heq⟩ | ⟨-, -, heq⟩ | ⟨-, -, _, _, _, heq⟩
  all_goals
    rw [heq]
    exact ⟨_, _, _, _, _, _, rfl⟩

end Reports

variable [Engine σ] [Connectivity σ]

theorem onHotspotDebounce_off (hoff : m.hotspotOn = false) :
    m.onHotspotDebounce t w = (m, t, w) := by
  rw [onHotspotDebounce, hoff]
  rfl

/-- The delay is over: the addresses are offered, and a second timer may be set. -/
theorem onHotspotDebounce_on (hon : m.hotspotOn = true) :
    ∃ dirty t', (t' = t ∨
        ∃ delay, t' = (t.scheduleOnce .hotspotFollowUp delay).2) ∧
      m.onHotspotDebounce t w =
        ({ (m.addHotspot (m.offered w.platform) w).2.1 with dirty }, t',
          (m.addHotspot (m.offered w.platform) w).2.2) := by
  have heq : m.onHotspotDebounce t w =
      if (m.addHotspot (m.offered w.platform) w).1 then
        ({ (m.addHotspot (m.offered w.platform) w).2.1 with dirty := true },
          (t.scheduleOnce .hotspotFollowUp
            (m.addHotspot (m.offered w.platform) w).2.1.settings.hotspotFollowUp.toNat).2,
          (m.addHotspot (m.offered w.platform) w).2.2)
      else ((m.addHotspot (m.offered w.platform) w).2.1, t,
        (m.addHotspot (m.offered w.platform) w).2.2) := by
    rw [onHotspotDebounce, hon]
    rfl
  rw [heq]
  split
  · exact ⟨true, _, .inr ⟨_, rfl⟩, rfl⟩
  · exact ⟨_, _, .inl rfl, rfl⟩

/-- The end of the delay changes what is known of the hotspot and of the engine's addresses. -/
theorem onHotspotDebounce_mobility (m : Mobility) (t : Timers) (w : World σ) :
    ∃ snapshot hotspotAddresses dirty, (m.onHotspotDebounce t w).1 =
      { m with snapshot, hotspotAddresses, dirty } := by
  rcases Bool.eq_false_or_eq_true m.hotspotOn with hon | hoff
  · obtain ⟨_, _, -, heq⟩ := onHotspotDebounce_on (w := w) (t := t) hon
    rw [heq, addHotspot_mobility]
    exact ⟨_, _, _, rfl⟩
  · rw [onHotspotDebounce_off hoff]
    exact ⟨_, _, _, rfl⟩

/-- Where the networks begin to be followed, the hotspot is what the platform says. -/
theorem start_mobility : ∃ resolvers, (m.start w).1 =
    { m with
      running := true
      hotspotOn := w.platform.hotspotEnabled
      hotspotAddresses :=
        if w.platform.hotspotEnabled then Hotspot.discover w.platform.interfaces
        else m.hotspotAddresses
      resolvers } := by
  rw [start]
  dsimp only
  split
  · exact ⟨_, rfl⟩
  · split
    · exact ⟨_, rfl⟩
    · exact ⟨_, rfl⟩

/-! ## What leaves hotspots alone -/

omit [Engine σ] [Connectivity σ]

/-- Whatever is reported of a network, a pass is asked for at most. -/
theorem observe_mobility (m : Mobility) (change : NetworkNotification) :
    ∃ pending stats, m.observe change = { m with pending, stats } := by
  have hasked : ∃ pending stats, (if m.running then m.request else m) = { m with pending, stats } := by
    split
    · exact ⟨_, _, rfl⟩
    · exact ⟨_, _, rfl⟩
  cases change with
  | losing network | hotspotChanged enabled => exact ⟨_, _, rfl⟩
  | available network | lost network | capabilitiesChanged network | linkPropertiesChanged network =>
    exact hasked

variable [Connectivity σ]

theorem dropLock_mobility : (m.dropLock w).1 = { m with lockHeld := false } := by
  obtain ⟨_, _, _, _, _, _, held, _, _, _⟩ := m
  cases held <;> rfl

/-- Once the networks are no longer followed no pass is wanted, and the lock is given back. -/
theorem stop_mobility :
    (m.stop w).1 = { m with running := false, pending := false, lockHeld := false } :=
  dropLock_mobility

end Softphone.Mobility
