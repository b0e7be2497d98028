import Softphone.Bench
import Softphone.Proofs.Network.Bound
import Softphone.Proofs.Network.Hotspot

/-!
# The stored snapshot and the engine

The snapshot of a mobility is meant to be what the engine has. Every operation keeps it so whatever the
engine refuses, but one: when the hotspot goes down, its addresses leave the snapshot also where the
engine refuses to let go of them (`Site.mirrors_step_iff`).
-/

namespace Softphone.Mobility

/-- What a mobility can be asked to do. -/
inductive Move
  | start
  | stop
  | observe (change : NetworkNotification)
  | request
  | takePending
  | pass
  | hotspotChanged (enabled : Bool)
  | hotspotDebounce
  deriving DecidableEq

/-- A mobility with its timers, and the world it acts on. -/
structure Site (σ : Type) where
  mobility : Mobility
  timers : Timers := {}
  world : World σ

namespace Site

variable {σ : Type} [Engine σ] [Connectivity σ]

/-- A mobility of which nothing was asked yet, and an engine without addresses. -/
def new (settings : NetworkSettings) (host : σ) : Site σ where
  mobility := { settings }
  world := { host }

/-- Does what was asked. -/
def move (s : Site σ) : Move → Site σ
  | .start =>
    let (mobility, world) := s.mobility.start s.world
    { s with mobility, world }
  | .stop =>
    let (mobility, world) := s.mobility.stop s.world
    { s with mobility, world }
  | .observe change => { s with mobility := s.mobility.observe change }
  | .request => { s with mobility := s.mobility.request }
  | .takePending => { s with mobility := s.mobility.takePending.2 }
  | .pass =>
    let (_, mobility, world) := s.mobility.reconcile s.world
    { s with mobility, world }
  | .hotspotChanged enabled =>
    let (mobility, timers, world) := s.mobility.onHotspotChanged enabled s.timers s.world
    ⟨mobility, timers, world⟩
  | .hotspotDebounce =>
    let (mobility, timers, world) := s.mobility.onHotspotDebounce s.timers s.world
    ⟨mobility, timers, world⟩

/-- Does what was asked once engine and platform have come to a new state. -/
def step (s : Site σ) (m : σ × Move) : Site σ :=
  ({ s with world := s.world.within m.1 } : Site σ).move m.2

/-- Does what was asked in order. -/
def run (s : Site σ) (ms : List (σ × Move)) : Site σ := ms.foldl step s

/-- The stored snapshot is what the engine has. -/
def Mirrors (s : Site σ) : Prop := s.mobility.snapshot.addresses = s.world.bound

/-- The hotspot goes down, and the engine refuses to let go of one of its addresses. -/
def Strands (s : Site σ) (m : σ × Move) : Prop :=
  m.2 = .hotspotChanged false ∧ s.mobility.hotspotOn = true ∧
    ∃ a ∈ s.mobility.hotspotAddresses.addresses, a ∈ s.world.bound.addresses ∧
      .removeAddress a false ∈ (s.step m).world.since s.world

end Site

variable {σ : Type} {m : Mobility} {w : World σ}

/-! ## Operations that leave the addresses alone -/

@[simp] theorem snapshot_observe {change : NetworkNotification} :
    (m.observe change).snapshot = m.snapshot := by
  obtain ⟨_, _, hmobility⟩ := m.observe_mobility change
  rw [hmobility]

theorem snapshot_start [Engine σ] [Connectivity σ] :
    (m.start w).1.snapshot = m.snapshot ∧ (m.start w).2.bound = w.bound := by
  unfold start
  dsimp only
  cases m.settings.dns with
  | dynamic => exact ⟨rfl, rfl⟩
  | static servers =>
    dsimp only
    refine ⟨?_, World.bound_of_not_change World.trace_setResolvers fun e he => ?_⟩
    · split <;> rfl
    · rw [List.mem_singleton.1 he]
      rfl

theorem snapshot_stop [Connectivity σ] :
    (m.stop w).1.snapshot = m.snapshot ∧ (m.stop w).2.bound = w.bound := by
  refine ⟨by rw [stop_mobility], ?_⟩
  unfold stop dropLock
  split
  · refine World.bound_of_not_change World.trace_releaseLock fun e he => ?_
    rw [List.mem_singleton.1 he]
    rfl
  · rfl

/-! ## Hotspots -/

theorem addHotspot_mirrors [Engine σ] {found : List (Address × String)}
    (h : m.snapshot.addresses = w.bound) :
    (m.addHotspot found w).2.1.snapshot.addresses = (m.addHotspot found w).2.2.bound := by
  induction found generalizing m w with
  | nil => exact h
  | cons e rest ih =>
    obtain ⟨a, name⟩ := e
    unfold addHotspot
    dsimp only
    apply ih
    rw [World.bound_addAddress]
    split
    · exact congrArg (·.insert a name) h
    · exact h

theorem onHotspotDebounce_mirrors [Engine σ] [Connectivity σ] {timers : Timers}
    (h : m.snapshot.addresses = w.bound) :
    (m.onHotspotDebounce timers w).1.snapshot.addresses =
      (m.onHotspotDebounce timers w).2.2.bound := by
  unfold onHotspotDebounce
  split
  · exact h
  · dsimp only
    split
    · exact addHotspot_mirrors h
    · exact addHotspot_mirrors h

/-- The hotspot that goes down takes its addresses out of the snapshot. -/
theorem onHotspotChanged_off [Engine σ] (hon : m.hotspotOn = true) (timers : Timers) :
    (m.onHotspotChanged false timers w).1.snapshot.addresses =
        m.hotspotAddresses.addresses.foldl AddressTable.erase m.snapshot.addresses ∧
      (m.onHotspotChanged false timers w).2.2 = (removeAll m.hotspotAddresses.addresses w).2 := by
  obtain ⟨_, _, _, heq⟩ := onHotspotChanged_down (w := w) (t := timers) hon
  rw [heq]
  exact ⟨rfl, rfl⟩

theorem onHotspotChanged_other [Engine σ] {enabled : Bool}
    (h : enabled = true ∨ m.hotspotOn = false) (timers : Timers) :
    (m.onHotspotChanged enabled timers w).1.snapshot = m.snapshot ∧
      (m.onHotspotChanged enabled timers w).2.2 = w := by
  rcases m.onHotspotChanged_cases enabled timers w with
    ⟨-, heq⟩ | ⟨-, -, heq⟩ | ⟨hdisabled, hon, -⟩
  · rw [heq]
    exact ⟨rfl, rfl⟩
  · rw [heq]
    exact ⟨rfl, rfl⟩
  · rw [hdisabled, hon] at h
    rcases h with h | h <;> cases h

/-! ## Steps and runs -/

namespace Site

variable [Engine σ] [Connectivity σ] {s : Site σ}

theorem strands_iff {host : σ} : s.Strands (host, .hotspotChanged false) ↔
    s.mobility.hotspotOn = true ∧ ∃ a ∈ s.mobility.hotspotAddresses.addresses,
      a ∈ s.world.bound.addresses ∧
        a ∈ (removeAll s.mobility.hotspotAddresses.addresses (s.world.within host)).1 := by
  refine ⟨fun ⟨_, hon, a, ha, hbound, hrefused⟩ => ⟨hon, a, ha, hbound, ?_⟩,
    fun ⟨hon, a, ha, hbound, hrefused⟩ => ⟨rfl, hon, a, ha, hbound, ?_⟩⟩
  all_goals
    have htrace : (s.step (host, .hotspotChanged false)).world.trace = s.world.trace ++
        removalEffects s.mobility.hotspotAddresses.addresses
          (removeAll s.mobility.hotspotAddresses.addresses (s.world.within host)).1 :=
      (congrArg World.trace (onHotspotChanged_off hon s.timers).2).trans
        (removeAll_trace (AddressTable.nodup_addresses _))
    rw [World.since_eq htrace, removeAddress_false_mem_iff] at *
  · exact hrefused.2
  · exact ⟨ha, hrefused⟩

/-- Dropping all known addresses and dropping those that were let go of come to the same, unless one
that was had is refused. -/
theorem dropped_iff {known refused : List Address} {t : AddressTable} {a : Address} :
    (if a ∈ known then none else t.get? a) =
        (if a ∈ known ∧ a ∉ refused then none else t.get? a) ↔
      ¬ (a ∈ known ∧ a ∈ t.addresses ∧ a ∈ refused) := by
  have hbound : none = t.get? a ↔ a ∉ t.addresses := eq_comm.trans AddressTable.get?_eq_none_iff
  by_cases hknown : a ∈ known
  · by_cases hrefused : a ∈ refused
    · simp [hknown, hrefused, hbound]
    · simp [hknown, hrefused]
  · simp [hknown]

theorem mirrors_hotspot_off_iff (h : s.Mirrors) (hon : s.mobility.hotspotOn = true) {host : σ} :
    (s.step (host, .hotspotChanged false)).Mirrors ↔
      ¬ s.Strands (host, .hotspotChanged false) := by
  have hafter : (s.step (host, .hotspotChanged false)).Mirrors ↔
      s.mobility.hotspotAddresses.addresses.foldl AddressTable.erase s.world.bound =
        (removeAll s.mobility.hotspotAddresses.addresses (s.world.within host)).2.bound := by
    have hoff := onHotspotChanged_off (m := s.mobility) (w := s.world.within host) hon s.timers
    rw [← h]
    exact Eq.congr hoff.1 (congrArg World.bound hoff.2)
  rw [hafter, AddressTable.eq_iff_get?, strands_iff]
  simp only [AddressTable.get?_foldl_erase,
    get?_bound_removeAll (AddressTable.nodup_addresses _), World.bound_within, dropped_iff, hon,
    true_and]
  exact not_exists.symm

/-- A step from a true snapshot leads to a true snapshot exactly if it strands no address. -/
theorem mirrors_step_iff (h : s.Mirrors) (m : σ × Move) :
    (s.step m).Mirrors ↔ ¬ s.Strands m := by
  obtain ⟨host, move⟩ := m
  have hkeeps : move ≠ .hotspotChanged false ∨ s.mobility.hotspotOn = false →
      (s.step (host, move)).Mirrors → ((s.step (host, move)).Mirrors ↔
        ¬ s.Strands (host, move)) := fun hmove hmirrors =>
    iff_of_true hmirrors fun ⟨hoff, hon, _⟩ =>
      hmove.elim (· hoff) fun hout => Bool.false_ne_true (hout.symm.trans hon)
  cases move with
  | start =>
    have hstart := snapshot_start (m := s.mobility) (w := s.world.within host)
    exact hkeeps (.inl nofun)
      ((congrArg Snapshot.addresses hstart.1).trans (h.trans hstart.2.symm))
  | stop =>
    have hstop := snapshot_stop (m := s.mobility) (w := s.world.within host)
    exact hkeeps (.inl nofun)
      ((congrArg Snapshot.addresses hstop.1).trans (h.trans hstop.2.symm))
  | observe change =>
    exact hkeeps (.inl nofun) ((congrArg Snapshot.addresses snapshot_observe).trans h)
  | request => exact hkeeps (.inl nofun) h
  | takePending => exact hkeeps (.inl nofun) h
  | pass =>
    refine hkeeps (.inl nofun) ?_
    have hbound := bound_reconcile (m := s.mobility) (w := s.world.within host) h
    have hstored := congrArg (·.snapshot.addresses)
      (reconcile_mobility s.mobility (s.world.within host))
    exact hstored.trans hbound.symm
  | hotspotChanged enabled =>
    by_cases hoff : enabled = true ∨ s.mobility.hotspotOn = false
    · have hother := onHotspotChanged_other (w := s.world.within host) (m := s.mobility) hoff
        s.timers
      refine hkeeps (hoff.imp_left fun henabled => ?_)
        ((congrArg Snapshot.addresses hother.1).trans (h.trans (congrArg World.bound hother.2).symm))
      simp [henabled]
    · simp only [not_or, Bool.not_eq_true, Bool.not_eq_false] at hoff
      obtain ⟨rfl, hon⟩ := hoff
      exact mirrors_hotspot_off_iff h hon
  | hotspotDebounce =>
    exact hkeeps (.inl nofun) (onHotspotDebounce_mirrors h)

theorem run_take_succ {ms : List (σ × Move)} {m : σ × Move} {k : Nat} (h : ms[k]? = some m) :
    s.run (ms.take (k + 1)) = (s.run (ms.take k)).step m := by
  rw [List.take_add_one, h, run, List.foldl_append]
  rfl

/-- **When the stored snapshot is what the engine has.** It is so throughout a run, with any platform
and any refusals at every step, exactly if no step of the run strands an address. -/
theorem mirrors_throughout_iff (settings : NetworkSettings) (host : σ) (ms : List (σ × Move)) :
    (∀ k, ((new settings host).run (ms.take k)).Mirrors) ↔
      ∀ k m, ms[k]? = some m → ¬ ((new settings host).run (ms.take k)).Strands m := by
  constructor
  · intro hmirrors k m hm
    rw [← mirrors_step_iff (hmirrors k), ← run_take_succ hm]
    exact hmirrors (k + 1)
  · intro hstrands k
    induction k with
    | zero => exact rfl
    | succ k ih =>
      cases hm : ms[k]? with
      | none => rwa [List.take_add_one, hm, Option.toList_none, List.append_nil]
      | some m =>
        rw [run_take_succ hm]
        exact (mirrors_step_iff ih m).2 (hstrands k m hm)

/-- An engine that will not let go of some addresses, and a device that serves a hotspot on
192.168.43.1. -/
def hotspotBench (stuck : List Address) : Bench where
  engine := { stuck }
  networks := { interfaces := [⟨"ap0", [.v4 0xC0A82B01]⟩], hotspotEnabled := true }

/-- A hotspot whose address is in use goes down, and the engine refuses to let go of the address. -/
def refusedHotspot : List (Bench × Move) := [
  (hotspotBench [], .start),
  (hotspotBench [], .pass),
  (hotspotBench [.v4 0xC0A82B01], .hotspotChanged false)]

/-- After the hotspot went down the engine still has its address, and the snapshot does not. -/
theorem refusedHotspot_unmirrored :
    (¬ ∀ k, ((new {} (hotspotBench [])).run (refusedHotspot.take k)).Mirrors) ∧
      ((new {} (hotspotBench [])).run refusedHotspot).mobility.snapshot.addresses.entries = [] ∧
      ((new {} (hotspotBench [])).run refusedHotspot).world.bound.entries =
        [(.v4 0xC0A82B01, "ap0")] := by
  refine ⟨fun h => ?_, by decide, by decide⟩
  have hmirrors : ¬ ((new {} (hotspotBench [])).run (refusedHotspot.take 3)).Mirrors := by
    unfold Mirrors
    decide
  exact hmirrors (h 3)

end Site

end Softphone.Mobility
