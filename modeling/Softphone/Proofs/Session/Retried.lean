import Softphone.Proofs.Network.Retried
import Softphone.Proofs.Session.Debounce
import Softphone.Proofs.Session.Eligible
import Softphone.Proofs.Session.Held

/-!
# What a session forgets of a hotspot

While the networks are followed and the hotspot is on, nothing that is known of it is forgotten, unless it is
reported off or the session ends; and once the delay is over nothing is found any more (`Session.StaysUp`). So
what a pass of which nothing is refused leaves the engine with is settled by what the engine took when the
delay ended (`Session.mem_bound_runPass_iff`).
-/

namespace Softphone

/-! ## Timers that fire once -/

namespace Timers

variable {t t' : Timers} {x y : Timer} {kind : TimerKind}

theorem eq_of_countKind_le_one (h : t.countKind kind ≤ 1) (hx : x ∈ t.active) (hxkind : x.kind = kind)
    (hy : y ∈ t.active) (hykind : y.kind = kind) : x = y := by
  have hxmem : x ∈ t.active.filter (·.kind = kind) := List.mem_filter.2 ⟨hx, decide_eq_true hxkind⟩
  have hymem : y ∈ t.active.filter (·.kind = kind) := List.mem_filter.2 ⟨hy, decide_eq_true hykind⟩
  rw [countKind, List.countP_eq_length_filter] at h
  obtain ⟨z, hz⟩ := List.length_eq_one_iff.1 (Nat.le_antisymm h (List.length_pos_of_mem hxmem))
  rw [hz, List.mem_singleton] at hxmem hymem
  exact hxmem.trans hymem.symm

/-- The timers for the delay of a hotspot do not repeat. -/
def DelaysOnce (t : Timers) : Prop :=
  ∀ timer ∈ t.active, timer.kind = .hotspotDebounce → timer.repeats = false

namespace DelaysOnce

theorem of_none (hnone : t.active = []) : t.DelaysOnce := by
  rw [DelaysOnce, hnone]
  exact List.forall_mem_nil _

theorem of_sublist (h : t.DelaysOnce) (hactive : t'.active.Sublist t.active) : t'.DelaysOnce :=
  fun timer htimer => h timer (hactive.subset htimer)

theorem spared (h : t.DelaysOnce) (hnumbered : t.Numbered)
    (hspares : t.Spares (· == .hotspotDebounce) t') : t'.DelaysOnce := by
  intro timer htimer hkind
  have hmem : timer ∈ t'.active.filter (·.kind == .hotspotDebounce) :=
    List.mem_filter.2 ⟨htimer, beq_iff_eq.2 hkind⟩
  rw [hspares.filter_eq hnumbered] at hmem
  exact h timer (List.mem_filter.1 hmem).1 hkind

theorem scheduleOnce (h : t.DelaysOnce) (kind : TimerKind) (delay : Nat) :
    (t.scheduleOnce kind delay).2.DelaysOnce :=
  List.forall_mem_append.2 ⟨h, List.forall_mem_singleton.2 fun _ => rfl⟩

theorem cancelKind (h : t.DelaysOnce) (kind : TimerKind) : (t.cancelKind kind).DelaysOnce :=
  h.of_sublist List.filter_sublist

/-- The only timer of a delay is used up by its firing. -/
theorem isActive_accept (h : t.DelaysOnce) (hnumbered : t.Numbered)
    (hsingle : t.countKind .hotspotDebounce ≤ 1) {firing : Firing} (hkind : firing.kind = .hotspotDebounce)
    (haccepted : (t.accept firing).1 = true) : (t.accept firing).2.isActive .hotspotDebounce = false := by
  obtain ⟨timer, htimer, rfl⟩ := (accept_eq_true_iff hnumbered).1 haccepted
  rw [accept_of_mem hnumbered htimer, h timer htimer hkind, isActive, List.any_eq_false]
  intro other hother hdelays
  obtain ⟨hactive, hid⟩ := List.mem_filter.1 hother
  have hsame := eq_of_countKind_le_one hsingle hactive (of_decide_eq_true hdelays) htimer hkind
  exact of_decide_eq_true hid (congrArg Timer.id hsame)

end DelaysOnce

end Timers

namespace Session

variable {σ : Type} {s s' s'' : Session σ}

/-! ## As long as the hotspot is on -/

/-- The networks are followed, and the hotspot is on. -/
structure HotspotUp (s : Session σ) : Prop where
  running : s.mobility.running = true
  on : s.mobility.hotspotOn = true

/-- The hotspot stays on, and nothing that is known of it is forgotten. -/
structure StaysUp (s s' : Session σ) : Prop where
  up : s'.HotspotUp
  settings : s'.mobility.settings = s.mobility.settings
  known : s.mobility.hotspotAddresses.addresses ⊆ s'.mobility.hotspotAddresses.addresses
  /-- Once the delay is over no more is found. -/
  settled : s.timers.isActive .hotspotDebounce = false →
    s'.mobility.hotspotAddresses = s.mobility.hotspotAddresses ∧
      s'.timers.isActive .hotspotDebounce = false

namespace StaysUp

theorem refl (h : s.HotspotUp) : s.StaysUp s := ⟨h, rfl, List.Subset.refl _, fun hnone => ⟨rfl, hnone⟩⟩

theorem trans (h : s.StaysUp s') (h' : s'.StaysUp s'') : s.StaysUp s'' where
  up := h'.up
  settings := h'.settings.trans h.settings
  known := List.Subset.trans h.known h'.known
  settled hnone := by
    obtain ⟨hknown, hnone'⟩ := h.settled hnone
    obtain ⟨hknown', hnone''⟩ := h'.settled hnone'
    exact ⟨hknown'.trans hknown, hnone''⟩

theorem kept (h : s.HotspotUp) (hnumbered : s.timers.Numbered) (hkeeps : s.KeepsNetwork s') :
    s.StaysUp s' where
  up := ⟨hkeeps.running.trans h.running, hkeeps.hotspotOn.trans h.on⟩
  settings := hkeeps.resolvers.1
  known := by rw [hkeeps.hotspotAddresses]; exact List.Subset.refl _
  settled hnone := ⟨hkeeps.hotspotAddresses, (hkeeps.debounce.isActive hnumbered rfl).trans hnone⟩

end StaysUp

/-! ## Messages -/

variable [Host σ]

theorem delaysOnce_reported (h : s.timers.DelaysOnce) (enabled : Bool) :
    (s.mobility.onHotspotChanged enabled s.timers s.world).2.1.DelaysOnce := by
  rcases s.mobility.onHotspotChanged_cases enabled s.timers s.world with
    ⟨-, heq⟩ | ⟨-, -, heq⟩ | ⟨-, -, _, _, _, heq⟩
  · rw [heq]
    exact h
  · rw [heq]
    exact (h.cancelKind _).scheduleOnce _ _
  · rw [heq]
    exact (h.cancelKind _).cancelKind _

theorem delaysOnce_debounced (h : s.timers.DelaysOnce) (firing : Firing) :
    (s.mobility.onHotspotDebounce (s.timers.accept firing).2 s.world).2.1.DelaysOnce := by
  have htaken : (s.timers.accept firing).2.DelaysOnce := h.of_sublist Timers.accept_active_sublist
  cases hon : s.mobility.hotspotOn with
  | false =>
    rw [Mobility.onHotspotDebounce_off hon]
    exact htaken
  | true =>
    obtain ⟨_, t, ht, heq⟩ := Mobility.onHotspotDebounce_on (w := s.world)
      (t := (s.timers.accept firing).2) hon
    rw [heq]
    rcases ht with rfl | ⟨delay, rfl⟩
    · exact htaken
    · exact htaken.scheduleOnce _ _

theorem delaysOnce_handle (h : s.timers.DelaysOnce) (hnumbered : s.timers.Numbered) (input : Input) :
    (s.handle input).timers.DelaysOnce := by
  have hstep := networkStep_handle (s := s) input
  generalize s.handle input = s' at hstep ⊢
  cases hstep with
  | kept _ _ _ hkeeps => exact h.spared hnumbered hkeeps.debounce
  | reported enabled => exact delaysOnce_reported h enabled
  | debounced _ => exact delaysOnce_debounced h _
  | began hbegins hspares =>
    have hkeeps := (keepsNetwork_of_begins? hbegins).1
    have hbegun := h.spared hnumbered hkeeps.debounce
    exact hbegun.spared (hkeeps.debounce.numbered hnumbered) hspares.keeps.debounce
  | stopped _ hkeeps =>
    have hnone : s.halted.timers.DelaysOnce := .of_none active_halted
    exact hnone.spared (numbered_halted hnumbered) hkeeps.debounce

/-- A firing at the end of the delay is dealt with by offering what is found. -/
theorem handle_of_takesFiring {input : Input} (hfiring : s.takesFiring .hotspotDebounce input = true) :
    ∃ firing, input = .firing firing ∧ firing.kind = .hotspotDebounce ∧ (s.timers.accept firing).1 = true ∧
      s.handle input = s.withNetwork (s.mobility.onHotspotDebounce (s.timers.accept firing).2 s.world) := by
  have hstep := networkStep_handle (s := s) input
  generalize s.handle input = s' at hstep ⊢
  cases hstep with
  | kept _ hother _ _ =>
    rw [hfiring] at hother
    cases hother
  | reported enabled => cases hfiring
  | @debounced firing _ =>
    rw [takesFiring, Bool.and_eq_true, beq_iff_eq] at hfiring
    exact ⟨firing, rfl, hfiring.1, hfiring.2, rfl⟩
  | began hbegins _ =>
    cases input with
    | firing firing => cases hbegins
    | _ => cases hfiring
  | stopped hends _ =>
    cases input with
    | firing firing => cases hends
    | _ => cases hfiring

theorem StaysUp.debounced (h : s.HotspotUp) (hnumbered : s.timers.Numbered) {firing : Firing}
    (hfiring : s.takesFiring .hotspotDebounce (.firing firing) = true) :
    s.StaysUp (s.withNetwork (s.mobility.onHotspotDebounce (s.timers.accept firing).2 s.world)) := by
  obtain ⟨_, t, -, heq⟩ := Mobility.onHotspotDebounce_on (w := s.world) (t := (s.timers.accept firing).2) h.on
  rw [heq]
  refine ⟨?_, ?_, ?_, fun hnone => ?_⟩
  · rw [Mobility.addHotspot_mobility]
    exact ⟨h.running, h.on⟩
  · rw [Mobility.addHotspot_mobility]
    rfl
  · exact fun a hknown => (Mobility.mem_hotspotAddresses_addHotspot_iff _ _ _).2 (.inl hknown)
  · -- A timer fired, so one was active.
    rw [takesFiring, Bool.and_eq_true, beq_iff_eq] at hfiring
    obtain ⟨timer, htimer, rfl⟩ := (Timers.accept_eq_true_iff hnumbered).1 hfiring.2
    rw [Timers.isActive, List.any_eq_false] at hnone
    exact absurd (decide_eq_true hfiring.1) (hnone timer htimer)

/-- The end of the delay of a hotspot that is on: its timer is used up, and of what was offered the addresses
that the engine took are known from then on. -/
theorem debounced_hotspot {past : List (Session σ × Input)} (h : Debounced past s)
    (honce : s.timers.DelaysOnce) (hup : s.HotspotUp) {input : Input}
    (hfiring : s.takesFiring .hotspotDebounce input = true) :
    (s.handle input).HotspotUp ∧ (s.handle input).timers.isActive .hotspotDebounce = false ∧
      ∀ a, a ∈ (s.handle input).mobility.hotspotAddresses.addresses ↔
        a ∈ s.mobility.hotspotAddresses.addresses ∨
          ∃ name, .addAddress a name true ∈ (s.handle input).world.since s.world := by
  obtain ⟨firing, rfl, hkind, haccepted, hhandled⟩ := handle_of_takesFiring hfiring
  obtain ⟨_, t, ht, heq⟩ := Mobility.onHotspotDebounce_on (w := s.world)
    (t := (s.timers.accept firing).2) hup.on
  have hused := honce.isActive_accept h.numbered h.single hkind haccepted
  have hstays := StaysUp.debounced hup h.numbered hfiring
  rw [hhandled]
  refine ⟨hstays.up, ?_, ?_⟩
  · rw [heq]
    rcases ht with rfl | ⟨delay, rfl⟩
    · exact hused
    · rw [withNetwork_timers, Timers.isActive_scheduleOnce, hused]
      rfl
  · rw [heq]
    exact fun a => Mobility.mem_hotspotAddresses_addHotspot_iff _ _ _

/-- A message that neither reports the hotspot off nor ends the session leaves the hotspot up. -/
theorem StaysUp.handle (h : s.HotspotUp) (hnumbered : s.timers.Numbered) {input : Input}
    (hreport : input.hotspotReport? ≠ some false) (hgoes : input.ends = false) :
    s.StaysUp (s.handle input) := by
  have hstep := networkStep_handle (s := s) input
  generalize s.handle input = s' at hstep ⊢
  cases hstep with
  | kept _ _ _ hkeeps => exact .kept h hnumbered hkeeps
  | reported enabled =>
    obtain rfl : enabled = true := by
      cases enabled with
      | true => rfl
      | false => exact absurd rfl hreport
    rw [Mobility.onHotspotChanged_same h.on]
    exact .refl h
  | debounced hfiring => exact .debounced h hnumbered hfiring
  | began hbegins _ =>
    have hidle := (keepsNetwork_of_begins? hbegins).2
    rw [h.running] at hidle
    cases hidle
  | stopped hends _ =>
    rw [hgoes] at hends
    cases hends

theorem StaysUp.runPass (h : s.HotspotUp) : s.StaysUp s.runPass := by
  obtain ⟨htimers, hrunning, hon, haddresses⟩ := s.runPass_hotspot
  exact
    { up := ⟨hrunning.trans h.running, hon.trans h.on⟩
      settings := settings_runPass
      known := by rw [haddresses]; exact List.Subset.refl _
      settled := fun hnone => ⟨haddresses, htimers ▸ hnone⟩ }

/-! ## What was found -/

/-- At the end of the delay, while the networks are followed, an address of the hotspot is found. -/
structure FindsDelayed (s : Session σ) (input : Input) (a : Address) : Prop where
  fires : s.takesFiring .hotspotDebounce input = true
  up : s.HotspotUp
  found : a ∈ (s.mobility.offered s.world.platform).map (·.1)

/-- Where the networks begin to be followed, an address of the wanted family is found of a hotspot that is on.
-/
structure FindsFirst (s : Session σ) (input : Input) (a : Address) : Prop where
  begins : ∃ s₀, s.begins? input = some s₀ ∧ s₀.world.platform.hotspotEnabled = true ∧
    a ∈ (Hotspot.discover s₀.world.platform.interfaces).addresses
  admitted : s.mobility.settings.family.admits a = true

theorem FindsDelayed.admitted {s : Session σ} {input : Input} {a : Address} (h : s.FindsDelayed input a) :
    s.mobility.settings.family.admits a = true := by
  obtain ⟨e, he, rfl⟩ := List.mem_map.1 h.found
  exact (List.mem_filter.1 he).2

/-- What is found where the networks begin to be followed is known, whatever the engine makes of it. -/
theorem FindsFirst.known {s : Session σ} {input : Input} {a : Address} (h : s.FindsFirst input a) :
    (s.handle input).HotspotUp ∧ a ∈ (s.handle input).mobility.hotspotAddresses.addresses := by
  obtain ⟨s₀, hbegins, henabled, hfound⟩ := h.begins
  have hstep := networkStep_handle (s := s) input
  generalize s.handle input = s' at hstep ⊢
  cases hstep with
  | kept _ _ hnone _ =>
    rw [hbegins] at hnone
    cases hnone
  | reported enabled | debounced _ => cases hbegins
  | began hbegins' hspares =>
    obtain rfl := Option.some.inj (hbegins.symm.trans hbegins')
    obtain ⟨-, hrunning, hon, haddresses⟩ := s₀.begun_hotspot
    rw [if_pos henabled] at haddresses
    have hkeeps := hspares.keeps
    refine ⟨⟨hkeeps.running.trans hrunning, hkeeps.hotspotOn.trans (hon.trans henabled)⟩, ?_⟩
    rw [hkeeps.hotspotAddresses, haddresses]
    exact hfound
  | stopped hends _ =>
    rw [begins?_of_ends hends] at hbegins
    cases hbegins

/-! ## Passes -/

/-- A pass runs, and the engine refuses no change. -/
structure PassesAccepted (s : Session σ) : Prop where
  pending : s.mobility.pending = true
  accepted : ∀ e ∈ s.runPass.world.since s.world, e.isRefusal = false

/-- A pass of which nothing is refused leaves the engine with the addresses that are known of the hotspot,
those of the networks, and those that it has without the snapshot. -/
theorem mem_bound_runPass_iff (hheld : s.Held) (hup : s.HotspotUp) (hpass : s.PassesAccepted) {a : Address}
    (hadmitted : s.mobility.settings.family.admits a = true) :
    a ∈ s.runPass.world.bound.addresses ↔ a ∈ s.mobility.hotspotAddresses.addresses ∨
      a ∈ (Snapshot.collect s.surveyed s.mobility.settings.family).addresses.addresses ∨
      a ∈ s.world.bound.addresses ∧ a ∉ s.mobility.snapshot.addresses.addresses := by
  have hpassed : s.runPass = s.passed := runPass_of_pending hpass.pending hup.running
  have htrace := s.mobility.takePending.2.reconcile_trace s.world
  have haccepted : ∀ e ∈ s.mobility.takePending.2.passEffects s.world, e.isRefusal = false := by
    rw [← World.since_eq htrace, ← passed_world, ← hpassed]
    exact hpass.accepted
  have hwanted : a ∈ (s.mobility.takePending.2.wanted s.surveyed).addresses.addresses ↔
      a ∈ (Snapshot.collect s.surveyed s.mobility.settings.family).addresses.addresses ∨
        (s.mobility.hotspotOn = true ∧ s.mobility.settings.family.admits a = true) ∧
          a ∈ s.mobility.hotspotAddresses.addresses := Mobility.mem_wanted_iff
  have hbound : a ∈ (s.mobility.takePending.2.reconcile s.world).2.2.bound.addresses ↔
      a ∈ (s.mobility.takePending.2.wanted s.surveyed).addresses.addresses ∨
        a ∈ s.world.bound.addresses ∧ a ∉ s.mobility.snapshot.addresses.addresses :=
    Mobility.mem_bound_reconcile_of_accepted haccepted hheld
  rw [hpassed, passed_world, hbound, hwanted, and_iff_right ⟨hup.on, hadmitted⟩, or_assoc, or_left_comm]

end Session

end Softphone
