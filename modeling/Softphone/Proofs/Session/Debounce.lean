import Softphone.Proofs.Since
import Softphone.Proofs.Session.Networks
import Softphone.Proofs.Timers.Course

/-!
# The first timer of a hotspot

When a hotspot comes up its first timer is set, and of these there is one at most. As long as the hotspot is
on, the one that is set was set when the hotspot came up last, and it was not reported off since
(`Session.Debounced`); so a firing that adds addresses is one of that timer
(`Session.armedSince_of_addsByDebounce`). Where the networks begin to be followed the hotspot may be found off
while its timer is still set. That timer never adds anything, for the hotspot comes on again only with a
report, which cancels it.
-/

namespace Softphone

variable {σ : Type}

namespace Session

variable {s s' s₀ : Session σ} {past : List (Session σ × Input)} {id : TimerId}

/-- A hotspot that was off is reported on. -/
def ComesUp (s : Session σ) (input : Input) : Prop :=
  input.hotspotReport? = some true ∧ s.mobility.hotspotOn = false

/-- A message of the past brought the hotspot up and set a timer, and since then the hotspot did not come up
again, nor was it reported off. -/
def ArmedSince (past : List (Session σ × Input)) (id : TimerId) : Prop :=
  ∃ before up later, past = before ++ up :: later ∧
    (up.1.ComesUp up.2 ∧ up.1.timers.freshId = id) ∧
    ∀ y ∈ later, ¬ y.1.ComesUp y.2 ∧ y.2.hotspotReport? ≠ some false

theorem armedSince_concat_iff {input : Input} : ArmedSince (past ++ [(s, input)]) id ↔
    (s.ComesUp input ∧ s.timers.freshId = id) ∨
      ArmedSince past id ∧ ¬ s.ComesUp input ∧ input.hotspotReport? ≠ some false := by
  rw [ArmedSince, exists_since_concat_iff]
  rfl

/-- What is known of the first timer of a hotspot, after the messages of the past. -/
structure Debounced (past : List (Session σ × Input)) (s : Session σ) : Prop where
  numbered : s.timers.Numbered
  single : s.timers.countKind .hotspotDebounce ≤ 1
  /-- While the hotspot is on, the timer that is set is that of its last coming up. -/
  armed : s.mobility.hotspotOn = true → ∀ timer ∈ s.timers.active, timer.kind = .hotspotDebounce →
    ArmedSince past timer.id
  /-- Only a beginning leaves a timer to a hotspot that is off. -/
  stray : s.mobility.hotspotOn = false → s.timers.isActive .hotspotDebounce = true →
    s.mobility.running = true

namespace Debounced

theorem new (config : Config) (host : σ) : Debounced [] (Session.new config host) where
  numbered := .empty
  single := Nat.zero_le 1
  armed := nofun
  stray := nofun

/-- Nothing happened to the hotspot, and of its first timers at most some went. -/
theorem keeps (h : Debounced past s) (hnumbered : s'.timers.Numbered)
    (htimers : (s'.timers.active.filter (·.kind == .hotspotDebounce)).Sublist
      (s.timers.active.filter (·.kind == .hotspotDebounce)))
    (hon : s'.mobility.hotspotOn = s.mobility.hotspotOn)
    (hrunning : s'.mobility.running = s.mobility.running) : Debounced past s' := by
  have hearlier : ∀ timer ∈ s'.timers.active, timer.kind = .hotspotDebounce →
      timer ∈ s.timers.active := by
    intro timer htimer hkind
    have hmem := htimers.subset (List.mem_filter.2 ⟨htimer, beq_iff_eq.2 hkind⟩)
    exact (List.mem_filter.1 hmem).1
  refine ⟨hnumbered, ?_, ?_, ?_⟩
  · refine Nat.le_trans ?_ h.single
    rw [Timers.countKind, Timers.countKind, List.countP_eq_length_filter, List.countP_eq_length_filter]
    exact htimers.length_le
  · rw [hon]
    exact fun hup timer htimer hkind => h.armed hup timer (hearlier timer htimer hkind) hkind
  · rw [hon, hrunning]
    intro hoff hactive
    obtain ⟨timer, htimer, hkind⟩ := List.any_eq_true.1 hactive
    have hmem := hearlier timer htimer (of_decide_eq_true hkind)
    exact h.stray hoff (List.any_eq_true.2 ⟨timer, hmem, hkind⟩)

theorem kept (h : Debounced past s) (hkeeps : s.KeepsNetwork s') : Debounced past s' := by
  refine h.keeps (hkeeps.debounce.numbered h.numbered) ?_ hkeeps.hotspotOn hkeeps.running
  rw [hkeeps.debounce.filter_eq h.numbered]

/-- A message that does not report the hotspot off, or finds it off, is one more of the past. -/
theorem concat (h : Debounced past s) {input : Input} (hcomes : ¬ s.ComesUp input)
    (hreport : s.mobility.hotspotOn = true → input.hotspotReport? ≠ some false) :
    Debounced (past ++ [(s, input)]) s where
  numbered := h.numbered
  single := h.single
  armed hon timer htimer hkind :=
    armedSince_concat_iff.2 (.inr ⟨h.armed hon timer htimer hkind, hcomes, hreport hon⟩)
  stray := h.stray

/-- With no first timer set there is nothing to know of it. -/
theorem of_none (hnumbered : s.timers.Numbered) (hnone : s.timers.isActive .hotspotDebounce = false) :
    Debounced past s where
  numbered := hnumbered
  single := by
    rw [Timers.countKind_eq_zero_iff.2 hnone]
    exact Nat.zero_le 1
  armed _ timer htimer hkind := by
    rw [Timers.isActive, List.any_eq_false] at hnone
    exact absurd (decide_eq_true hkind) (hnone timer htimer)
  stray _ hactive := by
    rw [hnone] at hactive
    cases hactive

end Debounced

/-! ## Reports -/

section Reports

variable [Engine σ]

/-- The hotspot comes up: the timers of earlier ones are cancelled, and its own is set. -/
theorem Debounced.comesUp (h : Debounced past s) (hoff : s.mobility.hotspotOn = false) :
    Debounced (past ++ [(s, .notification (.network (.hotspotChanged true)))])
      (s.withNetwork (s.mobility.onHotspotChanged true s.timers s.world)) := by
  have hnumbered := Mobility.numbered_onHotspotChanged h.numbered s.mobility true s.world
  rw [Mobility.onHotspotChanged_up hoff] at hnumbered ⊢
  have hcancelled : (s.timers.cancelKind .hotspotDebounce).isActive .hotspotDebounce = false := by
    rw [Timers.isActive_cancelKind]
    simp
  refine ⟨hnumbered, ?_, fun _ timer htimer hkind => ?_, fun hstays => ?_⟩
  · rw [withNetwork_timers, Timers.countKind_scheduleOnce,
      Timers.countKind_eq_zero_iff.2 hcancelled]
    exact Nat.le_refl 1
  · refine armedSince_concat_iff.2 (.inl ⟨⟨rfl, hoff⟩, ?_⟩)
    rcases List.mem_append.1 htimer with hother | hnew
    · rw [Timers.isActive, List.any_eq_false] at hcancelled
      exact absurd (decide_eq_true hkind) (hcancelled timer hother)
    · rw [List.mem_singleton.1 hnew]
      rfl
  · cases hstays

theorem Debounced.reported (h : Debounced past s) (enabled : Bool) :
    Debounced (past ++ [(s, .notification (.network (.hotspotChanged enabled)))])
      (s.withNetwork (s.mobility.onHotspotChanged enabled s.timers s.world)) := by
  have hnumbered := Mobility.numbered_onHotspotChanged h.numbered s.mobility enabled s.world
  rcases s.mobility.onHotspotChanged_cases enabled s.timers s.world with
    ⟨hsame, heq⟩ | ⟨rfl, hoff, -⟩ | ⟨rfl, -, _, _, _, heq⟩
  · rw [heq]
    refine h.concat ?_ ?_
    · rintro ⟨hreport, hoff⟩
      obtain rfl : enabled = true := Option.some.inj hreport
      rw [hsame] at hoff
      cases hoff
    · rintro hon hreport
      obtain rfl : enabled = false := Option.some.inj hreport
      rw [hsame] at hon
      cases hon
  · exact h.comesUp hoff
  · rw [heq] at hnumbered ⊢
    refine .of_none hnumbered ?_
    rw [withNetwork_timers, Timers.isActive_cancelKind, Timers.isActive_cancelKind]
    simp

end Reports

/-! ## Messages -/

variable [Host σ]

/-- The delay after a hotspot came up is over. -/
theorem Debounced.debounced (h : Debounced past s) (firing : Firing) :
    Debounced past
      (s.withNetwork (s.mobility.onHotspotDebounce (s.timers.accept firing).2 s.world)) := by
  have hnumbered := Mobility.numbered_onHotspotDebounce (h.numbered.accept firing) s.mobility s.world
  have htaken : ((s.timers.accept firing).2.active.filter (·.kind == .hotspotDebounce)).Sublist
      (s.timers.active.filter (·.kind == .hotspotDebounce)) :=
    Timers.accept_active_sublist.filter _
  cases hon : s.mobility.hotspotOn with
  | false =>
    rw [Mobility.onHotspotDebounce_off hon] at hnumbered ⊢
    exact h.keeps hnumbered htaken rfl rfl
  | true =>
    obtain ⟨_, t, ht, heq⟩ := Mobility.onHotspotDebounce_on (w := s.world)
      (t := (s.timers.accept firing).2) hon
    rw [heq, Mobility.addHotspot_mobility] at hnumbered ⊢
    refine h.keeps hnumbered ?_ rfl rfl
    rcases ht with rfl | ⟨delay, rfl⟩
    · exact htaken
    · have hspares : (s.timers.accept firing).2.Spares (· == .hotspotDebounce)
          ((s.timers.accept firing).2.scheduleOnce .hotspotFollowUp delay).2 := .scheduleOnce rfl _ _
      rw [withNetwork_timers, hspares.filter_eq (h.numbered.accept firing)]
      exact htaken

/-- Where the networks begin to be followed, a timer that is set is that of a hotspot that was on. -/
theorem Debounced.begun (h : Debounced past s) (hidle : s.mobility.running = false) :
    Debounced past s.begun := by
  obtain ⟨htimers, hrunning, -, -⟩ := s.begun_hotspot
  refine ⟨htimers ▸ h.numbered, htimers ▸ h.single, fun _ => ?_, fun _ _ => hrunning⟩
  rw [htimers]
  intro timer htimer hkind
  refine h.armed ?_ timer htimer hkind
  by_contra hoff
  have hactive : s.timers.isActive .hotspotDebounce = true :=
    List.any_eq_true.2 ⟨timer, htimer, decide_eq_true hkind⟩
  rw [h.stray (Bool.eq_false_iff.2 hoff) hactive] at hidle
  cases hidle

/-- **Every message keeps what is known of the first timer of a hotspot.** -/
theorem Debounced.handle (h : Debounced past s) (input : Input) :
    Debounced (past ++ [(s, input)]) (s.handle input) := by
  have hplain : input.hotspotReport? = none → Debounced (past ++ [(s, input)]) s := by
    intro hnone
    refine h.concat (fun hcomes => ?_) (fun _ hreport => ?_)
    · rw [ComesUp, hnone] at hcomes
      cases hcomes.1
    · rw [hnone] at hreport
      cases hreport
  have hstep := networkStep_handle (s := s) input
  generalize s.handle input = s' at hstep ⊢
  cases hstep with
  | kept hreport _ _ hkeeps => exact (hplain hreport).kept hkeeps
  | reported enabled => exact h.reported enabled
  | debounced _ => exact (hplain rfl).debounced _
  | began hbegins hspares =>
    obtain ⟨hkeeps, hidle⟩ := keepsNetwork_of_begins? hbegins
    have hstarts := (hplain (hotspotReport?_of_begins? hbegins)).kept hkeeps
    exact (hstarts.begun (hkeeps.running.trans hidle)).kept hspares.keeps
  | stopped hends hkeeps =>
    have hhalted : Debounced (past ++ [(s, input)]) s.halted :=
      .of_none (numbered_halted h.numbered) (isActive_halted _)
    exact hhalted.kept hkeeps

theorem Debounced.runPass (h : Debounced past s) : Debounced past s.runPass := by
  obtain ⟨htimers, hrunning, hon, -⟩ := s.runPass_hotspot
  refine h.keeps (htimers ▸ h.numbered) ?_ hon hrunning
  rw [htimers]

/-! ## What firings add -/

/-- The firing of a first timer of a hotspot lets the engine be asked to add an address. -/
def AddsByDebounce (s : Session σ) (firing : Firing) : Prop :=
  firing.kind = .hotspotDebounce ∧
    ∃ e ∈ (s.handle (.firing firing)).world.since s.world, e.isAddition = true

/-- **A firing that adds addresses is in time.** It is one of the timer that was set when the hotspot came up
last, and the hotspot was not reported off since. -/
theorem armedSince_of_addsByDebounce (h : Debounced past s) {firing : Firing}
    (hadds : s.AddsByDebounce firing) : ArmedSince past firing.id := by
  obtain ⟨hkind, e, he, haddition⟩ := hadds
  have hstep := networkStep_handle (s := s) (.firing firing)
  generalize s.handle (.firing firing) = s' at hstep he
  cases hstep with
  | kept _ _ _ hkeeps =>
    -- What asks for a pass at most adds nothing.
    have hspares := hkeeps.world.of_mem_since he
    cases e with
    | addAddress => cases hspares
    | _ => cases haddition
  | debounced hfiring =>
    rw [takesFiring, Bool.and_eq_true] at hfiring
    obtain ⟨timer, htimer, rfl⟩ := (Timers.accept_eq_true_iff h.numbered).1 hfiring.2
    refine h.armed ?_ timer htimer hkind
    by_contra hoff
    rw [Mobility.onHotspotDebounce_off (Bool.eq_false_iff.2 hoff), withNetwork_world,
      World.since_self] at he
    cases he
  | began hbegins => cases hbegins
  | stopped hends => cases hends

end Session

end Softphone
