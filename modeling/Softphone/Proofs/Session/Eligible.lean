import Softphone.Proofs.Network.Eligible
import Softphone.Proofs.Session.Resolvers

/-!
# Which addresses a session offers

A message that has the engine be offered addresses has the interfaces of the platform be listed for it
(`Session.enumerates?`), and what is offered stands in that list (`Session.additions_handle`). What a session
knows of a hotspot was in one of the lists so far (`Session.Knows`), and so the same holds of what its passes
add that is on no network (`Session.additions_runPass`).
-/

namespace Softphone

namespace Session

variable {σ : Type} {s s' s₀ : Session σ} {lists : List (List InterfaceInfo)}

/-- Every known address of the hotspot was listed. -/
def Knows (lists : List (List InterfaceInfo)) (s : Session σ) : Prop :=
  ∀ a name, s.mobility.hotspotAddresses.get? a = some name → Hotspot.Listed lists a name

/-- The addresses that came to be offered to the engine between two worlds, with their interfaces. -/
def additionsSince (w earlier : World σ) : List (Address × String) :=
  (w.since earlier).filterMap Effect.addition?

theorem Knows.later (h : s.Knows lists) (more : List (List InterfaceInfo))
    (haddresses : s'.mobility.hotspotAddresses = s.mobility.hotspotAddresses) :
    s'.Knows (lists ++ more) := by
  intro a name hknown
  rw [haddresses] at hknown
  exact (h a name hknown).mono (List.subset_append_left _ _)

theorem knows_of_empty (h : s.mobility.hotspotAddresses = .empty) : s.Knows lists := by
  intro a name hknown
  rw [h] at hknown
  cases hknown

theorem KeepsNetwork.noAdditions (h : s.KeepsNetwork s') :
    s.world.Grows (·.addition? = none) s'.world :=
  h.world.mono fun _ => Effect.addition?_of_not_transport

theorem noneAdded {w w' : World σ} {q : Address × String → Prop} (h : w.Grows (·.addition? = none) w') :
    ∀ e ∈ additionsSince w' w, q e := by
  intro e he
  obtain ⟨effect, heffect, htells⟩ := List.mem_filterMap.1 he
  rw [h.of_mem_since heffect] at htells
  cases htells

variable [Host σ]

/-- The interfaces that the platform lists for a message: at the end of the delay after a hotspot came up, and
where the networks begin to be followed while the hotspot is on. -/
def enumerates? (s : Session σ) (input : Input) : Option (List InterfaceInfo) :=
  if s.takesFiring .hotspotDebounce input && s.mobility.hotspotOn then some s.world.platform.interfaces
  else (((s.begins? input).map (·.world.platform)).filter (·.hotspotEnabled)).map (·.interfaces)

theorem enumerates?_firing {firing : Firing}
    (hfiring : s.takesFiring .hotspotDebounce (.firing firing) = true) (hon : s.mobility.hotspotOn = true) :
    s.enumerates? (.firing firing) = some s.world.platform.interfaces := by
  rw [enumerates?, hfiring, hon]
  rfl

theorem enumerates?_of_begins? {input : Input} (hbegins : s.begins? input = some s₀)
    (henabled : s₀.world.platform.hotspotEnabled = true) :
    s.enumerates? input = some s₀.world.platform.interfaces := by
  have hfiring : s.takesFiring .hotspotDebounce input = false := by
    cases input with
    | command ticket command => rfl
    | _ => cases hbegins
  rw [enumerates?, hfiring, hbegins]
  simp [henabled]

/-! ## Messages -/

theorem Knows.reported (h : s.Knows lists) (enabled : Bool) (more : List (List InterfaceInfo)) :
    (s.withNetwork (s.mobility.onHotspotChanged enabled s.timers s.world)).Knows (lists ++ more) := by
  rcases s.mobility.onHotspotChanged_cases enabled s.timers s.world with
    ⟨-, heq⟩ | ⟨-, -, heq⟩ | ⟨-, -, _, _, _, heq⟩
  · rw [heq]
    exact h.later more rfl
  · rw [heq]
    exact h.later more rfl
  · rw [heq]
    exact knows_of_empty rfl

theorem Knows.debounced (h : s.Knows lists) {firing : Firing}
    (hfiring : s.takesFiring .hotspotDebounce (.firing firing) = true) (timers : Timers) :
    (s.withNetwork (s.mobility.onHotspotDebounce timers s.world)).Knows
      (lists ++ (s.enumerates? (.firing firing)).toList) := by
  cases hon : s.mobility.hotspotOn with
  | false =>
    rw [Mobility.onHotspotDebounce_off hon]
    exact h.later _ rfl
  | true =>
    obtain ⟨_, _, -, heq⟩ := Mobility.onHotspotDebounce_on (w := s.world) (t := timers) hon
    rw [heq, enumerates?_firing hfiring hon]
    intro a name hknown
    rcases Mobility.get?_hotspotAddresses_addHotspot hknown with hold | hoffered
    · exact (h a name hold).mono (List.subset_append_left _ _)
    · have hfound := Hotspot.listed_of_mem_discover (List.mem_of_mem_filter hoffered)
      exact hfound.mono (List.subset_append_right _ _)

theorem Knows.began (h : s.Knows lists) {input : Input} (hbegins : s.begins? input = some s₀) :
    s₀.begun.Knows (lists ++ (s.enumerates? input).toList) := by
  have hkeeps := (keepsNetwork_of_begins? hbegins).1
  obtain ⟨-, -, -, haddresses⟩ := s₀.begun_hotspot
  intro a name hknown
  rw [haddresses] at hknown
  split at hknown
  · rename_i henabled
    rw [enumerates?_of_begins? hbegins henabled]
    have hfound := Hotspot.listed_of_mem_discover (AddressTable.get?_eq_some_iff.1 hknown)
    exact hfound.mono (List.subset_append_right _ _)
  · rw [hkeeps.hotspotAddresses] at hknown
    exact (h a name hknown).mono (List.subset_append_left _ _)

/-- **What is known was listed.** -/
theorem Knows.handle (h : s.Knows lists) (input : Input) :
    (s.handle input).Knows (lists ++ (s.enumerates? input).toList) := by
  have hstep := networkStep_handle (s := s) input
  generalize s.handle input = s' at hstep ⊢
  cases hstep with
  | kept _ _ _ hkeeps => exact h.later _ hkeeps.hotspotAddresses
  | reported enabled => exact h.reported enabled _
  | debounced hfiring => exact h.debounced hfiring _
  | began hbegins hspares =>
    rw [Knows, hspares.mobility]
    exact h.began hbegins
  | stopped _ hkeeps =>
    refine h.later _ ?_
    rw [hkeeps.hotspotAddresses, halted_mobility]

/-- An address that a message may have the engine be offered: it is of the wanted family, and one was listed
for the message that has it. -/
def MayAdd (s : Session σ) (input : Input) (e : Address × String) : Prop :=
  s.mobility.settings.family.admits e.1 = true ∧ Hotspot.Listed (s.enumerates? input).toList e.1 e.2

/-- All that is found at the end of the delay is offered. -/
theorem additions_debounced {firing : Firing}
    (hfiring : s.takesFiring .hotspotDebounce (.firing firing) = true) (timers : Timers) :
    ∀ e ∈ additionsSince (s.mobility.onHotspotDebounce timers s.world).2.2 s.world,
      s.MayAdd (.firing firing) e := by
  cases hon : s.mobility.hotspotOn with
  | false =>
    rw [Mobility.onHotspotDebounce_off hon]
    exact noneAdded .refl
  | true =>
    obtain ⟨_, _, -, heq⟩ := Mobility.onHotspotDebounce_on (w := s.world) (t := timers) hon
    have hgrows : s.world.Grows (·.isAddition = true)
        (s.mobility.addHotspot (s.mobility.offered s.world.platform) s.world).2.2 :=
      Mobility.grows_addHotspot _ _ (fun _ _ _ => rfl) _
    have hadditions := Mobility.additions_addHotspot s.mobility (s.mobility.offered s.world.platform)
      s.world
    rw [hgrows.record_since, List.append_cancel_left_eq] at hadditions
    rw [heq, additionsSince, hadditions]
    intro e he
    obtain ⟨hfound, hadmits⟩ := List.mem_filter.1 he
    refine ⟨hadmits, ?_⟩
    rw [enumerates?_firing hfiring hon]
    exact Hotspot.listed_of_mem_discover hfound

/-- **What a message offers was listed for it.** -/
theorem additions_handle (input : Input) :
    ∀ e ∈ additionsSince (s.handle input).world s.world, s.MayAdd input e := by
  have hstep := networkStep_handle (s := s) input
  generalize s.handle input = s' at hstep ⊢
  cases hstep with
  | kept _ _ _ hkeeps => exact noneAdded hkeeps.noAdditions
  | reported enabled => exact noneAdded (Mobility.grows_onHotspotChanged _ _ (fun _ _ => rfl) _ _)
  | debounced hfiring => exact additions_debounced hfiring _
  | began hbegins hspares =>
    have hbegun := (keepsNetwork_of_begins? hbegins).1.noAdditions
    exact noneAdded (hbegun.trans ((Mobility.grows_start _ _ fun _ _ => rfl).trans
      hspares.keeps.noAdditions))
  | stopped _ hkeeps =>
    have hhalted := sparesTransport_halted (s := s)
    exact noneAdded ((hhalted.mono fun _ => Effect.addition?_of_not_transport).trans hkeeps.noAdditions)

/-! ## Passes -/

theorem Knows.runPass (h : s.Knows lists) : s.runPass.Knows lists := by
  obtain ⟨-, -, -, haddresses⟩ := s.runPass_hotspot
  rw [Knows, haddresses]
  exact h

/-- **What a pass offers** is of the wanted family and on a network of the platform that it surveys, or was
listed. -/
theorem additions_runPass (h : s.Knows lists) :
    ∀ e ∈ additionsSince s.runPass.world s.world,
      s.mobility.settings.family.admits e.1 = true ∧
        (s.surveyed.Offers e.1 e.2 ∨ Hotspot.Listed lists e.1 e.2) := by
  rcases s.runPass_cases with hkeeps | ⟨-, hpassed⟩
  · exact noneAdded hkeeps.noAdditions
  · have hgrows : s.world.Grows (·.isNetwork = true) s.passed.world := Mobility.grows_reconcile _ _
    have hadditions := Mobility.additions_reconcile s.mobility.takePending.2 s.world
    rw [← passed_world, hgrows.record_since, List.append_cancel_left_eq] at hadditions
    rw [hpassed, additionsSince, hadditions]
    intro e he
    obtain ⟨hadmits, hsource⟩ := Mobility.offered_of_mem_added he
    exact ⟨hadmits, hsource.imp_right (h _ _)⟩

theorem settings_runPass : s.runPass.mobility.settings = s.mobility.settings := by
  rcases s.runPass_cases with hkeeps | ⟨-, hpassed⟩
  · exact hkeeps.resolvers.1
  · rw [hpassed, passed_mobility, Mobility.reconcile_mobility]
    rfl

end Session

end Softphone
