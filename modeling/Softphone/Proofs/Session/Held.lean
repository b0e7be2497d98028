import Softphone.Proofs.Network.Held
import Softphone.Proofs.Session.Networks

/-!
# Addresses that a session removes

The engine always has what the snapshot of a session says (`Session.Held`). So it is asked to let go of
an address that it does not have by one message only: the report that a hotspot went down of which it does
not have every known address (`Session.RemovesUnheld`).
-/

namespace Softphone.Session

variable {σ : Type} {s s' s'' s₀ : Session σ}

/-- The engine has every address of the stored snapshot. -/
def Held (s : Session σ) : Prop := s.mobility.Held s.world

/-- A message makes the engine be asked for an address that it does not have: the hotspot is reported off, and
one of its known addresses is not among those of the engine. -/
def RemovesUnheld (s : Session σ) (input : Input) : Prop :=
  input.hotspotReport? = some false ∧ s.mobility.hotspotOn = true ∧
    ∃ a ∈ s.mobility.hotspotAddresses.addresses, a ∉ s.world.bound.addresses

instance (s : Session σ) (input : Input) : Decidable (s.RemovesUnheld input) :=
  inferInstanceAs (Decidable (_ ∧ _ ∧ _))

theorem not_removesUnheld {input : Input} (h : input.hotspotReport? = none) :
    ¬ s.RemovesUnheld input := by
  rintro ⟨hreport, -⟩
  rw [h] at hreport
  cases hreport

/-! ## What is left alone -/

/-- What is stored stays, and the engine is not asked to change its addresses. -/
structure KeepsAddresses (s s' : Session σ) : Prop where
  snapshot : s'.mobility.snapshot = s.mobility.snapshot
  world : s.world.Grows (·.isChange = false) s'.world

namespace KeepsAddresses

theorem trans (h : s.KeepsAddresses s') (h' : s'.KeepsAddresses s'') : s.KeepsAddresses s'' :=
  ⟨h'.snapshot.trans h.snapshot, h.world.trans h'.world⟩

theorem held (h : s.KeepsAddresses s') (hheld : s.Held) : s'.Held := by
  rw [Held, Mobility.Held, h.snapshot, World.bound_of_grows h.world]
  exact hheld

theorem removesHeld_iff (h : s.KeepsAddresses s') :
    s'.world.RemovesHeld ↔ s.world.RemovesHeld :=
  World.removesHeld_of_grows (h.world.mono fun _ => Effect.isRemoval_of_not_change)

end KeepsAddresses

theorem KeepsNetwork.keepsAddresses (h : s.KeepsNetwork s') : s.KeepsAddresses s' :=
  ⟨h.snapshot, h.world.mono fun _ => Effect.isChange_of_not_transport⟩

/-- The beginning changes no address, neither what is stored nor what the engine has. -/
theorem keepsAddresses_begun [Engine σ] [Connectivity σ] : s.KeepsAddresses s.begun where
  snapshot := by
    obtain ⟨_, hmobility⟩ := s.begun_mobility
    rw [hmobility]
    rfl
  world := Mobility.grows_start _ _ fun _ _ => rfl

variable [Host σ]

theorem keepsAddresses_halted : s.KeepsAddresses s.halted where
  snapshot := by
    rw [halted_mobility]
  world := sparesTransport_halted.mono fun _ => Effect.isChange_of_not_transport

theorem keepsAddresses_began {input : Input} (hbegins : s.begins? input = some s₀)
    (h : s₀.begun.SparesNetwork s') : s.KeepsAddresses s' :=
  (keepsNetwork_of_begins? hbegins).1.keepsAddresses.trans
    (keepsAddresses_begun.trans h.keeps.keepsAddresses)

/-! ## Messages -/

/-- **The engine keeps having what is stored.** -/
theorem Held.handle (h : s.Held) (input : Input) : (s.handle input).Held := by
  have hstep := networkStep_handle (s := s) input
  generalize s.handle input = s' at hstep ⊢
  cases hstep with
  | kept _ _ _ hkeeps => exact hkeeps.keepsAddresses.held h
  | reported enabled => exact Mobility.Held.onHotspotChanged h enabled s.timers
  | debounced _ => exact Mobility.Held.onHotspotDebounce h _
  | began hbegins hspares => exact (keepsAddresses_began hbegins hspares).held h
  | stopped _ hkeeps => exact (keepsAddresses_halted.trans hkeeps.keepsAddresses).held h

/-- **When a message removes only what the engine has.** -/
theorem removesHeld_handle_iff (input : Input) :
    (s.handle input).world.RemovesHeld ↔ s.world.RemovesHeld ∧ ¬ s.RemovesUnheld input := by
  have hstep := networkStep_handle (s := s) input
  generalize s.handle input = s' at hstep ⊢
  cases hstep with
  | kept hreport _ _ hkeeps =>
    rw [hkeeps.keepsAddresses.removesHeld_iff, and_iff_left (not_removesUnheld hreport)]
  | reported enabled =>
    rw [RemovesUnheld, Input.hotspotReport?, Option.some_inj]
    exact Mobility.removesHeld_onHotspotChanged_iff
  | debounced _ =>
    exact Mobility.removesHeld_onHotspotDebounce.trans (and_iff_left (not_removesUnheld rfl)).symm
  | began hbegins hspares =>
    rw [(keepsAddresses_began hbegins hspares).removesHeld_iff,
      and_iff_left (not_removesUnheld (hotspotReport?_of_begins? hbegins))]
  | stopped hends hkeeps =>
    rw [(keepsAddresses_halted.trans hkeeps.keepsAddresses).removesHeld_iff,
      and_iff_left (not_removesUnheld (Input.hotspotReport?_of_ends hends))]

/-! ## Passes -/

theorem Held.runPass (h : s.Held) :
    s.runPass.Held ∧ (s.runPass.world.RemovesHeld ↔ s.world.RemovesHeld) := by
  rcases s.runPass_cases with hkeeps | ⟨-, hpassed⟩
  · exact ⟨hkeeps.keepsAddresses.held h, hkeeps.keepsAddresses.removesHeld_iff⟩
  · rw [hpassed]
    exact ⟨Mobility.Held.reconcile h, Mobility.removesHeld_reconcile h⟩

end Softphone.Session
