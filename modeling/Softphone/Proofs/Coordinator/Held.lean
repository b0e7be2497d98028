import Softphone.Proofs.Coordinator.Hotspot
import Softphone.Proofs.Session.Held

/-!
# Addresses that are removed along a run

The engine is asked to let go only of addresses that it has, exactly along the runs in which no hotspot goes
down while the engine is without one of its known addresses (`Coordinator.removesHeld_runMoves_iff`).
-/

namespace Softphone.Coordinator

variable {σ : Type} [Host σ] {c : Coordinator σ}

/-- **Only what the engine has is removed.** With any settings, whatever the platform tells and whatever
the engine refuses, every removal of a run finds its address with the engine, exactly if the run deals with
no report that a hotspot went down while the engine is without one of its known addresses. -/
theorem removesHeld_runMoves_iff {config : Config} {host : σ} (hstart : start config host = .ok c)
    (ms : List (Move σ)) :
    (c.runMoves ms).session.world.RemovesHeld ↔ ∀ x ∈ c.dealtAlong ms, ¬ x.1.RemovesUnheld x.2 := by
  refine And.right (dealt_induction
    (P := fun past s => s.Held ∧
      (s.world.RemovesHeld ↔ ∀ x ∈ past, ¬ x.1.RemovesUnheld x.2)) ?_ ?_ ?_ ?_ ms)
  · rintro past s s' haside ⟨hheld, hremoves⟩
    have hkeeps := haside.keepsNetwork.keepsAddresses
    rw [hkeeps.removesHeld_iff]
    exact ⟨hkeeps.held hheld, hremoves⟩
  · rintro past s input ⟨hheld, hremoves⟩
    rw [Session.removesHeld_handle_iff, hremoves, List.forall_mem_append, List.forall_mem_singleton]
    exact ⟨hheld.handle input, Iff.rfl⟩
  · rintro past s ⟨hheld, hremoves⟩
    obtain ⟨hpassed, hpass⟩ := hheld.runPass
    rw [hpass]
    exact ⟨hpassed, hremoves⟩
  · rw [session_of_start hstart]
    exact ⟨List.forall_mem_nil _, iff_of_true .nil (List.forall_mem_nil _)⟩

/-- The hotspot that came up after the sign-in goes down, and its address is removed from the engine. -/
theorem removesHeld_hotspotDown : start {} ({} : Bench) = .ok onBench ∧
    (onBench.runMoves hotspotDown).session.world.trace.countP Effect.isRemoval = 1 ∧
    (onBench.runMoves hotspotDown).session.world.RemovesHeld := by
  have hspares : ∀ x ∈ onBench.dealtAlong hotspotDown, ¬ x.1.RemovesUnheld x.2 := by decide
  exact ⟨start_onBench, by decide, (removesHeld_runMoves_iff start_onBench hotspotDown).2 hspares⟩

/-- A coordinator on a bench that uses IPv6 only. -/
def onV6Bench : Coordinator Bench :=
  { onBench with session := .new { network.family := .v6Only } {} }

/-- An account signs in while a hotspot is on that has an address of the other family, and then the hotspot
goes down. -/
def otherFamily : List (Move Bench) :=
  [.surroundings { networks := { interfaces := [⟨"ap0", [.v4 0xC0A82B01]⟩], hotspotEnabled := true } },
    .ask ⟨0⟩ (.signIn bob), .loop, .notify ⟨1⟩ (.network (.hotspotChanged false)), .loop]

/-- The address of the hotspot is removed although the engine was never given an address. -/
theorem otherFamily_removes_unheld :
    start { network.family := .v6Only } ({} : Bench) = .ok onV6Bench ∧
    (onV6Bench.runMoves otherFamily).session.world.trace.countP Effect.isAddition = 0 ∧
    .removeAddress (.v4 0xC0A82B01) true ∈
      (onV6Bench.runMoves otherFamily).session.world.trace ∧
    ¬ (onV6Bench.runMoves otherFamily).session.world.RemovesHeld := by
  have hremoval : (onV6Bench.runMoves otherFamily).session.world.trace =
      (onV6Bench.runMoves otherFamily).session.world.trace.take 4 ++
        .removeAddress (.v4 0xC0A82B01) true ::
          (onV6Bench.runMoves otherFamily).session.world.trace.drop 5 := by decide
  refine ⟨rfl, by decide, by decide, fun hheld => ?_⟩
  have hunheld := hheld _ _ _ hremoval _ _ rfl
  revert hunheld
  decide

end Softphone.Coordinator
