import Softphone.Proofs.Coordinator.Dealt
import Softphone.Proofs.Coordinator.Resetting
import Softphone.Proofs.Session.Early

/-!
# The transport along a run

Nothing touches the engine's transport before an agent was made, exactly along the runs that deal with no
firing which finds a hotspot before (`Coordinator.transportWaits_iff`).
-/

namespace Softphone.Coordinator

variable {σ : Type} [Host σ] {c : Coordinator σ}

/-- **Nothing touches the transport before there is an agent.** With any notifications, reports, requests and
firings, whatever platform and engine are like, it is so exactly if the run deals with no firing of the first
timer of a hotspot that is on and has addresses to offer while no sign-in has made an agent. -/
theorem transportWaits_iff {config : Config} {host : σ} (hstart : start config host = .ok c)
    (ms : List (Move σ)) :
    (c.runMoves ms).session.world.TransportWaits ↔
      ∀ x ∈ c.dealtAlong ms, ¬ x.1.TouchesEarly x.2 := by
  refine And.left (dealt_induction
    (P := fun past s => (s.world.TransportWaits ↔ ∀ x ∈ past, ¬ x.1.TouchesEarly x.2) ∧
      (s.world.TransportWaits → s.IdleUntilMade)) ?_ ?_ ?_ ?_ ms)
  · rintro past s s' haside ⟨hwaits, hidle⟩
    have hkeeps := haside.keepsNetwork
    rw [World.transportWaits_of_spared hkeeps.world]
    exact ⟨hwaits, fun h => hkeeps.idleUntilMade (hidle h)⟩
  · rintro past s input ⟨hwaits, hidle⟩
    have hhandle := Session.transportWaits_handle_iff hidle input
    rw [hhandle, hwaits, List.forall_mem_append, List.forall_mem_singleton]
    refine ⟨Iff.rfl, fun ⟨hpast, hspares⟩ => ?_⟩
    have hbefore := hwaits.2 hpast
    exact (Session.transportWaits_handle hbefore (hidle hbefore) hspares).2
  · rintro past s ⟨hwaits, hidle⟩
    obtain ⟨hpass, hidle'⟩ := Session.transportWaits_runPass_iff hidle
    rw [hpass]
    exact ⟨hwaits, hidle'⟩
  · rw [session_of_start hstart]
    exact ⟨iff_of_true EachAfter.nil (List.forall_mem_nil _), fun _ _ => ⟨rfl, rfl⟩⟩

/-- After a sign-in a hotspot comes up, and its address is added once there is an agent. -/
theorem transportWaits_hotspotUp : start {} ({} : Bench) = .ok onBench ∧
    (onBench.runMoves hotspotUp).session.world.trace.countP Effect.isTransport = 1 ∧
    (onBench.runMoves hotspotUp).session.world.TransportWaits := by
  have hspares : ∀ x ∈ onBench.dealtAlong hotspotUp, ¬ x.1.TouchesEarly x.2 := by decide
  exact ⟨start_onBench, by decide, (transportWaits_iff start_onBench hotspotUp).2 hspares⟩

/-- A hotspot comes up although nobody has signed in. -/
def hotspotFirst : List (Move Bench) :=
  [.surroundings { networks := { interfaces := [⟨"ap0", [.v4 0xC0A82B01]⟩] } },
    .notify ⟨0⟩ (.network (.hotspotChanged true)), .loop, .clock 60000, .fire, .loop]

/-- The address of the hotspot is added although no agent is ever made. -/
theorem hotspotFirst_touches_transport : start {} ({} : Bench) = .ok onBench ∧
    (onBench.runMoves hotspotFirst).session.world.made = [] ∧
    (onBench.runMoves hotspotFirst).session.world.trace =
      [.reply ⟨0⟩ (.done (.ok ())), .addAddress (.v4 0xC0A82B01) "ap0" true] ∧
    ¬ (onBench.runMoves hotspotFirst).session.world.TransportWaits := by
  have htrace : (onBench.runMoves hotspotFirst).session.world.trace =
      [.reply ⟨0⟩ (.done (.ok ())), .addAddress (.v4 0xC0A82B01) "ap0" true] := by decide
  refine ⟨start_onBench, by decide, htrace, fun hwaits => ?_⟩
  exact hwaits [.reply ⟨0⟩ (.done (.ok ()))] _ [] htrace rfl rfl

end Softphone.Coordinator
