import Softphone.Proofs.Coordinator.Dealt
import Softphone.Proofs.Coordinator.Resetting
import Softphone.Proofs.Session.Debounce

/-!
# The first timer of a hotspot along a run

However reports on the hotspot, firings and sign-ins follow each other, a firing adds addresses only for the
hotspot that came up last and was not reported off since (`Coordinator.debounce_in_time`).
-/

namespace Softphone.Coordinator

variable {σ : Type} [Host σ] {c : Coordinator σ}

/-- **A hotspot that flaps adds nothing late.** After any moves one first timer of a hotspot is active at
most, and so it is before every message. Every firing of such a timer that leads to an addition is one of the
timer that was set when the hotspot came up last, and no report that the hotspot is off was dealt with
since; it does not matter how long the firing has been queued. -/
theorem debounce_in_time {config : Config} {host : σ} (hstart : start config host = .ok c)
    (ms : List (Move σ)) :
    (c.runMoves ms).session.timers.countKind .hotspotDebounce ≤ 1 ∧
      (∀ x ∈ c.dealtAlong ms, x.1.timers.countKind .hotspotDebounce ≤ 1) ∧
      ∀ before s firing later, c.dealtAlong ms = before ++ (s, .firing firing) :: later →
        s.AddsByDebounce firing → Session.ArmedSince before firing.id := by
  have hrun : Session.Debounced (c.dealtAlong ms) (c.runMoves ms).session ∧
      EachAfter (fun before x => Session.Debounced before x.1) (c.dealtAlong ms) := by
    refine dealt_induction
      (P := fun past s => Session.Debounced past s ∧
        EachAfter (fun before x => Session.Debounced before x.1) past) ?_ ?_ ?_ ?_ ms
    · rintro past s s' haside ⟨hs, hpast⟩
      exact ⟨hs.kept haside.keepsNetwork, hpast⟩
    · rintro past s input ⟨hs, hpast⟩
      exact ⟨hs.handle input, eachAfter_concat_iff.2 ⟨hpast, hs⟩⟩
    · rintro past s ⟨hs, hpast⟩
      exact ⟨hs.runPass, hpast⟩
    · rw [session_of_start hstart]
      exact ⟨.new config host, .nil⟩
  obtain ⟨hlast, hpast⟩ := hrun
  refine ⟨hlast.single, fun x hx => ?_, fun before s firing later heq hadds => ?_⟩
  · obtain ⟨before, later, heq⟩ := List.append_of_mem hx
    exact (hpast before x later heq).single
  · exact Session.armedSince_of_addsByDebounce (hpast before _ later heq) hadds

/-- The timer of a hotspot is due, but the hotspot is reported off and on again before the firing is taken.
Then the second timer is due. -/
def hotspotFlaps : List (Move Bench) :=
  [.ask ⟨0⟩ (.signIn bob), .loop, .notify ⟨1⟩ (.network (.hotspotChanged true)), .loop,
    .surroundings { networks := { interfaces := [⟨"ap0", [.v4 0xC0A82B01]⟩] } },
    .clock 60000, .fire, .notify ⟨2⟩ (.network (.hotspotChanged false)), .loop,
    .notify ⟨3⟩ (.network (.hotspotChanged true)), .loop, .loop, .clock 120000, .fire]

/-- The first firing adds nothing; the second adds the address, and it is one of the second timer. -/
theorem debounce_in_time_hotspotFlaps : start {} ({} : Bench) = .ok onBench ∧
    (onBench.runMoves hotspotFlaps).session.world.trace.countP Effect.isAddition = 0 ∧
    (onBench.runMoves hotspotFlaps).session.AddsByDebounce ⟨⟨2⟩, .hotspotDebounce⟩ ∧
    Session.ArmedSince (onBench.dealtAlong hotspotFlaps) ⟨2⟩ := by
  have hlast : onBench.dealtAlong (hotspotFlaps ++ [.loop]) = onBench.dealtAlong hotspotFlaps ++
      ((onBench.runMoves hotspotFlaps).session, .firing ⟨⟨2⟩, .hotspotDebounce⟩) :: [] := rfl
  have hadds : (onBench.runMoves hotspotFlaps).session.AddsByDebounce ⟨⟨2⟩, .hotspotDebounce⟩ :=
    ⟨rfl, .addAddress (.v4 0xC0A82B01) "ap0" true, by decide, rfl⟩
  obtain ⟨-, -, harmed⟩ := debounce_in_time start_onBench (hotspotFlaps ++ [.loop])
  exact ⟨start_onBench, by decide, hadds, harmed _ _ _ _ hlast hadds⟩

end Softphone.Coordinator
