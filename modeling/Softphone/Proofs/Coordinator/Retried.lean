import Softphone.Proofs.Coordinator.Acts
import Softphone.Proofs.Session.Retried

/-!
# Addresses of a hotspot that were refused

An address that was found when the networks began to be followed is tried again by every pass. One that was
found at the end of the delay is tried again only if the engine took it then, or if it was known before
(`Coordinator.hotspot_retried_iff`).
-/

namespace Softphone

variable {σ : Type} [Host σ]

namespace Session

variable {s s' : Session σ} {past : List (Session σ × Act)}

/-- What an act reports of the hotspot, if it does. -/
def Act.hotspotReport? : Act → Option Bool
  | .message input => input.hotspotReport?
  | .pass => none

/-- A session keeps track of its hotspot: as long as it is not reported off, nothing is forgotten that was
known of it after some act. -/
structure HotspotKept (past : List (Session σ × Act)) (s : Session σ) : Prop where
  held : s.Held
  debounced : ∃ dealt, Debounced dealt s
  once : s.timers.DelaysOnce
  up : s.ended = false → ∀ before x between, past = before ++ x :: between → (x.1.act x.2).HotspotUp →
    (∀ y ∈ between, y.2.hotspotReport? ≠ some false) → (x.1.act x.2).StaysUp s

namespace HotspotKept

theorem aside (h : s.HotspotKept past) (haside : s.Aside s') : s'.HotspotKept past := by
  have hkeeps := haside.keepsNetwork
  obtain ⟨dealt, hdebounced⟩ := h.debounced
  refine ⟨hkeeps.keepsAddresses.held h.held, ⟨dealt, hdebounced.kept hkeeps⟩,
    h.once.spared hdebounced.numbered hkeeps.debounce, ?_⟩
  intro hlive before x between heq hup hspared
  rw [haside.ended] at hlive
  have hstays := h.up hlive before x between heq hup hspared
  exact hstays.trans (.kept hstays.up hdebounced.numbered hkeeps)

theorem stays (h : s.HotspotKept past) (hup : s.HotspotUp) {act : Act}
    (hreport : act.hotspotReport? ≠ some false) (hlive : (s.act act).ended = false) :
    s.StaysUp (s.act act) := by
  obtain ⟨dealt, hdebounced⟩ := h.debounced
  cases act with
  | message input =>
    have hgoes : s.ended = false ∧ input.ends = false := by
      rw [act, handle_ended, Bool.or_eq_false_iff] at hlive
      exact hlive
    exact .handle hup hdebounced.numbered hreport hgoes.2
  | pass => exact .runPass hup

theorem act (h : s.HotspotKept past) (hlive : s.ended = false) (act : Act) :
    (s.act act).HotspotKept (past ++ [(s, act)]) := by
  obtain ⟨dealt, hdebounced⟩ := h.debounced
  have hkept : (s.act act).Held ∧ (∃ dealt, Debounced dealt (s.act act)) ∧ (s.act act).timers.DelaysOnce := by
    cases act with
    | message input =>
      exact ⟨h.held.handle input, ⟨_, hdebounced.handle input⟩,
        delaysOnce_handle h.once hdebounced.numbered input⟩
    | pass =>
      refine ⟨h.held.runPass.1, ⟨dealt, hdebounced.runPass⟩, ?_⟩
      rw [Session.act, s.runPass_hotspot.1]
      exact h.once
  refine ⟨hkept.1, hkept.2.1, hkept.2.2, ?_⟩
  intro hlater before x between heq hup hspared
  rcases concat_eq_append_cons_iff.1 heq with ⟨-, rfl, -⟩ | ⟨earlier, rfl, hpast⟩
  · exact .refl hup
  · obtain ⟨hearlier, hreport⟩ := List.forall_mem_append.1 hspared
    have hstays := h.up hlive before x earlier hpast hup hearlier
    exact hstays.trans (h.stays hstays.up (hreport _ (List.mem_singleton_self _)) hlater)

end HotspotKept

end Session

namespace Coordinator

variable {c : Coordinator σ}

theorem hotspotKept_actsAlong {config : Config} {host : σ} (hstart : start config host = .ok c)
    (ms : List (Move σ)) : EachAfter (fun before x => x.1.HotspotKept before) (c.actsAlong ms) := by
  refine live_acts_each (P := fun past s => s.HotspotKept past) (fun haside h => h.aside haside)
    (fun act hlive h => h.act hlive act) ?_ ms
  rw [session_of_start hstart]
  exact
    { held := List.forall_mem_nil _
      debounced := ⟨[], .new config host⟩
      once := List.forall_mem_nil _
      up := fun _ before x between heq => by cases before <;> cases heq }

/-- **Which addresses of a hotspot are tried again.** Some addresses of the hotspot are found, it is not
reported off, and later a pass runs of which the engine refuses no change. What was found where the networks
began to be followed, the engine has then, whatever it refused before. What was found at the end of the delay
it has exactly if it took it at that time, or it was known before, or a network has it, or the engine has it
without the snapshot. -/
theorem hotspot_retried_iff {config : Config} {host : σ} (hstart : start config host = .ok c)
    (ms : List (Move σ)) {before between later : List (Session σ × Session.Act)} {s₁ s₂ : Session σ}
    {input : Input} (hrun : c.actsAlong ms =
      before ++ (s₁, .message input) :: (between ++ (s₂, .pass) :: later))
    (hspared : ∀ y ∈ between, y.2.hotspotReport? ≠ some false) (hpass : s₂.PassesAccepted) (a : Address) :
    (s₁.FindsFirst input a → a ∈ s₂.runPass.world.bound.addresses) ∧
      (s₁.FindsDelayed input a →
        (a ∈ s₂.runPass.world.bound.addresses ↔
          (a ∈ s₁.mobility.hotspotAddresses.addresses ∨
            ∃ name, .addAddress a name true ∈ (s₁.handle input).world.since s₁.world) ∨
          a ∈ (Snapshot.collect s₂.surveyed s₂.mobility.settings.family).addresses.addresses ∨
          a ∈ s₂.world.bound.addresses ∧ a ∉ s₂.mobility.snapshot.addresses.addresses)) := by
  have hlater : c.actsAlong ms = (before ++ (s₁, .message input) :: between) ++ (s₂, .pass) :: later := by
    rw [hrun, List.append_assoc, List.cons_append]
  have hkept := hotspotKept_actsAlong hstart ms
  have h₁ : s₁.HotspotKept before := hkept _ _ _ hrun
  have h₂ : s₂.HotspotKept (before ++ (s₁, .message input) :: between) := hkept _ _ _ hlater
  have hlive : s₂.ended = false := live_of_mem_actsAlong ms (s₂, .pass) (by rw [hlater]; simp)
  have hstays : (s₁.handle input).HotspotUp → (s₁.handle input).StaysUp s₂ := fun hup =>
    h₂.up hlive before (s₁, .message input) between rfl hup hspared
  have hbound : (s₁.handle input).HotspotUp → s₁.mobility.settings.family.admits a = true →
      (a ∈ s₂.runPass.world.bound.addresses ↔ a ∈ s₂.mobility.hotspotAddresses.addresses ∨
        a ∈ (Snapshot.collect s₂.surveyed s₂.mobility.settings.family).addresses.addresses ∨
        a ∈ s₂.world.bound.addresses ∧ a ∉ s₂.mobility.snapshot.addresses.addresses) := by
    intro hup hadmitted
    have hsettings := (hstays hup).settings.trans (Session.settings_handle input)
    exact Session.mem_bound_runPass_iff h₂.held (hstays hup).up hpass (hsettings ▸ hadmitted)
  refine ⟨fun hfinds => ?_, fun hfinds => ?_⟩
  · obtain ⟨hup, hknown⟩ := hfinds.known
    exact (hbound hup hfinds.admitted).2 (.inl ((hstays hup).known hknown))
  · obtain ⟨dealt, hdebounced⟩ := h₁.debounced
    obtain ⟨hup, hused, hknown⟩ := Session.debounced_hotspot hdebounced h₁.once hfinds.up hfinds.fires
    rw [hbound hup hfinds.admitted, ((hstays hup).settled hused).1, hknown a]

/-- Two addresses of a hotspot are found at the end of the delay, and the engine refuses the first of them.
Nothing is refused any more when the second timer asks for a pass. -/
def refusedOnce : List (Move Bench) :=
  [.surroundings
      { engine := { unbindable := [.v4 0xC0A82B01] }
        networks := { interfaces := [⟨"ap0", [.v4 0xC0A82B01, .v4 0xC0A82B02]⟩] } },
    .ask ⟨0⟩ (.signIn bob), .loop, .notify ⟨1⟩ (.network (.hotspotChanged true)), .loop,
    .clock 60000, .fire, .loop,
    .surroundings
      { networks := { interfaces := [⟨"ap0", [.v4 0xC0A82B01, .v4 0xC0A82B02]⟩] } },
    .clock 120000, .fire, .loop]

/-- The session when the delay is over. -/
def delayOver : Session Bench := (onBench.runMoves (refusedOnce.take 7)).session

/-- The session when the last pass begins. -/
def triedAgain : Session Bench :=
  (onBench.runMoves (refusedOnce.take 11)).session.handle (.firing ⟨⟨2⟩, .hotspotFollowUp⟩)

theorem actsAlong_refusedOnce : onBench.actsAlong refusedOnce = (onBench.actsAlong refusedOnce).take 4 ++
    (delayOver, .message (.firing ⟨⟨1⟩, .hotspotDebounce⟩)) ::
      (((onBench.actsAlong refusedOnce).drop 5).take 2 ++ (triedAgain, .pass) :: []) := rfl

/-- The address that the engine took when the delay was over it has after the last pass. -/
theorem hotspot_retried_taken : start {} ({} : Bench) = .ok onBench ∧
    onBench.actsAlong refusedOnce = (onBench.actsAlong refusedOnce).take 4 ++
      (delayOver, .message (.firing ⟨⟨1⟩, .hotspotDebounce⟩)) ::
        (((onBench.actsAlong refusedOnce).drop 5).take 2 ++ (triedAgain, .pass) :: []) ∧
    (∀ y ∈ ((onBench.actsAlong refusedOnce).drop 5).take 2, y.2.hotspotReport? ≠ some false) ∧
    triedAgain.PassesAccepted ∧
    delayOver.FindsDelayed (.firing ⟨⟨1⟩, .hotspotDebounce⟩) (.v4 0xC0A82B02) ∧
    .v4 0xC0A82B02 ∈ triedAgain.runPass.world.bound.addresses := by
  have hspared : ∀ y ∈ ((onBench.actsAlong refusedOnce).drop 5).take 2, y.2.hotspotReport? ≠ some false := by
    decide
  have hpass : triedAgain.PassesAccepted := ⟨by decide, by decide⟩
  have hfinds : delayOver.FindsDelayed (.firing ⟨⟨1⟩, .hotspotDebounce⟩) (.v4 0xC0A82B02) :=
    ⟨by decide, ⟨by decide, by decide⟩, by decide⟩
  have htaken : .addAddress (.v4 0xC0A82B02) "ap0" true ∈
      (delayOver.handle (.firing ⟨⟨1⟩, .hotspotDebounce⟩)).world.since delayOver.world := by decide
  obtain ⟨-, hdelayed⟩ := hotspot_retried_iff start_onBench refusedOnce actsAlong_refusedOnce hspared hpass
    (.v4 0xC0A82B02)
  exact ⟨start_onBench, actsAlong_refusedOnce, hspared, hpass, hfinds,
    (hdelayed hfinds).2 (.inl (.inr ⟨"ap0", htaken⟩))⟩

/-- The address that the engine refused when the delay was over it does not have after the last pass, although
nothing was refused any more. -/
theorem hotspot_retried_never : start {} ({} : Bench) = .ok onBench ∧
    onBench.actsAlong refusedOnce = (onBench.actsAlong refusedOnce).take 4 ++
      (delayOver, .message (.firing ⟨⟨1⟩, .hotspotDebounce⟩)) ::
        (((onBench.actsAlong refusedOnce).drop 5).take 2 ++ (triedAgain, .pass) :: []) ∧
    (∀ y ∈ ((onBench.actsAlong refusedOnce).drop 5).take 2, y.2.hotspotReport? ≠ some false) ∧
    triedAgain.PassesAccepted ∧
    delayOver.FindsDelayed (.firing ⟨⟨1⟩, .hotspotDebounce⟩) (.v4 0xC0A82B01) ∧
    .v4 0xC0A82B01 ∉ triedAgain.runPass.world.bound.addresses :=
  ⟨start_onBench, actsAlong_refusedOnce, by decide, ⟨by decide, by decide⟩,
    ⟨by decide, ⟨by decide, by decide⟩, by decide⟩, by decide⟩

end Coordinator

end Softphone
