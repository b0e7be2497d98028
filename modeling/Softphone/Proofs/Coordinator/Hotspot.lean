import Softphone.Proofs.Coordinator.Early
import Softphone.Proofs.Coordinator.Passes
import Softphone.Proofs.Session.Hotspot

/-!
# What is left of a hotspot along a run

Throughout a run nothing is left of a hotspot that is off, exactly if no sign-in of the run overlooks one
(`Coordinator.hotspotClean_throughout_iff`). Then the engine is never offered an address of an earlier
hotspot.
-/

namespace Softphone.Coordinator

variable {σ : Type} [Host σ] {c : Coordinator σ}

/-- The coordinator takes a message that overlooks a hotspot, and none of the notifications of that turn
says that the hotspot is on. -/
def overlooksHotspot (c : Coordinator σ) (m : Move σ) : Bool :=
  match c.turn? m with
  | some (input, queued) =>
    c.session.overlooksHotspot input && !decide (.network (.hotspotChanged true) ∈ queued)
  | none => false

/-- A move leaves nothing of a hotspot that is off, unless it overlooks one. -/
theorem hotspotClean_move_iff (hnumbered : c.session.timers.Numbered)
    (hclean : c.session.HotspotClean) (m : Move σ) :
    (c.move m).session.HotspotClean ↔ c.overlooksHotspot m = false := by
  rw [overlooksHotspot]
  rcases move_cases c m with ⟨input, queued, hturn, haside⟩ | ⟨hnone, haside⟩
  · have hlater := Session.numbered_turn hnumbered input queued
    rw [haside.spares.network.hotspotClean_iff hlater, hturn,
      Session.hotspotClean_turn_iff hnumbered hclean (live_of_turn? hturn), Bool.and_eq_false_iff,
      Bool.not_eq_false', decide_eq_true_iff]
  · rw [haside.spares.network.hotspotClean_iff hnumbered, hnone]
    exact iff_of_true hclean rfl

theorem numbered_move (hnumbered : c.session.timers.Numbered) (m : Move σ) :
    (c.move m).session.timers.Numbered := by
  rcases move_cases c m with ⟨input, queued, -, haside⟩ | ⟨-, haside⟩
  · exact haside.spares.timers.numbered (Session.numbered_turn hnumbered input queued)
  · exact haside.spares.timers.numbered hnumbered

theorem numbered_runMoves (hnumbered : c.session.timers.Numbered) (ms : List (Move σ)) :
    (c.runMoves ms).session.timers.Numbered := by
  induction ms generalizing c with
  | nil => exact hnumbered
  | cons m ms ih => exact ih (numbered_move hnumbered m)

theorem knowsSinceUp_runMoves (hnew : c.session.mobility.hotspotAddresses = .empty)
    (ms : List (Move σ)) (hsees : ∀ x ∈ c.dealtAlong ms, x.1.overlooksHotspot x.2 = false) :
    Session.KnowsSinceUp (c.dealtAlong ms) (c.runMoves ms).session := by
  refine dealt_induction
    (P := fun past s => (∀ x ∈ past, x.1.overlooksHotspot x.2 = false) →
      Session.KnowsSinceUp past s) ?_ ?_ ?_ ?_ ms hsees
  · intro past s s' haside hknows hsees
    rw [Session.KnowsSinceUp, haside.spares.mobility]
    exact hknows hsees
  · intro past s input hknows hsees
    obtain ⟨hpast, hsees⟩ := List.forall_mem_append.1 hsees
    exact (hknows hpast).handle (hsees (s, input) (List.mem_singleton_self _))
  · intro past s hknows hsees
    obtain ⟨-, -, hon, haddresses⟩ := s.runPass_hotspot
    rw [Session.KnowsSinceUp, hon, haddresses]
    exact hknows hsees
  · exact fun _ => Session.knowsSinceUp_of_empty hnew

/-- The numbers of the timers are in order, and nothing is left of a hotspot that is off. -/
def SoundHotspot (c : Coordinator σ) : Prop :=
  c.session.timers.Numbered ∧ c.session.HotspotClean

theorem soundHotspot_move_iff {c : Coordinator σ} (m : Move σ) (h : c.SoundHotspot) :
    (c.move m).SoundHotspot ↔ c.overlooksHotspot m = false := by
  rw [SoundHotspot, and_iff_right (numbered_move h.1 m)]
  exact hotspotClean_move_iff h.1 h.2 m

/-- **Nothing is left of a hotspot that is off.** It is so at every moment of a run of any moves, whatever the
platform tells, exactly if no move of the run is a sign-in that overlooks a hotspot. If none overlooks one,
every known address was found since the hotspot came up. -/
theorem hotspotClean_throughout_iff {config : Config} {host : σ} (hstart : start config host = .ok c)
    (ms : List (Move σ)) :
    ((∀ k, (c.runMoves (ms.take k)).session.HotspotClean) ↔
        ∀ k m, ms[k]? = some m → (c.runMoves (ms.take k)).overlooksHotspot m = false) ∧
      ((∀ x ∈ c.dealtAlong ms, x.1.overlooksHotspot x.2 = false) →
        Session.KnowsSinceUp (c.dealtAlong ms) (c.runMoves ms).session) := by
  have hnew : c.SoundHotspot ∧ c.session.mobility.hotspotAddresses = .empty := by
    rw [SoundHotspot, session_of_start hstart]
    exact ⟨⟨.empty, fun _ => ⟨rfl, rfl, rfl⟩⟩, rfl⟩
  refine ⟨?_, knowsSinceUp_runMoves hnew.2 ms⟩
  rw [← throughout_iff soundHotspot_move_iff hnew.1]
  exact forall_congr' fun k => (and_iff_right (numbered_runMoves hnew.1.1 _)).symm

/-- The hotspot that came up after the sign-in goes down again. -/
def hotspotDown : List (Move Bench) :=
  hotspotUp ++ [.notify ⟨2⟩ (.network (.hotspotChanged false)), .loop]

/-- The address that was known while the hotspot was on is forgotten when it goes down. -/
theorem hotspotClean_throughout_hotspotDown : start {} ({} : Bench) = .ok onBench ∧
    (onBench.runMoves hotspotUp).session.mobility.hotspotAddresses.addresses = [.v4 0xC0A82B01] ∧
    (onBench.runMoves hotspotDown).session.mobility.hotspotOn = false ∧
    (∀ k, (onBench.runMoves (hotspotDown.take k)).session.HotspotClean) ∧
    Session.KnowsSinceUp (onBench.dealtAlong hotspotDown) (onBench.runMoves hotspotDown).session := by
  obtain ⟨hclean, hknows⟩ := hotspotClean_throughout_iff start_onBench hotspotDown
  have hsees : ∀ k : Fin hotspotDown.length,
      (onBench.runMoves (hotspotDown.take k)).overlooksHotspot hotspotDown[k] = false := by decide
  refine ⟨start_onBench, by decide, by decide, hclean.2 fun k m hm => ?_, hknows (by decide)⟩
  obtain ⟨hk, rfl⟩ := List.getElem?_eq_some_iff.1 hm
  exact hsees ⟨k, hk⟩

/-- After a hotspot was found an account signs in; by then the hotspot is off, and its interface has another
address. -/
def hotspotGone : List (Move Bench) :=
  hotspotFirst ++
    [.surroundings { networks := { interfaces := [⟨"ap0", [.v4 0xC0A82C01]⟩] } },
      .ask ⟨1⟩ (.signIn bob), .loop]

/-- The sign-in overlooks that hotspot, unless a hotspot is reported to be on while the account signs in. -/
example : (onBench.runMoves hotspotGone.dropLast).overlooksHotspot .loop = true ∧
    (onBench.runMoves hotspotGone.dropLast).overlooksHotspot
      (.proceed [.notify ⟨2⟩ (.network (.hotspotChanged true))]) = false := by
  decide

/-- Later a hotspot comes up again, and a network is reported. -/
def hotspotAgain : List (Move Bench) :=
  hotspotGone ++
    [.notify ⟨2⟩ (.network (.hotspotChanged true)), .loop,
      .notify ⟨3⟩ (.network (.available ⟨1⟩)), .loop]

/-- The hotspot that is off keeps its address, and the later hotspot hands it to the engine. -/
theorem hotspotAgain_adds_old_address : start {} ({} : Bench) = .ok onBench ∧
    (¬ ∀ k, (onBench.runMoves (hotspotAgain.take k)).session.HotspotClean) ∧
    (onBench.runMoves hotspotGone).session.mobility.hotspotOn = false ∧
    (onBench.runMoves hotspotGone).session.mobility.hotspotAddresses.addresses = [.v4 0xC0A82B01] ∧
    .addAddress (.v4 0xC0A82B01) "ap0" true ∈
      (onBench.runMoves hotspotAgain).session.world.since (onBench.runMoves hotspotGone).session.world := by
  refine ⟨start_onBench, fun h => ?_, by decide, by decide, by decide⟩
  have hclean := h hotspotGone.length
  revert hclean
  decide

end Softphone.Coordinator
