import Softphone.Proofs.Coordinator.Agents
import Softphone.Proofs.Coordinator.Dealt
import Softphone.Proofs.Coordinator.Volumes
import Softphone.Proofs.Session.Passes
import Softphone.Proofs.Session.Raised
import Softphone.Proofs.Since

/-!
# The call volume at the end of a run

The end of a session gives no volumes back. Where nobody but the session sets any, those of the beginning are
in force after it exactly if the last answer that raised them, and whose call had no audio released since,
raised them to just these (`Coordinator.volumes_after_end_iff`).
-/

namespace Softphone

variable {σ : Type} [Host σ]

namespace Session

variable {s s' : Session σ} {dealt : List (Session σ × Input)}

/-- A session raises the volumes to these when it deals with a message. -/
def RaisesTo (volumes : AudioStream → Nat) (x : Session σ × Input) : Prop :=
  x.1.raisesVolumes x.2 ∧
    ∀ stream, AudioDevice.volume stream (x.1.handle x.2).world.host = volumes stream

/-- The volumes were raised to these by an answer, and neither raised again nor given back since. -/
def RaisedTo (volumes : AudioStream → Nat) (dealt : List (Session σ × Input)) : Prop :=
  ∃ before x later, dealt = before ++ x :: later ∧ RaisesTo volumes x ∧
    ∀ y ∈ later, ¬ y.1.raisesVolumes y.2 ∧ ¬ y.1.releasesAudio y.2

theorem raisedTo_concat_iff {volumes : AudioStream → Nat} {x : Session σ × Input} :
    RaisedTo volumes (dealt ++ [x]) ↔ RaisesTo volumes x ∨
      RaisedTo volumes dealt ∧ ¬ x.1.raisesVolumes x.2 ∧ ¬ x.1.releasesAudio x.2 :=
  exists_since_concat_iff

theorem not_raisedTo_nil (volumes : AudioStream → Nat) :
    ¬ RaisedTo volumes ([] : List (Session σ × Input)) := by
  rintro ⟨before, x, later, heq, -⟩
  exact List.append_ne_nil_of_right_ne_nil before (List.cons_ne_nil x later) heq.symm

/-- The volumes that were last raised and not given back are in force, and others are remembered. -/
def KnowsRaised (dealt : List (Session σ × Input)) (s : Session σ) : Prop :=
  ∀ volumes, RaisedTo volumes dealt ↔ s.player.savedVolumes ≠ [] ∧
    ∀ stream, AudioDevice.volume stream s.world.host = volumes stream

theorem KnowsRaised.keeps (h : s.KnowsRaised dealt) (hkeeps : s.KeepsVolumes s') :
    s'.KnowsRaised dealt := by
  intro volumes
  rw [h volumes, hkeeps.saved]
  exact and_congr_right fun _ => forall_congr' fun stream => by rw [hkeeps.volume]

/-- The volumes of an earlier host are in force exactly if none were raised that are still to be given back,
or they were raised to what they were. -/
theorem KnowsRaised.inForce_iff {earlier : σ} (h : s.KnowsRaised dealt) (hheld : s.VolumesHeld earlier) :
    (∀ stream, AudioDevice.volume stream s.world.host = AudioDevice.volume stream earlier) ↔
      ∀ volumes, RaisedTo volumes dealt → ∀ stream, volumes stream = AudioDevice.volume stream earlier := by
  constructor
  · intro hforce volumes hraised stream
    rw [← ((h volumes).1 hraised).2 stream]
    exact hforce stream
  · intro hraised
    rcases hheld.remembered with ⟨-, hforce⟩ | hsaved
    · exact hforce
    · have hsome : s.player.savedVolumes ≠ [] := by
        rw [hsaved]
        exact List.cons_ne_nil _ _
      exact hraised _ ((h _).2 ⟨hsome, fun _ => rfl⟩)

variable [VolumesKept σ]

theorem KnowsRaised.handle (h : s.KnowsRaised dealt) (input : Input) :
    (s.handle input).KnowsRaised (dealt ++ [(s, input)]) := by
  intro volumes
  obtain ⟨hreleased, hraised, hkept⟩ := volumes_handle (s := s) input
  rw [raisedTo_concat_iff]
  by_cases hraises : s.raisesVolumes input
  · -- An earlier answer does not count any more.
    constructor
    · rintro (⟨-, hvolumes⟩ | ⟨-, hnot, -⟩)
      · exact ⟨hraised hraises, hvolumes⟩
      · exact absurd hraises hnot
    · rintro ⟨-, hvolumes⟩
      exact .inl ⟨hraises, hvolumes⟩
  by_cases hreleases : s.releasesAudio input
  · constructor
    · rintro (⟨hnot, -⟩ | ⟨-, -, hnot⟩)
      · exact absurd hnot hraises
      · exact absurd hreleases hnot
    · rintro ⟨hsome, -⟩
      exact absurd (hreleased hreleases) hsome
  · rw [← h.keeps (hkept hreleases hraises) volumes]
    constructor
    · rintro (⟨hnot, -⟩ | ⟨hearlier, -⟩)
      · exact absurd hnot hraises
      · exact hearlier
    · exact fun hearlier => .inr ⟨hearlier, hraises, hreleases⟩

theorem KnowsRaised.turn (h : s.KnowsRaised dealt) (input : Input) (queued : List Notification) :
    (s.turn input queued).KnowsRaised (dealt ++ s.dealt input queued) :=
  dealt_induction (P := fun dealt s => s.KnowsRaised dealt) (fun input h => h.handle input)
    (fun h => h.keeps leavesVolumes_runPass.keeps) h input queued

omit [VolumesKept σ] in
theorem KeepsVolumes.of_beside (h : s.Beside s') : s.KeepsVolumes s' where
  saved := by rw [h.aside.player]
  volume _ := by rw [h.host]

end Session

namespace Coordinator

variable {c : Coordinator σ}

theorem volumesOnlySet_append_iff {ms ms' : List (Move σ)} :
    c.VolumesOnlySet (ms ++ ms') ↔ c.VolumesOnlySet ms ∧ (c.runMoves ms).VolumesOnlySet ms' := by
  induction ms generalizing c with
  | nil => exact ⟨fun h => ⟨trivial, h⟩, And.right⟩
  | cons m ms ih => exact (and_congr_right fun _ => ih).trans and_assoc.symm

/-- What is no turn leaves the volumes as they are, if only the session sets them. -/
theorem keepsVolumes_move {m : Move σ} (hspares : c.SparesVolumes m) (hnone : c.turn? m = none) :
    c.session.KeepsVolumes (c.move m).session := by
  rcases move_beside c m with ⟨host, rfl⟩ | ⟨input, queued, hturn, -⟩ | ⟨-, hbeside⟩
  · exact ⟨rfl, hspares⟩
  · rw [hnone] at hturn
    cases hturn
  · exact .of_beside hbeside

variable [VolumesKept σ]

theorem knowsRaised_move {past : List (Session σ × Input)} (h : c.session.KnowsRaised past) {m : Move σ}
    (hspares : c.SparesVolumes m) : (c.move m).session.KnowsRaised (past ++ c.dealt m) := by
  rcases move_beside c m with ⟨host, rfl⟩ | ⟨input, queued, hturn, hbeside⟩ | ⟨hnone, hbeside⟩
  · have hkeeps := h.keeps (keepsVolumes_move hspares rfl)
    rwa [← List.append_nil past] at hkeeps
  · rw [dealt, hturn]
    exact (h.turn input queued).keeps (.of_beside hbeside)
  · rw [dealt, hnone, List.append_nil]
    exact h.keeps (.of_beside hbeside)

theorem knowsRaised_runMoves {past : List (Session σ × Input)} (h : c.session.KnowsRaised past)
    {ms : List (Move σ)} (honly : c.VolumesOnlySet ms) :
    (c.runMoves ms).session.KnowsRaised (past ++ c.dealtAlong ms) := by
  induction ms generalizing c past with
  | nil =>
    rw [dealtAlong, List.append_nil]
    exact h
  | cons m ms ih =>
    obtain ⟨hspares, hrest⟩ := honly
    rw [dealtAlong, ← List.append_assoc]
    exact ih (knowsRaised_move h hspares) hrest

/-! ## The end -/

omit [VolumesKept σ] in
theorem keepsVolumes_of_stopped (hstopped : c.hasStopped = true) {later : List (Move σ)}
    (honly : c.VolumesOnlySet later) : c.session.KeepsVolumes (c.runMoves later).session := by
  induction later generalizing c with
  | nil => exact .refl
  | cons m rest ih =>
    obtain ⟨hspares, hrest⟩ := honly
    have hnone : c.turn? m = none := by
      refine Option.eq_none_iff_forall_ne_some.2 fun turn hturn => ?_
      exact absurd hstopped (Bool.eq_false_iff.1 (live_of_turn? hturn))
    have hmoved := keepsVolumes_move hspares hnone
    exact hmoved.trans (ih ((stopped_aside hstopped m).ended.trans hstopped) hrest)

/-- A message that ends the session does nothing about volumes, and neither does anything after it. -/
theorem keepsVolumes_of_ends {input : Input} (hnext : c.nextInput? = some input) (hends : input.ends = true)
    {meanwhile : List Incident} {later : List (Move σ)}
    (honly : c.VolumesOnlySet (.proceed meanwhile :: later)) :
    c.session.KeepsVolumes (c.runMoves (.proceed meanwhile :: later)).session := by
  have hstopped := hasStopped_of_ends hnext hends meanwhile
  refine .trans ?_ (keepsVolumes_of_stopped hstopped honly.2)
  rcases proceed_cases c meanwhile with ⟨taken, queued, hturn, hbeside⟩ | ⟨hnone, -⟩
  · obtain rfl : taken = input := by
      rw [nextInput?_eq c meanwhile, hturn] at hnext
      exact Option.some.inj hnext
    have hended : (c.session.handle taken).ended = true := by
      rw [Session.handle_ended, hends, Bool.or_true]
    have hturned : c.session.turn taken queued = c.session.handle taken := by
      rw [Session.turn_of_ended hended, Session.taken_of_ends hends]
      rfl
    have hhandled : c.session.LeavesVolumes (c.session.handle taken) :=
      Session.ends_induction (fun ticket answer h => h.reply ticket answer)
        Session.leavesVolumes_teardown hends
    exact hhandled.keeps.trans (.of_beside (hturned ▸ hbeside))
  · rw [nextInput?_eq c meanwhile, hnone] at hnext
    cases hnext

/-- **The call volume at the end of a run.** After any moves along which only the session sets volumes, when a
message has ended the session, and whatever happens after it, the volumes of the beginning are in force
exactly if the last answer that raised them, and was not followed by a release of the audio, raised them to
these. There is no such answer if no call was tracked at the end. -/
theorem volumes_after_end_iff {config : Config} {host : σ} (hstart : start config host = .ok c)
    {ms later : List (Move σ)} {meanwhile : List Incident}
    (honly : c.VolumesOnlySet (ms ++ .proceed meanwhile :: later)) {input : Input}
    (hnext : (c.runMoves ms).nextInput? = some input) (hends : input.ends = true) :
    ((∀ stream, AudioDevice.volume stream
            (c.runMoves (ms ++ .proceed meanwhile :: later)).session.world.host =
          AudioDevice.volume stream host) ↔
        ∀ volumes, Session.RaisedTo volumes (c.dealtAlong ms) →
          ∀ stream, volumes stream = AudioDevice.volume stream host) ∧
      ((c.runMoves ms).session.calls.registry.calls = [] →
        ∀ volumes, ¬ Session.RaisedTo volumes (c.dealtAlong ms)) := by
  obtain ⟨hbefore, hafter⟩ := volumesOnlySet_append_iff.1 honly
  have hnew : c.session.VolumesHeld host := by
    rw [session_of_start hstart]
    exact ⟨.inl ⟨rfl, fun _ => rfl⟩, fun _ => rfl⟩
  have hheld : (c.runMoves ms).session.VolumesHeld host :=
    volumesHeld_runMoves (consistent_runMoves hstart []) hnew hbefore
  have hfirst : c.session.KnowsRaised [] := by
    rw [session_of_start hstart]
    exact fun volumes => ⟨fun h => absurd h (Session.not_raisedTo_nil volumes), fun h => absurd rfl h.1⟩
  have hknows : (c.runMoves ms).session.KnowsRaised (c.dealtAlong ms) := knowsRaised_runMoves hfirst hbefore
  have hkeeps := keepsVolumes_of_ends hnext hends hafter
  refine ⟨?_, fun hnone volumes hraised => ((hknows volumes).1 hraised).1 (hheld.idle hnone)⟩
  rw [runMoves_append, ← hknows.inForce_iff hheld]
  exact forall_congr' fun stream => by rw [hkeeps.volume stream]

/-- A shutdown is asked for once the call is gone. -/
def goneAndShut : List (Move Bench) := answeredAndGone ++ [.ask ⟨4⟩ .shutdown]

/-- A shutdown is asked for while the call is established. -/
def answeredAndShut : List (Move Bench) := answeredTwice ++ [.ask ⟨3⟩ .shutdown]

/-- The volumes that were raised for a call are what they were when the call is gone and the session has
ended. -/
theorem volumes_after_end_goneAndShut :
    start { audio.callVolume := 5 } ({} : Bench) = .ok onLoudBench ∧
      onLoudBench.VolumesOnlySet (goneAndShut ++ [.loop]) ∧
      (onLoudBench.runMoves goneAndShut).nextInput? = some (.command ⟨4⟩ .shutdown) ∧
      (Input.command ⟨4⟩ .shutdown).ends = true ∧
      (onLoudBench.runMoves goneAndShut).session.calls.registry.calls = [] ∧
      AudioDevice.volume .music (onLoudBench.runMoves answeredTwice).session.world.host = 8 ∧
      ∀ stream, AudioDevice.volume stream (onLoudBench.runMoves (goneAndShut ++ [.loop])).session.world.host =
        AudioDevice.volume stream ({} : Bench) := by
  have honly : onLoudBench.VolumesOnlySet (goneAndShut ++ [.loop]) := by
    simp [goneAndShut, answeredAndGone, answeredTwice, reported, Move.loop, VolumesOnlySet, SparesVolumes]
  have hnext : (onLoudBench.runMoves goneAndShut).nextInput? = some (.command ⟨4⟩ .shutdown) := by decide
  have hgone : (onLoudBench.runMoves goneAndShut).session.calls.registry.calls = [] := by decide
  obtain ⟨hback, hnone⟩ := volumes_after_end_iff start_onLoudBench honly hnext rfl
  exact ⟨start_onLoudBench, honly, hnext, rfl, hgone, by decide,
    hback.2 fun volumes hraised => absurd hraised (hnone hgone volumes)⟩

/-- The volumes that were raised for a call stay so when the session ends during the call. -/
theorem volumes_raised_after_shutdown :
    start { audio.callVolume := 5 } ({} : Bench) = .ok onLoudBench ∧
      onLoudBench.VolumesOnlySet (answeredAndShut ++ [.loop]) ∧
      (onLoudBench.runMoves answeredAndShut).nextInput? = some (.command ⟨3⟩ .shutdown) ∧
      (onLoudBench.runMoves (answeredAndShut ++ [.loop])).hasStopped = true ∧
      AudioDevice.volume .music (onLoudBench.runMoves (answeredAndShut ++ [.loop])).session.world.host = 8 ∧
      ¬ ∀ stream, AudioDevice.volume stream
          (onLoudBench.runMoves (answeredAndShut ++ [.loop])).session.world.host =
        AudioDevice.volume stream ({} : Bench) := by
  have honly : onLoudBench.VolumesOnlySet (answeredAndShut ++ [.loop]) := by
    simp [answeredAndShut, answeredTwice, reported, Move.loop, VolumesOnlySet, SparesVolumes]
  refine ⟨start_onLoudBench, honly, by decide, by decide, by decide, fun h => ?_⟩
  have hmusic := h .music
  revert hmusic
  decide

end Coordinator

end Softphone
