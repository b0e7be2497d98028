import Softphone.Proofs.Coordinator.Lingering
import Softphone.Proofs.Session.Volumes

/-!
# The call volume is given back along a run

Where nobody but the session sets volumes, every release of the audio brings back those of the beginning,
and they are in force whenever no call is tracked (`Coordinator.volumes_given_back`).
-/

namespace Softphone

variable {σ : Type} [Host σ]

/-- The volumes of an earlier host come back with every release, and are in force whenever no call is
tracked. -/
structure Session.VolumesReturned (earlier : σ) (s : Session σ) : Prop where
  idle : s.calls.registry.calls = [] → s.player.savedVolumes = [] ∧
    ∀ stream, AudioDevice.volume stream s.world.host = AudioDevice.volume stream earlier
  /-- As long as none are remembered they are in force, and if any are remembered it is these. -/
  remembered : s.player.Remembers earlier s.world.host
  /-- Every release of a turn brings them back, and then none are remembered. -/
  released : ∀ input queued, ∀ e ∈ s.turnActions input queued, e.1 = .releaseAudio →
    (e.2.perform e.1).2.player.savedVolumes = [] ∧
      ∀ stream, AudioDevice.volume stream (e.2.perform e.1).2.world.host =
        AudioDevice.volume stream earlier

theorem Session.VolumesHeld.returned [VolumesKept σ] {s : Session σ} {earlier : σ}
    (hs : s.VolumesHeld earlier) (hcalls : s.calls.Consistent) : s.VolumesReturned earlier where
  idle := by
    intro hempty
    have hnone := hs.idle hempty
    rcases hs.remembered with hforce | hsaved
    · exact hforce
    · rw [hnone] at hsaved
      cases hsaved
  remembered := hs.remembered
  released := by
    rintro input queued ⟨action, s'⟩ hmem rfl
    exact perform_releaseAudio_volumes ((volumesHeld_turn hcalls hs input queued).1 _ hmem)

namespace Coordinator

variable {c : Coordinator σ}

/-- What happens changes no volume, unless the session itself does. -/
def SparesVolumes (c : Coordinator σ) : Move σ → Prop
  | .surroundings host => ∀ stream,
    AudioDevice.volume stream host = AudioDevice.volume stream c.session.world.host
  | _ => True

/-- Along some moves volumes are changed only by the session. -/
def VolumesOnlySet : Coordinator σ → List (Move σ) → Prop
  | _, [] => True
  | c, m :: ms => c.SparesVolumes m ∧ VolumesOnlySet (c.move m) ms

variable {earlier : σ}

theorem volumesHeld_beside {s s' : Session σ} (h : s.Beside s') (hs : s.VolumesHeld earlier) :
    s'.VolumesHeld earlier := by
  refine ⟨?_, ?_⟩
  · rw [h.host, h.aside.player]
    exact hs.remembered
  · rw [h.aside.calls, h.aside.player]
    exact hs.idle

theorem volumesHeld_within {s : Session σ} {host : σ} (hs : s.VolumesHeld earlier)
    (hsame : ∀ stream, AudioDevice.volume stream host = AudioDevice.volume stream s.world.host) :
    ({ s with world := s.world.within host } : Session σ).VolumesHeld earlier := by
  refine ⟨hs.remembered.imp_left ?_, hs.idle⟩
  rintro ⟨hnone, hvolumes⟩
  refine ⟨hnone, fun stream => ?_⟩
  exact (hsame stream).trans (hvolumes stream)

variable [VolumesKept σ]

theorem volumesHeld_move (hcalls : c.session.calls.Consistent) (hs : c.session.VolumesHeld earlier)
    {m : Move σ} (hspares : c.SparesVolumes m) : (c.move m).session.VolumesHeld earlier := by
  rcases move_beside c m with ⟨host, rfl⟩ | ⟨input, queued, -, hbeside⟩ | ⟨-, hbeside⟩
  · exact volumesHeld_within hs hspares
  · exact volumesHeld_beside hbeside (Session.volumesHeld_turn hcalls hs input queued).2
  · exact volumesHeld_beside hbeside hs

theorem volumesHeld_runMoves (hcalls : c.session.calls.Consistent) (hs : c.session.VolumesHeld earlier)
    {ms : List (Move σ)} (honly : c.VolumesOnlySet ms) :
    (c.runMoves ms).session.VolumesHeld earlier := by
  induction ms generalizing c with
  | nil => exact hs
  | cons m ms ih =>
    obtain ⟨hspares, hrest⟩ := honly
    exact ih (consistent_move hcalls m) (volumesHeld_move hcalls hs hspares) hrest

/-- **The call volume is given back.** After any moves along which only the session sets volumes, the
volumes of the beginning are in force if no call is tracked, and come back with every release of the
audio, however often calls were answered before it. -/
theorem volumes_given_back {config : Config} {host : σ} (hstart : start config host = .ok c)
    (ms : List (Move σ)) (honly : c.VolumesOnlySet ms) :
    (c.runMoves ms).session.VolumesReturned host := by
  have hnew : c.session.VolumesHeld host := by
    rw [session_of_start hstart]
    exact ⟨.inl ⟨rfl, fun _ => rfl⟩, fun _ => rfl⟩
  have hcalls := consistent_runMoves hstart
  exact (volumesHeld_runMoves (hcalls []) hnew honly).returned (hcalls ms)

/-- A coordinator on a bench that raises the volumes to half of the maximum for a call. -/
def onLoudBench : Coordinator Bench :=
  { onBench with session := .new { audio.callVolume := 5 } {} }

theorem start_onLoudBench :
    start { audio.callVolume := 5 } ({} : Bench) = .ok onLoudBench := rfl

/-- A call comes in and is answered twice. -/
def answeredTwice : List (Move Bench) :=
  [.ask ⟨0⟩ (.signIn bob), .loop] ++ reported 1 .incoming ++
    [.ask ⟨1⟩ .answer, .loop, .ask ⟨2⟩ .answer, .loop]

/-- The call closes with the busy tone, and the tone ends. -/
def answeredAndGone : List (Move Bench) :=
  answeredTwice ++ reported 1 (.closed (some CallBook.busyHint)) ++
    [.notify ⟨3⟩ .toneFinished, .loop]

/-- The volumes have been raised for the call, and once it is gone they are what they were. -/
theorem volumes_given_back_answeredAndGone :
    start { audio.callVolume := 5 } ({} : Bench) = .ok onLoudBench ∧
      onLoudBench.VolumesOnlySet answeredAndGone ∧
      AudioDevice.volume .music (onLoudBench.runMoves answeredTwice).session.world.host = 8 ∧
      (onLoudBench.runMoves answeredAndGone).session.calls.registry.calls = [] ∧
      (onLoudBench.runMoves answeredAndGone).session.VolumesReturned ({} : Bench) := by
  have honly : onLoudBench.VolumesOnlySet answeredAndGone := by
    simp [answeredAndGone, answeredTwice, reported, Move.loop, VolumesOnlySet, SparesVolumes]
  exact ⟨start_onLoudBench, honly, by decide, by decide,
    volumes_given_back start_onLoudBench answeredAndGone honly⟩

end Coordinator

end Softphone
