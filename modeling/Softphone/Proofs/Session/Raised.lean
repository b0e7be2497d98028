import Softphone.Proofs.Session.Volumes

/-!
# Volumes that were raised

A message raises the volumes for a call, has the audio released, or does nothing about volumes
(`Session.volumes_handle`).
-/

namespace Softphone

variable {σ : Type} [Host σ]

/-- A volume that is saved is remembered. -/
theorem Player.saveVolume_ne_nil (p : Player) (stream : AudioStream) (w : World σ) :
    (p.saveVolume stream w).savedVolumes ≠ [] := by
  rw [saveVolume]
  split
  · rename_i hsaved
    obtain ⟨saved, hmem, -⟩ := List.any_eq_true.1 hsaved
    exact List.ne_nil_of_mem hmem
  · exact List.append_ne_nil_of_right_ne_nil _ (List.cons_ne_nil _ _)

namespace Session

variable {s s' s'' : Session σ}

/-! ## What a message does about volumes -/

/-- An answer raises the volumes if the engine agrees to it, unless the volume for calls is off. -/
def raisesVolumes (s : Session σ) : Input → Prop
  | .command _ .answer => s.answer.1 = .ok () ∧ s.player.settings.callVolume ≠ 0
  | _ => False

/-- A message has the audio released. -/
def releasesAudio (s : Session σ) (input : Input) : Prop :=
  .releaseAudio ∈ (s.inputActions input).map (·.1)

/-! ## What leaves the volumes as they are -/

/-- The volumes are as before, and so is what is remembered of them. -/
structure KeepsVolumes (s s' : Session σ) : Prop where
  saved : s'.player.savedVolumes = s.player.savedVolumes
  volume : ∀ stream, AudioDevice.volume stream s'.world.host = AudioDevice.volume stream s.world.host

namespace KeepsVolumes

theorem refl : s.KeepsVolumes s := ⟨rfl, fun _ => rfl⟩

theorem trans (h : s.KeepsVolumes s') (h' : s'.KeepsVolumes s'') : s.KeepsVolumes s'' :=
  ⟨h'.saved.trans h.saved, fun stream => (h'.volume stream).trans (h.volume stream)⟩

theorem of_steps [VolumesKept σ] (hsaved : s'.player.savedVolumes = s.player.savedVolumes)
    (hsteps : Host.Steps s.world.host s'.world.host) : s.KeepsVolumes s' :=
  ⟨hsaved, hsteps.volume⟩

end KeepsVolumes

variable [VolumesKept σ]

theorem LeavesVolumes.keeps (h : s.LeavesVolumes s') : s.KeepsVolumes s' := .of_steps h.saved h.steps

/-! ## Actions -/

section Actions

variable {actions : List (CallAction × Session σ)}

theorem keepsVolumes_foldl (h : .releaseAudio ∉ actions.map (·.1)) :
    s.KeepsVolumes (actions.foldl (fun s e => (s.perform e.1).2) s) := by
  induction actions generalizing s with
  | nil => exact .refl
  | cons e rest ih =>
    obtain ⟨hfirst, hrest⟩ := List.ne_and_not_mem_of_not_mem_cons h
    obtain ⟨hsaved, hsteps⟩ := perform_leavesVolumes (s := s) (Ne.symm hfirst)
    exact KeepsVolumes.trans (.of_steps hsaved hsteps) (ih hrest)

/-- Once the audio was released nothing is remembered, whatever comes after it. -/
theorem saved_foldl (h : .releaseAudio ∈ actions.map (·.1)) :
    (actions.foldl (fun s e => (s.perform e.1).2) s).player.savedVolumes = [] := by
  induction actions generalizing s with
  | nil => cases h
  | cons e rest ih =>
    by_cases hrest : .releaseAudio ∈ rest.map (·.1)
    · exact ih hrest
    · have hfirst : e.1 = .releaseAudio := ((List.mem_cons.1 h).resolve_right hrest).symm
      have hreleased : (s.perform e.1).2.player.savedVolumes = [] := by
        rw [hfirst]
        rfl
      exact (keepsVolumes_foldl hrest).saved.trans hreleased

theorem keepsVolumes_execute {actions : List CallAction}
    (h : .releaseAudio ∉ (s.executed actions).map (·.1)) : s.KeepsVolumes (s.execute actions) := by
  rw [← foldl_executed]
  exact keepsVolumes_foldl h

theorem saved_execute {actions : List CallAction}
    (h : .releaseAudio ∈ (s.executed actions).map (·.1)) :
    (s.execute actions).player.savedVolumes = [] := by
  rw [← foldl_executed]
  exact saved_foldl h

end Actions

/-! ## Messages -/

theorem keepsVolumes_answer (h : ¬ (s.answer.1 = .ok () ∧ s.player.settings.callVolume ≠ 0)) :
    s.KeepsVolumes s.answer.2 := by
  rw [answer, withCurrent] at h ⊢
  cases hlive : s.currentLive? with
  | none => exact .refl
  | some call =>
    rw [hlive] at h
    dsimp only at h ⊢
    cases hanswer : (s.world.answer call.agent call.handle).1 with
    | error e => exact .of_steps rfl (.one (.answer _ _))
    | ok =>
      rw [hanswer] at h
      have hoff : s.player.settings.callVolume = 0 := by
        by_contra hon
        exact h ⟨rfl, hon⟩
      dsimp only
      rw [Player.applyCallVolume, if_pos hoff]
      exact .of_steps rfl (.one (.answer _ _))

omit [VolumesKept σ] in
theorem saved_answer (h : s.answer.1 = .ok () ∧ s.player.settings.callVolume ≠ 0) :
    s.answer.2.player.savedVolumes ≠ [] := by
  obtain ⟨haccepted, hon⟩ := h
  rw [answer, withCurrent] at haccepted ⊢
  cases hlive : s.currentLive? with
  | none =>
    rw [hlive] at haccepted
    cases haccepted
  | some call =>
    rw [hlive] at haccepted
    dsimp only at haccepted ⊢
    cases hanswer : (s.world.answer call.agent call.handle).1 with
    | error e =>
      rw [hanswer] at haccepted
      cases haccepted
    | ok =>
      dsimp only
      rw [Player.applyCallVolume, if_neg hon]
      exact Player.saveVolume_ne_nil _ _ _

/-- A notification other than the end of the busy tone does nothing about volumes. -/
theorem volumes_handleNotification (notification : Notification) :
    (.releaseAudio ∈ (s.notificationActions notification).map (·.1) →
        (s.handleNotification notification).player.savedVolumes = []) ∧
      (.releaseAudio ∉ (s.notificationActions notification).map (·.1) →
        s.KeepsVolumes (s.handleNotification notification)) := by
  have hnone : .releaseAudio ∉ ([] : List (CallAction × Session σ)).map (·.1) := List.not_mem_nil
  cases notification with
  | network change =>
    refine ⟨fun h => absurd h hnone, fun _ => ?_⟩
    cases change with
    | hotspotChanged enabled => exact .of_steps rfl (Mobility.steps_onHotspotChanged _ _ _ _)
    | _ => exact ⟨rfl, fun _ => rfl⟩
  | audioMode mode =>
    exact ⟨fun h => absurd h hnone, fun _ => .of_steps rfl (Router.steps_onModeChanged _ _ _)⟩
  | toneFinished =>
    have hsaved := Player.onToneFinished_saved s.player
    rw [notificationActions, handleNotification]
    dsimp only
    split
    · have hfinished : s.KeepsVolumes { s with player := s.player.onToneFinished.2 }.finishTone.2 :=
        ⟨hsaved, fun _ => rfl⟩
      exact ⟨saved_execute, fun h => hfinished.trans (keepsVolumes_execute h)⟩
    · exact ⟨fun h => absurd h hnone, fun _ => ⟨hsaved, fun _ => rfl⟩⟩

/-- After a message that has the audio released no volumes are remembered, after one that raises them some
are, and any other leaves them as they are. -/
theorem volumes_handle (input : Input) :
    (s.releasesAudio input → (s.handle input).player.savedVolumes = []) ∧
      (s.raisesVolumes input → (s.handle input).player.savedVolumes ≠ []) ∧
      (¬ s.releasesAudio input → ¬ s.raisesVolumes input → s.KeepsVolumes (s.handle input)) := by
  cases input with
  | notification notification =>
    obtain ⟨hreleased, hkept⟩ := volumes_handleNotification (s := s) notification
    exact ⟨hreleased, False.elim, fun hnot _ => hkept hnot⟩
  | engine event =>
    cases event with
    | registration signal => exact ⟨nofun, False.elim, fun _ _ => ⟨rfl, fun _ => rfl⟩⟩
    | call event =>
      refine ⟨saved_execute, False.elim, fun h _ => ?_⟩
      have hexecuted := keepsVolumes_execute h
      refine ⟨hexecuted.saved, fun stream => (hexecuted.volume stream).trans ?_⟩
      exact VolumesKept.volume_of_step .stamp stream
  | firing firing => exact ⟨nofun, False.elim, fun _ _ => (leavesVolumes_handleFiring firing).keeps⟩
  | command ticket command =>
    refine ⟨nofun, ?_, fun _ hnot => ?_⟩
    · intro hraises
      cases command with
      | answer => exact saved_answer hraises
      | _ => exact hraises.elim
    · by_cases hanswer : command = .answer
      · subst hanswer
        have hkept := keepsVolumes_answer hnot
        exact ⟨hkept.saved, hkept.volume⟩
      · exact (leavesVolumes_handleCommand ticket hanswer).keeps
  | abandoned => exact ⟨nofun, False.elim, fun _ _ => leavesVolumes_teardown.keeps⟩

end Session

end Softphone
