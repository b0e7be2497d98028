import Softphone.Proofs.Calls.Releasing
import Softphone.Proofs.Session.Performed

/-!
# Where the audio is given back

Whenever the audio is given back no live call is current (`Session.currentLive?_of_released`). Calls that
are live without being current are not asked about.
-/

namespace Softphone.Session

variable {σ : Type} {s : Session σ}

/-- If the audio is still to be given back, no live call is current. -/
def ReleasesIdle (actions : List CallAction) (s : Session σ) : Prop :=
  .releaseAudio ∈ actions → s.currentLive? = none

section Actions

variable [ToneDevice σ] [AudioDevice σ]

theorem releasesIdle_kept : KeptByActions (ReleasesIdle (σ := σ)) := by
  intro s action rest h hmem
  by_cases haction : action = .playBusy
  · subst haction
    have hrest : .releaseAudio ∈ rest → s.currentLive? = none :=
      fun hrest => h (List.mem_cons_of_mem _ hrest)
    rcases perform_playBusy_cases s with ⟨-, hlater, hcalls⟩ | ⟨-, hlater, hcalls⟩
    · rw [hlater, List.append_nil] at hmem
      rw [currentLive?, hcalls]
      exact hrest hmem
    · -- The tone cannot be started: what its end asks for is asked of the book as it is then.
      rw [hlater, List.mem_append] at hmem
      rw [currentLive?, hcalls]
      rcases hmem with hmem | hmem
      · exact CallBook.currentLive?_onToneFinished (hrest hmem)
      · exact (CallBook.releaseAudio_mem_onToneFinished_iff.1 hmem).2
  · rw [perform_later haction, List.append_nil] at hmem
    rw [currentLive?, perform_calls haction]
    exact h (List.mem_cons_of_mem _ hmem)

theorem currentLive?_of_executed {actions : List CallAction} (h : s.ReleasesIdle actions) :
    ∀ e ∈ s.executed actions, e.1 = .releaseAudio → e.2.currentLive? = none := by
  rintro ⟨action, s'⟩ hmem rfl
  obtain ⟨rest, hidle⟩ := (executed_induction releasesIdle_kept h).1 _ hmem
  exact hidle List.mem_cons_self

theorem currentLive?_of_notification (notification : Notification) :
    ∀ e ∈ s.notificationActions notification, e.1 = .releaseAudio → e.2.currentLive? = none := by
  cases notification with
  | network change => exact List.forall_mem_nil _
  | audioMode mode => exact List.forall_mem_nil _
  | toneFinished =>
    rw [notificationActions]
    dsimp only
    split
    · apply currentLive?_of_executed
      exact fun hmem => (CallBook.releaseAudio_mem_onToneFinished_iff.1 hmem).2
    · exact List.forall_mem_nil _

end Actions

variable [Host σ]

theorem currentLive?_of_input (input : Input) :
    ∀ e ∈ s.inputActions input, e.1 = .releaseAudio → e.2.currentLive? = none := by
  cases input with
  | notification notification => exact currentLive?_of_notification notification
  | engine event =>
    cases event with
    | registration signal => exact List.forall_mem_nil _
    | call event =>
      apply currentLive?_of_executed
      exact CallBook.currentLive?_receive
  | firing | command | abandoned => exact List.forall_mem_nil _

theorem currentLive?_of_queued (queued : List Notification) (s : Session σ) :
    ∀ e ∈ queuedActions queued s, e.1 = .releaseAudio → e.2.currentLive? = none := by
  induction queued generalizing s with
  | nil => exact List.forall_mem_nil _
  | cons notification rest ih =>
    exact List.forall_mem_append.2 ⟨currentLive?_of_notification notification, ih _⟩

/-- In no turn the audio is given back while a live call is current. -/
theorem currentLive?_of_released (s : Session σ) (input : Input) (queued : List Notification) :
    ∀ e ∈ s.turnActions input queued, e.1 = .releaseAudio → e.2.currentLive? = none :=
  List.forall_mem_append.2 ⟨currentLive?_of_input input, currentLive?_of_queued _ _⟩

end Softphone.Session
