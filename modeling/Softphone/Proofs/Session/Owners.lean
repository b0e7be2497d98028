import Softphone.Proofs.Calls.Owners
import Softphone.Proofs.Session.Ringback

/-!
# Who owns the calls of a session

Whatever a session takes, every call that it tracks afterwards was tracked before and has the same owner, or it is
new and owned by the agent of the session (`Session.tracksFrom_handle`).
-/

namespace Softphone.Session

variable {σ : Type} {s : Session σ} {own : Option AgentHandle} {b : CallBook}

section Actions

variable [ToneDevice σ] [AudioDevice σ]

theorem tracksFrom_perform (h : b.TracksFrom own s.calls) (action : CallAction) :
    b.TracksFrom own (s.perform action).2.calls := by
  by_cases hbusy : action = .playBusy
  · subst hbusy
    rcases perform_playBusy_cases s with ⟨-, -, hcalls⟩ | ⟨-, -, hcalls⟩
    · rw [hcalls]
      exact h
    · rw [hcalls]
      exact h.onToneFinished
  · rw [perform_calls hbusy]
    exact h

theorem tracksFrom_execute (h : b.TracksFrom own s.calls) (actions : List CallAction) :
    b.TracksFrom own (s.execute actions).calls :=
  (executed_induction (P := fun _ s => b.TracksFrom own s.calls) (fun h => tracksFrom_perform h _) h).2

end Actions

variable [Host σ]

/-- A call that is placed is set up with the agent of the session, which then owns it. -/
theorem tracksFrom_dial (target : String) : s.calls.TracksFrom s.registration.agent (s.dial target).2.calls := by
  unfold dial
  split
  · exact .refl
  rename_i text _
  split
  · exact .refl
  rename_i agent hagent
  dsimp only
  split
  · exact .refl
  rename_i handle _
  cases htracked : trackDialled { s with world := (s.world.allocateCall agent).2 } handle agent text with
  | error e => exact .refl
  | ok tracked =>
    obtain ⟨calls, world, htrack, rfl⟩ := trackDialled_eq_ok htracked
    have hconnected := connectDialled_eq htrack { s with world := (s.world.allocateCall agent).2 } world text
    dsimp only [Call.new] at hconnected ⊢
    rw [hconnected, hagent]
    exact CallBook.tracksFrom_dialled _

theorem tracksFrom_handleNotification (notification : Notification) :
    s.calls.TracksFrom s.registration.agent (s.handleNotification notification).calls := by
  cases notification with
  | network change => cases change <;> exact .refl
  | audioMode mode => exact .refl
  | toneFinished =>
    unfold handleNotification
    dsimp only
    split
    · exact tracksFrom_execute CallBook.TracksFrom.refl.onToneFinished _
    · exact .refl

/-- **Whose calls a session tracks.** -/
theorem tracksFrom_handle (hs : s.calls.Consistent) (input : Input) :
    s.calls.TracksFrom s.registration.agent (s.handle input).calls := by
  have hsame {s' : Session σ} (hcalls : s'.calls = s.calls) :
      s.calls.TracksFrom s.registration.agent s'.calls := hcalls ▸ .refl
  have hreply {s' : Session σ} {ticket answer} (h : s.calls.TracksFrom s.registration.agent s'.calls) :
      s.calls.TracksFrom s.registration.agent (s'.reply ticket answer).calls := h
  cases input with
  | notification notification => exact tracksFrom_handleNotification notification
  | engine event =>
    cases event with
    | registration signal => exact .refl
    | call event => exact tracksFrom_execute (CallBook.tracksFrom_receive hs _ _ event) _
  | firing firing => exact hsame (handleFiring_calls s firing)
  | command ticket command =>
    cases command with
    | dial target => exact hreply (tracksFrom_dial target)
    | _ => exact hsame (handleCommand_calls ticket nofun)
  | abandoned => exact hsame teardown_calls

end Softphone.Session
