import Softphone.Proofs.Calls.Lifecycle
import Softphone.Proofs.Calls.Live

/-!
# Who owns a call

A call is owned by the agent that there was when it came in or was dialled, and nothing that happens to it later
gives it to another (`CallBook.tracksFrom_receive`).
-/

namespace Softphone.CallBook

variable {b b' : CallBook} {a : CallHandle} {c c' call : Call} {stamp : Stamp} {agent : AgentHandle}
  {own : Option AgentHandle} {event : CallEvent}

/-- Every call that is tracked afterwards was tracked before, or it is new and owned by the agent of the time. -/
def TracksFrom (b : CallBook) (own : Option AgentHandle) (b' : CallBook) : Prop :=
  ∀ a c', b'.registry.find? a = some c' → (∃ c, b.registry.find? a = some c ∧ c.SameAs c') ∨
    b.registry.contains a = false ∧ own = some c'.agent

theorem TracksFrom.refl : b.TracksFrom own b := fun _ c' hc' => .inl ⟨c', hc', .refl⟩

/-- The end of the busy tone only takes a call away. -/
theorem TracksFrom.onToneFinished (h : b.TracksFrom own b') : b.TracksFrom own b'.onToneFinished.2 := by
  intro a c' hc'
  rw [find?_onToneFinished] at hc'
  split at hc'
  · cases hc'
  · exact h a c' hc'

theorem broughtIn_agent : (broughtIn stamp agent event).agent = agent := by
  unfold broughtIn
  split <;> rfl

/-- **Reports leave calls to their owners.** A call that a report brings in is owned by the agent of the time. -/
theorem tracksFrom_receive (h : b.Consistent) (stamp : Stamp) (own : Option AgentHandle) (event : CallEvent) :
    b.TracksFrom own (b.receive stamp own event).2 := by
  cases own with
  | none => exact .refl
  | some agent =>
    cases hstale : b.isStale event with
    | true =>
      rw [receive_of_stale hstale]
      exact .refl
    | false =>
      intro a c' hc'
      rw [find?_receive h hstale] at hc'
      split at hc'
      · rename_i ha
        subst ha
        rw [callAfter] at hc'
        split at hc'
        · cases hc'
        obtain rfl := Option.some.inj hc'
        -- The call of the report was tracked before, or it is the one that the report brings in.
        cases hfind : b.registry.find? event.handle with
        | some c =>
          rw [isStale, hfind] at hstale
          have hlive : c.isLive = true := by simpa [Call.isLive] using hstale
          exact .inl ⟨c, rfl, (Call.becomes_reported hlive _ _).same⟩
        | none =>
          have hbecomes : (broughtIn stamp agent event).Becomes
              ((broughtIn stamp agent event).reported stamp.time event.kind) :=
            Call.becomes_reported isLive_broughtIn _ _
          refine .inr ⟨find?_eq_none_iff.1 hfind, ?_⟩
          exact congrArg some (hbecomes.same.agent.trans broughtIn_agent).symm
      · split at hc'
        · cases hc'
        · exact .inl ⟨c', hc', .refl⟩

/-- A call that is dialled is owned by the agent that it was set up with. -/
theorem tracksFrom_dialled (connected : Bool) : b.TracksFrom (some call.agent) (b.dialled call connected) := by
  intro a c' hc'
  rw [find?_dialled] at hc'
  split at hc'
  · rename_i hdialled
    obtain rfl := Option.some.inj hc'
    exact .inr ⟨hdialled.2.1, rfl⟩
  · exact .inl ⟨c', hc', .refl⟩

end Softphone.CallBook
