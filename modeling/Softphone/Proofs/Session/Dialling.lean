import Softphone.Proofs.Calls.Dialled
import Softphone.Proofs.Coordinator.Run

/-!
# Placing calls

What placing a call can come to (`Session.dial_cases`), and what a call that could not be placed leaves
of the calls: everything, except that no call is current any more once the engine has refused to connect
the new one (`Session.sameCalls_failed_dial_iff`).
-/

namespace Softphone

namespace Session

variable {σ : Type} [Engine σ]

/-- A tracked call is connected, or dropped. -/
theorem connectDialled_eq {calls tracked : CallBook} {call : Call}
    (htrack : calls.track call = .ok tracked) (s : Session σ) (w : World σ) (target : String) :
    ({ s with calls := tracked, world := w } : Session σ).connectDialled call.handle target =
      ((w.connect call.handle target).1,
        { s with
          calls := calls.dialled call (w.connect call.handle target).1
          world := (w.connect call.handle target).2 }) := by
  unfold connectDialled CallBook.dialled
  rw [htrack]
  dsimp only
  cases (w.connect call.handle target).1 <;> rfl

theorem since_allocateCall (w : World σ) (agent : AgentHandle) :
    (w.allocateCall agent).2.since w = [.allocateCall agent (w.allocateCall agent).1] :=
  World.since_eq World.trace_allocateCall

variable [StampSource σ]

/-- How the engine takes the request to connect a call that it has just set up. -/
def connection (s : Session σ) (agent : AgentHandle) (handle : CallHandle) (target : String) :
    Bool × World σ :=
  (s.world.allocateCall agent).2.stamp.2.connect handle target

/-- What placing a call can come to. -/
inductive Dials (s : Session σ) : Except SessionError Bool × Session σ → Prop
  /-- The target is none, or there is no agent. -/
  | declined (e : SessionError) : Dials s (.error e, s)
  /-- The engine sets up no call. -/
  | unallocated {agent : AgentHandle} (hagent : s.registration.agent = some agent) :
    Dials s (.ok false, { s with world := (s.world.allocateCall agent).2 })
  /-- The engine sets up a call under a handle that is taken. -/
  | taken {agent : AgentHandle} (hagent : s.registration.agent = some agent) (e : SessionError) :
    Dials s (.error e, { s with world := (s.world.allocateCall agent).2 })
  /-- The call is tracked, and the engine is asked to connect it. -/
  | placed {agent : AgentHandle} (hagent : s.registration.agent = some agent) {call : Call}
    {tracked : CallBook} (htrack : s.calls.track call = .ok tracked) (target : String)
    (hnew : call.direction = .outbound ∧ call.state ≠ .closed) :
    Dials s (.ok (s.connection agent call.handle target).1,
      { s with
        calls := s.calls.dialled call (s.connection agent call.handle target).1
        world := (s.connection agent call.handle target).2 })

/-- **How placing a call goes.** -/
theorem dial_cases (s : Session σ) (target : String) : s.Dials (s.dial target) := by
  unfold dial
  split
  · exact .declined _
  rename_i text _
  split
  · exact .declined _
  rename_i agent hagent
  dsimp only
  split
  · exact .unallocated hagent
  rename_i handle _
  unfold trackDialled
  dsimp only
  generalize hcall : Call.new _ handle agent .outbound text = call
  obtain rfl : call.handle = handle := by rw [← hcall]; rfl
  cases htrack : s.calls.track call with
  | error e => exact .taken hagent e
  | ok tracked =>
    dsimp only [Except.map]
    rw [connectDialled_eq htrack]
    exact .placed hagent htrack text (hcall ▸ ⟨rfl, nofun⟩)

/-- The engine refused to connect a call between an earlier moment and now. -/
def RefusedSince (s earlier : Session σ) : Prop :=
  ∃ handle target, .connect handle target false ∈ s.world.since earlier.world

variable {s s' : Session σ}

theorem since_connection {agent : AgentHandle} {handle : CallHandle} {target : String} :
    (s.connection agent handle target).2.since s.world =
      [.allocateCall agent (s.world.allocateCall agent).1,
        .connect handle target (s.connection agent handle target).1] := by
  refine World.since_eq ?_
  unfold connection
  rw [World.trace_connect, World.trace_stamp, World.trace_allocateCall, List.append_assoc]
  rfl

/-- **What a call that could not be placed leaves.** The tracked calls, the current and the closing one
are what they were, unless a call was current and the engine refused to connect the new one. -/
theorem sameCalls_failed_dial_iff {target : String} (hfail : (s.dial target).1 ≠ .ok true) :
    s.calls.SameCalls (s.dial target).2.calls ↔
      ((s.dial target).2.RefusedSince s → s.calls.registry.currentHandle = none) := by
  have hdial := dial_cases s target
  generalize s.dial target = r at hdial hfail ⊢
  cases hdial with
  | declined e =>
    refine iff_of_true .refl fun ⟨handle, text, hmem⟩ => ?_
    rw [World.since_self] at hmem
    cases hmem
  | unallocated hagent | taken hagent =>
    refine iff_of_true .refl fun ⟨handle, text, hmem⟩ => ?_
    simp [since_allocateCall] at hmem
  | placed hagent htrack text hnew =>
    rename_i agent call tracked
    have hrefused : (s.connection agent call.handle text).1 = false := by
      cases hconnected : (s.connection agent call.handle text).1 with
      | false => rfl
      | true => exact absurd (congrArg Except.ok hconnected) hfail
    have hsince : .connect call.handle text false ∈
        (s.connection agent call.handle text).2.since s.world := by
      rw [since_connection, hrefused]
      exact List.mem_cons_of_mem _ (List.mem_singleton_self _)
    dsimp only
    rw [hrefused, CallBook.sameCalls_unconnected_iff htrack]
    exact ⟨fun hnone _ => hnone, fun hnone => hnone ⟨call.handle, text, hsince⟩⟩

end Session

namespace Coordinator

/-- An account signs in, and from then on the engine connects no call. -/
def deafEngine : List (Move Bench) :=
  [.ask ⟨0⟩ (.signIn bob), .loop,
    .surroundings { engine.nextHandle := 101, engine.failures := [.connect] }]

/-- A call comes in while the engine connects no call. -/
def deafRinging : List (Move Bench) := deafEngine ++ reported 1 .incoming

/-- Where no call is current, a call that the engine would not connect leaves no mark. -/
theorem sameCalls_failed_dial_deafEngine :
    start {} ({} : Bench) = .ok onBench ∧
      ((onBench.runMoves deafEngine).session.dial "carol").1 = .ok false ∧
      (onBench.runMoves deafEngine).session.calls.SameCalls
        ((onBench.runMoves deafEngine).session.dial "carol").2.calls := by
  have hfail : ((onBench.runMoves deafEngine).session.dial "carol").1 = .ok false := by decide
  refine ⟨start_onBench, hfail, ?_⟩
  refine (Session.sameCalls_failed_dial_iff ?_).2 fun _ => by decide
  rw [hfail]
  decide

/-- After a call that the engine would not connect, the call that rings is not current any more. -/
theorem failed_dial_drops_current :
    start {} ({} : Bench) = .ok onBench ∧
      ((onBench.runMoves deafRinging).session.dial "carol").1 = .ok false ∧
      (onBench.runMoves deafRinging).session.calls.registry.currentHandle = some ⟨1⟩ ∧
      ¬ (onBench.runMoves deafRinging).session.calls.SameCalls
        ((onBench.runMoves deafRinging).session.dial "carol").2.calls := by
  refine ⟨start_onBench, by decide, by decide, fun h => ?_⟩
  have hcurrent := h.current
  revert hcurrent
  decide

end Coordinator

end Softphone
