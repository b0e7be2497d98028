import Softphone.Proofs.Coordinator.Run
import Softphone.Proofs.Session.Agents

/-!
# No agent is leaked along a run

Throughout a run every agent that the engine has made was let go of once or is the one of the
registration, and once the session has ended all have been let go of (`Coordinator.agents_returned`). It
is assumed that the engine makes no agent twice.
-/

namespace Softphone

variable {σ : Type}

/-- Every agent that the engine made is let go of, once at most and once in the end. -/
structure Session.AgentsReturned (s : Session σ) : Prop where
  kept : s.AgentsKept
  once : s.world.released.Nodup
  returned : s.ended = true → ∀ agent ∈ s.world.made, s.world.released.count agent = 1

namespace Session

variable {s : Session σ}

/-- The agent of the registration was not let go of. -/
theorem AgentsKept.not_released (h : s.AgentsKept) (hfresh : s.world.made.Nodup) {agent : AgentHandle}
    (hagent : s.registration.agent = some agent) : agent ∉ s.world.released := by
  have honce := h.balance.nodup hfresh
  rw [hagent] at honce
  exact fun hreleased => List.disjoint_of_nodup_append honce hreleased (List.mem_singleton_self agent)

theorem AgentsKept.returned (h : s.AgentsKept) (hfresh : s.world.made.Nodup)
    (hended : s.ended = true → s.registration.agent = none) : s.AgentsReturned := by
  have honce : s.world.released.Nodup := (h.balance.nodup hfresh).of_append_left
  refine ⟨h, honce, fun hend agent hmade => ?_⟩
  apply List.count_eq_one_of_mem honce
  have hmem := h.balance.subset hmade
  rwa [hended hend, Option.toList_none, List.append_nil] at hmem

end Session

namespace Coordinator

variable [Host σ] {c : Coordinator σ}

/-- Only a session that has ended has let go of its agent for good. -/
theorem agentsKept_runMoves {config : Config} {host : σ} (hstart : start config host = .ok c)
    (ms : List (Move σ)) : (c.runMoves ms).session.AgentsKept ∧
      ((c.runMoves ms).session.ended = true →
        (c.runMoves ms).session.registration.agent = none) := by
  refine invariant_of_turn
    (P := fun s => s.AgentsKept ∧ (s.ended = true → s.registration.agent = none)) ?_ ?_ ?_ ms
  · rintro s s' haside ⟨hkept, hended⟩
    refine ⟨hkept.spared haside.spares.account, ?_⟩
    rw [haside.ended, haside.spares.registration]
    exact hended
  · rintro s input queued hlive ⟨hkept, -⟩
    refine ⟨hkept.turn input queued, fun hended => ?_⟩
    rw [Session.turn_ended, hlive, Bool.false_or] at hended
    rw [(Session.sparesAccount_turn s input queued).registration]
    exact Session.agent_of_ends hkept hended
  · rw [session_of_start hstart]
    exact ⟨Session.agentsKept_new config host, nofun⟩

/-- A message that ends the session stops the coordinator, whatever arrives meanwhile. -/
theorem hasStopped_of_ends {input : Input} (hnext : c.nextInput? = some input)
    (hends : input.ends = true) (meanwhile : List Incident) :
    (c.move (.proceed meanwhile)).hasStopped = true := by
  obtain ⟨queued, haside⟩ := proceed_of_nextInput? hnext meanwhile
  rw [hasStopped, haside.ended, Session.turn_ended, hends, Bool.or_true]

/-- **Agents are neither leaked nor released twice.** After any moves, as long as the engine has made no
agent twice, what it made is what it was told to let go of and the agent of the registration; nothing
was let go of twice; and the coordinator stops with everything let go of. -/
theorem agents_returned {config : Config} {host : σ} (hstart : start config host = .ok c)
    (ms : List (Move σ)) (hfresh : (c.runMoves ms).session.world.made.Nodup) :
    (c.runMoves ms).session.AgentsReturned ∧
      ∀ input, (c.runMoves ms).nextInput? = some input → input.ends = true →
        ∀ meanwhile, ((c.runMoves ms).move (.proceed meanwhile)).hasStopped = true := by
  obtain ⟨hkept, hended⟩ := agentsKept_runMoves hstart ms
  refine ⟨hkept.returned hfresh hended, ?_⟩
  intro input hnext hends
  exact hasStopped_of_ends hnext hends

/-- An account signs in and is registered, signs in once more, and the session is shut down. -/
def signedInAndOut : List (Move Bench) :=
  [.ask ⟨0⟩ (.signIn bob), .loop, .report ⟨1⟩ (.registration .registered), .loop,
    .ask ⟨2⟩ (.signIn bob), .loop, .ask ⟨3⟩ .shutdown, .loop]

/-- Two agents were made by then, and both have been let go of. -/
theorem agents_returned_signedInAndOut : start {} ({} : Bench) = .ok onBench ∧
    (onBench.runMoves signedInAndOut).session.world.made.Nodup ∧
    (onBench.runMoves signedInAndOut).session.world.released.length = 2 ∧
    (onBench.runMoves signedInAndOut).session.ended = true ∧
    (onBench.runMoves signedInAndOut).session.AgentsReturned := by
  have hfresh : (onBench.runMoves signedInAndOut).session.world.made.Nodup := by decide
  exact ⟨start_onBench, hfresh, by decide, by decide,
    (agents_returned start_onBench signedInAndOut hfresh).1⟩

end Coordinator

end Softphone
