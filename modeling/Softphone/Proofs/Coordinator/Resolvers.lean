import Softphone.Proofs.Coordinator.Run
import Softphone.Proofs.Session.Resolvers

/-!
# Name servers along a run

However the messages of a run interleave and whatever the engine refuses, the stored name servers are those that
it agreed to last, and it is not troubled with what it has (`Coordinator.resolvers_in_step`).
-/

namespace Softphone

variable {σ : Type} [Host σ]

/-- The name servers of a session are in step with those of the engine, and with what the settings ask for. -/
structure Session.ResolversInStep (dns : DnsMode) (s : Session σ) : Prop where
  /-- The stored list is the one that the engine agreed to last, or empty if it agreed to none. -/
  stored : s.mobility.resolvers.endpoints = s.world.resolversTaken.getLastD []
  /-- The engine never agreed to the same list twice in a row. -/
  varied : s.world.resolversTaken.IsChain (· ≠ ·)
  /-- If the servers follow the networks, the next pass leaves those of the platform, unless the engine
  refuses them. -/
  collected : dns = .dynamic → ∀ input queued, (s.beforePass input queued).mobility.pending = true →
    (s.beforePass input queued).mobility.running = true →
    (∀ servers, .setResolvers servers false ∉
      (s.beforePass input queued).runPass.world.since (s.beforePass input queued).world) →
    (s.beforePass input queued).runPass.mobility.resolvers =
      .collect (s.beforePass input queued).world.platform
  /-- If they are given, the engine is told of them once, when the first sign-in is given an agent. -/
  once : ∀ servers, dns = .static servers → s.world.resolverCalls =
    if s.world.made = [] then [] else [(ResolverList.ofList servers).endpoints]

namespace Coordinator

variable {c : Coordinator σ}

/-- **The stored name servers are those of the engine.** After any moves, with any platform and whatever the
engine refuses, the stored list is the one that the engine agreed to last. -/
theorem resolvers_in_step {config : Config} {host : σ} (hstart : start config host = .ok c)
    (ms : List (Move σ)) : (c.runMoves ms).session.ResolversInStep config.network.dns := by
  have hkept : (c.runMoves ms).session.ResolversKept config.network.dns := by
    refine invariant_of_turn ?_ ?_ ?_ ms
    · intro s s' haside h
      exact h.kept haside.keepsResolvers
    · intro s input queued hlive h
      exact Session.turn_induction (fun input hlive h => h.handle hlive input)
        (fun hlive h => h.runPass hlive) hlive h input queued
    · rw [session_of_start hstart]
      exact Session.resolversKept_new config host
  refine ⟨hkept.mirrored.stored, hkept.mirrored.varied, fun hdynamic input queued => ?_,
    fun servers hgiven => ?_⟩
  · refine Session.resolvers_runPass ?_
    rw [Session.settings_beforePass, hkept.asked, hdynamic]
  · split
    · rename_i hnone
      exact hkept.idle hnone
    · rename_i hmade
      exact hkept.given servers hgiven hmade

/-- An account signs in while the engine refuses name servers, and then a network comes that it takes those
of. -/
def refusedResolvers : List (Move Bench) :=
  [.surroundings (onWifi { failures := [.resolvers] }), .ask ⟨0⟩ (.signIn bob), .loop,
    .surroundings (onWifi {}), .notify ⟨1⟩ (.network (.available ⟨1⟩)), .loop]

/-- The list that was refused is offered again, and is the stored one once the engine has agreed to it. -/
theorem resolvers_in_step_refused : start {} ({} : Bench) = .ok onBench ∧
    (onBench.runMoves refusedResolvers).session.world.resolverCalls.length = 2 ∧
    (onBench.runMoves refusedResolvers).session.world.resolversTaken.length = 1 ∧
    (onBench.runMoves refusedResolvers).session.ResolversInStep .dynamic := by
  exact ⟨start_onBench, by decide, by decide, resolvers_in_step start_onBench refusedResolvers⟩

end Coordinator

end Softphone
