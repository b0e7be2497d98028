import Softphone.Proofs.Coordinator.Acts
import Softphone.Proofs.Coordinator.Resolvers

/-!
# Name servers after a refusal

Where the name servers follow the networks, a pass that is refused none leaves the engine with those of the
platform, whatever it refused before. A given list is offered once, when the networks begin to be followed: the
engine has it from then on, or never if it refused it then (`Coordinator.resolvers_recover`).
-/

namespace Softphone

variable {σ : Type}

/-- An engine that was told of one list of name servers has it, unless it refused it. -/
theorem World.resolversTaken_of_told_once {w : World σ} {list : List Endpoint}
    (honce : w.resolverCalls = [list]) :
    w.resolversTaken = if .setResolvers list false ∈ w.trace then [] else [list] := by
  obtain ⟨before, e, later, htrace, hbefore, hcall, hlater⟩ := List.filterMap_eq_cons_iff.1 honce
  have hlater' := List.filterMap_eq_nil_iff.1 hlater
  have hrefusal : Effect.resolvers? (.setResolvers list false) ≠ none :=
    Option.some_ne_none list
  have htaken : w.resolversTaken = e.takenResolvers?.toList := by
    rw [resolversTaken, record, htrace, List.filterMap_append, List.filterMap_cons,
      List.filterMap_eq_nil_iff.2 fun e he => Effect.takenResolvers?_of_none (hbefore e he),
      List.filterMap_eq_nil_iff.2 fun e he => Effect.takenResolvers?_of_none (hlater' e he)]
    cases e.takenResolvers? <;> rfl
  have hmem : .setResolvers list false ∈ w.trace ↔ .setResolvers list false = e := by
    rw [htrace, List.mem_append, List.mem_cons]
    refine ⟨?_, fun heq => .inr (.inl heq)⟩
    rintro (hmem | heq | hmem)
    · exact absurd (hbefore _ hmem) hrefusal
    · exact heq
    · exact absurd (hlater' _ hmem) hrefusal
  rw [htaken, if_congr hmem rfl rfl]
  cases e with
  | setResolvers servers accepted =>
    obtain rfl := Option.some.inj hcall
    cases accepted with
    | true => exact (if_neg (by rintro ⟨⟩)).symm
    | false => exact (if_pos rfl).symm
  | _ => cases hcall

variable [Host σ]

namespace Session

variable {s s' : Session σ} {dns : DnsMode} {past : List (Session σ × Act)}

/-- What the engine has of name servers after a pass. -/
structure ResolversRecovered (dns : DnsMode) (s : Session σ) : Prop where
  /-- If the servers follow the networks and the pass is refused none, the list that the engine agreed to last is
  that of the platform, or that is empty and the engine agreed to none. -/
  followed : dns = .dynamic →
    (∀ servers, .setResolvers servers false ∉ s.runPass.world.since s.world) →
    s.runPass.world.resolversTaken.getLastD [] = (ResolverList.collect s.world.platform).endpoints
  /-- A given list was offered once. It is the one that the engine agreed to, or the engine refused it then and
  has agreed to none. -/
  given : ∀ servers, dns = .static servers →
    s.runPass.world.resolverCalls = [(ResolverList.ofList servers).endpoints] ∧
    s.runPass.world.resolversTaken =
      if .setResolvers (ResolverList.ofList servers).endpoints false ∈ s.runPass.world.trace then []
      else [(ResolverList.ofList servers).endpoints]

theorem ResolversKept.recovered (h : s.ResolversKept dns) (hlive : s.ended = false)
    (hpending : s.mobility.pending = true) (hrunning : s.mobility.running = true) :
    s.ResolversRecovered dns := by
  have hpassed := h.runPass hlive
  refine ⟨fun hdynamic haccepted => ?_, fun servers hgiven => ?_⟩
  · rw [← hpassed.mirrored.stored]
    exact congrArg ResolverList.endpoints
      (resolvers_runPass (h.asked.trans hdynamic) hpending hrunning haccepted)
  · have hagent : s.runPass.world.made ≠ [] := by
      have hmade : s.runPass.world.made = s.world.made := sparesAccount_runPass.makesNone.record
      rw [hmade]
      exact (h.running hlive).1 hrunning
    have honce := hpassed.given servers hgiven hagent
    exact ⟨honce, World.resolversTaken_of_told_once honce⟩

theorem ResolversKept.act (h : s.ResolversKept dns) (hlive : s.ended = false) (act : Act) :
    (s.act act).ResolversKept dns := by
  cases act with
  | message input => exact h.handle hlive input
  | pass => exact h.runPass hlive

end Session

namespace Coordinator

variable {c : Coordinator σ}

/-- **The name servers after a refusal.** Whatever the engine refused before, a pass that is refused no name
servers leaves it with those of the platform, where they follow the networks. A given list is what the engine has
after a pass exactly if it agreed to it when it was offered it, which is done once. -/
theorem resolvers_recover {config : Config} {host : σ} (hstart : start config host = .ok c)
    (ms : List (Move σ)) {s : Session σ} (hpass : (s, .pass) ∈ c.actsAlong ms)
    (hpending : s.mobility.pending = true) (hrunning : s.mobility.running = true) :
    s.ResolversRecovered config.network.dns := by
  -- What is known of every session that acts: it keeps its name servers in step with the engine.
  have hkept : (∀ x ∈ c.actsAlong ms, x.1.ResolversKept config.network.dns) ∧
      (c.runMoves ms).session.ResolversKept config.network.dns := by
    refine live_acts_induction
      (P := fun past s => (∀ x ∈ past, x.1.ResolversKept config.network.dns) ∧
        s.ResolversKept config.network.dns) ?_ ?_ ?_ ms
    · rintro past s s' haside ⟨hpast, h⟩
      exact ⟨hpast, h.kept haside.keepsResolvers⟩
    · rintro past s act hlive ⟨hpast, h⟩
      refine ⟨List.forall_mem_append.2 ⟨hpast, ?_⟩, h.act hlive act⟩
      exact List.forall_mem_singleton.2 h
    · rw [session_of_start hstart]
      exact ⟨List.forall_mem_nil _, Session.resolversKept_new config host⟩
  exact (hkept.1 _ hpass).recovered (live_of_mem_actsAlong ms _ hpass) hpending hrunning

/-- The list that was refused when the account signed in is what the engine has after the next pass. -/
theorem resolvers_recover_refused : start {} ({} : Bench) = .ok onBench ∧
    ∃ s, (s, .pass) ∈ onBench.actsAlong refusedResolvers ∧
      s.mobility.pending = true ∧ s.mobility.running = true ∧ s.world.resolversTaken = [] ∧
      s.world.resolverCalls = [[⟨.v4 0x0A000001, ResolverList.port⟩]] ∧
      s.runPass.world.resolversTaken = [[⟨.v4 0x0A000001, ResolverList.port⟩]] ∧
      s.ResolversRecovered .dynamic := by
  have hpass {s : Session Bench} (h : (onBench.actsAlong refusedResolvers)[3]? = some (s, .pass)) :=
    List.mem_of_getElem? h
  refine ⟨start_onBench, _, hpass rfl, by decide, by decide, by decide, by decide, by decide, ?_⟩
  exact resolvers_recover start_onBench refusedResolvers (hpass rfl) (by decide) (by decide)

/-- A coordinator on a bench to which one name server is given. -/
def onGivenBench : Coordinator Bench :=
  { onBench with session := .new { network.dns := .static [.v4 0x01010101] } {} }

/-- The given list that was refused is not what the engine has after the next pass, which is refused nothing. -/
theorem given_resolvers_lost :
    start { network.dns := .static [.v4 0x01010101] } ({} : Bench) = .ok onGivenBench ∧
    ∃ s, (s, .pass) ∈ onGivenBench.actsAlong refusedResolvers ∧
      s.mobility.pending = true ∧ s.mobility.running = true ∧ s.runPass.world.since s.world = [] ∧
      s.runPass.world.resolversTaken.getLastD [] ≠ (ResolverList.ofList [.v4 0x01010101]).endpoints := by
  refine ⟨rfl, _, List.mem_of_getElem? (i := 3) rfl, by decide, by decide, by decide, by decide⟩

end Coordinator

end Softphone
