import Mathlib.Data.List.Chain
import Softphone.Proofs.Network.Effects
import Softphone.Proofs.Network.Pass

/-!
# The stored name servers and the engine

The list of name servers of a mobility that runs is the one that the engine agreed to last
(`Mobility.ResolversMirrored`): a list that it refuses is not kept, so that the next pass offers it again, and
a list that it has is not offered again. A given list is offered once, when the mobility starts.
-/

namespace Softphone

variable {σ : Type}

namespace Effect

/-- The name servers that the engine is told to use. -/
def resolvers? : Effect → Option (List Endpoint)
  | setResolvers servers _ => some servers
  | _ => none

/-- The name servers that the engine agrees to use. -/
def takenResolvers? : Effect → Option (List Endpoint)
  | setResolvers servers true => some servers
  | _ => none

theorem takenResolvers?_of_none {e : Effect} (h : e.resolvers? = none) : e.takenResolvers? = none := by
  cases e <;> first | rfl | cases h

theorem resolvers?_of_not_transport {e : Effect} (h : e.isTransport = false) : e.resolvers? = none := by
  cases e <;> first | rfl | cases h

end Effect

namespace World

variable {w w' : World σ}

/-- The lists of name servers that the engine was told to use, the first one first. -/
def resolverCalls (w : World σ) : List (List Endpoint) := w.record Effect.resolvers?

/-- The lists of name servers that the engine agreed to use, the first one first. -/
def resolversTaken (w : World σ) : List (List Endpoint) := w.record Effect.takenResolvers?

theorem resolvers_of_grows (h : w.Grows (·.resolvers? = none) w') :
    w'.resolverCalls = w.resolverCalls ∧ w'.resolversTaken = w.resolversTaken :=
  ⟨h.record, (h.mono fun _ => Effect.takenResolvers?_of_none).record⟩

theorem resolversTaken_eq_nil (h : w.resolverCalls = []) : w.resolversTaken = [] := by
  refine List.filterMap_eq_nil_iff.2 fun e he => Effect.takenResolvers?_of_none ?_
  exact List.filterMap_eq_nil_iff.1 h e he

variable [Engine σ]

theorem resolverCalls_setResolvers (w : World σ) (servers : List Endpoint) :
    (w.setResolvers servers).2.resolverCalls = w.resolverCalls ++ [servers] :=
  record_moveTo _ _ _ _

theorem resolversTaken_setResolvers (w : World σ) (servers : List Endpoint) :
    (w.setResolvers servers).2.resolversTaken =
      w.resolversTaken ++ if (w.setResolvers servers).1 then [servers] else [] := by
  refine (record_moveTo Effect.takenResolvers? w _ _).trans (congrArg (w.resolversTaken ++ ·) ?_)
  change (Effect.takenResolvers? (.setResolvers servers (w.setResolvers servers).1)).toList = _
  cases (w.setResolvers servers).1 <;> rfl

end World

theorem ResolverList.endpoints_injective : Function.Injective ResolverList.endpoints := by
  have hinjective : Function.Injective fun server : Address => (⟨server, port⟩ : Endpoint) :=
    fun _ _ h => congrArg Endpoint.address h
  rintro ⟨l⟩ ⟨l'⟩ heq
  exact congrArg ResolverList.mk (hinjective.list_map heq)

namespace Mobility

variable {m m' : Mobility} {w w' : World σ}

/-- The stored list is the one that the engine agreed to last, and the engine never agreed to the same list
twice in a row. -/
structure ResolversMirrored (m : Mobility) (w : World σ) : Prop where
  stored : m.resolvers.endpoints = w.resolversTaken.getLastD []
  varied : w.resolversTaken.IsChain (· ≠ ·)

theorem ResolversMirrored.of_grows (h : m.ResolversMirrored w) (hresolvers : m'.resolvers = m.resolvers)
    (hgrows : w.Grows (·.resolvers? = none) w') : m'.ResolversMirrored w' := by
  obtain ⟨-, htaken⟩ := World.resolvers_of_grows hgrows
  constructor
  · rw [hresolvers, htaken]
    exact h.stored
  · rw [htaken]
    exact h.varied

/-- A list that the engine did not agree to last is offered to it, and kept if it agrees. -/
theorem ResolversMirrored.offered [Engine σ] (h : m.ResolversMirrored w) {list : ResolverList}
    (hnew : ∀ last ∈ w.resolversTaken.getLast?, last ≠ list.endpoints)
    (hresolvers : m'.resolvers = if (w.setResolvers list.endpoints).1 then list else m.resolvers) :
    m'.ResolversMirrored (w.setResolvers list.endpoints).2 := by
  constructor
  · rw [hresolvers, World.resolversTaken_setResolvers]
    split
    · rw [List.getLastD_concat]
    · rw [List.append_nil]
      exact h.stored
  · rw [World.resolversTaken_setResolvers]
    split
    · refine List.isChain_append.2 ⟨h.varied, .singleton _, fun last hlast next hnext => ?_⟩
      obtain rfl := Option.some.inj hnext
      exact hnew last hlast
    · rw [List.append_nil]
      exact h.varied

/-- A list other than the stored one is not the one that the engine agreed to last. -/
theorem ResolversMirrored.ne_of_mem_getLast? (h : m.ResolversMirrored w) {list : ResolverList}
    (hnew : list ≠ m.resolvers) : ∀ last ∈ w.resolversTaken.getLast?, last ≠ list.endpoints := by
  rintro last hlast rfl
  refine hnew (ResolverList.endpoints_injective ?_)
  rw [h.stored, List.getLastD_eq_getLast?, hlast, Option.getD_some]

/-! ## Operations -/

section Engine

variable [Engine σ]

theorem ResolversMirrored.updateResolvers (h : m.ResolversMirrored w) (hrunning : m.running = true)
    (p : Platform) :
    (m.updateResolvers p w).2.1.ResolversMirrored (m.updateResolvers p w).2.2 := by
  unfold Mobility.updateResolvers
  dsimp only
  split
  · exact h
  split
  · exact h
  rename_i hnew
  have hoffered {m' : Mobility} (hkeeps : m'.resolvers = if (w.setResolvers
      (m.wantedResolvers p).endpoints).1 then m.wantedResolvers p else m.resolvers) :
      m'.ResolversMirrored (w.setResolvers (m.wantedResolvers p).endpoints).2 :=
    h.offered (h.ne_of_mem_getLast? hnew) hkeeps
  split
  · rename_i haccepted
    exact hoffered (if_pos haccepted).symm
  · rename_i hrefused
    exact hoffered (if_neg hrefused).symm

/-- The name servers of the platform are stored, unless the engine refuses them. -/
theorem resolvers_updateResolvers (hdynamic : m.settings.dns = .dynamic) {p : Platform}
    (haccepted : ∀ servers, .setResolvers servers false ∉ m.resolverEffects p w) :
    (m.updateResolvers p w).2.1.resolvers = .collect p := by
  have hwanted : m.wantedResolvers p = .collect p := by rw [wantedResolvers, hdynamic]
  unfold updateResolvers
  dsimp only
  split
  · rename_i hgiven
    rw [hdynamic] at hgiven
    simp [DnsMode.isDynamic] at hgiven
  split
  · rename_i hsame
    rw [← hwanted, hsame]
  rename_i hnew
  split
  · rename_i hrunning
    split
    · exact hwanted
    · rename_i hrefused
      refine absurd ?_ (haccepted (m.wantedResolvers p).endpoints)
      rw [resolverEffects, if_pos ⟨hrunning, by rw [hdynamic]; rfl, hnew⟩, List.mem_singleton,
        Bool.eq_false_iff.2 hrefused]
  · exact hwanted

/-- While the mobility runs a given list is not touched. -/
theorem updateResolvers_of_given (hrunning : m.running = true) {servers : List Address}
    (hgiven : m.settings.dns = .static servers) (p : Platform) (w : World σ) :
    m.updateResolvers p w = (false, m, w) := by
  rw [Mobility.updateResolvers, hrunning, hgiven]
  rfl

variable [Connectivity σ]

/-- Only where the name servers are brought up to date does a pass concern them. -/
theorem grows_reconcile_resolvers (m : Mobility) (w : World σ) :
    (m.updateResolvers w.platform w).2.2.Grows (·.resolvers? = none) (m.reconcile w).2.2 :=
  grows_reconcile_of_resolvers m w (fun _ _ => rfl) (fun _ _ _ => rfl) (fun _ => rfl) rfl rfl

theorem resolvers_reconcile (m : Mobility) (w : World σ) :
    (m.reconcile w).2.1.resolvers = (m.updateResolvers w.platform w).2.1.resolvers := by
  rw [reconcile_mobility]

theorem ResolversMirrored.reconcile (h : m.ResolversMirrored w) (hrunning : m.running = true) :
    (m.reconcile w).2.1.ResolversMirrored (m.reconcile w).2.2 :=
  (h.updateResolvers hrunning w.platform).of_grows (resolvers_reconcile m w)
    (grows_reconcile_resolvers m w)

/-- A pass that is refused nothing leaves the name servers of the platform. -/
theorem resolvers_reconcile_of_accepted (hdynamic : m.settings.dns = .dynamic)
    (haccepted : ∀ servers, .setResolvers servers false ∉ m.passEffects w) :
    (m.reconcile w).2.1.resolvers = .collect w.platform := by
  rw [resolvers_reconcile]
  refine resolvers_updateResolvers hdynamic fun servers hmem => haccepted servers ?_
  exact (mem_passEffects_iff m w).2 (.inl hmem)

theorem resolverCalls_reconcile_of_given (hrunning : m.running = true) {servers : List Address}
    (hgiven : m.settings.dns = .static servers) :
    (m.reconcile w).2.2.resolverCalls = w.resolverCalls := by
  rw [(World.resolvers_of_grows (grows_reconcile_resolvers m w)).1,
    updateResolvers_of_given hrunning hgiven]

/-- Where the networks begin to be followed a given list is offered, and kept if the engine agrees. -/
theorem ResolversMirrored.start (h : m.ResolversMirrored w) (hnone : w.resolversTaken = []) :
    (m.start w).1.ResolversMirrored (m.start w).2 := by
  unfold Mobility.start
  dsimp only
  split
  · exact h.of_grows rfl .refl
  · refine h.offered (by rw [hnone]; exact nofun) ?_
    split <;> rfl

theorem resolverCalls_start_of_given {servers : List Address}
    (hgiven : m.settings.dns = .static servers) :
    (m.start w).2.resolverCalls = w.resolverCalls ++ [(ResolverList.ofList servers).endpoints] := by
  rw [Mobility.start, hgiven]
  exact World.resolverCalls_setResolvers _ _

end Engine

end Mobility

end Softphone
