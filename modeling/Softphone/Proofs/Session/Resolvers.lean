import Softphone.Proofs.Network.Resolvers
import Softphone.Proofs.Session.Early

/-!
# The name servers of a session

A session follows the networks from its first agent on, and runs no pass before. So the list of name servers
that it has stored is always what the engine has (`Session.ResolversKept`), whatever messages come and whatever
the engine refuses.
-/

namespace Softphone.Session

variable {σ : Type} {s s' s₀ : Session σ} {dns : DnsMode}

/-- The stored name servers are what the engine has. Nothing is said to it of name servers before there is an
agent, and a given list is said to it once. -/
structure ResolversKept (dns : DnsMode) (s : Session σ) : Prop where
  asked : s.mobility.settings.dns = dns
  mirrored : s.mobility.ResolversMirrored s.world
  /-- The networks are followed from the first agent to the end. -/
  running : s.ended = false → (s.mobility.running = true ↔ s.world.made ≠ [])
  idle : s.world.made = [] → s.world.resolverCalls = []
  given : ∀ servers, dns = .static servers → s.world.made ≠ [] →
    s.world.resolverCalls = [(ResolverList.ofList servers).endpoints]

theorem resolversKept_new (config : Config) (host : σ) :
    (new config host).ResolversKept config.network.dns where
  asked := rfl
  mirrored := ⟨rfl, .nil⟩
  running _ := iff_of_false Bool.false_ne_true (not_not.2 rfl)
  idle _ := rfl
  given _ _ hmade := absurd rfl hmade

/-- Nothing is done about name servers, and there is an agent only if there was one. -/
structure KeepsResolvers (s s' : Session σ) : Prop where
  settings : s'.mobility.settings = s.mobility.settings
  resolvers : s'.mobility.resolvers = s.mobility.resolvers
  running : s'.ended = false → s.ended = false ∧ s'.mobility.running = s.mobility.running
  world : s.world.Grows (·.resolvers? = none) s'.world
  made : s.world.made = [] → s'.world.made = []

theorem KeepsResolvers.made_iff (h : s.KeepsResolvers s') : s'.world.made = [] ↔ s.world.made = [] :=
  ⟨World.made_eq_nil_of_grows h.world, h.made⟩

theorem ResolversKept.kept (h : s.ResolversKept dns) (hkeeps : s.KeepsResolvers s') :
    s'.ResolversKept dns := by
  obtain ⟨hcalls, -⟩ := World.resolvers_of_grows hkeeps.world
  refine ⟨(congrArg NetworkSettings.dns hkeeps.settings).trans h.asked,
    h.mirrored.of_grows hkeeps.resolvers hkeeps.world, fun hlive => ?_, fun hnone => ?_,
    fun servers hgiven hmade => ?_⟩
  · obtain ⟨hlive, hrunning⟩ := hkeeps.running hlive
    rw [hrunning, Ne, hkeeps.made_iff]
    exact h.running hlive
  · rw [hcalls]
    exact h.idle (hkeeps.made_iff.1 hnone)
  · rw [hcalls]
    exact h.given servers hgiven fun hnone => hmade (hkeeps.made hnone)

theorem KeepsNetwork.keepsResolvers (h : s.KeepsNetwork s') (hended : s'.ended = false → s.ended = false)
    (hmade : s.world.made = [] → s'.world.made = []) : s.KeepsResolvers s' where
  settings := h.resolvers.1
  resolvers := h.resolvers.2
  running hlive := ⟨hended hlive, h.running⟩
  world := h.world.mono fun _ => Effect.resolvers?_of_not_transport
  made := hmade

theorem Aside.keepsResolvers (h : s.Aside s') : s.KeepsResolvers s' := by
  refine h.keepsNetwork.keepsResolvers (fun hlive => h.ended.symm.trans hlive) fun hnone => ?_
  have hmade : s'.world.made = s.world.made := (SparesAccount.makesNone h.spares.account).record
  rw [hmade, hnone]

variable [Host σ]

/-! ## Messages -/

theorem keepsResolvers_hotspotChanged (enabled : Bool) :
    s.KeepsResolvers (s.withNetwork (s.mobility.onHotspotChanged enabled s.timers s.world)) := by
  obtain ⟨_, _, _, _, _, _, hmobility⟩ := s.mobility.onHotspotChanged_mobility enabled s.timers s.world
  have hmade := (Mobility.grows_onHotspotChanged (p := (·.made? = none)) s.mobility s.world
    (fun _ _ => rfl) enabled s.timers).record
  refine ⟨?_, ?_, fun hlive => ⟨hlive, ?_⟩, Mobility.grows_onHotspotChanged _ _ (fun _ _ => rfl) _ _,
    hmade.trans⟩
  all_goals rw [withNetwork_mobility, hmobility]

theorem keepsResolvers_hotspotDebounce (timers : Timers) :
    s.KeepsResolvers (s.withNetwork (s.mobility.onHotspotDebounce timers s.world)) := by
  obtain ⟨_, _, _, hmobility⟩ := s.mobility.onHotspotDebounce_mobility timers s.world
  have hmade := (Mobility.grows_onHotspotDebounce (p := (·.made? = none)) s.mobility s.world
    (fun _ _ _ => rfl) timers).record
  refine ⟨?_, ?_, fun hlive => ⟨hlive, ?_⟩, Mobility.grows_onHotspotDebounce _ _ (fun _ _ _ => rfl) _,
    hmade.trans⟩
  all_goals rw [withNetwork_mobility, hmobility]

/-- With the first agent the networks begin to be followed, and a given list is offered. -/
theorem ResolversKept.began (h : s.ResolversKept dns) (hlive : s.ended = false) {input : Input}
    (hbegins : s.begins? input = some s₀) (hspares : s₀.begun.SparesNetwork s') :
    s'.ResolversKept dns := by
  obtain ⟨hkeeps, hidle⟩ := keepsNetwork_of_begins? hbegins
  have hnone : s.world.made = [] := by
    by_contra hmade
    rw [(h.running hlive).2 hmade] at hidle
    cases hidle
  have hspared : s.world.Grows (·.resolvers? = none) s₀.world :=
    hkeeps.world.mono fun _ => Effect.resolvers?_of_not_transport
  have hkept : s₀.begun.world.Grows (·.resolvers? = none) s'.world :=
    hspares.keeps.world.mono fun _ => Effect.resolvers?_of_not_transport
  have hcalls : s₀.world.resolverCalls = [] :=
    (World.resolvers_of_grows hspared).1.trans (h.idle hnone)
  have hmade : s'.world.made ≠ [] := made_of_began hbegins hspares
  have hsettings : s₀.mobility.settings.dns = dns := by
    rw [hkeeps.resolvers.1]
    exact h.asked
  obtain ⟨resolvers, hmobility⟩ := s₀.begun_mobility
  refine ⟨?_, ?_, fun _ => iff_of_true ?_ hmade, fun hnone' => absurd hnone' hmade,
    fun servers hgiven _ => ?_⟩
  · rw [hspares.mobility, hmobility]
    exact hsettings
  · have hstart := (h.mirrored.of_grows hkeeps.resolvers.2 hspared).start
      (World.resolversTaken_eq_nil hcalls)
    refine hstart.of_grows ?_ hkept
    rw [hspares.mobility]
    rfl
  · rw [hspares.mobility, hmobility]
    rfl
  · rw [(World.resolvers_of_grows hkept).1]
    refine (Mobility.resolverCalls_start_of_given (hsettings.trans hgiven)).trans ?_
    rw [hcalls, List.nil_append]

/-- **The name servers stay what the engine has.** -/
theorem ResolversKept.handle (h : s.ResolversKept dns) (hlive : s.ended = false)
    (input : Input) : (s.handle input).ResolversKept dns := by
  have hended : (s.handle input).ended = false → s.ended = false := fun _ => hlive
  have hmade : s.begins? input = none → s.world.made = [] → (s.handle input).world.made = [] := by
    intro hbegins hnone
    rw [made_of_not_begins hbegins, hnone]
    rw [Bool.eq_false_iff, Ne, h.running hlive]
    exact not_not.2 hnone
  have hstops : input.ends = true → (s.handle input).ended = true := by
    intro hends
    rw [handle_ended, hends, Bool.or_true]
  have hstep := networkStep_handle (s := s) input
  generalize s.handle input = s' at hstep hended hmade hstops ⊢
  cases hstep with
  | kept _ _ hbegins hkeeps => exact h.kept (hkeeps.keepsResolvers hended (hmade hbegins))
  | reported enabled => exact h.kept (keepsResolvers_hotspotChanged enabled)
  | debounced _ => exact h.kept (keepsResolvers_hotspotDebounce _)
  | began hbegins hspares => exact h.began hlive hbegins hspares
  | stopped hends hkeeps =>
    refine h.kept ⟨?_, ?_, fun hgoes => ?_, ?_, hmade (begins?_of_ends hends)⟩
    · rw [hkeeps.resolvers.1, halted_mobility]
    · rw [hkeeps.resolvers.2, halted_mobility]
    · rw [hstops hends] at hgoes
      cases hgoes
    · exact (sparesTransport_halted.trans hkeeps.world).mono fun _ =>
        Effect.resolvers?_of_not_transport

/-! ## Passes -/

theorem ResolversKept.runPass (h : s.ResolversKept dns) (hlive : s.ended = false) :
    s.runPass.ResolversKept dns := by
  have hmade : s.runPass.world.made = s.world.made := sparesAccount_runPass.makesNone.record
  rcases s.runPass_cases with hkeeps | ⟨hrunning, hpassed⟩
  · exact h.kept (hkeeps.keepsResolvers (fun _ => hlive) hmade.trans)
  have htaken : s.mobility.takePending.2.ResolversMirrored s.world := h.mirrored.of_grows rfl .refl
  have hagent : s.world.made ≠ [] := (h.running hlive).1 hrunning
  rw [hpassed] at hmade ⊢
  refine ⟨?_, ?_, fun _ => iff_of_true ?_ ?_, fun hnone => ?_, fun servers hgiven _ => ?_⟩
  · rw [passed_mobility, Mobility.reconcile_mobility]
    exact h.asked
  · exact htaken.reconcile hrunning
  · rw [passed_mobility, Mobility.reconcile_mobility]
    exact hrunning
  · rw [hmade]
    exact hagent
  · rw [hmade] at hnone
    exact absurd hnone hagent
  · have hcalls := Mobility.resolverCalls_reconcile_of_given (m := s.mobility.takePending.2)
      (w := s.world) hrunning (h.asked.trans hgiven)
    exact hcalls.trans (h.given servers hgiven hagent)

/-- A pass that is refused no name servers leaves those of the platform. -/
theorem resolvers_runPass (hdynamic : s.mobility.settings.dns = .dynamic)
    (hpending : s.mobility.pending = true) (hrunning : s.mobility.running = true)
    (haccepted : ∀ servers, .setResolvers servers false ∉ s.runPass.world.since s.world) :
    s.runPass.mobility.resolvers = .collect s.world.platform := by
  rw [runPass_of_pending hpending hrunning] at haccepted ⊢
  rw [passed_world, World.since_eq (Mobility.reconcile_trace _ _)] at haccepted
  exact Mobility.resolvers_reconcile_of_accepted hdynamic haccepted

/-- Whatever messages come, the settings stay. -/
theorem settings_handle (input : Input) :
    (s.handle input).mobility.settings = s.mobility.settings := by
  have hstep := networkStep_handle (s := s) input
  generalize s.handle input = s' at hstep ⊢
  cases hstep with
  | kept _ _ _ hkeeps => exact hkeeps.resolvers.1
  | reported enabled => exact (keepsResolvers_hotspotChanged enabled).settings
  | debounced _ => exact (keepsResolvers_hotspotDebounce _).settings
  | @began _ s₀ _ hbegins hspares =>
    obtain ⟨_, hmobility⟩ := s₀.begun_mobility
    rw [hspares.mobility, hmobility]
    exact (keepsNetwork_of_begins? hbegins).1.resolvers.1
  | stopped _ hkeeps => rw [hkeeps.resolvers.1, halted_mobility]

theorem settings_beforePass (input : Input) (queued : List Notification) :
    (s.beforePass input queued).mobility.settings = s.mobility.settings :=
  queued_induction (P := fun s' => s'.mobility.settings = s.mobility.settings)
    (fun notification h => (settings_handle (.notification notification)).trans h)
    (settings_handle input) queued

end Softphone.Session
