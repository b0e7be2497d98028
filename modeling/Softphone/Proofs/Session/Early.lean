import Softphone.Proofs.Network.Hotspot
import Softphone.Proofs.Session.Agents
import Softphone.Proofs.Session.Networks

/-!
# Before there is an agent

Whatever a session asks of the engine about addresses, transport and name servers, it asks once there is an
agent (`World.TransportWaits`). As long as there is none the networks are not followed and no address of a
hotspot is known (`Session.IdleUntilMade`), so no message has anything to ask, but one: the first timer of a
hotspot does not look whether the networks are followed (`Session.TouchesEarly`).
-/

namespace Softphone

variable {σ : Type}

namespace World

variable {w w' : World σ} {p : Effect → Prop}

/-- Whatever was asked of the engine about its transport was asked once it had made an agent. -/
def TransportWaits (w : World σ) : Prop :=
  EachAfter (fun before e => e.isTransport = true → before.filterMap Effect.made? ≠ []) w.trace

theorem transportWaits_of_spared (h : w.Grows (·.isTransport = false) w') :
    w'.TransportWaits ↔ w.TransportWaits := by
  refine h.eachAfter_iff fun _ e hspared htransport => ?_
  rw [hspared] at htransport
  cases htransport

theorem filterMap_made_ne_nil (hmade : w.made ≠ []) (more : List Effect) :
    (w.trace ++ more).filterMap Effect.made? ≠ [] := by
  rw [List.filterMap_append]
  exact List.append_ne_nil_of_left_ne_nil hmade _

/-- Once there is an agent anything may be asked. -/
theorem transportWaits_of_made (h : w.Grows p w') (hmade : w.made ≠ []) :
    w'.TransportWaits ↔ w.TransportWaits :=
  h.eachAfter_iff fun more _ _ _ => filterMap_made_ne_nil hmade more

theorem made_eq_nil_of_grows (h : w.Grows p w') (hnone : w'.made = []) : w.made = [] := by
  obtain ⟨more, htrace, -⟩ := h.exists_trace
  rw [made, htrace] at hnone
  by_contra hmade
  exact filterMap_made_ne_nil hmade more hnone

end World

namespace Mobility

variable {m : Mobility} {w : World σ} {t : Timers} [Engine σ]

/-- A hotspot of which no address is known comes and goes without a word to the engine. -/
theorem onHotspotChanged_of_unknown (h : m.hotspotAddresses = .empty) (enabled : Bool) :
    (m.onHotspotChanged enabled t w).2.2 = w ∧
      (m.onHotspotChanged enabled t w).1.running = m.running ∧
      (m.onHotspotChanged enabled t w).1.hotspotAddresses = .empty := by
  rcases m.onHotspotChanged_cases enabled t w with
    ⟨-, heq⟩ | ⟨-, -, heq⟩ | ⟨-, -, _, _, _, heq⟩
  · rw [heq]
    exact ⟨rfl, rfl, h⟩
  · rw [heq]
    exact ⟨rfl, rfl, h⟩
  · rw [heq, h]
    exact ⟨rfl, rfl, rfl⟩

variable [Connectivity σ]

/-- After the delay nothing is done about a hotspot that is off or has no address to offer. -/
theorem onHotspotDebounce_of_unoffered (h : m.hotspotOn = true → m.offered w.platform = []) :
    (m.onHotspotDebounce t w).2.2 = w ∧
      (m.onHotspotDebounce t w).1.running = m.running ∧
      (m.onHotspotDebounce t w).1.hotspotAddresses = m.hotspotAddresses := by
  cases hon : m.hotspotOn with
  | false =>
    rw [onHotspotDebounce_off hon]
    exact ⟨rfl, rfl, rfl⟩
  | true =>
    obtain ⟨_, _, -, heq⟩ := onHotspotDebounce_on (w := w) (t := t) hon
    rw [heq, h hon]
    exact ⟨rfl, rfl, rfl⟩

/-- After the delay the addresses of a hotspot that is on are offered. -/
theorem grows_onHotspotDebounce_offered (hon : m.hotspotOn = true) {a : Address} {name : String}
    {rest : List (Address × String)} (hoffered : m.offered w.platform = (a, name) :: rest) :
    (w.addAddress a name).2.Grows (·.isNetwork = true) (m.onHotspotDebounce t w).2.2 := by
  obtain ⟨_, _, -, heq⟩ := onHotspotDebounce_on (w := w) (t := t) hon
  rw [heq, hoffered, addHotspot]
  exact grows_addHotspot _ _ (fun _ _ _ => rfl) _

end Mobility

namespace Session

variable {s s' s₀ : Session σ}

/-- As long as there is no agent the networks are not followed, and no address of a hotspot is known. -/
def IdleUntilMade (s : Session σ) : Prop :=
  s.world.made = [] → s.mobility.running = false ∧ s.mobility.hotspotAddresses = .empty

theorem KeepsNetwork.idleUntilMade (h : s.KeepsNetwork s') (hidle : s.IdleUntilMade) :
    s'.IdleUntilMade := by
  intro hnone
  rw [h.running, h.hotspotAddresses]
  exact hidle (World.made_eq_nil_of_grows h.world hnone)

/-- A sign-in that was given an agent leaves a session that the engine has made one for. -/
theorem made_of_signedIn? [Engine σ] {account : Account} (h : s.signedIn? account = some s₀) :
    s₀.world.made ≠ [] := by
  rw [signedIn?] at h
  split at h
  · cases h
  dsimp only at h
  split at h
  · cases h
  · rename_i agent houtcome
    obtain rfl := Option.some.inj h
    rw [World.allocateAgent] at houtcome ⊢
    dsimp only at houtcome ⊢
    rw [World.made_moveTo, houtcome]
    exact List.append_ne_nil_of_right_ne_nil _ (List.cons_ne_nil _ _)

/-- The sign-in with which the networks begin to be followed has been given an agent. -/
theorem made_of_begins? [Engine σ] {input : Input} (h : s.begins? input = some s₀) :
    s₀.world.made ≠ [] := by
  simp only [begins?] at h
  split at h
  · exact made_of_signedIn? (Option.filter_eq_some_iff.1 h).1
  · cases h

theorem grows_began [Engine σ] [Connectivity σ] (hspares : s₀.begun.SparesNetwork s') :
    s₀.world.Grows (fun _ => True) s'.world :=
  .trans (Mobility.grows_start _ _ fun _ _ => trivial) (hspares.world.mono fun _ _ => trivial)

theorem made_of_began [Engine σ] [Connectivity σ] {input : Input} (hbegins : s.begins? input = some s₀)
    (hspares : s₀.begun.SparesNetwork s') : s'.world.made ≠ [] :=
  fun hnone => made_of_begins? hbegins (World.made_eq_nil_of_grows (grows_began hspares) hnone)

/-! ## Who makes agents -/

theorem SparesAccount.makesNone (h : s.SparesAccount s') : s.world.Grows (·.made? = none) s'.world :=
  h.world.mono fun _ he => Effect.made?_of_not_agent (Effect.isOfAgent_of_not_account he)

theorem makesNone_published (registration : Registration) :
    s.world.Grows (·.made? = none) ({ s with registration } : Session σ).publishRegistration.world :=
  .note .refl rfl

section Registering

variable [Engine σ]

theorem makesNone_register (agent : AgentHandle) :
    s.world.Grows (·.made? = none) (s.register agent).world := by
  have hasked : s.world.Grows (·.made? = none) (s.world.register agent).2 := .step rfl
  unfold register
  dsimp only
  split
  · exact hasked
  · exact hasked.note rfl

theorem makesNone_releaseAgent : s.world.Grows (·.made? = none) s.releaseAgent.world := by
  unfold releaseAgent
  split
  · exact .refl
  · exact .step rfl

theorem makesNone_refresh : s.world.Grows (·.made? = none) s.refresh.2.world := by
  unfold refresh
  split
  · exact .refl
  · exact .refl
  · exact (makesNone_published _).trans (makesNone_register _)

theorem makesNone_unregister : s.world.Grows (·.made? = none) s.unregister.2.world := by
  unfold unregister
  split
  · exact .refl
  · exact (makesNone_published _).moveTo rfl

/-- The sign-in that is given no agent. -/
theorem makesNone_signIn [Connectivity σ] {account : Account} (h : s.signedIn? account = none) :
    s.world.Grows (·.made? = none) (s.signIn account).2.world := by
  rw [signedIn?] at h
  rw [signIn]
  cases hcheck : account.check with
  | error e => exact .refl
  | ok _ =>
    rw [hcheck] at h
    dsimp only at h ⊢
    cases houtcome : (s.releaseAgent.world.allocateAgent account).1 with
    | error e =>
      refine makesNone_releaseAgent.moveTo ?_
      change Effect.made? (.allocateAgent _ (s.releaseAgent.world.allocateAgent account).1) = none
      rw [houtcome]
      rfl
    | ok agent =>
      rw [houtcome] at h
      cases h

end Registering

section Messages

variable [Host σ]

theorem makesNone_teardown : s.world.Grows (·.made? = none) s.teardown.world :=
  sparesAccount_halted.makesNone.trans makesNone_unregister

/-- The engine makes an agent for a sign-in only. -/
theorem makesNone_handle {input : Input}
    (h : ∀ ticket account, input = .command ticket (.signIn account) → s.signedIn? account = none) :
    s.world.Grows (·.made? = none) (s.handle input).world := by
  cases input with
  | notification notification => exact (sparesAccount_handleNotification notification).makesNone
  | engine event =>
    cases event with
    | registration signal => exact makesNone_published _
    | call event => exact (spares_handleEngine_call event).account.makesNone
  | firing firing => exact (sparesAccount_handleFiring firing).makesNone
  | command ticket command =>
    cases command with
    | signIn account => exact (makesNone_signIn (h ticket account rfl)).note rfl
    | refresh => exact makesNone_refresh.note rfl
    | unregister => exact makesNone_unregister.note rfl
    | shutdown => exact makesNone_teardown.note rfl
    | _ => exact (spares_handleCommand ticket rfl).account.makesNone
  | abandoned => exact makesNone_teardown

/-- As long as the networks are not followed, only a message with which they begin to be makes an agent. -/
theorem made_of_not_begins {input : Input} (hbegins : s.begins? input = none)
    (hrunning : s.mobility.running = false) : (s.handle input).world.made = s.world.made := by
  refine World.Grows.record (f := Effect.made?) (makesNone_handle ?_)
  rintro ticket account rfl
  by_contra hsigned
  obtain ⟨s₀, hsigned⟩ := Option.ne_none_iff_exists'.1 hsigned
  rw [begins?, hsigned, Option.filter_some, (sparesNetwork_of_signedIn? hsigned).mobility,
    hrunning] at hbegins
  cases hbegins

end Messages

variable [Host σ]

/-- A message lets addresses be offered to the engine although it has made no agent yet: the firing of the
first timer of a hotspot that is on. -/
def TouchesEarly (s : Session σ) (input : Input) : Prop :=
  s.takesFiring .hotspotDebounce input = true ∧ s.world.made = [] ∧ s.mobility.hotspotOn = true ∧
    s.mobility.offered s.world.platform ≠ []

instance (s : Session σ) (input : Input) : Decidable (s.TouchesEarly input) :=
  inferInstanceAs (Decidable (_ ∧ _ ∧ _ ∧ _))

/-- As long as there is no agent, a message that does not touch the transport early leaves it alone. -/
theorem transportWaits_handle (hwaits : s.world.TransportWaits) (hidle : s.IdleUntilMade)
    {input : Input} (h : ¬ s.TouchesEarly input) :
    (s.handle input).world.TransportWaits ∧ (s.handle input).IdleUntilMade := by
  by_cases hmade : s.world.made = []
  swap
  · have hgrows := keepsTransport_handle (s := s) input
    refine ⟨(World.transportWaits_of_made hgrows hmade).2 hwaits, fun hnone => ?_⟩
    exact absurd (World.made_eq_nil_of_grows hgrows hnone) hmade
  obtain ⟨hrunning, hunknown⟩ := hidle hmade
  have hstep := networkStep_handle (s := s) input
  generalize s.handle input = s' at hstep ⊢
  cases hstep with
  | kept _ _ _ hkeeps =>
    exact ⟨(World.transportWaits_of_spared hkeeps.world).2 hwaits, hkeeps.idleUntilMade hidle⟩
  | reported enabled =>
    obtain ⟨hworld, hstill, hnone⟩ := Mobility.onHotspotChanged_of_unknown (w := s.world)
      (t := s.timers) hunknown enabled
    refine ⟨?_, fun _ => ⟨hstill.trans hrunning, hnone⟩⟩
    rw [withNetwork_world, hworld]
    exact hwaits
  | @debounced firing hfiring =>
    have hunoffered : s.mobility.hotspotOn = true → s.mobility.offered s.world.platform = [] := by
      intro hon
      by_contra hoffers
      exact h ⟨hfiring, hmade, hon, hoffers⟩
    obtain ⟨hworld, hstill, hsame⟩ := Mobility.onHotspotDebounce_of_unoffered
      (t := (s.timers.accept firing).2) hunoffered
    refine ⟨?_, fun _ => ⟨hstill.trans hrunning, hsame.trans hunknown⟩⟩
    rw [withNetwork_world, hworld]
    exact hwaits
  | @began _ s₀ _ hbegins hspares =>
    -- By now the engine has made an agent, so that anything may be asked.
    have hmade₀ := made_of_begins? hbegins
    have hwaits₀ := (World.transportWaits_of_spared (keepsNetwork_of_begins? hbegins).1.world).2 hwaits
    refine ⟨(World.transportWaits_of_made (grows_began hspares) hmade₀).2 hwaits₀, fun hnone => ?_⟩
    exact absurd hnone (made_of_began hbegins hspares)
  | stopped _ hkeeps =>
    have hhalted : s.halted.IdleUntilMade := by
      intro _
      rw [halted_mobility]
      exact ⟨rfl, hunknown⟩
    refine ⟨?_, hkeeps.idleUntilMade hhalted⟩
    exact (World.transportWaits_of_spared (sparesTransport_halted.trans hkeeps.world)).2 hwaits

/-- The addresses that are offered early come before any agent. -/
theorem not_transportWaits_of_touchesEarly {input : Input} (h : s.TouchesEarly input) :
    ¬ (s.handle input).world.TransportWaits := by
  obtain ⟨hfiring, hmade, hon, hoffers⟩ := h
  obtain ⟨⟨a, name⟩, rest, hoffered⟩ := List.exists_cons_of_ne_nil hoffers
  intro hwaits
  have hgrows : (s.world.addAddress a name).2.Grows (·.isNetwork = true) (s.handle input).world := by
    have hstep := networkStep_handle (s := s) input
    generalize s.handle input = s' at hstep ⊢
    cases hstep with
    | kept _ hspared =>
      rw [hspared] at hfiring
      cases hfiring
    | reported enabled => cases hfiring
    | debounced _ => exact Mobility.grows_onHotspotDebounce_offered hon hoffered
    | @began input _ _ hbegins =>
      cases input with
      | firing firing => cases hbegins
      | _ => cases hfiring
    | @stopped input _ hends =>
      cases input with
      | firing firing => cases hends
      | _ => cases hfiring
  have hoffer := hgrows.eachAfter_of_later hwaits
  rw [World.trace_addAddress, eachAfter_concat_iff] at hoffer
  exact hoffer.2 rfl hmade

/-- **When a message leaves the transport to an agent.** -/
theorem transportWaits_handle_iff (hidle : s.world.TransportWaits → s.IdleUntilMade) (input : Input) :
    (s.handle input).world.TransportWaits ↔ s.world.TransportWaits ∧ ¬ s.TouchesEarly input := by
  constructor
  · intro hwaits
    refine ⟨(keepsTransport_handle input).eachAfter_of_later hwaits, fun hearly => ?_⟩
    exact not_transportWaits_of_touchesEarly hearly hwaits
  · rintro ⟨hwaits, hspares⟩
    exact (transportWaits_handle hwaits (hidle hwaits) hspares).1

/-- No pass runs before there is an agent. -/
theorem transportWaits_runPass_iff (hidle : s.world.TransportWaits → s.IdleUntilMade) :
    (s.runPass.world.TransportWaits ↔ s.world.TransportWaits) ∧
      (s.world.TransportWaits → s.runPass.IdleUntilMade) := by
  rcases s.runPass_cases with hkeeps | ⟨hrunning, hpassed⟩
  · exact ⟨World.transportWaits_of_spared hkeeps.world,
      fun hwaits => hkeeps.idleUntilMade (hidle hwaits)⟩
  · have hgrows : s.world.Grows (·.isNetwork = true) s.runPass.world := by
      rw [hpassed]
      exact Mobility.grows_reconcile _ _
    have hmade : s.world.TransportWaits → s.world.made ≠ [] := by
      intro hwaits hnone
      rw [(hidle hwaits hnone).1] at hrunning
      cases hrunning
    refine ⟨⟨hgrows.eachAfter_of_later, fun hwaits => ?_⟩, fun hwaits hnone => ?_⟩
    · exact (World.transportWaits_of_made hgrows (hmade hwaits)).2 hwaits
    · exact absurd (World.made_eq_nil_of_grows hgrows hnone) (hmade hwaits)

end Session

end Softphone
