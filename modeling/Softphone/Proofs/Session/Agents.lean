import Softphone.Proofs.Session.Told

/-!
# Agents made and agents let go of

Every agent that the engine has made was either let go of again or is the one of the registration
(`Session.AgentsKept`). The trace is the ledger: `World.made` and `World.released` list the agents in
order, and `World.inUse?` is the agent that was made last, unless one was let go of since.
-/

namespace Softphone

variable {σ : Type}

namespace Effect

/-- The agent that the engine makes. -/
def made? : Effect → Option AgentHandle
  | allocateAgent _ (.ok agent) => some agent
  | _ => none

/-- The agent that the engine is told to let go of. -/
def released? : Effect → Option AgentHandle
  | unregister agent _ => some agent
  | _ => none

/-- Something is done about an agent. -/
def isOfAgent : Effect → Bool
  | allocateAgent _ _ | register _ _ | unregister _ _ => true
  | _ => false

theorem isOfAgent_of_not_account {e : Effect} (h : e.isAccount = false) : e.isOfAgent = false := by
  cases e <;> first | rfl | cases h

theorem made?_of_not_agent {e : Effect} (h : e.isOfAgent = false) : e.made? = none := by
  cases e <;> first | rfl | cases h

theorem released?_of_not_agent {e : Effect} (h : e.isOfAgent = false) : e.released? = none := by
  cases e <;> first | rfl | cases h

end Effect

namespace World

variable {w w' : World σ}

/-- The agents that the engine has made, the first one first. -/
def made (w : World σ) : List AgentHandle := w.trace.filterMap Effect.made?

/-- The agents that the engine was told to let go of, the first one first. -/
def released (w : World σ) : List AgentHandle := w.trace.filterMap Effect.released?

/-- The agent in use after some effects, of which the latest comes first: the one that was made last,
unless an agent was let go of since. -/
def inUse? : List Effect → Option AgentHandle
  | [] => none
  | .allocateAgent _ (.ok agent) :: _ => some agent
  | .unregister _ _ :: _ => none
  | _ :: past => inUse? past

/-- Only an agent in use is ever registered. -/
def RegistersInUse (w : World σ) : Prop :=
  ∀ later agent outcome earlier, w.past = later ++ .register agent outcome :: earlier →
    inUse? earlier = some agent

theorem made_moveTo (w : World σ) (host : σ) (e : Effect) :
    (w.moveTo host e).made = w.made ++ e.made?.toList := record_moveTo _ _ _ _

theorem released_moveTo (w : World σ) (host : σ) (e : Effect) :
    (w.moveTo host e).released = w.released ++ e.released?.toList := record_moveTo _ _ _ _

theorem made_of_none {host : σ} {e : Effect} (h : e.made? = none) :
    (w.moveTo host e).made = w.made := by
  rw [made_moveTo, h, Option.toList_none, List.append_nil]

theorem released_of_none {host : σ} {e : Effect} (h : e.released? = none) :
    (w.moveTo host e).released = w.released := by
  rw [released_moveTo, h, Option.toList_none, List.append_nil]

theorem inUse?_cons {e : Effect} (h : e.isOfAgent = false) (past : List Effect) :
    inUse? (e :: past) = inUse? past := by
  cases e <;> first | rfl | cases h

theorem RegistersInUse.moveTo (h : w.RegistersInUse) (host : σ) {e : Effect}
    (he : ∀ agent outcome, e = .register agent outcome → inUse? w.past = some agent) :
    (w.moveTo host e).RegistersInUse := by
  intro later agent outcome earlier hpast
  rcases List.cons_eq_append_iff.1 hpast with ⟨-, hcons⟩ | ⟨later', -, htail⟩
  · obtain ⟨hregister, rfl⟩ := List.cons.inj hcons
    exact he agent outcome hregister.symm
  · exact h later' agent outcome earlier htail

/-- What is done about no agent leaves the ledger alone. -/
theorem ledger_of_grows (h : w.Grows (·.isOfAgent = false) w') :
    w'.made = w.made ∧ w'.released = w.released ∧ inUse? w'.past = inUse? w.past ∧
      (w.RegistersInUse → w'.RegistersInUse) := by
  induction h with
  | refl => exact ⟨rfl, rfl, rfl, id⟩
  | within _ host ih => exact ih
  | moveTo _ he ih =>
    obtain ⟨hmade, hreleased, hinUse, hregisters⟩ := ih
    refine ⟨?_, ?_, ?_, fun hw => (hregisters hw).moveTo _ ?_⟩
    · exact (made_of_none (Effect.made?_of_not_agent he)).trans hmade
    · exact (released_of_none (Effect.released?_of_not_agent he)).trans hreleased
    · exact (inUse?_cons he _).trans hinUse
    · rintro agent outcome rfl
      cases he

end World

namespace Session

variable {s s' : Session σ}

/-- No agent is leaked, and none is used once it was let go of. -/
structure AgentsKept (s : Session σ) : Prop where
  /-- What was made is what was let go of, and the agent of the registration. -/
  balance : s.world.made.Perm (s.world.released ++ s.registration.agent.toList)
  inUse : World.inUse? s.world.past = s.registration.agent
  registers : s.world.RegistersInUse
  /-- There is an agent while the account is registered or being registered again. -/
  attached : s.registration.state = .ok ∨ s.registration.state = .refreshing →
    s.registration.agent.isSome = true

theorem agentsKept_new (config : Config) (host : σ) : (new config host).AgentsKept where
  balance := .nil
  inUse := rfl
  registers := by
    intro later agent outcome earlier hpast
    cases later with
    | nil => cases hpast
    | cons _ _ => cases hpast
  attached := by
    rintro (hstate | hstate) <;> cases hstate

/-- Nothing is done about an agent, and the registration keeps its own. -/
theorem AgentsKept.of_grows (h : s.AgentsKept)
    (hagent : s'.registration.agent = s.registration.agent)
    (hattached : s'.registration.state = .ok ∨ s'.registration.state = .refreshing →
      s.registration.agent.isSome = true)
    (hworld : s.world.Grows (·.isOfAgent = false) s'.world) : s'.AgentsKept := by
  obtain ⟨hmade, hreleased, hinUse, hregisters⟩ := World.ledger_of_grows hworld
  refine ⟨?_, ?_, hregisters h.registers, ?_⟩
  · rw [hmade, hreleased, hagent]
    exact h.balance
  · rw [hinUse, hagent]
    exact h.inUse
  · rw [hagent]
    exact hattached

theorem AgentsKept.spared (h : s.AgentsKept) (hspares : s.SparesAccount s') : s'.AgentsKept := by
  refine h.of_grows (by rw [hspares.registration]) ?_
    (hspares.world.mono fun _ => Effect.isOfAgent_of_not_account)
  rw [hspares.registration]
  exact h.attached

/-- The state is published, with the agent that there was before. -/
theorem AgentsKept.published (h : s.AgentsKept) {registration : Registration}
    (hagent : registration.agent = s.registration.agent)
    (hattached : registration.state = .ok ∨ registration.state = .refreshing →
      s.registration.agent.isSome = true) :
    ({ s with registration } : Session σ).publishRegistration.AgentsKept :=
  h.of_grows hagent hattached (.note .refl rfl)

/-! ## Requests about the account -/

section Registering

variable [Engine σ]

/-- The agent of the registration is let go of. -/
theorem AgentsKept.released {agent : AgentHandle} (h : s.AgentsKept)
    (hagent : s.registration.agent = some agent) :
    ({ s with registration := ⟨.cleared, none⟩, world := s.world.unregister agent } :
      Session σ).AgentsKept where
  balance := by
    have hbalance := h.balance
    rw [hagent] at hbalance
    rw [World.unregister, World.made_of_none rfl, World.released_moveTo, Option.toList_none,
      List.append_nil]
    exact hbalance
  inUse := rfl
  registers := h.registers.moveTo _ nofun
  attached := by
    rintro (hstate | hstate) <;> cases hstate

theorem AgentsKept.releaseAgent (h : s.AgentsKept) :
    s.releaseAgent.AgentsKept ∧ s.releaseAgent.registration.agent = none := by
  cases hagent : s.registration.agent with
  | none =>
    rw [releaseAgent_of_none hagent]
    exact ⟨h, hagent⟩
  | some agent =>
    rw [releaseAgent_of_some hagent]
    exact ⟨h.released hagent, rfl⟩

theorem AgentsKept.unregister (h : s.AgentsKept) :
    s.unregister.2.AgentsKept ∧ s.unregister.2.registration.agent = none := by
  rw [Session.unregister, Registration.release]
  cases hagent : s.registration.agent with
  | none => exact ⟨h, hagent⟩
  | some agent =>
    -- The state is published before the agent is let go of.
    have hpublished : (s.publish (.registrationChanged .cleared)).AgentsKept :=
      h.of_grows rfl h.attached (.note .refl rfl)
    exact ⟨hpublished.released hagent, rfl⟩

/-- The engine is asked for an agent while there is none; if it makes one, that is attached. -/
theorem AgentsKept.allocated (h : s.AgentsKept) (hnone : s.registration.agent = none)
    (account : Account) :
    match (s.world.allocateAgent account).1 with
    | .error _ => ({ s with world := (s.world.allocateAgent account).2 } : Session σ).AgentsKept
    | .ok agent =>
      ({ s with
        world := (s.world.allocateAgent account).2
        registration := s.registration.attach agent } : Session σ).AgentsKept := by
  have hbalance := h.balance
  have hinUse := h.inUse
  rw [hnone] at hinUse
  rw [hnone, Option.toList_none, List.append_nil] at hbalance
  rw [World.allocateAgent]
  dsimp only
  cases (Engine.allocateAgent account s.world.host).1 with
  | error e =>
    refine ⟨?_, ?_, h.registers.moveTo _ nofun, h.attached⟩
    · rw [World.made_of_none rfl, World.released_of_none rfl, hnone, Option.toList_none,
        List.append_nil]
      exact hbalance
    · exact hinUse.trans hnone.symm
  | ok agent =>
    refine ⟨?_, rfl, h.registers.moveTo _ nofun, fun _ => rfl⟩
    rw [World.made_moveTo, World.released_of_none rfl]
    exact hbalance.append_right [agent]

/-- The agent of the registration is registered. -/
theorem AgentsKept.register {agent : AgentHandle} (h : s.AgentsKept)
    (hagent : s.registration.agent = some agent) : (s.register agent).AgentsKept := by
  have hasked : ({ s with world := (s.world.register agent).2 } : Session σ).AgentsKept := by
    refine ⟨?_, h.inUse, h.registers.moveTo _ ?_, h.attached⟩
    · rw [World.register, World.made_of_none rfl, World.released_of_none rfl]
      exact h.balance
    · intro registered outcome heq
      cases heq
      exact h.inUse.trans hagent
  rw [Session.register]
  split
  · exact hasked
  · exact hasked.of_grows rfl h.attached (.note .refl rfl)

theorem AgentsKept.refresh (h : s.AgentsKept) : s.refresh.2.AgentsKept := by
  rw [Session.refresh, Registration.refresh, Registration.refreshDecision]
  cases hagent : s.registration.agent with
  | none => exact h
  | some agent =>
    dsimp only
    by_cases hok : s.registration.state = .ok
    · rw [if_pos hok]
      exact h
    · rw [if_neg hok]
      have hpublished : ({ s with
          registration := ⟨.refreshing, some agent⟩ } : Session σ).publishRegistration.AgentsKept :=
        h.published hagent.symm fun _ => hagent ▸ rfl
      exact hpublished.register rfl

variable [Connectivity σ]

theorem AgentsKept.signIn (h : s.AgentsKept) (account : Account) :
    (s.signIn account).2.AgentsKept := by
  rw [Session.signIn]
  split
  · exact h
  obtain ⟨hreleased, hnone⟩ := h.releaseAgent
  have hasked := hreleased.allocated hnone account
  dsimp only
  cases houtcome : (s.releaseAgent.world.allocateAgent account).1 with
  | error e =>
    rw [houtcome] at hasked
    exact hasked
  | ok agent =>
    rw [houtcome] at hasked
    have hstarted := sparesAccount_ensureMobility (s := { s.releaseAgent with
      world := (s.releaseAgent.world.allocateAgent account).2
      registration := s.releaseAgent.registration.attach agent })
    have hattached := hasked.spared hstarted
    refine AgentsKept.register (hattached.of_grows rfl hattached.attached .refl) ?_
    exact congrArg Registration.agent hstarted.registration

end Registering

/-! ## A turn -/

variable [Host σ]

/-- A confirmation counts only while there is an agent. -/
theorem AgentsKept.signalled (h : s.AgentsKept) (signal : RegistrationSignal) :
    (s.handleEngine (.registration signal)).AgentsKept := by
  refine h.published rfl ?_
  rw [Registration.receive]
  cases signal with
  | registered =>
    intro hstate
    rw [Registration.stateAfter] at hstate
    split at hstate
    · assumption
    · rcases hstate with hstate | hstate <;> cases hstate
  | registering | unregistering | failed reason =>
    rintro (hstate | hstate) <;> cases hstate

/-- Nobody keeps an agent once the session has ended. -/
theorem AgentsKept.teardown (h : s.AgentsKept) :
    s.teardown.AgentsKept ∧ s.teardown.registration.agent = none := by
  rw [teardown_eq]
  exact (h.spared sparesAccount_halted).unregister

theorem AgentsKept.handleCommand (h : s.AgentsKept) (ticket : Ticket) (command : Command) :
    (s.handleCommand ticket command).AgentsKept := by
  have hreply : ∀ {s' : Session σ} {answer}, s'.AgentsKept → (s'.reply ticket answer).AgentsKept :=
    fun {s'} {answer} h' => h'.spared (Spares.refl.reply ticket answer).account
  cases command with
  | signIn account => exact hreply (h.signIn account)
  | refresh => exact hreply h.refresh
  | unregister => exact hreply h.unregister.1
  | shutdown => exact hreply h.teardown.1
  | _ => exact h.spared (spares_handleCommand ticket rfl).account

theorem AgentsKept.handle (h : s.AgentsKept) (input : Input) : (s.handle input).AgentsKept := by
  cases input with
  | notification notification => exact h.spared (sparesAccount_handleNotification notification)
  | engine event =>
    cases event with
    | registration signal => exact h.signalled signal
    | call event => exact h.spared (spares_handleEngine_call event).account
  | firing firing => exact h.spared (sparesAccount_handleFiring firing)
  | command ticket command => exact h.handleCommand ticket command
  | abandoned => exact h.teardown.1

theorem AgentsKept.turn (h : s.AgentsKept) (input : Input) (queued : List Notification) :
    (s.turn input queued).AgentsKept :=
  (h.handle input).spared (sparesAccount_turn s input queued)

/-- A message that ends the session leaves no agent behind. -/
theorem agent_of_ends (h : s.AgentsKept) {input : Input} (hends : input.ends = true) :
    (s.handle input).registration.agent = none :=
  ends_induction (P := fun s' => s'.registration.agent = none) (fun _ _ h => h) h.teardown.2 hends

end Session

end Softphone
