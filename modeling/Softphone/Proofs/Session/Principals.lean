import Softphone.Proofs.Audio.Device
import Softphone.Proofs.Session.Agents
import Softphone.Proofs.Session.Performed

/-!
# In whose name the engine is asked

The engine is asked to register, to unregister and to set up calls in the name of the agent in use
(`Session.namesInUse_handle`), and it is asked to answer and to end calls in the name of the agent that owns the
current one (`Session.controlsCurrent_handle`). As long as the engine makes no agent twice, an agent in use was not
let go of before (`Effect.inOrder_of_namesInUse`).
-/

namespace Softphone

variable {σ : Type}

namespace Effect

/-- The agent in whose name the engine is asked to register, to unregister or to set up a call. -/
def principal? : Effect → Option AgentHandle
  | register agent _ | unregister agent _ | allocateCall agent _ => some agent
  | _ => none

/-- The call that the engine is asked to answer or to end, after the agent in whose name it is asked. -/
def control? : Effect → Option (AgentHandle × CallHandle)
  | answer agent call _ | hangup agent call _ _ _ => some (agent, call)
  | _ => none

/-- The agent in whose name the engine is asked for anything. -/
def agent? (e : Effect) : Option AgentHandle := e.principal?.or (e.control?.map (·.1))

/-- Nothing is asked in the name of an agent. -/
def IsNameless (e : Effect) : Prop := e.principal? = none ∧ e.control? = none

variable {e : Effect} {es : List Effect}

theorem isNameless_of_isOfDevice (h : e.isOfDevice = true) : e.IsNameless := by
  cases e <;> first | exact ⟨rfl, rfl⟩ | cases h

theorem isNameless_of_isNetwork (h : e.isNetwork = true) : e.IsNameless := by
  cases e <;> first | exact ⟨rfl, rfl⟩ | cases h

/-! ## Agents in use -/

/-- Whatever is asked in the name of an agent is asked while that agent is in use. -/
def NamesInUse (before : List Effect) (e : Effect) : Prop :=
  ∀ agent, e.principal? = some agent → World.inUse? before.reverse = some agent

theorem namesInUse_of_none (h : e.principal? = none) : NamesInUse es e := by
  intro agent hagent
  rw [h] at hagent
  cases hagent

/-- Agents are let go of after they were made, and not as long as they are in use. -/
structure InOrder (es : List Effect) : Prop where
  released : ∀ agent ∈ es.filterMap released?, agent ∈ es.filterMap made?
  inUse : ∀ agent, World.inUse? es.reverse = some agent →
    agent ∈ es.filterMap made? ∧ agent ∉ es.filterMap released?

namespace InOrder

theorem concat_made (h : InOrder es) {account : Account} {agent : AgentHandle}
    (hnew : agent ∉ es.filterMap made?) : InOrder (es ++ [allocateAgent account (.ok agent)]) := by
  have hreleased : (es ++ [allocateAgent account (.ok agent)]).filterMap released? =
      es.filterMap released? := by
    rw [List.filterMap_append]
    exact List.append_nil _
  have hmade : (es ++ [allocateAgent account (.ok agent)]).filterMap made? = es.filterMap made? ++ [agent] :=
    List.filterMap_append
  refine ⟨fun a ha => ?_, fun a ha => ?_⟩
  · rw [hreleased] at ha
    rw [hmade]
    exact List.mem_append_left _ (h.released a ha)
  · rw [List.reverse_concat] at ha
    obtain rfl : agent = a := Option.some.inj ha
    rw [hmade, hreleased]
    exact ⟨List.mem_append_right _ (List.mem_singleton_self _), fun hback => hnew (h.released _ hback)⟩

theorem concat_released (h : InOrder es) {agent : AgentHandle} {accepted : Bool}
    (hmade : agent ∈ es.filterMap made?) : InOrder (es ++ [unregister agent accepted]) := by
  have hkept : (es ++ [unregister agent accepted]).filterMap made? = es.filterMap made? := by
    rw [List.filterMap_append]
    exact List.append_nil _
  refine ⟨?_, fun a ha => ?_⟩
  · rw [hkept, List.filterMap_append]
    exact List.forall_mem_append.2 ⟨h.released, List.forall_mem_singleton.2 hmade⟩
  · rw [List.reverse_concat] at ha
    cases ha

theorem concat_other (h : InOrder es) (hmade : e.made? = none) (hreleased : e.released? = none)
    (hinUse : World.inUse? (e :: es.reverse) = World.inUse? es.reverse) : InOrder (es ++ [e]) := by
  have hnone {f : Effect → Option AgentHandle} (hf : f e = none) :
      (es ++ [e]).filterMap f = es.filterMap f := by
    rw [List.filterMap_append, List.filterMap_cons_none hf]
    exact List.append_nil _
  refine ⟨?_, ?_⟩
  · rw [hnone hmade, hnone hreleased]
    exact h.released
  · rw [hnone hmade, hnone hreleased, List.reverse_concat, hinUse]
    exact h.inUse

end InOrder

/-- As long as no agent is made twice, the one in use was not let go of before. -/
theorem inOrder_of_namesInUse (h : EachAfter NamesInUse es) (hfresh : (es.filterMap made?).Nodup) :
    InOrder es := by
  induction es using List.reverseRecOn with
  | nil => exact ⟨List.forall_mem_nil _, nofun⟩
  | append_singleton es e ih =>
    obtain ⟨hes, he⟩ := eachAfter_concat_iff.1 h
    rw [List.filterMap_append] at hfresh
    have hbefore := ih hes hfresh.of_append_left
    -- What is in order changes when an agent is made, which is new then, and when the one in use is let go of.
    cases e with
    | allocateAgent account outcome =>
      cases outcome with
      | error e => exact hbefore.concat_other rfl rfl rfl
      | ok agent =>
        refine hbefore.concat_made fun hmade => ?_
        exact List.disjoint_of_nodup_append hfresh hmade (List.mem_singleton_self agent)
    | unregister agent accepted => exact hbefore.concat_released (hbefore.inUse agent (he agent rfl)).1
    | _ => exact hbefore.concat_other rfl rfl rfl

end Effect

namespace World

variable {w w' : World σ}

/-- The engine was asked in the name of agents in use only. -/
def NamesInUse (w : World σ) : Prop := EachAfter Effect.NamesInUse w.trace

theorem NamesInUse.of_grows (h : w.NamesInUse) (hgrows : w.Grows (·.principal? = none) w') :
    w'.NamesInUse :=
  (hgrows.eachAfter_iff fun _ _ => Effect.namesInUse_of_none).2 h

theorem NamesInUse.asked (h : w.NamesInUse) {agent : AgentHandle} (hagent : inUse? w.past = some agent)
    (host : σ) {e : Effect} (he : e.principal? = some agent) : (w.moveTo host e).NamesInUse := by
  rw [NamesInUse, trace_moveTo]
  refine eachAfter_concat_iff.2 ⟨h, fun agent' hagent' => ?_⟩
  rw [trace, List.reverse_reverse, hagent, ← he, hagent']

end World

/-- A request by which calls are placed, answered or ended. -/
def Command.isControl : Command → Bool
  | dial _ | answer | hangup | reject => true
  | _ => false

namespace Session

variable {s s' : Session σ}

/-- A call is answered or ended in the name of its owner, and it is the current one. -/
def ControlsCurrent (s : Session σ) (e : Effect) : Prop :=
  ∀ named, e.control? = some named → ∃ call, s.currentLive? = some call ∧ named = (call.agent, call.handle)

theorem controlsCurrent_of_none {e : Effect} (h : e.control? = none) : s.ControlsCurrent e := by
  intro named hnamed
  rw [h] at hnamed
  cases hnamed

theorem controlsCurrent_of_nameless {w w' : World σ} (h : w.Grows Effect.IsNameless w') :
    w.Grows s.ControlsCurrent w' :=
  h.mono fun _ he => controlsCurrent_of_none he.2

theorem controlsCurrent_of_control {call : Call} (hcall : s.currentLive? = some call) {e : Effect}
    (he : e.control? = some (call.agent, call.handle)) : s.ControlsCurrent e := by
  intro named hnamed
  exact ⟨call, hcall, Option.some.inj (hnamed.symm.trans he)⟩

/-! ## What is asked in nobody's name -/

theorem nameless_of_device {w w' : World σ} (h : w.Grows (·.isOfDevice = true) w') :
    w.Grows Effect.IsNameless w' :=
  h.mono fun _ => Effect.isNameless_of_isOfDevice

theorem nameless_withCurrent {α : Type} {act : Call → Except SessionError α × Session σ}
    (h : ∀ call, s.world.Grows Effect.IsNameless (act call).2.world) :
    s.world.Grows Effect.IsNameless (s.withCurrent act).2.world := by
  unfold withCurrent
  split
  · exact h _
  · exact .refl

section Actions

variable [ToneDevice σ] [AudioDevice σ]

theorem nameless_perform (action : CallAction) : s.world.Grows Effect.IsNameless (s.perform action).2.world := by
  cases action with
  | startRinging => exact nameless_of_device Player.plays_startRinging.device
  | stopRinging => exact nameless_of_device Player.plays_stopRinging.device
  | playRingback => exact nameless_of_device (Player.plays_play .ringback true).device
  | stopTone => exact nameless_of_device Player.plays_stopTone.device
  | playBusy =>
    have hplayed := nameless_of_device (Player.plays_play (p := s.player) (w := s.world) .busy false).device
    unfold perform
    dsimp only
    split <;> exact hplayed
  | releaseAudio => exact nameless_of_device (Router.device_cancel.trans Player.device_releaseAudio)
  | emit event => exact .note .refl ⟨rfl, rfl⟩

theorem nameless_execute (actions : List CallAction) :
    s.world.Grows Effect.IsNameless (s.execute actions).world :=
  (executed_induction (P := fun _ s' => s.world.Grows Effect.IsNameless s'.world)
    (fun h => h.trans (nameless_perform _)) .refl).2

end Actions

variable [Host σ]

theorem nameless_handleEngine (event : EngineEvent) :
    s.world.Grows Effect.IsNameless (s.handleEngine event).world := by
  cases event with
  | registration signal => exact .note .refl ⟨rfl, rfl⟩
  | call event =>
    refine .trans ?_ (nameless_execute _)
    exact .within .refl _

theorem nameless_handleNotification (notification : Notification) :
    s.world.Grows Effect.IsNameless (s.handleNotification notification).world := by
  cases notification with
  | network change =>
    cases change with
    | hotspotChanged enabled =>
      exact Mobility.grows_onHotspotChanged s.mobility s.world (fun _ _ => ⟨rfl, rfl⟩) enabled s.timers
    | _ => exact .refl
  | audioMode mode => exact nameless_of_device (Router.device_onModeChanged mode)
  | toneFinished =>
    unfold handleNotification
    dsimp only
    split
    · refine .trans ?_ (nameless_execute _)
      exact .refl
    · exact .refl

theorem nameless_handleFiring (firing : Firing) :
    s.world.Grows Effect.IsNameless (s.handleFiring firing).world := by
  unfold handleFiring
  dsimp only
  split
  · unfold handleTimer
    cases firing.kind with
    | hotspotDebounce => exact Mobility.grows_onHotspotDebounce _ _ (fun _ _ _ => ⟨rfl, rfl⟩) _
    | hotspotFollowUp =>
      dsimp only
      split <;> exact .refl
    | ringtoneRestart => exact nameless_of_device Player.plays_onRestartTick.device
    | vibrate => exact nameless_of_device Player.plays_onVibrateTick.device
  · exact .refl

theorem nameless_runPass : s.world.Grows Effect.IsNameless s.runPass.world := by
  unfold runPass
  dsimp only
  split
  · exact (Mobility.grows_reconcile _ _).mono fun _ => Effect.isNameless_of_isNetwork
  · exact .refl

theorem nameless_halted : s.world.Grows Effect.IsNameless s.halted.world := by
  refine .moveTo (.trans ?_ (nameless_of_device Router.device_cancel)) ⟨rfl, rfl⟩
  refine .moveTo (.trans ?_ (nameless_of_device Player.plays_stopAll.device)) ⟨rfl, rfl⟩
  exact Mobility.grows_stop _ _ ⟨rfl, rfl⟩

theorem nameless_ensureMobility : s.world.Grows Effect.IsNameless s.ensureMobility.world := by
  unfold ensureMobility
  split
  · exact .refl
  · exact Mobility.grows_start _ _ fun _ _ => ⟨rfl, rfl⟩

/-- Requests that come down to something asked in nobody's name. -/
theorem nameless_handleCommand (ticket : Ticket) {command : Command}
    (haccount : command.isOfAccount = false) (hcontrol : command.isControl = false) :
    s.world.Grows Effect.IsNameless (s.handleCommand ticket command).world := by
  have hreply {s' : Session σ} {answer} (h : s.world.Grows Effect.IsNameless s'.world) :
      s.world.Grows Effect.IsNameless (s'.reply ticket answer).world := h.note ⟨rfl, rfl⟩
  cases command with
  | signIn | refresh | unregister | shutdown => cases haccount
  | dial | answer | hangup | reject => cases hcontrol
  | hold held => exact hreply (nameless_withCurrent fun _ => .step ⟨rfl, rfl⟩)
  | transfer target =>
    refine hreply ?_
    unfold transfer
    split
    · exact .refl
    · exact nameless_withCurrent fun _ => .step ⟨rfl, rfl⟩
  | sendDigits digits =>
    refine hreply ?_
    unfold sendDigits
    split
    · exact .refl
    · exact nameless_withCurrent fun _ => grows_sendEach (fun _ _ _ => ⟨rfl, rfl⟩) _ _ _
  | setMuted muted => exact hreply (nameless_withCurrent fun _ => .step ⟨rfl, rfl⟩)
  | setSpeaker on => cases on <;> exact nameless_of_device (Router.device_request _ _)
  | registrationState | isMicOn | isSpeakerOn | currentCall | missedCalls | stats => exact hreply .refl

/-! ## Control of calls -/

/-- The engine is asked to answer the current call, and then volumes are set. -/
theorem grows_answer {p : Effect → Prop} (hdevice : ∀ e, e.isOfDevice = true → p e)
    (hp : ∀ call outcome, s.currentLive? = some call → p (.answer call.agent call.handle outcome)) :
    s.world.Grows p s.answer.2.world := by
  unfold answer withCurrent
  split
  · rename_i call hcall
    have hasked : s.world.Grows p (s.world.answer call.agent call.handle).2 := .step (hp _ _ hcall)
    dsimp only
    split
    · exact hasked
    · exact hasked.trans (Player.device_applyCallVolume.mono hdevice)
  · exact .refl

/-- The engine is asked to end the current call. -/
theorem grows_endCall {p : Effect → Prop} (status : Nat × String)
    (hp : ∀ call outcome, s.currentLive? = some call →
      p (.hangup call.agent call.handle status.1 status.2 outcome)) :
    s.world.Grows p (s.endCall status).2.world := by
  unfold endCall withCurrent
  split
  · exact .step (hp _ _ ‹_›)
  · exact .refl

theorem controlsNone_register (agent : AgentHandle) :
    s.world.Grows (·.control? = none) (s.register agent).world := by
  unfold register
  dsimp only
  split
  · exact .step rfl
  · refine .note (.step ?_) ?_ <;> rfl

theorem controlsNone_signIn (account : Account) :
    s.world.Grows (·.control? = none) (s.signIn account).2.world := by
  have hreleased : s.world.Grows (·.control? = none) s.releaseAgent.world := by
    unfold releaseAgent
    split
    · exact .refl
    · exact .step rfl
  have hallocated : s.world.Grows (·.control? = none) (s.releaseAgent.world.allocateAgent account).2 :=
    hreleased.moveTo rfl
  unfold signIn
  split
  · exact .refl
  dsimp only
  split
  · exact hallocated
  · refine .trans ?_ (controlsNone_register _)
    refine hallocated.trans ?_
    exact (nameless_ensureMobility (s := { s.releaseAgent with
      world := (s.releaseAgent.world.allocateAgent account).2
      registration := s.releaseAgent.registration.attach _ })).mono fun _ he => he.2

theorem controlsNone_refresh : s.world.Grows (·.control? = none) s.refresh.2.world := by
  unfold refresh
  split
  · exact .refl
  · exact .refl
  · refine .trans ?_ (controlsNone_register _)
    exact .note .refl rfl

theorem controlsNone_unregister : s.world.Grows (·.control? = none) s.unregister.2.world := by
  unfold unregister
  split
  · exact .refl
  · refine .moveTo (.note .refl ?_) ?_ <;> rfl

theorem controlsNone_teardown : s.world.Grows (·.control? = none) s.teardown.world := by
  rw [teardown_eq]
  exact (nameless_halted.mono fun _ he => he.2).trans controlsNone_unregister

theorem controlsNone_dial (target : String) : s.world.Grows (·.control? = none) (s.dial target).2.world := by
  have hdial := dial_cases s target
  generalize s.dial target = r at hdial ⊢
  cases hdial with
  | declined e => exact .refl
  | unallocated hagent | taken hagent => exact .step rfl
  | placed hagent htrack target hnew =>
    refine .moveTo (.within (.step ?_) _) ?_ <;> rfl

/-- **Whose calls are controlled.** A message has calls answered and ended in the name of the agent that owns the
current one, and no other call than that. -/
theorem controlsCurrent_handle (input : Input) : s.world.Grows s.ControlsCurrent (s.handle input).world := by
  have hnone {w : World σ} (h : s.world.Grows (·.control? = none) w) : s.world.Grows s.ControlsCurrent w :=
    h.mono fun _ => controlsCurrent_of_none
  have hreply {s' : Session σ} {ticket answer} (h : s.world.Grows s.ControlsCurrent s'.world) :
      s.world.Grows s.ControlsCurrent (s'.reply ticket answer).world := h.note (controlsCurrent_of_none rfl)
  cases input with
  | notification notification => exact controlsCurrent_of_nameless (nameless_handleNotification notification)
  | engine event => exact controlsCurrent_of_nameless (nameless_handleEngine event)
  | firing firing => exact controlsCurrent_of_nameless (nameless_handleFiring firing)
  | command ticket command =>
    cases command with
    | signIn account => exact hreply (hnone (controlsNone_signIn account))
    | refresh => exact hreply (hnone controlsNone_refresh)
    | unregister => exact hreply (hnone controlsNone_unregister)
    | shutdown => exact hreply (hnone controlsNone_teardown)
    | dial target => exact hreply (hnone (controlsNone_dial target))
    | answer =>
      refine hreply (grows_answer (fun e he => ?_) fun call outcome hcall => ?_)
      · exact controlsCurrent_of_none (Effect.isNameless_of_isOfDevice he).2
      · exact controlsCurrent_of_control hcall rfl
    | hangup | reject =>
      exact hreply (grows_endCall _ fun call outcome hcall => controlsCurrent_of_control hcall rfl)
    | _ => exact controlsCurrent_of_nameless (nameless_handleCommand ticket rfl rfl)
  | abandoned => exact hnone controlsNone_teardown

/-! ## Requests about the account, and calls that are placed -/

theorem namesInUse_releaseAgent (h : s.AgentsKept) (hw : s.world.NamesInUse) :
    s.releaseAgent.world.NamesInUse := by
  cases hagent : s.registration.agent with
  | none =>
    rw [releaseAgent_of_none hagent]
    exact hw
  | some agent =>
    rw [releaseAgent_of_some hagent]
    exact hw.asked (h.inUse.trans hagent) _ rfl

theorem namesInUse_unregister (h : s.AgentsKept) (hw : s.world.NamesInUse) :
    s.unregister.2.world.NamesInUse := by
  rw [unregister, Registration.release]
  cases hagent : s.registration.agent with
  | none => exact hw
  | some agent =>
    have hpublished : (s.publish (.registrationChanged .cleared)).world.NamesInUse :=
      hw.of_grows (.note .refl rfl)
    exact hpublished.asked (h.inUse.trans hagent) _ rfl

theorem namesInUse_register (hw : s.world.NamesInUse) {agent : AgentHandle}
    (hagent : World.inUse? s.world.past = some agent) : (s.register agent).world.NamesInUse := by
  have hasked : (s.world.register agent).2.NamesInUse := hw.asked hagent _ rfl
  unfold register
  dsimp only
  split
  · exact hasked
  · exact hasked.of_grows (.note .refl rfl)

theorem namesInUse_refresh (h : s.AgentsKept) (hw : s.world.NamesInUse) : s.refresh.2.world.NamesInUse := by
  rw [refresh, Registration.refresh, Registration.refreshDecision]
  cases hagent : s.registration.agent with
  | none => exact hw
  | some agent =>
    dsimp only
    by_cases hok : s.registration.state = .ok
    · rw [if_pos hok]
      exact hw
    · rw [if_neg hok]
      refine namesInUse_register ?_ ?_
      · exact hw.of_grows (.note .refl rfl)
      · exact h.inUse.trans hagent

theorem namesInUse_signIn (h : s.AgentsKept) (hw : s.world.NamesInUse) (account : Account) :
    (s.signIn account).2.world.NamesInUse := by
  rw [signIn]
  split
  · exact hw
  obtain ⟨hreleased, hnone⟩ := h.releaseAgent
  have hasked : (s.releaseAgent.world.allocateAgent account).2.NamesInUse :=
    (namesInUse_releaseAgent h hw).of_grows (.step rfl)
  have hkept := hreleased.allocated hnone account
  dsimp only
  cases houtcome : (s.releaseAgent.world.allocateAgent account).1 with
  | error e => exact hasked
  | ok agent =>
    rw [houtcome] at hkept
    -- The networks may begin to be followed before the new agent registers; it stays in use meanwhile.
    let attached : Session σ := { s.releaseAgent with
      world := (s.releaseAgent.world.allocateAgent account).2
      registration := s.releaseAgent.registration.attach agent }
    have hfollows : attached.SparesAccount attached.ensureMobility := sparesAccount_ensureMobility
    have hgrows : attached.world.Grows Effect.IsNameless attached.ensureMobility.world :=
      nameless_ensureMobility
    have hstarted : attached.ensureMobility.world.NamesInUse :=
      World.NamesInUse.of_grows hasked (hgrows.mono fun _ he => he.1)
    have hinUse : World.inUse? attached.ensureMobility.world.past = some agent :=
      (AgentsKept.spared hkept hfollows).inUse.trans (congrArg Registration.agent hfollows.registration)
    exact namesInUse_register (s := { attached.ensureMobility with
      mobility := attached.ensureMobility.mobility.request }) hstarted hinUse

theorem namesInUse_dial (h : s.AgentsKept) (hw : s.world.NamesInUse) (target : String) :
    (s.dial target).2.world.NamesInUse := by
  have hdial := dial_cases s target
  generalize s.dial target = r at hdial ⊢
  have hasked {agent : AgentHandle} (hagent : s.registration.agent = some agent) :
      (s.world.allocateCall agent).2.NamesInUse := hw.asked (h.inUse.trans hagent) _ rfl
  cases hdial with
  | declined e => exact hw
  | unallocated hagent | taken hagent => exact hasked hagent
  | placed hagent htrack target hnew =>
    refine (hasked hagent).of_grows (.moveTo (.within .refl _) ?_)
    rfl

theorem namesInUse_teardown (h : s.AgentsKept) (hw : s.world.NamesInUse) : s.teardown.world.NamesInUse := by
  rw [teardown_eq]
  refine namesInUse_unregister (h.spared sparesAccount_halted) (hw.of_grows ?_)
  exact nameless_halted.mono fun _ he => he.1

/-- **In whose name the engine is asked about accounts and new calls.** It is the agent in use. -/
theorem namesInUse_handle (h : s.AgentsKept) (hw : s.world.NamesInUse) (input : Input) :
    (s.handle input).world.NamesInUse := by
  have hnameless {w : World σ} (hgrows : s.world.Grows Effect.IsNameless w) : w.NamesInUse :=
    hw.of_grows (hgrows.mono fun _ he => he.1)
  have hreply {s' : Session σ} {ticket answer} (hs' : s'.world.NamesInUse) :
      (s'.reply ticket answer).world.NamesInUse := hs'.of_grows (.note .refl rfl)
  cases input with
  | notification notification => exact hnameless (nameless_handleNotification notification)
  | engine event => exact hnameless (nameless_handleEngine event)
  | firing firing => exact hnameless (nameless_handleFiring firing)
  | command ticket command =>
    cases command with
    | signIn account => exact hreply (namesInUse_signIn h hw account)
    | refresh => exact hreply (namesInUse_refresh h hw)
    | unregister => exact hreply (namesInUse_unregister h hw)
    | shutdown => exact hreply (namesInUse_teardown h hw)
    | dial target => exact hreply (namesInUse_dial h hw target)
    | answer =>
      refine hreply (hw.of_grows (grows_answer (fun e he => ?_) fun _ _ _ => rfl))
      exact (Effect.isNameless_of_isOfDevice he).1
    | hangup | reject => exact hreply (hw.of_grows (grows_endCall _ fun _ _ _ => rfl))
    | _ => exact hnameless (nameless_handleCommand ticket rfl rfl)
  | abandoned => exact namesInUse_teardown h hw

end Session

end Softphone
