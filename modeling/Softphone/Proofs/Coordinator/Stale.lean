import Softphone.Proofs.Calls.Releasing
import Softphone.Proofs.Coordinator.Acts
import Softphone.Proofs.Coordinator.Agents
import Softphone.Proofs.Session.Owners
import Softphone.Proofs.Session.Principals

/-!
# What agents are used for once they were let go of

Every call keeps the agent that it came with, and is answered and ended in the name of that agent, also once it
was let go of. Nothing else is asked of the engine in the name of such an agent
(`Coordinator.stale_agents_control_own`). It is assumed that the engine makes no agent twice.
-/

namespace Softphone

variable {σ : Type}

namespace Session

/-- A session tracks a call, in whatever state that is by now. -/
def Tracks (s : Session σ) (call : Call) : Prop :=
  ∃ c, s.calls.registry.find? call.handle = some c ∧ c.SameAs call

variable [Host σ] {s s' : Session σ} {past : List (Session σ × Act)} {call call' : Call}

/-- The calls that an act has answered or ended, each after the agent in whose name. -/
def controls (x : Session σ × Act) : List (AgentHandle × CallHandle) :=
  ((x.1.act x.2).world.since x.1.world).filterMap Effect.control?

/-- An act brings a call in: from then on it is tracked, and it is owned by the agent of the session, which was not
let go of yet. -/
structure BringsIn (x : Session σ × Act) (call : Call) : Prop where
  new : x.1.calls.registry.contains call.handle = false
  owner : x.1.registration.agent = some call.agent
  unreleased : call.agent ∉ x.1.world.released
  tracked : (x.1.act x.2).Tracks call

/-- A call was brought in before, and has been tracked ever since. -/
def BroughtIn (past : List (Session σ × Act)) (call : Call) : Prop :=
  ∃ before x later, past = before ++ x :: later ∧ BringsIn x call ∧ ∀ y ∈ later, y.1.Tracks call

/-- Every call that was answered or ended was the current one and live, it was asked for in the name of its owner,
and it was brought in before. -/
def ControlsOwned (past : List (Session σ × Act)) : Prop :=
  EachAfter (fun before x => ∀ named ∈ controls x, ∃ call,
    x.1.currentLive? = some call ∧ named = (call.agent, call.handle) ∧ BroughtIn before call) past

/-- The calls of a session are owned by agents that brought them in, and are controlled by their owners. -/
structure CallsOwned (past : List (Session σ × Act)) (s : Session σ) : Prop where
  kept : s.AgentsKept
  consistent : s.calls.Consistent
  namesInUse : s.world.NamesInUse
  recorded : s.world.record Effect.control? = past.flatMap controls
  broughtIn : ∀ handle call, s.calls.registry.find? handle = some call → BroughtIn past call
  controlled : ControlsOwned past

/-! ## Calls that are brought in -/

omit [Host σ] in
theorem Tracks.same (h : s.Tracks call) (hsame : call.SameAs call') : s.Tracks call' := by
  obtain ⟨c, hc, hcall⟩ := h
  exact ⟨c, hsame.handle ▸ hc, hcall.trans hsame⟩

theorem BringsIn.same {x : Session σ × Act} (h : BringsIn x call) (hsame : call.SameAs call') :
    BringsIn x call' where
  new := hsame.handle ▸ h.new
  owner := hsame.agent ▸ h.owner
  unreleased := hsame.agent ▸ h.unreleased
  tracked := h.tracked.same hsame

theorem BroughtIn.same (h : BroughtIn past call) (hsame : call.SameAs call') : BroughtIn past call' := by
  obtain ⟨before, x, later, heq, hbrings, hlater⟩ := h
  exact ⟨before, x, later, heq, hbrings.same hsame, fun y hy => (hlater y hy).same hsame⟩

theorem broughtIn_concat_iff {x : Session σ × Act} :
    BroughtIn (past ++ [x]) call ↔ BringsIn x call ∨ BroughtIn past call ∧ x.1.Tracks call := by
  rw [BroughtIn, exists_since_concat_iff]
  exact Iff.rfl

/-! ## One act -/

theorem agentsKept_act (h : s.AgentsKept) (act : Act) : (s.act act).AgentsKept := by
  cases act with
  | message input => exact h.handle input
  | pass => exact h.spared sparesAccount_runPass

theorem namesInUse_act (h : s.AgentsKept) (hw : s.world.NamesInUse) (act : Act) :
    (s.act act).world.NamesInUse := by
  cases act with
  | message input => exact namesInUse_handle h hw input
  | pass => exact hw.of_grows (nameless_runPass.mono fun _ he => he.1)

theorem controlsCurrent_act (act : Act) : s.world.Grows s.ControlsCurrent (s.act act).world := by
  cases act with
  | message input => exact controlsCurrent_handle input
  | pass => exact controlsCurrent_of_nameless nameless_runPass

theorem consistent_act (hs : s.calls.Consistent) (act : Act) : (s.act act).calls.Consistent := by
  cases act with
  | message input => exact consistent_handle hs input
  | pass => exact keeps_runPass.consistent hs

theorem tracksFrom_act (hs : s.calls.Consistent) (act : Act) :
    s.calls.TracksFrom s.registration.agent (s.act act).calls := by
  cases act with
  | message input => exact tracksFrom_handle hs input
  | pass =>
    rw [act, runPass_calls]
    exact .refl

namespace CallsOwned

theorem broughtIn_act (h : s.CallsOwned past) (hfresh : s.world.made.Nodup) (act : Act) {handle : CallHandle}
    (hcall : (s.act act).calls.registry.find? handle = some call) : BroughtIn (past ++ [(s, act)]) call := by
  obtain rfl := Registry.handle_of_find? hcall
  rw [broughtIn_concat_iff]
  rcases tracksFrom_act h.consistent act _ _ hcall with ⟨c, hc, hsame⟩ | ⟨hnew, howner⟩
  · exact .inr ⟨(h.broughtIn _ _ hc).same hsame, ⟨c, hc, hsame⟩⟩
  · exact .inl ⟨hnew, howner, h.kept.not_released hfresh howner, ⟨call, hcall, .refl⟩⟩

theorem controls_act (h : s.CallsOwned past) (act : Act) : ∀ named ∈ controls (s, act), ∃ call,
    s.currentLive? = some call ∧ named = (call.agent, call.handle) ∧ BroughtIn past call := by
  intro named hnamed
  obtain ⟨e, he, hnames⟩ := List.mem_filterMap.1 hnamed
  obtain ⟨call, hcall, heq⟩ := (controlsCurrent_act act).of_mem_since he named hnames
  exact ⟨call, hcall, heq, h.broughtIn _ _ (Registry.currentLive?_eq_some_iff.1 hcall).2.1⟩

theorem act (h : s.CallsOwned past) (hfresh : s.world.made.Nodup) (act : Act) :
    (s.act act).CallsOwned (past ++ [(s, act)]) where
  kept := agentsKept_act h.kept act
  consistent := consistent_act h.consistent act
  namesInUse := namesInUse_act h.kept h.namesInUse act
  recorded := by
    rw [(s.grows_act act).record_since, h.recorded, List.flatMap_append, List.flatMap_singleton]
    rfl
  broughtIn _ _ hcall := h.broughtIn_act hfresh act hcall
  controlled := eachAfter_concat_iff.2 ⟨h.controlled, h.controls_act act⟩

theorem aside (h : s.CallsOwned past) (haside : s.Aside s') : s'.CallsOwned past where
  kept := h.kept.spared haside.spares.account
  consistent := haside.calls ▸ h.consistent
  namesInUse := h.namesInUse.of_grows (haside.grows.mono fun e he => by cases e <;> first | rfl | cases he)
  recorded := by
    refine (haside.grows.mono fun e he => ?_).record.trans h.recorded
    cases e <;> first | rfl | cases he
  broughtIn := haside.calls ▸ h.broughtIn
  controlled := h.controlled

end CallsOwned

end Session

namespace Coordinator

variable [Host σ] {c : Coordinator σ}

/-- What agents are used for that were let go of. -/
structure StaleControlOwn (c : Coordinator σ) (ms : List (Move σ)) : Prop where
  /-- Nobody registers, unregisters or sets up calls in the name of an agent that was let go of before. -/
  account : EachAfter (fun before e => ∀ agent, e.principal? = some agent →
    agent ∉ before.filterMap Effect.released?) (c.runMoves ms).session.world.trace
  /-- Calls are answered and ended by acts only. -/
  recorded : (c.runMoves ms).session.world.record Effect.control? = (c.actsAlong ms).flatMap Session.controls
  /-- It is the current call that is answered or ended, by its owner, and it was brought in while that was the
  agent of the session and not let go of. -/
  controlled : Session.ControlsOwned (c.actsAlong ms)

theorem callsOwned_runMoves {config : Config} {host : σ} (hstart : start config host = .ok c)
    (ms : List (Move σ)) (hfresh : (c.runMoves ms).session.world.made.Nodup) :
    (c.runMoves ms).session.CallsOwned (c.actsAlong ms) := by
  refine acts_induction (P := fun past s => s.world.made.Nodup → s.CallsOwned past) ?_ ?_ ?_ ms hfresh
  · intro past s s' haside h hfresh
    obtain ⟨hmade, -⟩ := World.ledger_of_grows
      (haside.spares.account.world.mono fun _ => Effect.isOfAgent_of_not_account)
    exact (h (hmade ▸ hfresh)).aside haside
  · intro past s act h hfresh
    -- Agents stay made, so if none is made twice after the act, none was before it.
    have hmade := (s.grows_act act).record_since Effect.made?
    have hbefore : s.world.made.Nodup := by
      have hlater : ((s.act act).world.record Effect.made?).Nodup := hfresh
      rw [hmade] at hlater
      exact hlater.of_append_left
    exact (h hbefore).act hbefore act
  · intro _
    rw [session_of_start hstart]
    refine ⟨Session.agentsKept_new config host, .empty, .nil, rfl, fun handle call hcall => ?_, .nil⟩
    cases hcall

/-- **What stale agents are used for.** As long as the engine makes no agent twice, an agent that was let go of is
used for nothing but to answer and to end the calls that it owns. -/
theorem stale_agents_control_own {config : Config} {host : σ} (hstart : start config host = .ok c)
    (ms : List (Move σ)) (hfresh : (c.runMoves ms).session.world.made.Nodup) : c.StaleControlOwn ms := by
  have howned := callsOwned_runMoves hstart ms hfresh
  refine ⟨?_, howned.recorded, howned.controlled⟩
  intro before e later htrace agent hagent
  have hnames := howned.namesInUse
  unfold World.NamesInUse at hnames
  unfold World.made at hfresh
  rw [htrace] at hnames hfresh
  rw [List.filterMap_append] at hfresh
  have horder := Effect.inOrder_of_namesInUse hnames.of_append hfresh.of_append_left
  exact (horder.inUse agent (hnames before e later rfl agent hagent)).2

/-- A call comes in for an account, the account is unregistered, and then the call is answered. -/
def answeredLate : List (Move Bench) :=
  [.ask ⟨0⟩ (.signIn bob), .loop] ++ reported 1 .incoming ++
    [.ask ⟨2⟩ .unregister, .loop, .ask ⟨3⟩ .answer, .loop]

/-- The call that came in is answered in the name of the agent that it came with. -/
theorem stale_agents_control_own_answeredLate : start {} ({} : Bench) = .ok onBench ∧
    (onBench.runMoves answeredLate).session.world.made.Nodup ∧
    (onBench.runMoves answeredLate).session.world.record Effect.control? = [(⟨100⟩, ⟨1⟩)] ∧
    onBench.StaleControlOwn answeredLate := by
  have hfresh : (onBench.runMoves answeredLate).session.world.made.Nodup := by decide
  exact ⟨start_onBench, hfresh, by decide, stale_agents_control_own start_onBench answeredLate hfresh⟩

/-- By then the agent has been let go of, and it is used all the same. -/
theorem stale_agent_answers : start {} ({} : Bench) = .ok onBench ∧
    (onBench.runMoves answeredLate).session.world.made.Nodup ∧
    ¬ EachAfter (fun before e => ∀ agent, e.agent? = some agent →
      agent ∉ before.filterMap Effect.released?) (onBench.runMoves answeredLate).session.world.trace := by
  refine ⟨start_onBench, by decide, fun hunused => ?_⟩
  have hanswer : (onBench.runMoves answeredLate).session.world.trace =
      (onBench.runMoves answeredLate).session.world.trace.take 9 ++ .answer ⟨100⟩ ⟨1⟩ (.ok ()) ::
        (onBench.runMoves answeredLate).session.world.trace.drop 10 := by decide
  exact hunused _ _ _ hanswer ⟨100⟩ rfl (by decide)

end Coordinator

end Softphone
