import Softphone.Proofs.Session.Actions
import Softphone.Session.Turn

/-!
# The lingering call and its tone

In a session a closed call should be tracked exactly while the busy tone plays. Every message keeps that,
unless it is a report that ends the tone for the sake of another call (`Session.inStep_turn_iff`).
-/

namespace Softphone.Session

variable {σ : Type} {s s' : Session σ}

/-- A closed call is tracked exactly while the busy tone plays, and at no other time is it current. -/
structure InStep (s : Session σ) : Prop where
  closed_iff : (∃ c ∈ s.calls.registry.calls, c.state = .closed) ↔ s.player.active = some .busy
  current_live : s.player.active ≠ some .busy →
    ∀ c, s.calls.registry.current? = some c → c.state ≠ .closed

/-- The busy tone plays, and a report on another call ends it. -/
def cutsBusy (s : Session σ) (event : CallEvent) : Bool :=
  s.player.active = some .busy && s.calls.endsTone s.registration.agent event

/-- The closed call is left without its tone. -/
def Stranded (s : Session σ) : Prop :=
  s.calls.closing.isSome = true ∧ s.player.active ≠ some .busy

theorem inStep_iff (h : s.calls.Consistent) :
    s.InStep ↔ (s.calls.closing.isSome = true ↔ s.player.active = some .busy) := by
  rw [← h.exists_closed_iff]
  refine ⟨InStep.closed_iff, fun hclosed => ⟨hclosed, fun hsilent c hcurrent hc => hsilent ?_⟩⟩
  obtain ⟨a, _, hfind⟩ := Option.bind_eq_some_iff.1 hcurrent
  exact hclosed.1 ⟨c, Registry.mem_of_find? hfind, hc⟩

theorem Stranded.not_inStep (h : s.Stranded) (hs : s.calls.Consistent) : ¬ s.InStep := by
  rw [inStep_iff hs]
  exact fun hstep => h.2 (hstep.1 h.1)

theorem inStep_of_finished (hcalls : s'.calls = s.calls.onToneFinished.2)
    (hsilent : s'.player.active ≠ some .busy) (hs : s.calls.Consistent) : s'.InStep := by
  rw [inStep_iff (hcalls ▸ hs.onToneFinished), hcalls, CallBook.onToneFinished_closing]
  exact iff_of_false Bool.false_ne_true hsilent

/-! ## What touches neither the closed call nor the tone -/

/-- Neither the closed call nor what plays is touched. -/
structure Keeps (s s' : Session σ) : Prop where
  closing : s'.calls.closing = s.calls.closing
  active : s'.player.active = s.player.active
  consistent : s.calls.Consistent → s'.calls.Consistent

namespace Keeps

theorem of_eq (hcalls : s'.calls = s.calls) (hactive : s'.player.active = s.player.active) :
    s.Keeps s' where
  closing := congrArg _ hcalls
  active := hactive
  consistent h := hcalls ▸ h

theorem inStep (h : s.Keeps s') (hs : s.calls.Consistent) (hstep : s.InStep) : s'.InStep := by
  rw [inStep_iff (h.consistent hs), h.closing, h.active]
  exact (inStep_iff hs).1 hstep

theorem stranded (h : s.Keeps s') (hs : s.Stranded) : s'.Stranded := by
  rw [Stranded, h.closing, h.active]
  exact hs

theorem trans {s'' : Session σ} (h : s.Keeps s') (h' : s'.Keeps s'') : s.Keeps s'' where
  closing := h'.closing.trans h.closing
  active := h'.active.trans h.active
  consistent hs := h'.consistent (h.consistent hs)

end Keeps

theorem keeps_withCurrent {α : Type} {act : Call → Except SessionError α × Session σ}
    (h : ∀ call, s.Keeps (act call).2) : s.Keeps (s.withCurrent act).2 := by
  unfold withCurrent
  split
  · exact h _
  · exact .of_eq rfl rfl

variable [Host σ]

/-! ### Requests -/

theorem trackDialled_eq_ok {handle : CallHandle} {agent : AgentHandle} {target : String}
    (h : s.trackDialled handle agent target = .ok s') :
    ∃ calls world, s.calls.track (Call.new s.world.stamp.1 handle agent .outbound target) = .ok calls ∧
      s' = { s with calls, world } := by
  unfold trackDialled at h
  dsimp only at h
  cases htrack : s.calls.track
      (Call.new s.world.stamp.1 handle agent .outbound target) with
  | error e =>
    rw [htrack] at h
    cases h
  | ok calls =>
    rw [htrack] at h
    cases h
    exact ⟨calls, _, rfl, rfl⟩

/-- A call that could not be connected leaves again without touching the closed one. -/
theorem keeps_connectDialled {handle : CallHandle} {agent : AgentHandle} {target text : String}
    (h : s.trackDialled handle agent target = .ok s') :
    s.Keeps (s'.connectDialled handle text).2 := by
  obtain ⟨calls, world, htrack, rfl⟩ := trackDialled_eq_ok h
  have hclosing : calls.closing = s.calls.closing := CallBook.track_closing htrack
  unfold connectDialled
  dsimp only
  split
  · exact ⟨hclosing, rfl, fun hs => hs.track htrack nofun⟩
  · refine ⟨hclosing, rfl, fun hs => (hs.track htrack nofun).remove ?_⟩
    rw [hclosing]
    exact hs.closing_ne_of_track htrack

theorem keeps_dial (target : String) : s.Keeps (s.dial target).2 := by
  unfold dial
  split
  · exact .of_eq rfl rfl
  split
  · exact .of_eq rfl rfl
  dsimp only
  split
  · exact .of_eq rfl rfl
  split
  · exact .of_eq rfl rfl
  · rename_i htrack
    refine .trans ?_ (keeps_connectDialled htrack)
    exact .of_eq rfl rfl

theorem keeps_answer : s.Keeps s.answer.2 := by
  refine keeps_withCurrent fun call => ?_
  dsimp only
  split
  · exact .of_eq rfl rfl
  · exact .of_eq rfl Player.applyCallVolume_active

theorem keeps_releaseAgent : s.Keeps s.releaseAgent := by
  unfold releaseAgent
  split
  · exact .of_eq rfl rfl
  · exact .of_eq rfl rfl

theorem keeps_ensureMobility : s.Keeps s.ensureMobility := by
  unfold ensureMobility
  split
  · exact .of_eq rfl rfl
  · exact .of_eq rfl rfl

theorem keeps_register (agent : AgentHandle) : s.Keeps (s.register agent) := by
  unfold register
  dsimp only
  split
  · exact .of_eq rfl rfl
  · exact .of_eq rfl rfl

theorem keeps_signIn (account : Account) : s.Keeps (s.signIn account).2 := by
  unfold signIn
  split
  · exact .of_eq rfl rfl
  · refine keeps_releaseAgent.trans ?_
    dsimp only
    split
    · exact .of_eq rfl rfl
    · refine .trans ?_ (keeps_register _)
      refine .trans ?_ (keeps_ensureMobility.trans (.of_eq rfl rfl))
      exact .of_eq rfl rfl

theorem unregister_frame (s : Session σ) : s.unregister.2.calls = s.calls ∧
    s.unregister.2.player = s.player ∧ s.unregister.2.ended = s.ended := by
  unfold unregister
  split
  · exact ⟨rfl, rfl, rfl⟩
  · exact ⟨rfl, rfl, rfl⟩

theorem keeps_unregister : s.Keeps s.unregister.2 :=
  .of_eq (unregister_frame s).1 (congrArg Player.active (unregister_frame s).2.1)

theorem keeps_refresh : s.Keeps s.refresh.2 := by
  unfold refresh
  split
  · exact .of_eq rfl rfl
  · exact .of_eq rfl rfl
  · refine .trans ?_ (keeps_register _)
    exact .of_eq rfl rfl

theorem keeps_handleCommand (ticket : Ticket) {command : Command} (hcommand : command ≠ .shutdown) :
    s.Keeps (s.handleCommand ticket command) := by
  have hreply : ∀ {s' : Session σ} {answer}, s.Keeps s' → s.Keeps (s'.reply ticket answer) :=
    fun h => h.trans (.of_eq rfl rfl)
  cases command with
  | shutdown => exact absurd rfl hcommand
  | signIn account => exact hreply (keeps_signIn account)
  | dial target => exact hreply (keeps_dial target)
  | answer => exact hreply keeps_answer
  | hangup | reject => exact hreply (keeps_withCurrent fun _ => .of_eq rfl rfl)
  | hold held => exact hreply (keeps_withCurrent fun _ => .of_eq rfl rfl)
  | transfer target =>
    refine hreply ?_
    unfold transfer
    split
    · exact .of_eq rfl rfl
    · exact keeps_withCurrent fun _ => .of_eq rfl rfl
  | sendDigits digits =>
    refine hreply ?_
    unfold sendDigits
    split
    · exact .of_eq rfl rfl
    · exact keeps_withCurrent fun _ => .of_eq rfl rfl
  | setMuted muted => exact hreply (keeps_withCurrent fun _ => .of_eq rfl rfl)
  | setSpeaker on => exact .of_eq rfl rfl
  | refresh => exact hreply keeps_refresh
  | unregister => exact hreply keeps_unregister
  | registrationState | isMicOn | isSpeakerOn | currentCall | missedCalls | stats =>
    exact .of_eq rfl rfl

/-! ### Firings and passes -/

theorem keeps_handleFiring (firing : Firing) : s.Keeps (s.handleFiring firing) := by
  unfold handleFiring
  dsimp only
  split
  · unfold handleTimer
    cases firing.kind with
    | hotspotFollowUp =>
      dsimp only
      split
      · exact .of_eq rfl rfl
      · exact .of_eq rfl rfl
    | hotspotDebounce | ringtoneRestart | vibrate => exact .of_eq rfl rfl
  · exact .of_eq rfl rfl

theorem keeps_runPass : s.Keeps s.runPass := by
  unfold runPass
  dsimp only
  split
  · exact .of_eq rfl rfl
  · exact .of_eq rfl rfl

/-! ## What touches them -/

/-- The busy tone comes to its end. -/
theorem handleNotification_toneFinished (hbusy : s.player.active = some .busy) :
    s.handleNotification .toneFinished =
      ({ s with player.active := none, calls := s.calls.onToneFinished.2 } : Session σ).execute
        s.calls.onToneFinished.1 := by
  unfold handleNotification Player.onToneFinished
  dsimp only
  rw [if_pos hbusy]
  rfl

/-- A notification touches neither, or it is the end of the busy tone and the closed call goes. -/
theorem handleNotification_cases (s : Session σ) (notification : Notification) :
    s.Keeps (s.handleNotification notification) ∨
      (s.player.active = some .busy ∧
        (s.handleNotification notification).calls = s.calls.onToneFinished.2 ∧
        (s.handleNotification notification).player.active ≠ some .busy) := by
  cases notification with
  | network change => cases change <;> exact .inl (.of_eq rfl rfl)
  | audioMode mode => exact .inl (.of_eq rfl rfl)
  | toneFinished =>
    by_cases hbusy : s.player.active = some .busy
    · have hcalm := (onToneFinished_calm s.calls).1
      rw [handleNotification_toneFinished hbusy, execute_calls hcalm, ne_eq, execute_busy_iff hcalm]
      exact .inr ⟨hbusy, rfl, fun h => nomatch h.1⟩
    · unfold handleNotification Player.onToneFinished
      dsimp only
      rw [if_neg hbusy]
      exact .inl (.of_eq rfl rfl)

theorem consistent_handleNotification (hs : s.calls.Consistent) (notification : Notification) :
    (s.handleNotification notification).calls.Consistent := by
  rcases handleNotification_cases s notification with hkeeps | ⟨_, hcalls, _⟩
  · exact hkeeps.consistent hs
  · rw [hcalls]
    exact hs.onToneFinished

theorem consistent_handleEngine (hs : s.calls.Consistent) (event : EngineEvent) :
    (s.handleEngine event).calls.Consistent := by
  cases event with
  | registration signal => exact hs
  | call event => exact execute_consistent (CallBook.receive_consistent hs _ _ _) _

/-- Carrying out the actions of a report strands the closed call exactly if they end the busy tone and
leave the call. -/
theorem execute_ensues_cases {silent : Bool} {r : List CallAction × CallBook}
    (hstep : s.calls.closing.isSome = true ↔ s.player.active = some .busy)
    (h : s.calls.Ensues silent r) (world : World σ) :
    ((s.player.active = some .busy && silent) = true ∧
        (({ s with calls := r.2, world } : Session σ).execute r.1).Stranded) ∨
      ((s.player.active = some .busy && silent) = false ∧
        ((({ s with calls := r.2, world } : Session σ).execute r.1).calls.closing.isSome = true ↔
          (({ s with calls := r.2, world } : Session σ).execute r.1).player.active = some .busy)) := by
  cases h with
  | kept hbusy htone hclosing =>
    unfold Stranded
    rw [execute_calls hbusy, ne_eq, execute_busy_iff hbusy, htone]
    dsimp only
    rw [hclosing, hstep]
    cases silent <;> by_cases hplays : s.player.active = some .busy <;> simp [hplays]
  | dropped hbusy htone hsilent hclosing =>
    refine .inr ⟨by rw [hsilent, Bool.and_false], ?_⟩
    rw [execute_calls hbusy, execute_busy_iff hbusy]
    dsimp only
    rw [hclosing, ← hstep]
    exact iff_of_false Bool.false_ne_true fun ⟨hsome, hkept⟩ => hkept (htone hsome)
  | replaced hbusy htone hsilent hclosing =>
    refine .inr ⟨by rw [hsilent, Bool.and_false], ?_⟩
    rcases execute_playBusy_cases { s with calls := _, world } hbusy htone with
      ⟨hplays, hcalls⟩ | ⟨hfails, hcalls⟩
    · rw [hcalls]
      exact iff_of_true hclosing hplays
    · rw [hcalls, CallBook.onToneFinished_closing]
      exact iff_of_false Bool.false_ne_true hfails

/-- After a report on a call a session is in step, unless the report cut the busy tone. -/
theorem handleEngine_call_cases (hs : s.calls.Consistent) (hstep : s.InStep) (event : CallEvent) :
    (s.cutsBusy event = true ∧ (s.handleEngine (.call event)).Stranded) ∨
      (s.cutsBusy event = false ∧ (s.handleEngine (.call event)).InStep) := by
  rw [inStep_iff (consistent_handleEngine hs (.call event))]
  exact execute_ensues_cases ((inStep_iff hs).1 hstep) (CallBook.receive_ensues _ _ _) _

/-! ## A turn -/

theorem teardown_calls : s.teardown.calls = s.calls := (unregister_frame _).1

theorem teardown_ended : s.teardown.ended = true := (unregister_frame _).2.2

theorem consistent_teardown (hs : s.calls.Consistent) : s.teardown.calls.Consistent := by
  rw [teardown_calls]
  exact hs

theorem consistent_handle (hs : s.calls.Consistent) (input : Input) :
    (s.handle input).calls.Consistent := by
  cases input with
  | notification notification => exact consistent_handleNotification hs notification
  | engine event => exact consistent_handleEngine hs event
  | firing firing => exact (keeps_handleFiring firing).consistent hs
  | command ticket command =>
    by_cases hcommand : command = .shutdown
    · subst hcommand
      exact consistent_teardown hs
    · exact (keeps_handleCommand ticket hcommand).consistent hs
  | abandoned => exact consistent_teardown hs

theorem inStep_handleNotification (hs : s.calls.Consistent) (hstep : s.InStep)
    (notification : Notification) : (s.handleNotification notification).InStep := by
  rcases handleNotification_cases s notification with hkeeps | ⟨_, hcalls, hsilent⟩
  · exact hkeeps.inStep hs hstep
  · exact inStep_of_finished hcalls hsilent hs

theorem stranded_handleNotification (hs : s.Stranded) (notification : Notification) :
    (s.handleNotification notification).Stranded := by
  rcases handleNotification_cases s notification with hkeeps | ⟨hbusy, _⟩
  · exact hkeeps.stranded hs
  · exact absurd hbusy hs.2

/-- A message keeps the session in step, ends it, or cuts the busy tone. -/
theorem handle_cases (hs : s.calls.Consistent) (hstep : s.InStep) (input : Input) :
    (∃ event, input = .engine (.call event) ∧ s.cutsBusy event = true ∧
        (s.handle input).Stranded) ∨
      ((∀ event, input = .engine (.call event) → s.cutsBusy event = false) ∧
        ((s.handle input).ended = true ∨ (s.handle input).InStep)) := by
  cases input with
  | notification notification =>
    exact .inr ⟨nofun, .inr (inStep_handleNotification hs hstep notification)⟩
  | engine event =>
    cases event with
    | registration signal =>
      have hkeeps : s.Keeps (s.handleEngine (.registration signal)) := .of_eq rfl rfl
      exact .inr ⟨nofun, .inr (hkeeps.inStep hs hstep)⟩
    | call event =>
      rcases handleEngine_call_cases hs hstep event with ⟨hcuts, hafter⟩ | ⟨hspares, hafter⟩
      · exact .inl ⟨event, rfl, hcuts, hafter⟩
      · refine .inr ⟨fun other hother => ?_, .inr hafter⟩
        cases hother
        exact hspares
  | firing firing => exact .inr ⟨nofun, .inr ((keeps_handleFiring firing).inStep hs hstep)⟩
  | command ticket command =>
    by_cases hcommand : command = .shutdown
    · subst hcommand
      exact .inr ⟨nofun, .inl teardown_ended⟩
    · exact .inr ⟨nofun, .inr ((keeps_handleCommand ticket hcommand).inStep hs hstep)⟩
  | abandoned => exact .inr ⟨nofun, .inl teardown_ended⟩

/-- What every notification keeps is kept by all that have queued up. -/
theorem queued_induction {P : Session σ → Prop}
    (hkeeps : ∀ {s} notification, P s → P (s.handleNotification notification)) (h : P s)
    (queued : List Notification) : P (queued.foldl handleNotification s) := by
  induction queued generalizing s with
  | nil => exact h
  | cons notification queued ih => exact ih (hkeeps notification h)

theorem consistent_turn (hs : s.calls.Consistent) (input : Input) (queued : List Notification) :
    (s.turn input queued).calls.Consistent := by
  have hhandled := consistent_handle hs input
  unfold turn
  dsimp only
  split
  · exact hhandled
  · exact keeps_runPass.consistent (queued_induction (P := fun s => s.calls.Consistent)
      (fun notification h => consistent_handleNotification h notification) hhandled queued)

theorem handleNotification_ended (s : Session σ) (notification : Notification) :
    (s.handleNotification notification).ended = s.ended := by
  cases notification with
  | network change => cases change <;> rfl
  | audioMode mode => rfl
  | toneFinished =>
    unfold handleNotification
    dsimp only
    split
    · exact execute_ended _ _
    · rfl

theorem runPass_calls (s : Session σ) : s.runPass.calls = s.calls := by
  unfold runPass
  dsimp only
  split
  · rfl
  · rfl

theorem runPass_ended (s : Session σ) : s.runPass.ended = s.ended := by
  unfold runPass
  dsimp only
  split
  · rfl
  · rfl

/-- A report of the engine ends no session. -/
theorem turn_engine_ended (s : Session σ) (event : EngineEvent) (queued : List Notification) :
    (s.turn (.engine event) queued).ended = s.ended := by
  have hhandled : (s.handle (.engine event)).ended = s.ended := by
    cases event with
    | registration signal => rfl
    | call event => exact execute_ended _ _
  unfold turn
  dsimp only
  split
  · exact hhandled
  · rw [runPass_ended]
    exact queued_induction (P := fun s' => s'.ended = s.ended)
      (fun notification h => (handleNotification_ended _ notification).trans h) hhandled queued

/-- **When a turn keeps a session in step.** It does, unless its message cut the busy tone. -/
theorem inStep_turn_iff (hs : s.calls.Consistent) (hstep : s.InStep) {input : Input}
    {queued : List Notification} (hlive : (s.turn input queued).ended = false) :
    (s.turn input queued).InStep ↔
      ∀ event, input = .engine (.call event) → s.cutsBusy event = false := by
  have hhandled := consistent_handle hs input
  have hafter := consistent_turn hs input queued
  unfold turn at hlive hafter ⊢
  dsimp only at hlive hafter ⊢
  split at hlive
  · rename_i hended
    exact absurd hended (Bool.eq_false_iff.1 hlive)
  rename_i hgoes
  rw [if_neg hgoes] at hafter ⊢
  rcases handle_cases hs hstep input with ⟨event, rfl, hcuts, hstranded⟩ | ⟨hspares, hended | hstep⟩
  · have hqueued := queued_induction (P := Stranded)
      (fun notification h => stranded_handleNotification h notification) hstranded queued
    refine iff_of_false ((keeps_runPass.stranded hqueued).not_inStep hafter) fun hspares => ?_
    exact Bool.false_ne_true ((hspares event rfl).symm.trans hcuts)
  · exact absurd hended hgoes
  · have hqueued := queued_induction (P := fun s => s.calls.Consistent ∧ s.InStep)
      (fun notification h => ⟨consistent_handleNotification h.1 notification,
        inStep_handleNotification h.1 h.2 notification⟩) ⟨hhandled, hstep⟩ queued
    exact iff_of_true (keeps_runPass.inStep hqueued.1 hqueued.2) hspares

end Softphone.Session
