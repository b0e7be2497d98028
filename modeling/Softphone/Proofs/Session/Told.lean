import Softphone.Proofs.Session.Lingering
import Softphone.Proofs.Session.Spares

/-!
# The state of the registration that was published

The state that was published last should be the state that the registration has (`Session.Told`). Every
message keeps it so, unless the application signs in while there is an agent: that agent is released,
and the state that this leads to is published by nobody (`Session.told_turn_iff`).
-/

namespace Softphone

variable {σ : Type}

/-- The state of the registration that an effect publishes. -/
def Effect.registrationState? : Effect → Option RegistrationState
  | publish (.registrationChanged state) => some state
  | _ => none

theorem Effect.registrationState?_eq_none {e : Effect} (h : e.isAccount = false) :
    e.registrationState? = none := by
  unfold registrationState?
  split
  · cases h
  · rfl

namespace World

variable {w w' : World σ}

/-- The state of the registration that was published last. -/
def published? (w : World σ) : Option RegistrationState :=
  w.past.findSome? Effect.registrationState?

theorem published?_of_grows (h : w.Grows (·.isAccount = false) w') :
    w'.published? = w.published? := by
  induction h with
  | refl => rfl
  | within _ host ih => exact ih
  | moveTo _ he ih =>
    refine .trans ?_ ih
    unfold moveTo published?
    rw [List.findSome?_cons, Effect.registrationState?_eq_none he]

end World

namespace Session

variable {s s' : Session σ}

/-- The state that was published last is the one that the registration has; as long as none was, the
registration has none. -/
def Told (s : Session σ) : Prop := s.registration.state = s.world.published?.getD .none

theorem SparesAccount.told_iff (h : s.SparesAccount s') : s'.Told ↔ s.Told := by
  unfold Told
  rw [h.registration, World.published?_of_grows h.world]

theorem told_publishRegistration (s : Session σ) : s.publishRegistration.Told := rfl

/-- Signing in with an account releases an agent, which changes the state. -/
def replacesUntold (s : Session σ) (account : Account) : Bool :=
  account.check.isOk && s.registration.agent.isSome && s.registration.state ≠ .cleared

/-! ## Requests about the account -/

section Registering

variable [Engine σ]

theorem told_register_iff (agent : AgentHandle) : (s.register agent).Told ↔ s.Told := by
  unfold register
  dsimp only
  split
  · exact Iff.rfl
  · exact Iff.rfl

theorem told_refresh (h : s.Told) : s.refresh.2.Told := by
  unfold refresh
  split
  · exact h
  · exact h
  · exact (told_register_iff _).2 (told_publishRegistration _)

theorem told_unregister (h : s.Told) : s.unregister.2.Told := by
  unfold unregister
  split
  · exact h
  · exact told_publishRegistration _

theorem releaseAgent_of_none (h : s.registration.agent = none) : s.releaseAgent = s := by
  unfold releaseAgent Registration.release
  rw [h]

theorem releaseAgent_of_some {agent : AgentHandle} (h : s.registration.agent = some agent) :
    s.releaseAgent =
      { s with registration := ⟨.cleared, none⟩, world := s.world.unregister agent } := by
  unfold releaseAgent Registration.release
  rw [h]

/-- The release of an agent is published by nobody. -/
theorem told_releaseAgent_iff (h : s.Told) :
    s.releaseAgent.Told ↔ (s.registration.agent.isSome && s.registration.state ≠ .cleared) = false := by
  cases hagent : s.registration.agent with
  | none =>
    rw [releaseAgent_of_none hagent]
    exact iff_of_true h rfl
  | some agent =>
    have htold : s.releaseAgent.Told ↔ .cleared = s.registration.state := by
      rw [releaseAgent_of_some hagent, h]
      exact Iff.rfl
    rw [htold, Option.isSome_some, Bool.true_and, decide_eq_false_iff_not, not_ne_iff, eq_comm]

variable [Connectivity σ]

theorem sparesAccount_ensureMobility : s.SparesAccount s.ensureMobility := by
  rw [ensureMobility]
  split
  · exact ⟨rfl, .refl⟩
  · exact ⟨rfl, Mobility.grows_start _ _ fun _ _ => rfl⟩

theorem told_ensureMobility_iff : s.ensureMobility.Told ↔ s.Told :=
  sparesAccount_ensureMobility.told_iff

theorem told_signIn_iff (h : s.Told) (account : Account) :
    (s.signIn account).2.Told ↔ s.replacesUntold account = false := by
  unfold signIn replacesUntold
  cases account.check with
  | error e => exact iff_of_true h rfl
  | ok _ =>
    rw [show (Except.ok () : Except SessionError Unit).isOk = true from rfl, Bool.true_and,
      ← told_releaseAgent_iff h]
    dsimp only
    split
    · exact Iff.rfl
    · exact (told_register_iff _).trans told_ensureMobility_iff

end Registering

variable [Host σ]

/-! ## A turn -/

theorem told_teardown (h : s.Told) : s.teardown.Told := by
  rw [teardown_eq]
  exact told_unregister (sparesAccount_halted.told_iff.2 h)

/-- A request keeps the application told, unless it signs in and releases an agent. -/
theorem told_handleCommand_iff (h : s.Told) (ticket : Ticket) (command : Command) :
    (s.handleCommand ticket command).Told ↔
      ∀ account, command = .signIn account → s.replacesUntold account = false := by
  have hreply : ∀ {s' : Session σ} {answer}, s'.Told → (s'.reply ticket answer).Told :=
    fun {s'} {answer} h' => (Spares.refl.reply ticket answer).account.told_iff.2 h'
  cases command with
  | signIn account =>
    refine Iff.trans (told_signIn_iff h account) ⟨?_, fun hspares => hspares account rfl⟩
    rintro hspares other hother
    cases hother
    exact hspares
  | refresh => exact iff_of_true (hreply (told_refresh h)) nofun
  | unregister => exact iff_of_true (hreply (told_unregister h)) nofun
  | shutdown => exact iff_of_true (hreply (told_teardown h)) nofun
  | _ => exact iff_of_true ((spares_handleCommand ticket rfl).account.told_iff.2 h) nofun

theorem sparesAccount_handleNotification (notification : Notification) :
    s.SparesAccount (s.handleNotification notification) := by
  cases notification with
  | network change =>
    cases change with
    | hotspotChanged enabled =>
      exact ⟨rfl, Mobility.grows_onHotspotChanged s.mobility s.world (fun _ _ => rfl) enabled s.timers⟩
    | _ => exact ⟨rfl, .refl⟩
  | audioMode mode => exact (spares_audioMode mode).account
  | toneFinished => exact spares_toneFinished.account

theorem sparesAccount_handleFiring (firing : Firing) : s.SparesAccount (s.handleFiring firing) := by
  unfold handleFiring
  dsimp only
  split
  · unfold handleTimer
    cases firing.kind with
    | hotspotDebounce =>
      exact ⟨rfl, Mobility.grows_onHotspotDebounce _ _ (fun _ _ _ => rfl) _⟩
    | hotspotFollowUp =>
      dsimp only
      split <;> exact ⟨rfl, .refl⟩
    | ringtoneRestart =>
      exact ⟨rfl, (Player.grows_onRestartTick _ _).mono fun _ he => he.1.1⟩
    | vibrate => exact ⟨rfl, (Player.grows_onVibrateTick _ _).mono fun _ he => he.1.1⟩
  · exact ⟨rfl, .refl⟩

theorem sparesAccount_runPass : s.SparesAccount s.runPass := by
  unfold runPass
  dsimp only
  split
  · exact ⟨rfl, (Mobility.grows_reconcile _ _).mono fun _ => Effect.isAccount_of_isNetwork⟩
  · exact ⟨rfl, .refl⟩

/-- A message keeps the application told, unless it asks to sign in and releases an agent. -/
theorem told_handle_iff (h : s.Told) (input : Input) :
    (s.handle input).Told ↔
      ∀ ticket account, input = .command ticket (.signIn account) →
        s.replacesUntold account = false := by
  cases input with
  | notification notification =>
    exact iff_of_true ((sparesAccount_handleNotification _).told_iff.2 h) nofun
  | engine event =>
    refine iff_of_true ?_ nofun
    cases event with
    | registration signal => exact told_publishRegistration _
    | call event => exact (spares_handleEngine_call event).account.told_iff.2 h
  | firing firing => exact iff_of_true ((sparesAccount_handleFiring firing).told_iff.2 h) nofun
  | command ticket command =>
    refine (told_handleCommand_iff h ticket command).trans ?_
    constructor
    · rintro hspares ticket' account heq
      cases heq
      exact hspares account rfl
    · rintro hspares account rfl
      exact hspares ticket account rfl
  | abandoned => exact iff_of_true (told_teardown h) nofun

/-- Once its message is dealt with, a turn leaves the account alone. -/
theorem sparesAccount_turn (s : Session σ) (input : Input) (queued : List Notification) :
    (s.handle input).SparesAccount (s.turn input queued) := by
  unfold turn
  dsimp only
  split
  · exact ⟨rfl, .refl⟩
  · refine .trans ?_ sparesAccount_runPass
    refine queued_induction (fun notification h => ?_) ⟨rfl, .refl⟩ queued
    exact h.trans (sparesAccount_handleNotification notification)

/-- **When a turn keeps the application told of the registration.** It does, unless its message asks to
sign in while there is an agent whose release changes the state. -/
theorem told_turn_iff (h : s.Told) (input : Input) (queued : List Notification) :
    (s.turn input queued).Told ↔
      ∀ ticket account, input = .command ticket (.signIn account) →
        s.replacesUntold account = false :=
  (sparesAccount_turn s input queued).told_iff.trans (told_handle_iff h input)

end Session

end Softphone
