import Softphone.Proofs.Audio.Routing
import Softphone.Proofs.Session.Performed
import Softphone.Proofs.Session.Quiet

/-!
# Who waits for the route

Requests that wait for a switch of the route are answered together (`Session.Together`): by the
confirmation of normal mode, a request for the earpiece, the release of the audio, or the end of the
session (`Session.Resolves`). A turn answers or parks the request that it takes, and loses no other
(`Session.due_turn`).
-/

namespace Softphone

/-- The request that a message carries. -/
def Input.ticket? : Input → Option Ticket
  | .command ticket _ => some ticket
  | _ => none

namespace Session

variable {σ : Type} {s s' s'' : Session σ} {causes : Bool → Prop} {ticket : Ticket}

/-- How often a request was answered so far, or waits for the route. -/
def due (s : Session σ) (ticket : Ticket) : Nat :=
  (s.world.replies.map (·.1)).count ticket + s.router.waiting.count ticket

theorem due_reply (other : Ticket) (answer : Reply) :
    (s.reply other answer).due ticket = s.due ticket + if other = ticket then 1 else 0 := by
  have hreplies : (s.reply other answer).world.replies = s.world.replies ++ [(other, answer)] :=
    World.replies_reply _ _
  have hrouter : (s.reply other answer).router = s.router := rfl
  simp only [due, hreplies, hrouter, List.map_append, List.count_append, List.map_singleton,
    List.count_singleton, beq_iff_eq]
  omega

/-! ## Those who wait are answered together -/

/-- Those who wait for the route go on waiting, or all of them are told the same and nobody waits any
more. No other request is answered. -/
inductive Settles (causes : Bool → Prop) (s s' : Session σ) : Prop
  | kept (router : s'.router = s.router) (replies : s'.world.replies = s.world.replies)
  | told {on : Bool} (hcause : causes on) (router : s'.router = {})
    (replies : s'.world.replies = s.world.replies ++ s.router.verdict on)

theorem SparesRoute.settles (h : s.SparesRoute s') : s.Settles causes s' :=
  .kept h.router h.world.replies

namespace Settles

theorem trans (h : s.Settles causes s') (h' : s'.Settles causes s'') : s.Settles causes s'' := by
  cases h with
  | kept hrouter hreplies =>
    cases h' with
    | kept hrouter' hreplies' => exact .kept (hrouter'.trans hrouter) (hreplies'.trans hreplies)
    | told hcause hrouter' hreplies' =>
      rw [hreplies, hrouter] at hreplies'
      exact .told hcause hrouter' hreplies'
  | told hcause hrouter hreplies =>
    refine .told hcause ?_ ?_
    all_goals cases h' with
    | kept hrouter' hreplies' => simp [hrouter', hrouter, hreplies', hreplies]
    | told _ hrouter' hreplies' => simp [hrouter', hrouter, hreplies', hreplies, Router.verdict]

theorem coherent (h : s.Settles causes s') (hs : s.router.Coherent) : s'.router.Coherent := by
  cases h with
  | kept hrouter => exact hrouter ▸ hs
  | told _ hrouter => exact hrouter ▸ Router.coherent_idle

theorem idle (h : s.Settles causes s') (hs : s.router.waiting = []) : s'.router.waiting = [] := by
  cases h with
  | kept hrouter => exact hrouter ▸ hs
  | told _ hrouter => rw [hrouter]

/-- Nothing is lost, and nothing is answered twice. -/
theorem due (h : s.Settles causes s') (ticket : Ticket) : s'.due ticket = s.due ticket := by
  unfold Session.due
  cases h with
  | kept hrouter hreplies => rw [hrouter, hreplies]
  | told _ hrouter hreplies => simp [hrouter, hreplies, Router.verdict, Function.comp_def]

end Settles

/-- Whoever waits for the route goes on waiting, or all who wait are told the same, one right after the
other, and nobody waits any more. -/
inductive Together (causes : Bool → Prop) (s s' : Session σ) : Prop
  | waits (h : s.router.waiting <+: s'.router.waiting)
    (replies : ∃ more, s'.world.replies = s.world.replies ++ more)
  | told {on : Bool} (hcause : causes on) (hnone : s'.router.waiting = [])
    (replies : ∃ before after,
      s'.world.replies = s.world.replies ++ (before ++ s.router.verdict on ++ after))

namespace Together

theorem refl : s.Together causes s := .waits (List.prefix_refl _) ⟨[], (List.append_nil _).symm⟩

theorem mono {causes' : Bool → Prop} (h : s.Together causes s') (himp : ∀ on, causes on → causes' on) :
    s.Together causes' s' := by
  cases h with
  | waits h hmore => exact .waits h hmore
  | told hcause hnone htold => exact .told (himp _ hcause) hnone htold

/-- More requests are answered meanwhile. -/
theorem answered (h : s.Together causes s') {more : List (Ticket × Reply)}
    (hrouter : s''.router = s'.router) (hreplies : s''.world.replies = s'.world.replies ++ more) :
    s.Together causes s'' := by
  cases h with
  | waits h hmore =>
    obtain ⟨before, hbefore⟩ := hmore
    exact .waits (hrouter ▸ h) ⟨before ++ more, by simp [hreplies, hbefore]⟩
  | told hcause hnone htold =>
    obtain ⟨before, after, htold⟩ := htold
    exact .told hcause (hrouter ▸ hnone) ⟨before, after ++ more, by simp [hreplies, htold]⟩

theorem settled (h : s.Together causes s') (h' : s'.Settles causes s'') : s.Together causes s'' := by
  cases h' with
  | kept hrouter hreplies => exact h.answered hrouter (by rw [hreplies, List.append_nil])
  | @told on hcause hrouter hreplies =>
    cases h with
    | waits h hmore =>
      -- those who joined are told the same, after those who waited before
      obtain ⟨joined, hjoined⟩ := h
      obtain ⟨before, hbefore⟩ := hmore
      refine .told hcause (hrouter ▸ rfl) ⟨before, joined.map (·, .isOn on), ?_⟩
      simp [hreplies, hbefore, Router.verdict, ← hjoined]
    | told hcause' hnone htold =>
      obtain ⟨before, after, htold⟩ := htold
      refine .told hcause' (hrouter ▸ rfl) ⟨before, after, ?_⟩
      simpa [Router.verdict, hnone, htold] using hreplies

end Together

/-! ## Actions and notifications -/

section Actions

variable [ToneDevice σ] [AudioDevice σ] {actions : List CallAction}

theorem sparesRoute_perform {action : CallAction} (h : action ≠ .releaseAudio) :
    s.SparesRoute (s.perform action).2 := by
  cases action with
  | startRinging => exact ⟨rfl, (Player.grows_startRinging _ _ _).mono fun _ => And.right⟩
  | stopRinging => exact ⟨rfl, (Player.grows_stopRinging _ _ _).mono fun _ => And.right⟩
  | playRingback => exact ⟨rfl, (Player.grows_play _ _ _ _).mono fun _ he => he.2.2⟩
  | stopTone => exact ⟨rfl, (Player.grows_stopTone _ _).mono fun _ he => he.2.2⟩
  | playBusy =>
    have hworld := (Player.grows_play s.player s.world .busy false).mono fun _ he => he.2.2
    unfold perform
    dsimp only
    split <;> exact ⟨rfl, hworld⟩
  | releaseAudio => exact absurd rfl h
  | emit event => exact ⟨rfl, .note .refl rfl⟩

/-- The release of the audio gives up a pending switch; no other action concerns the route. -/
theorem settles_perform {action : CallAction} (h : action = .releaseAudio → causes false) :
    s.Settles causes (s.perform action).2 := by
  by_cases hreleases : action = .releaseAudio
  · subst hreleases
    refine .told (h rfl) rfl ?_
    have hreleased := (Player.grows_releaseAudio s.player (s.router.cancel s.world).2).mono
      fun _ he => he.2.2
    exact hreleased.replies.trans (Router.replies_cancel _ _)
  · exact (sparesRoute_perform hreleases).settles

theorem settles_performAll (h : ∀ e ∈ s.performed actions, e.1 = .releaseAudio → causes false) :
    s.Settles causes (s.performAll actions).2 := by
  induction actions generalizing s with
  | nil => exact .kept rfl rfl
  | cons action rest ih =>
    obtain ⟨hfirst, hrest⟩ := List.forall_mem_cons.1 h
    rw [performAll_cons]
    exact (settles_perform hfirst).trans (ih hrest)

theorem settles_execute (h : ∀ e ∈ s.executed actions, e.1 = .releaseAudio → causes false) :
    s.Settles causes (s.execute actions) := by
  obtain ⟨hfirst, hlater⟩ := List.forall_mem_append.1 h
  exact (settles_performAll hfirst).trans (settles_performAll hlater)

end Actions

variable [Host σ]

/-- A mode that is reported while no switch is pending, or that is not the normal one, changes nothing. -/
theorem handleNotification_audioMode_of_idle {mode : AudioMode}
    (h : s.router.switching = false ∨ mode ≠ .normal) :
    s.handleNotification (.audioMode mode) = s := by
  unfold handleNotification
  dsimp only
  rw [Router.onModeChanged_of_idle h]

theorem settles_handleNotification {notification : Notification}
    (hmode : notification = .audioMode .normal → ∀ on, causes on)
    (hreleases : ∀ e ∈ s.notificationActions notification, e.1 = .releaseAudio → causes false) :
    s.Settles causes (s.handleNotification notification) := by
  cases notification with
  | network change => exact (sparesAudio_network change).route.settles
  | audioMode mode =>
    by_cases hidle : s.router.switching = false ∨ mode ≠ .normal
    · rw [handleNotification_audioMode_of_idle hidle]
      exact .kept rfl rfl
    · rw [not_or, Bool.not_eq_false, not_ne_iff] at hidle
      obtain ⟨hpending, rfl⟩ := hidle
      obtain ⟨hrouter, hreplies⟩ := Router.onModeChanged_normal hpending s.world
      exact .told (hmode rfl _) hrouter hreplies
  | toneFinished =>
    unfold notificationActions at hreleases
    unfold handleNotification
    dsimp only at hreleases ⊢
    split
    · rename_i hbusy
      rw [if_pos hbusy] at hreleases
      refine .trans ?_ (settles_execute hreleases)
      exact .kept rfl rfl
    · exact .kept rfl rfl

theorem settles_queued {queued : List Notification}
    (hmode : .audioMode .normal ∈ queued → ∀ on, causes on)
    (hreleases : ∀ e ∈ queuedActions queued s, e.1 = .releaseAudio → causes false) :
    s.Settles causes (queued.foldl handleNotification s) := by
  induction queued generalizing s with
  | nil => exact .kept rfl rfl
  | cons notification rest ih =>
    obtain ⟨hfirst, hrest⟩ := List.forall_mem_append.1 hreleases
    refine .trans (settles_handleNotification ?_ hfirst) (ih ?_ hrest)
    · rintro rfl
      exact hmode List.mem_cons_self
    · exact fun hmem => hmode (List.mem_cons_of_mem _ hmem)

/-! ## Messages -/

theorem sparesRoute_handleFiring (firing : Firing) : s.SparesRoute (s.handleFiring firing) := by
  cases hringing : firing.kind.isRinging with
  | false => exact (sparesAudio_handleFiring fun _ => hringing).route
  | true =>
    obtain ⟨w, heq, hticked, -⟩ := handleFiring_of_ringing (s := s) hringing
    rw [heq]
    exact ⟨rfl, hticked.mono fun _ => And.right⟩

theorem settles_teardown (h : causes false) : s.Settles causes s.teardown := by
  have hstopped : s.world.Grows (·.reply? = none) (s.mobility.stop s.world).2 :=
    Mobility.grows_stop _ _ rfl
  have hsilenced := hstopped.trans ((Player.grows_stopAll s.player s.timers.cancelAll _).mono
    fun _ => And.right)
  have hhalted : s.Settles causes s.halted := by
    refine .told h rfl ?_
    have hcancelled := Router.replies_cancel s.router
      (s.player.stopAll s.timers.cancelAll (s.mobility.stop s.world).2).2.2.cancelVibration
    have hvibration : s.world.Grows (·.reply? = none)
      (s.player.stopAll s.timers.cancelAll (s.mobility.stop s.world).2).2.2.cancelVibration :=
      hsilenced.moveTo rfl
    rw [hvibration.replies] at hcancelled
    have habandoned : World.Grows (·.reply? = none) _ s.halted.world := .step rfl
    exact habandoned.replies.trans hcancelled
  exact hhalted.trans sparesAudio_unregister.route.settles

/-- Whether a message asks for the earpiece. -/
def wantsEarpiece (s : Session σ) : Input → Bool
  | .command _ (.setSpeaker (some on)) => !on
  | .command _ (.setSpeaker none) => s.isSpeakerOn
  | _ => false

/-- What ends the wait for the route in a turn, and what those who waited are told. -/
inductive Resolves (s : Session σ) (input : Input) (queued : List Notification) : Bool → Prop
  /-- The device confirms normal mode; whether the speaker is on then is up to the device. -/
  | confirmed (on : Bool) (h : input = .notification (.audioMode .normal) ∨
      .audioMode .normal ∈ s.taken input queued) : Resolves s input queued on
  | earpiece (h : s.wantsEarpiece input = true) : Resolves s input queued false
  | released (h : ∃ e ∈ s.turnActions input queued, e.1 = .releaseAudio) :
    Resolves s input queued false
  | ended (h : input.ends = true) : Resolves s input queued false

/-- A request for the route is answered at once, or waits. -/
theorem routeAudio_cases (ticket : Ticket) (on : Option Bool) :
    s.router.Takes (on.getD !s.isSpeakerOn) ticket s.world
      ((s.handleCommand ticket (.setSpeaker on)).router,
        (s.handleCommand ticket (.setSpeaker on)).world) := by
  cases on with
  | some on => exact Router.request_cases s.router on ticket s.world
  | none => exact Router.request_cases s.router (!s.isSpeakerOn) ticket s.world

/-- What a message does about the route, when it is not a request for it. -/
theorem handle_route_cases (input : Input) (queued : List Notification)
    (hspeaker : ∀ ticket on, input ≠ .command ticket (.setSpeaker on)) :
    ∃ s', s.Settles (s.Resolves input queued) s' ∧
      (input.ticket? = none ∧ s.handle input = s' ∨
        ∃ ticket answer, input.ticket? = some ticket ∧ s.handle input = s'.reply ticket answer) := by
  have hreleases (h : ∃ e ∈ s.inputActions input, e.1 = .releaseAudio) :
      s.Resolves input queued false := by
    obtain ⟨e, he, hrelease⟩ := h
    exact .released ⟨e, List.mem_append_left _ he, hrelease⟩
  cases input with
  | notification notification =>
    refine ⟨_, settles_handleNotification ?_ fun e he hrelease => hreleases ⟨e, he, hrelease⟩,
      .inl ⟨rfl, rfl⟩⟩
    rintro rfl on
    exact .confirmed on (.inl rfl)
  | engine event =>
    refine ⟨_, ?_, .inl ⟨rfl, rfl⟩⟩
    cases event with
    | registration signal => exact (sparesAudio_published _).route.settles
    | call event =>
      refine .trans ?_ (settles_execute fun e he hrelease => hreleases ⟨e, he, hrelease⟩)
      exact .kept rfl rfl
  | firing firing => exact ⟨_, (sparesRoute_handleFiring firing).settles, .inl ⟨rfl, rfl⟩⟩
  | command ticket command =>
    by_cases hends : command = .shutdown
    · subst hends
      exact ⟨_, settles_teardown (.ended rfl), .inr ⟨ticket, _, rfl, rfl⟩⟩
    · obtain ⟨s', answer, hquiet, heq⟩ := handleCommand_cases (s := s) ticket
        (fun on hcommand => hspeaker ticket on (hcommand ▸ rfl)) hends
      exact ⟨s', hquiet.route.settles, .inr ⟨ticket, answer, rfl, heq⟩⟩
  | abandoned => exact ⟨_, settles_teardown (.ended rfl), .inl ⟨rfl, rfl⟩⟩

/-- After its message a turn answers no request, unless all who wait for the route. -/
theorem settles_turn (input : Input) (queued : List Notification) :
    (s.handle input).Settles (s.Resolves input queued) (s.turn input queued) := by
  have hqueued : (s.handle input).Settles (s.Resolves input queued)
      ((s.taken input queued).foldl handleNotification (s.handle input)) := by
    refine settles_queued (fun hmem on => .confirmed on (.inr hmem)) fun e he hrelease => ?_
    exact .released ⟨e, List.mem_append_right _ he, hrelease⟩
  cases hended : (s.handle input).ended with
  | true =>
    rw [turn_of_ended hended]
    exact hqueued
  | false =>
    rw [turn_of_going hended]
    exact hqueued.trans sparesAudio_runPass.route.settles

/-! ## Turns -/

theorem coherent_handle (hs : s.router.Coherent) (input : Input) :
    (s.handle input).router.Coherent := by
  by_cases hspeaker : ∃ ticket on, input = .command ticket (.setSpeaker on)
  · obtain ⟨ticket, on, rfl⟩ := hspeaker
    have htakes := routeAudio_cases (s := s) ticket on
    change (s.handleCommand ticket (.setSpeaker on)).router.Coherent
    generalize s.handleCommand ticket (.setSpeaker on) = s' at htakes ⊢
    generalize hrouter : s'.router = r, hworld : s'.world = w at htakes
    cases htakes with
    | answered => exact hs
    | givenUp => exact Router.coherent_idle
    | parked => exact Router.coherent_parked _ _
  · simp only [not_exists] at hspeaker
    obtain ⟨s', hsettles, ⟨-, heq⟩ | ⟨ticket, answer, -, heq⟩⟩ :=
      handle_route_cases (s := s) input [] hspeaker
    · rw [heq]
      exact hsettles.coherent hs
    · rw [heq]
      exact hsettles.coherent hs

theorem coherent_turn (hs : s.router.Coherent) (input : Input) (queued : List Notification) :
    (s.turn input queued).router.Coherent :=
  (settles_turn input queued).coherent (coherent_handle hs input)

theorem due_handle (input : Input) (ticket : Ticket) :
    (s.handle input).due ticket =
      s.due ticket + if input.ticket? = some ticket then 1 else 0 := by
  by_cases hspeaker : ∃ ticket on, input = .command ticket (.setSpeaker on)
  · obtain ⟨asked, on, rfl⟩ := hspeaker
    have htakes := routeAudio_cases (s := s) asked on
    change (s.handleCommand asked (.setSpeaker on)).due ticket = _
    generalize s.handleCommand asked (.setSpeaker on) = s' at htakes ⊢
    unfold due Input.ticket?
    generalize s'.router = r, s'.world = w at htakes ⊢
    cases htakes with
    | answered on hreplies =>
      simp [hreplies, List.count_singleton]
      omega
    | givenUp _ on hreplies =>
      simp [hreplies, Router.verdict, Function.comp_def, List.count_singleton]
      omega
    | parked _ hreplies =>
      simp [hreplies, List.count_singleton]
      omega
  · simp only [not_exists] at hspeaker
    obtain ⟨s', hsettles, ⟨hnone, heq⟩ | ⟨asked, answer, hasked, heq⟩⟩ :=
      handle_route_cases (s := s) input [] hspeaker
    · rw [heq, hnone, hsettles.due]
      simp
    · rw [heq, hasked, due_reply, hsettles.due]
      simp

/-- **Nothing is lost.** A turn answers the request that it takes, or lets it wait for the route, and of
the others it answers exactly those that wait no more. -/
theorem due_turn (input : Input) (queued : List Notification) (ticket : Ticket) :
    (s.turn input queued).due ticket =
      s.due ticket + if input.ticket? = some ticket then 1 else 0 :=
  ((settles_turn input queued).due ticket).trans (due_handle input ticket)

/-- **All who wait are answered together.** -/
theorem together_turn (input : Input) (queued : List Notification) :
    s.Together (s.Resolves input queued) (s.turn input queued) := by
  refine .settled ?_ (settles_turn input queued)
  by_cases hspeaker : ∃ ticket on, input = .command ticket (.setSpeaker on)
  · obtain ⟨ticket, on, rfl⟩ := hspeaker
    have htakes := routeAudio_cases (s := s) ticket on
    have hearpiece : (on.getD !s.isSpeakerOn) = false →
        s.Resolves (.command ticket (.setSpeaker on)) queued false := by
      intro hoff
      refine .earpiece ?_
      cases on <;> simpa [wantsEarpiece] using hoff
    change s.Together _ (s.handleCommand ticket (.setSpeaker on))
    generalize s.handleCommand ticket (.setSpeaker on) = s' at htakes ⊢
    generalize hrouter : s'.router = r, hworld : s'.world = w at htakes
    cases htakes with
    | answered on hreplies => exact Together.refl.answered hrouter (hworld ▸ hreplies)
    | givenUp hoff on hreplies =>
      refine .told (hearpiece hoff) (hrouter ▸ rfl) ⟨[], [(ticket, .isOn on)], ?_⟩
      simpa [hworld] using hreplies
    | parked _ hreplies =>
      refine .waits (hrouter ▸ List.prefix_append _ _) ⟨[], ?_⟩
      simpa [hworld] using hreplies
  · simp only [not_exists] at hspeaker
    obtain ⟨s', hsettles, ⟨-, heq⟩ | ⟨ticket, answer, -, heq⟩⟩ :=
      handle_route_cases (s := s) input queued hspeaker
    · rw [heq]
      exact Together.refl.settled hsettles
    · rw [heq]
      exact (Together.refl.settled hsettles).answered rfl (World.replies_reply ticket answer)

theorem router_teardown : s.teardown.router = {} := (sparesAudio_unregister (s := s.halted)).router

/-- Nobody waits for the route once the session has ended. -/
theorem waiting_turn_of_ends {input : Input} (hends : input.ends = true) (queued : List Notification) :
    (s.turn input queued).router.waiting = [] := by
  refine (settles_turn input queued).idle ?_
  have hnone : s.teardown.router.waiting = [] := by rw [router_teardown]
  exact ends_induction (P := fun s' => s'.router.waiting = []) (fun _ _ h => h) hnone hends

end Session

end Softphone
