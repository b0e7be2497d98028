import Softphone.Proofs.Coordinator.Lingering
import Softphone.Proofs.Intake
import Softphone.Proofs.Session.Routing

/-!
# Every request is answered once

Along a run every request is answered, waits for a switch of the route or is still on its way, and all of
these together come to as many as were asked (`Coordinator.requests_answered`). Those who wait for the
route are told the same at one time, and once the coordinator has stopped nobody waits.
-/

namespace Softphone.Coordinator

variable {σ : Type} {c c' : Coordinator σ} {ticket : Ticket}

/-- The requests that come with a move, those among them that arrive while the session deals with a
message. -/
def asked (c : Coordinator σ) : Move σ → List Ticket
  | .ask ticket _ | .notify ticket _ | .tryNotify ticket _ | .report ticket _ | .tryReport ticket _ =>
    [ticket]
  | .proceed meanwhile => if c.nextInput?.isSome then meanwhile.filterMap Incident.ticket? else []
  | .release | .fire | .refill | .clock _ | .surroundings _ => []

/-- The requests that come with several moves. -/
def askedAlong [Host σ] : Coordinator σ → List (Move σ) → List Ticket
  | _, [] => []
  | c, m :: ms => c.asked m ++ askedAlong (c.move m) ms

/-- The requests that are on their way: those to the session, and the senders who wait for room. -/
def underway (c : Coordinator σ) : List Ticket :=
  (c.commands.queue ++ c.commands.waiting).map (·.1) ++
    c.notifications.waiting.filterMap (·.sender) ++ c.reports.waiting.filterMap (·.sender)

/-- How often a request was answered so far, waits for the route, or is on its way. -/
def due (c : Coordinator σ) (ticket : Ticket) : Nat :=
  c.session.due ticket + c.underway.count ticket

theorem due_reply (other : Ticket) (answer : Reply) :
    (c.reply other answer).session.due ticket =
      c.session.due ticket + if other = ticket then 1 else 0 :=
  Session.due_reply other answer

theorem due_replied (other : Ticket) (answer : Reply) :
    (c.reply other answer).due ticket = c.due ticket + if other = ticket then 1 else 0 := by
  have hunderway : (c.reply other answer).underway = c.underway := rfl
  unfold due
  rw [due_reply, hunderway]
  omega

/-! ## Senders who wait are told -/

theorem count_underway (ticket : Ticket) : c.underway.count ticket =
    ((c.commands.queue ++ c.commands.waiting).map (·.1)).count ticket +
      c.notifications.awaiting ticket + c.reports.awaiting ticket := by
  unfold underway
  rw [List.count_append, List.count_append]
  rfl

theorem session_due_tellAll (receipts : List Receipt) (ticket : Ticket) :
    (c.tellAll receipts).session.due ticket = c.session.due ticket + toldIn receipts ticket := by
  induction receipts generalizing c with
  | nil => rfl
  | cons receipt receipts ih =>
    change ((c.tell receipt).tellAll receipts).session.due ticket = _
    rw [ih]
    obtain ⟨_ | other, outcome⟩ := receipt
    · rfl
    · have hreply : (c.tell ⟨some other, outcome⟩).session.due ticket = _ := due_reply _ _
      rw [hreply]
      simp [toldIn, List.count_cons]
      omega

theorem due_tellAll (receipts : List Receipt) :
    (c.tellAll receipts).due ticket = c.due ticket + toldIn receipts ticket := by
  have htold := session_due_tellAll (c := c) receipts ticket
  obtain ⟨s, heq⟩ := tellAll_eq (c := c) receipts
  rw [heq] at htold ⊢
  have hunderway : ({ c with session := s } : Coordinator σ).underway = c.underway := rfl
  unfold due
  rw [htold, hunderway]
  omega

theorem due_refusals (ticket : Ticket) (commands : List (Ticket × Command)) :
    (commands.foldl (fun c e => c.reply e.1 (refusal e.2)) c).session.due ticket =
      c.session.due ticket + (commands.map (·.1)).count ticket := by
  induction commands generalizing c with
  | nil => rfl
  | cons e commands ih =>
    rw [List.foldl_cons, ih, due_reply]
    simp [List.count_cons]
    omega

/-- Everybody who is on the way when the session ends is answered. -/
theorem due_close : c.close.session.due ticket = c.due ticket := by
  have hrefused := due_refusals (c := c) ticket (c.commands.queue ++ c.commands.waiting)
  obtain ⟨s, heq⟩ := refusals_eq (c := c) (c.commands.queue ++ c.commands.waiting)
  unfold close
  dsimp only
  rw [heq] at hrefused ⊢
  rw [session_due_tellAll, toldIn_append, Mailbox.toldIn_dismissed, Mailbox.toldIn_dismissed, hrefused]
  unfold due
  rw [count_underway]
  dsimp only
  omega

theorem underway_close : c.close.underway = [] := rfl

/-! ## Moves -/

/-- A sender who enters is answered, and no request is taken. -/
theorem due_refill : c.refill.due ticket = c.due ticket := by
  have hnotifications := c.notifications.awaiting_refill ticket
  have hreports := c.reports.awaiting_refill ticket
  have hcommands : c.commands.refill.queue ++ c.commands.refill.waiting =
      c.commands.queue ++ c.commands.waiting := by
    simp [Mailbox.refill]
  unfold refill
  rw [due_tellAll, toldIn_append]
  unfold due
  rw [count_underway, count_underway]
  dsimp only
  rw [hcommands]
  omega

/-- A message that is taken is no longer on its way. -/
theorem due_next? {input : Input} (h : c.next? = some (input, c')) :
    c'.due ticket + (if input.ticket? = some ticket then 1 else 0) = c.due ticket := by
  unfold next? at h
  split at h
  · rename_i htake
    obtain ⟨-, hwaiting⟩ := Mailbox.take?_eq_some htake
    cases h
    simp [due, underway, hwaiting, Input.ticket?]
  · split at h
    · rename_i htake
      obtain ⟨-, hwaiting⟩ := Mailbox.take?_eq_some htake
      cases h
      simp [due, underway, hwaiting, Input.ticket?]
    · split at h
      · cases h
        rfl
      · split at h
        · rename_i htake
          obtain ⟨hqueue, hwaiting⟩ := Mailbox.take?_eq_some htake
          cases h
          simp [due, underway, hqueue, hwaiting, Input.ticket?, List.count_cons]
          omega
        · cases h

theorem due_ask (other : Ticket) (command : Command) :
    (c.ask other command).due ticket = c.due ticket + if other = ticket then 1 else 0 := by
  unfold ask
  split
  · exact due_replied other _
  · unfold Mailbox.send
    split <;> simp [due, underway, List.count_cons] <;> omega

/-- Who sends is answered at once, or waits. -/
theorem due_sent {other : Ticket} {answer : Reply} {receipts : List Receipt}
    (hsent : c'.due ticket + toldIn receipts ticket = c.due ticket + if other = ticket then 1 else 0) :
    (if c.hasStopped then c.reply other answer else c'.tellAll receipts).due ticket =
      c.due ticket + if other = ticket then 1 else 0 := by
  split
  · exact due_replied other answer
  · rw [due_tellAll, hsent]

theorem due_notifications {mailbox : Mailbox (Envelope Notification)} {told more : Nat}
    (hsent : mailbox.awaiting ticket + told = c.notifications.awaiting ticket + more) :
    ({ c with notifications := mailbox } : Coordinator σ).due ticket + told =
      c.due ticket + more := by
  unfold due
  rw [count_underway, count_underway]
  dsimp only
  omega

theorem due_reports {mailbox : Mailbox (Envelope EngineEvent)} {told more : Nat}
    (hsent : mailbox.awaiting ticket + told = c.reports.awaiting ticket + more) :
    ({ c with reports := mailbox } : Coordinator σ).due ticket + told = c.due ticket + more := by
  unfold due
  rw [count_underway, count_underway]
  dsimp only
  omega

variable [Host σ]

/-- A message that is dealt with is answered if it is a request, and so is everybody who sends a notification
meanwhile, or they wait. -/
theorem due_give (input : Input) (meanwhile : List Incident) :
    (c.give input meanwhile).due ticket = c.due ticket +
      (if input.ticket? = some ticket then 1 else 0) +
        (meanwhile.filterMap Incident.ticket?).count ticket := by
  generalize hintake : Intake.during c.notifications input meanwhile = intake
  generalize hturned : ({ c with session := c.session.turn input intake.taken } : Coordinator σ) = turned
  have hturn : turned.due ticket = c.due ticket + if input.ticket? = some ticket then 1 else 0 := by
    have hunderway : turned.underway = c.underway := by
      rw [← hturned]
      rfl
    unfold due
    rw [hunderway, ← hturned, Session.due_turn]
    omega
  have htold : ({ turned with notifications := intake.mailbox }.tellAll intake.receipts).due ticket =
      turned.due ticket + (meanwhile.filterMap Incident.ticket?).count ticket := by
    have hsettled := Intake.due_during c.notifications input meanwhile ticket
    have hsame : turned.notifications = c.notifications := by
      rw [← hturned]
    rw [hintake, Intake.due, ← hsame] at hsettled
    rw [due_tellAll, due_notifications hsettled]
  rw [hturn, ← hturned] at htold
  unfold give
  dsimp only
  rw [hintake]
  split
  · refine Eq.trans ?_ htold
    unfold due
    rw [due_close, underway_close]
    rfl
  · exact htold

theorem due_proceed (meanwhile : List Incident) : (c.move (.proceed meanwhile)).due ticket =
    c.due ticket + (c.asked (.proceed meanwhile)).count ticket := by
  change ((c.step? meanwhile).getD c).due ticket = c.due ticket +
    (if c.nextInput?.isSome then meanwhile.filterMap Incident.ticket? else []).count ticket
  unfold step? nextInput?
  split
  · rfl
  · cases hnext : c.next? with
    | some r =>
      have htaken : r.2.due ticket + _ = c.due ticket := due_next? hnext
      refine (due_give r.1 meanwhile).trans ?_
      rw [Option.isSome_some, if_pos rfl]
      omega
    | none =>
      dsimp only
      split
      · rfl
      · split
        · exact due_refill
        · split
          · exact due_give .abandoned meanwhile
          · rfl

/-- **Every request is accounted for.** A move adds the requests that come with it, and loses none. -/
theorem due_move (m : Move σ) : (c.move m).due ticket = c.due ticket + (c.asked m).count ticket := by
  have hone (other : Ticket) : [other].count ticket = if other = ticket then 1 else 0 := by
    simp [List.count_singleton]
  cases m with
  | ask other command => exact (due_ask other command).trans (by rw [asked, hone])
  | notify other notification =>
    have hposted := c.notifications.awaiting_post ticket other notification
    exact (due_sent (due_notifications hposted)).trans (by rw [asked, hone])
  | tryNotify other notification =>
    have hposted := c.notifications.awaiting_tryPost ticket other notification notificationsFull
    exact (due_sent (due_notifications hposted)).trans (by rw [asked, hone])
  | report other event =>
    have hposted := c.reports.awaiting_post ticket other event
    exact (due_sent (due_reports hposted)).trans (by rw [asked, hone])
  | tryReport other event =>
    have hposted := c.reports.awaiting_tryPost ticket other event
      (.engine "event_queue" "engine event channel is full")
    exact (due_sent (due_reports hposted)).trans (by rw [asked, hone])
  | proceed meanwhile => exact due_proceed meanwhile
  | refill => exact due_refill
  | release | fire | clock | surroundings => rfl

theorem due_runMoves (ms : List (Move σ)) :
    (c.runMoves ms).due ticket = c.due ticket + (c.askedAlong ms).count ticket := by
  induction ms generalizing c with
  | nil => rfl
  | cons m ms ih =>
    change ((c.move m).runMoves ms).due ticket = _
    rw [ih, due_move, askedAlong, List.count_append, Nat.add_assoc]

/-! ## After the end -/

omit [Host σ] in
theorem count_underway_refill_le : c.refill.underway.count ticket ≤ c.underway.count ticket := by
  have hall : c.refill.due ticket = c.due ticket := due_refill
  have hanswered : c.refill.session.due ticket = c.session.due ticket + _ :=
    session_due_tellAll _ ticket
  unfold due at hall
  omega

theorem underway_give_of_stopped {input : Input} {meanwhile : List Incident}
    (h : (c.give input meanwhile).hasStopped = true) : (c.give input meanwhile).underway = [] := by
  unfold give at h ⊢
  dsimp only at h ⊢
  split
  · exact underway_close
  · rename_i hgoes
    rw [if_neg hgoes] at h
    exact absurd h hgoes

/-- Doing what comes next gives the session a message, or leaves it as it is. -/
theorem proceed_gives_or_passes (c : Coordinator σ) (meanwhile : List Incident) :
    (∃ (c' : Coordinator σ) (input : Input),
        c.move (.proceed meanwhile) = c'.give input meanwhile) ∨
      c.session.Beside (c.move (.proceed meanwhile)).session := by
  change (∃ (c' : Coordinator σ) (input : Input),
      (c.step? meanwhile).getD c = c'.give input meanwhile) ∨
    c.session.Beside ((c.step? meanwhile).getD c).session
  unfold step?
  split
  · exact .inr .refl
  · split
    · exact .inl ⟨_, _, rfl⟩
    · split
      · exact .inr (.fire .refl)
      · split
        · exact .inr (beside_refill .refl)
        · split
          · exact .inl ⟨_, _, rfl⟩
          · exact .inr .refl

/-- Nobody is on the way any more once the coordinator has stopped. -/
theorem underway_move (hc : c.hasStopped = true → c.underway = []) {m : Move σ}
    (hstopped : (c.move m).hasStopped = true) : (c.move m).underway = [] := by
  cases hbefore : c.hasStopped with
  | true =>
    have hnone := hc hbefore
    cases m with
    | ask | notify | tryNotify | report | tryReport =>
      exact (congrArg underway (if_pos hbefore)).trans hnone
    | proceed meanwhile =>
      have hstep : c.step? meanwhile = none := if_pos hbefore
      change ((c.step? meanwhile).getD c).underway = []
      rw [hstep]
      exact hnone
    | refill =>
      refine List.eq_nil_iff_forall_not_mem.2 fun ticket => List.count_eq_zero.1 ?_
      have hle : c.refill.underway.count ticket ≤ c.underway.count ticket :=
        count_underway_refill_le
      rw [hnone] at hle
      exact Nat.le_zero.1 hle
    | release | fire | clock | surroundings => exact hnone
  | false =>
    have hpassed (haside : c.session.Aside (c.move m).session) : (c.move m).underway = [] := by
      have hended : (c.move m).hasStopped = c.hasStopped := haside.ended
      rw [hended, hbefore] at hstopped
      cases hstopped
    rcases move_cases c m with ⟨input, queued, hturn, -⟩ | ⟨-, haside⟩
    · cases m with
      | proceed meanwhile =>
        rcases proceed_gives_or_passes c meanwhile with ⟨c', taken, heq⟩ | hbeside
        · rw [heq] at hstopped ⊢
          exact underway_give_of_stopped hstopped
        · exact hpassed hbeside.aside
      | _ => cases hturn
    · exact hpassed haside

theorem underway_runMoves (h : c.hasStopped = true → c.underway = []) (ms : List (Move σ)) :
    (c.runMoves ms).hasStopped = true → (c.runMoves ms).underway = [] := by
  induction ms generalizing c with
  | nil => exact h
  | cons m ms ih => exact ih (underway_move h)

omit [Host σ] in
theorem underway_of_start {config : Config} {host : σ} (hstart : start config host = .ok c) :
    c.underway = [] := by
  obtain ⟨_, rfl⟩ := eq_of_start hstart
  rfl

/-! ## Those who wait for the route -/

/-- A switch is pending exactly while somebody waits for it, and none is once the session has ended. -/
structure RouteKept (s : Session σ) : Prop where
  coherent : s.router.Coherent
  ended : s.ended = true → s.router.waiting = []

theorem routeKept_turn {s : Session σ} (hlive : s.ended = false) (hs : RouteKept s) (input : Input)
    (queued : List Notification) : RouteKept (s.turn input queued) := by
  refine ⟨Session.coherent_turn hs.coherent input queued, fun hended => ?_⟩
  rw [Session.turn_ended, hlive, Bool.false_or] at hended
  exact Session.waiting_turn_of_ends hended queued

theorem routeKept_runMoves (h : RouteKept c.session) (ms : List (Move σ)) :
    RouteKept (c.runMoves ms).session := by
  refine invariant_of_turn (P := RouteKept) (fun haside hs => ?_)
    (fun input queued hlive hs => routeKept_turn hlive hs input queued) h ms
  refine ⟨haside.router ▸ hs.coherent, fun hended => ?_⟩
  rw [haside.ended] at hended
  exact haside.router ▸ hs.ended hended

/-- All who wait for the route are told the same in one turn, for one of the reasons that end their
wait. -/
theorem together_move (m : Move σ) :
    c.session.Together (fun on => ∃ input queued, c.turn? m = some (input, queued) ∧
      c.session.Resolves input queued on) (c.move m).session := by
  have hpassed {s s' : Session σ} {causes : Bool → Prop} (h : s.Together causes s')
      (haside : s'.Aside (c.move m).session) : s.Together causes (c.move m).session := by
    obtain ⟨more, hmore⟩ := haside.replies
    exact h.answered haside.router hmore
  rcases move_cases c m with ⟨input, queued, hturn, haside⟩ | ⟨-, haside⟩
  · refine hpassed ?_ haside
    refine (Session.together_turn input queued).mono fun on hresolves => ?_
    exact ⟨input, queued, hturn, hresolves⟩
  · exact hpassed .refl haside

/-- Every request is answered once: it was answered, or it waits for the route, or it is on its way. -/
structure AnswersOnce (c : Coordinator σ) (asked : List Ticket) : Prop where
  /-- Answered, waiting and on their way are exactly those that were asked. -/
  balance : ∀ ticket, (c.session.world.replies.map (·.1)).count ticket +
    c.session.router.waiting.count ticket + c.underway.count ticket = asked.count ticket
  /-- Somebody waits for the route exactly while a switch is pending. -/
  pending_iff : c.session.router.switching = true ↔ c.session.router.waiting ≠ []
  /-- Nobody waits and nobody is on the way once the coordinator has stopped. -/
  stopped : c.hasStopped = true → c.session.router.waiting = [] ∧ c.underway = []
  /-- A request for the route is answered when it is taken, or waits for normal mode. -/
  taken : ∀ ticket on, c.session.router.Takes (on.getD !c.session.isSpeakerOn) ticket
    c.session.world ((c.session.handle (.command ticket (.setSpeaker on))).router,
      (c.session.handle (.command ticket (.setSpeaker on))).world)
  /-- With any move, all who wait go on waiting, or all are told the same. -/
  together : ∀ m : Move σ, c.session.Together (fun on => ∃ input queued,
    c.turn? m = some (input, queued) ∧ c.session.Resolves input queued on) (c.move m).session
  /-- Without a pending switch, and with another mode, a confirmation does nothing at all. -/
  idle : ∀ mode, c.session.router.switching = false ∨ mode ≠ .normal →
    c.session.handleNotification (.audioMode mode) = c.session

/-- **Every request is answered once.** After any moves, each request that came with them was answered,
waits for a switch of the route that is pending, or is still on its way, and no more often than it came. -/
theorem requests_answered {config : Config} {host : σ} (hstart : start config host = .ok c)
    (ms : List (Move σ)) : (c.runMoves ms).AnswersOnce (c.askedAlong ms) := by
  have hnew := session_of_start hstart
  have hnone : c.underway = [] := underway_of_start hstart
  have hkept : RouteKept (c.runMoves ms).session := by
    apply routeKept_runMoves
    rw [hnew]
    exact ⟨Router.coherent_idle, fun _ => rfl⟩
  refine ⟨fun ticket => ?_, hkept.coherent, fun hstopped => ?_, fun ticket on => ?_, together_move,
    fun mode => Session.handleNotification_audioMode_of_idle⟩
  · have hdue : (c.runMoves ms).due ticket = c.due ticket + _ := due_runMoves ms
    have hfresh : c.due ticket = 0 := by
      unfold due
      rw [hnone, hnew]
      rfl
    rw [hfresh, Nat.zero_add] at hdue
    exact hdue
  · exact ⟨hkept.ended hstopped, underway_runMoves (fun _ => hnone) ms hstopped⟩
  · exact Session.routeAudio_cases ticket on

/-- The bench's device is in a call, and says so until it confirms another mode. -/
def onCallMode : Coordinator Bench :=
  { onBench with session := .new {} { audio.reportedMode := some .inCommunication } }

/-- Two users ask for the speaker before the device is in normal mode. -/
def speakerAwaited : List (Move Bench) :=
  [.ask ⟨1⟩ (.setSpeaker (some true)), .loop, .ask ⟨2⟩ (.setSpeaker none), .loop]

/-- The device confirms normal mode. -/
def speakerConfirmed : List (Move Bench) :=
  speakerAwaited ++ [.notify ⟨3⟩ (.audioMode .normal), .loop]

/-- Both wait for the same switch, and are told that the speaker is on when normal mode is confirmed. -/
theorem requests_answered_speakerConfirmed :
    start {} ({ audio.reportedMode := some .inCommunication } : Bench) = .ok onCallMode ∧
      (onCallMode.runMoves speakerAwaited).session.router.waiting = [⟨1⟩, ⟨2⟩] ∧
      (onCallMode.runMoves speakerConfirmed).session.world.replies =
        [(⟨3⟩, .done (.ok ())), (⟨1⟩, .isOn true), (⟨2⟩, .isOn true)] ∧
      (onCallMode.runMoves speakerConfirmed).AnswersOnce [⟨1⟩, ⟨2⟩, ⟨3⟩] := by
  have hstart : start {} ({ audio.reportedMode := some .inCommunication } : Bench) =
    .ok onCallMode := rfl
  exact ⟨hstart, by decide, by decide, requests_answered hstart speakerConfirmed⟩

end Softphone.Coordinator
