import Softphone.Bench
import Softphone.Coordinator
import Softphone.Proofs.Intake
import Softphone.Proofs.Trace

/-!
# Runs of a coordinator

What can happen to a coordinator, in any order: messages are sent, the clock is set, timers fire, the
surroundings change, and the coordinator takes its next message while notifications go on arriving. Only
the last of these touches the session itself (`Coordinator.move_cases`).
-/

namespace Softphone

variable {σ : Type}

namespace Session

/-- What may come over a session while it takes no message and its surroundings stay as they are. -/
inductive Beside (s : Session σ) : Session σ → Prop
  | refl : Beside s s
  | reply {s' : Session σ} (h : Beside s s') (ticket : Ticket) (answer : Reply) :
    Beside s (s'.reply ticket answer)
  | setNow {s' : Session σ} (h : Beside s s') (now : Nat) :
    Beside s { s' with timers := s'.timers.setNow now }
  | fire {s' : Session σ} (h : Beside s s') : Beside s { s' with timers := s'.timers.fire.2 }

/-- What may come over a session while it takes no message. -/
inductive Aside (s : Session σ) : Session σ → Prop
  | refl : Aside s s
  | reply {s' : Session σ} (h : Aside s s') (ticket : Ticket) (answer : Reply) :
    Aside s (s'.reply ticket answer)
  | surroundings {s' : Session σ} (h : Aside s s') (host : σ) :
    Aside s { s' with world := s'.world.within host }
  | setNow {s' : Session σ} (h : Aside s s') (now : Nat) :
    Aside s { s' with timers := s'.timers.setNow now }
  | fire {s' : Session σ} (h : Aside s s') : Aside s { s' with timers := s'.timers.fire.2 }

namespace Aside

variable {s s' : Session σ}

theorem calls (h : s.Aside s') : s'.calls = s.calls := by
  induction h with
  | refl => rfl
  | reply _ _ _ ih | surroundings _ _ ih | setNow _ _ ih | fire _ ih => exact ih

theorem player (h : s.Aside s') : s'.player = s.player := by
  induction h with
  | refl => rfl
  | reply _ _ _ ih | surroundings _ _ ih | setNow _ _ ih | fire _ ih => exact ih

theorem ended (h : s.Aside s') : s'.ended = s.ended := by
  induction h with
  | refl => rfl
  | reply _ _ _ ih | surroundings _ _ ih | setNow _ _ ih | fire _ ih => exact ih

theorem router (h : s.Aside s') : s'.router = s.router := by
  induction h with
  | refl => rfl
  | reply _ _ _ ih | surroundings _ _ ih | setNow _ _ ih | fire _ ih => exact ih

theorem replies (h : s.Aside s') : ∃ more, s'.world.replies = s.world.replies ++ more := by
  induction h with
  | refl => exact ⟨[], (List.append_nil _).symm⟩
  | reply _ ticket answer ih =>
    obtain ⟨more, hmore⟩ := ih
    exact ⟨more ++ [(ticket, answer)], by
      rw [← List.append_assoc, ← hmore]
      exact World.replies_reply ticket answer⟩
  | surroundings _ _ ih | setNow _ _ ih | fire _ ih => exact ih

theorem active (h : s.Aside s') : s'.timers.active = s.timers.active := by
  induction h with
  | refl => rfl
  | reply _ _ _ ih | surroundings _ _ ih | setNow _ _ ih | fire _ ih => exact ih

/-- Nothing but replies comes over the world. -/
theorem grows (h : s.Aside s') : s.world.Grows (·.reply?.isSome = true) s'.world := by
  induction h with
  | refl => exact .refl
  | reply _ ticket answer ih => exact ih.note rfl
  | surroundings _ host ih => exact ih.within host
  | setNow _ _ ih | fire _ ih => exact ih

end Aside

namespace Beside

variable {s s' : Session σ}

theorem aside (h : s.Beside s') : s.Aside s' := by
  induction h with
  | refl => exact .refl
  | reply _ ticket answer ih => exact ih.reply ticket answer
  | setNow _ now ih => exact ih.setNow now
  | fire _ ih => exact ih.fire

theorem host (h : s.Beside s') : s'.world.host = s.world.host := by
  induction h with
  | refl => rfl
  | reply _ _ _ ih | setNow _ _ ih | fire _ ih => exact ih

end Beside

end Session

namespace Coordinator

/-- One thing that happens to a coordinator. -/
inductive Move (σ : Type)
  | ask (ticket : Ticket) (command : Command)
  | notify (ticket : Ticket) (notification : Notification)
  | tryNotify (ticket : Ticket) (notification : Notification)
  | report (ticket : Ticket) (event : EngineEvent)
  | tryReport (ticket : Ticket) (event : EngineEvent)
  | release
  /-- The coordinator does what comes next. If that is to deal with a message, this happens at the mailbox for
  notifications meanwhile. -/
  | proceed (meanwhile : List Incident)
  | fire
  | refill
  | clock (now : Nat)
  /-- Engine, platform and device come to be in another state. -/
  | surroundings (host : σ)

/-- The coordinator does what comes next, and nobody sends a notification meanwhile. -/
def Move.loop : Move σ := .proceed []

/-- Gives the host behind the session another state. -/
def within (c : Coordinator σ) (host : σ) : Coordinator σ :=
  { c with session := { c.session with world := c.session.world.within host } }

/-- Lets one thing happen. -/
def move [Host σ] (c : Coordinator σ) : Move σ → Coordinator σ
  | .ask ticket command => c.ask ticket command
  | .notify ticket notification => c.notify ticket notification
  | .tryNotify ticket notification => c.tryNotify ticket notification
  | .report ticket event => c.report ticket event
  | .tryReport ticket event => c.tryReport ticket event
  | .release => c.release
  | .proceed meanwhile => (c.step? meanwhile).getD c
  | .fire => c.fire
  | .refill => c.refill
  | .clock now => c.setNow now
  | .surroundings host => c.within host

/-- Lets several things happen in order. -/
def runMoves [Host σ] (c : Coordinator σ) (ms : List (Move σ)) : Coordinator σ := ms.foldl move c

/-- The message that the session takes when the coordinator does what comes next, if that is to give it
one. -/
def nextInput? (c : Coordinator σ) : Option Input :=
  if c.hasStopped then none
  else match c.next? with
    | some (input, _) => some input
    | none =>
      if c.hasDue then none
      else if c.hasWaiting then none
      else if c.released then some .abandoned
      else none

/-- The turn that comes next, if a turn does: the message, and the notifications that the session takes with
it. -/
def nextTurn? (c : Coordinator σ) (meanwhile : List Incident) : Option (Input × List Notification) :=
  if c.hasStopped then none
  else match c.next? with
    | some (input, c) => some (input, (Intake.during c.notifications input meanwhile).taken)
    | none => c.nextInput?.map fun input =>
      (input, (Intake.during c.notifications input meanwhile).taken)

/-- The turn that a move is, if it is one. -/
def turn? (c : Coordinator σ) : Move σ → Option (Input × List Notification)
  | .proceed meanwhile => c.nextTurn? meanwhile
  | _ => none

variable {c c' : Coordinator σ} {s : Session σ}

/-! ## What leaves the mailboxes alone -/

theorem tellAll_eq (receipts : List Receipt) : ∃ s, c.tellAll receipts = { c with session := s } := by
  induction receipts generalizing c with
  | nil => exact ⟨c.session, rfl⟩
  | cons receipt receipts ih =>
    obtain ⟨sender, outcome⟩ := receipt
    cases sender <;> exact ih

theorem refusals_eq (commands : List (Ticket × Command)) :
    ∃ s, commands.foldl (fun c e => c.reply e.1 (refusal e.2)) c = { c with session := s } := by
  induction commands generalizing c with
  | nil => exact ⟨c.session, rfl⟩
  | cons e commands ih =>
    rw [List.foldl_cons]
    exact ih

/-! ## What leaves the session alone -/

theorem beside_tell (h : s.Beside c.session) (receipt : Receipt) :
    s.Beside (c.tell receipt).session := by
  obtain ⟨sender, outcome⟩ := receipt
  cases sender with
  | none => exact h
  | some ticket => exact h.reply ticket _

theorem beside_tellAll (h : s.Beside c.session) (receipts : List Receipt) :
    s.Beside (c.tellAll receipts).session := by
  induction receipts generalizing c with
  | nil => exact h
  | cons receipt receipts ih => exact ih (beside_tell h receipt)

theorem beside_refusals (h : s.Beside c.session) (commands : List (Ticket × Command)) :
    s.Beside (commands.foldl (fun c e => c.reply e.1 (refusal e.2)) c).session := by
  induction commands generalizing c with
  | nil => exact h
  | cons e commands ih => exact ih (h.reply e.1 (refusal e.2))

/-- Who sends is told how that went, or refused if the session has ended. -/
theorem beside_sent {ticket : Ticket} {answer : Reply} {receipts : List Receipt}
    (hstays : c'.session = c.session) :
    c.session.Beside
      (if c.hasStopped then c.reply ticket answer else c'.tellAll receipts).session := by
  split
  · exact .reply .refl ticket answer
  · refine beside_tellAll ?_ receipts
    rw [hstays]
    exact .refl

theorem beside_refill (h : s.Beside c.session) : s.Beside c.refill.session := by
  refine beside_tellAll ?_ _
  exact h

theorem beside_close (h : s.Beside c.session) : s.Beside c.close.session :=
  beside_tellAll (beside_refusals h _) _

theorem session_of_next? {input : Input} (h : c.next? = some (input, c')) :
    c'.session = c.session := by
  unfold next? at h
  split at h
  · cases h
    rfl
  · split at h
    · cases h
      rfl
    · split at h
      · cases h
        rfl
      · split at h
        · cases h
          rfl
        · cases h

/-- A coordinator that starts has a new session, and nothing is on its way. -/
theorem eq_of_start {config : Config} {host : σ} (h : start config host = .ok c) :
    ∃ capacity, c = ⟨.new config host, { capacity }, { capacity }, [], { capacity }, false⟩ := by
  unfold start at h
  cases hcheck : config.check with
  | error e =>
    rw [hcheck] at h
    cases h
  | ok _ =>
    rw [hcheck] at h
    cases h
    exact ⟨_, rfl⟩

theorem session_of_start {config : Config} {host : σ} (h : start config host = .ok c) :
    c.session = .new config host := by
  obtain ⟨_, rfl⟩ := eq_of_start h
  rfl

theorem live_of_nextInput? {input : Input} (h : c.nextInput? = some input) :
    c.session.ended = false := by
  unfold nextInput? at h
  split at h
  · cases h
  · rename_i hlive
    exact Bool.eq_false_iff.2 hlive

variable [Host σ]

/-- The session takes the message together with the notifications that have arrived by then. -/
theorem beside_give (c : Coordinator σ) (input : Input) (meanwhile : List Incident) :
    (c.session.turn input (Intake.during c.notifications input meanwhile).taken).Beside
      (c.give input meanwhile).session := by
  unfold give
  dsimp only
  split
  · refine beside_close (beside_tellAll ?_ _)
    exact .refl
  · refine beside_tellAll ?_ _
    exact .refl

omit [Host σ] in
/-- Which message comes next does not depend on what arrives meanwhile. -/
theorem nextInput?_eq (c : Coordinator σ) (meanwhile : List Incident) :
    c.nextInput? = (c.nextTurn? meanwhile).map (·.1) := by
  unfold nextTurn?
  split
  · rename_i hstopped
    exact if_pos hstopped
  · rename_i hlive
    cases hnext : c.next? with
    | some r =>
      unfold nextInput?
      rw [if_neg hlive, hnext]
      rfl
    | none =>
      cases c.nextInput? with
      | some input => rfl
      | none => rfl

omit [Host σ] in
theorem nextInput?_of_turn? {m : Move σ} {input : Input} {queued : List Notification}
    (h : c.turn? m = some (input, queued)) : c.nextInput? = some input := by
  cases m with
  | proceed meanwhile =>
    change c.nextTurn? meanwhile = some (input, queued) at h
    rw [nextInput?_eq c meanwhile, h]
    rfl
  | _ => cases h

omit [Host σ] in
theorem nextTurn?_of_next? {input : Input} (hlive : c.hasStopped = false)
    (hnext : c.next? = some (input, c')) (meanwhile : List Incident) : c.nextTurn? meanwhile =
      some (input, (Intake.during c'.notifications input meanwhile).taken) := by
  unfold nextTurn?
  rw [if_neg (Bool.eq_false_iff.1 hlive), hnext]

omit [Host σ] in
/-- A message is taken with all notifications that are in the mailbox then, and with nothing but what comes
after them. -/
theorem queued_of_next? {input : Input} (hlive : c.hasStopped = false)
    (hnext : c.next? = some (input, c')) (meanwhile : List Incident) : ∃ more,
      c.nextTurn? meanwhile = some (input, c'.notifications.queue.map (·.message) ++ more) := by
  obtain ⟨more, htaken⟩ := Intake.taken_during c'.notifications input meanwhile
  exact ⟨more, by rw [nextTurn?_of_next? hlive hnext, htaken]⟩

omit [Host σ] in
/-- **Any notifications may come with any message** that does not end the session, unless somebody waits for
room before them. -/
theorem exists_queued_of_next? {input : Input} (hlive : c.hasStopped = false)
    (hnext : c.next? = some (input, c')) (hgoes : input.ends = false)
    (hwaiting : c'.notifications.waiting = []) (hroom : 0 < c'.notifications.capacity)
    (notifications : List Notification) : ∃ meanwhile, c.nextTurn? meanwhile =
      some (input, c'.notifications.queue.map (·.message) ++ notifications) := by
  obtain ⟨meanwhile, htaken⟩ := Intake.exists_taken_during hgoes hwaiting hroom notifications
  exact ⟨meanwhile, by rw [nextTurn?_of_next? hlive hnext, htaken]⟩

omit [Host σ] in
theorem live_of_turn? {m : Move σ} {input : Input} {queued : List Notification}
    (h : c.turn? m = some (input, queued)) : c.session.ended = false :=
  live_of_nextInput? (nextInput?_of_turn? h)

/-- Doing what comes next is a turn of the session, or passes it by. -/
theorem proceed_cases (c : Coordinator σ) (meanwhile : List Incident) :
    (∃ input queued, c.nextTurn? meanwhile = some (input, queued) ∧
        (c.session.turn input queued).Beside (c.move (.proceed meanwhile)).session) ∨
      (c.nextTurn? meanwhile = none ∧ c.session.Beside (c.move (.proceed meanwhile)).session) := by
  unfold nextTurn? nextInput? move step?
  split
  · exact .inr ⟨rfl, .refl⟩
  · cases hnext : c.next? with
    | some r =>
      obtain ⟨input, c'⟩ := r
      have hbeside := beside_give c' input meanwhile
      rw [session_of_next? hnext] at hbeside
      exact .inl ⟨input, _, rfl, hbeside⟩
    | none =>
      dsimp only
      split
      · exact .inr ⟨rfl, .fire .refl⟩
      · split
        · exact .inr ⟨rfl, beside_refill .refl⟩
        · split
          · exact .inl ⟨.abandoned, _, rfl, beside_give c .abandoned meanwhile⟩
          · exact .inr ⟨rfl, .refl⟩

/-- Unless its surroundings change, the session takes a message or is passed by, and its surroundings stay as
they are. -/
theorem move_beside (c : Coordinator σ) (m : Move σ) : (∃ host, m = .surroundings host) ∨
    (∃ input queued, c.turn? m = some (input, queued) ∧
        (c.session.turn input queued).Beside (c.move m).session) ∨
      (c.turn? m = none ∧ c.session.Beside (c.move m).session) := by
  cases m with
  | proceed meanwhile => exact .inr (proceed_cases c meanwhile)
  | surroundings host => exact .inl ⟨host, rfl⟩
  | ask ticket command =>
    refine .inr (.inr ⟨rfl, ?_⟩)
    change c.session.Beside (c.ask ticket command).session
    unfold ask
    split
    · exact .reply .refl _ _
    · exact .refl
  | notify | tryNotify | report | tryReport => exact .inr (.inr ⟨rfl, beside_sent rfl⟩)
  | release => exact .inr (.inr ⟨rfl, .refl⟩)
  | fire => exact .inr (.inr ⟨rfl, .fire .refl⟩)
  | refill => exact .inr (.inr ⟨rfl, beside_refill .refl⟩)
  | clock now => exact .inr (.inr ⟨rfl, .setNow .refl now⟩)

/-- **What can happen to a session.** Whatever happens to the coordinator, its session takes a message
or is passed by. -/
theorem move_cases (c : Coordinator σ) (m : Move σ) :
    (∃ input queued, c.turn? m = some (input, queued) ∧
        (c.session.turn input queued).Aside (c.move m).session) ∨
      (c.turn? m = none ∧ c.session.Aside (c.move m).session) := by
  rcases move_beside c m with ⟨host, rfl⟩ | ⟨input, queued, hturn, hbeside⟩ | ⟨hnone, hbeside⟩
  · exact .inr ⟨rfl, .surroundings .refl host⟩
  · exact .inl ⟨input, queued, hturn, hbeside.aside⟩
  · exact .inr ⟨hnone, hbeside.aside⟩

/-- The session takes the message that comes next, whatever arrives meanwhile. -/
theorem proceed_of_nextInput? {input : Input} (hnext : c.nextInput? = some input)
    (meanwhile : List Incident) :
    ∃ queued, (c.session.turn input queued).Aside (c.move (.proceed meanwhile)).session := by
  rcases move_cases c (.proceed meanwhile) with ⟨taken, queued, hturn, haside⟩ | ⟨hnone, -⟩
  · obtain rfl := Option.some.inj ((nextInput?_of_turn? hturn).symm.trans hnext)
    exact ⟨queued, haside⟩
  · have hnothing : c.nextTurn? meanwhile = none := hnone
    rw [nextInput?_eq c meanwhile, hnothing] at hnext
    cases hnext

/-- Everything passes a session by that has ended. -/
theorem stopped_aside (hended : c.hasStopped = true) (m : Move σ) :
    c.session.Aside (c.move m).session := by
  rcases move_cases c m with ⟨input, queued, hturn, -⟩ | ⟨-, hmove⟩
  · exact absurd hended (Bool.eq_false_iff.1 (live_of_turn? hturn))
  · exact hmove

theorem runMoves_append (ms ms' : List (Move σ)) :
    c.runMoves (ms ++ ms') = (c.runMoves ms).runMoves ms' := List.foldl_append

theorem runMoves_take_succ {ms : List (Move σ)} {m : Move σ} {k : Nat} (h : ms[k]? = some m) :
    c.runMoves (ms.take (k + 1)) = (c.runMoves (ms.take k)).move m := by
  rw [List.take_add_one, h, runMoves_append]
  rfl

theorem runMoves_take_of_none {ms : List (Move σ)} {k : Nat} (h : ms[k]? = none) :
    c.runMoves (ms.take (k + 1)) = c.runMoves (ms.take k) := by
  rw [List.take_add_one, h, Option.toList_none, List.append_nil]

/-- What holds when a session starts and is kept by every message, and by everything that passes the
session by, holds throughout a run. -/
theorem invariant_of_turn {P : Session σ → Prop} (haside : ∀ {s s'}, s.Aside s' → P s → P s')
    (hturn : ∀ {s} input queued, s.ended = false → P s → P (s.turn input queued))
    (h : P c.session) (ms : List (Move σ)) : P (c.runMoves ms).session := by
  induction ms generalizing c with
  | nil => exact h
  | cons m ms ih =>
    refine ih ?_
    rcases move_cases c m with ⟨input, queued, htaken, hmove⟩ | ⟨-, hmove⟩
    · exact haside hmove (hturn input queued (live_of_turn? htaken) h)
    · exact haside hmove h

/-- What a move keeps unless it breaks it holds throughout a run exactly if no move of the run breaks
it. -/
theorem throughout_iff {P : Coordinator σ → Prop} {breaks : Coordinator σ → Move σ → Bool}
    (hmove : ∀ {c} m, P c → (P (c.move m) ↔ breaks c m = false)) (h : P c) (ms : List (Move σ)) :
    (∀ k, P (c.runMoves (ms.take k))) ↔
      ∀ k m, ms[k]? = some m → breaks (c.runMoves (ms.take k)) m = false := by
  constructor
  · intro hkept k m hm
    rw [← hmove m (hkept k), ← runMoves_take_succ hm]
    exact hkept (k + 1)
  · intro hspares k
    induction k with
    | zero => exact h
    | succ k ih =>
      cases hm : ms[k]? with
      | none =>
        rw [runMoves_take_of_none hm]
        exact ih
      | some m =>
        rw [runMoves_take_succ hm]
        exact (hmove m ih).2 (hspares k m hm)

/-! ## On a bench -/

/-- A coordinator on a bench on which nothing fails. -/
def onBench : Coordinator Bench where
  session := .new {} {}
  notifications := { capacity := 256 }
  reports := { capacity := 256 }
  commands := { capacity := 256 }

theorem start_onBench : start {} ({} : Bench) = .ok onBench := rfl

/-- A bench on a Wi-Fi network that names a server. -/
def onWifi (engine : Bench.Exchange) : Bench where
  engine
  networks :=
    { attached := [⟨⟨1⟩, some { interface := some "wlan0", dnsServers := [.v4 0x0A000001] },
        some ⟨true, true⟩⟩]
      active := some ⟨1⟩ }

/-- The account that signs in on a bench. -/
def bob : Account := ⟨"bob", "example.com", "secret", none, defaultStunServer⟩

/-- A report on a call comes in and is taken. -/
def reported (handle : UInt64) (kind : CallEventKind) : List (Move Bench) :=
  [.report ⟨handle.toNat⟩ (.call ⟨⟨handle⟩, kind, "sip:alice@example.com"⟩), .loop]

end Coordinator

end Softphone
