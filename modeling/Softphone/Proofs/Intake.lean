import Softphone.Intake

/-!
# What is taken in, and who is told

While a session deals with a message it takes the notifications in its mailbox first and in order
(`Intake.taken_during`), and after them any that arrive (`Intake.exists_taken_during`). Every sender is told
once how sending went, or goes on waiting for room (`Intake.due_during`).
-/

namespace Softphone

/-- How often a sender is told. -/
def toldIn (receipts : List Receipt) (ticket : Ticket) : Nat :=
  (receipts.filterMap (·.sender)).count ticket

theorem toldIn_append (receipts more : List Receipt) (ticket : Ticket) :
    toldIn (receipts ++ more) ticket = toldIn receipts ticket + toldIn more ticket := by
  unfold toldIn
  rw [List.filterMap_append, List.count_append]

namespace Mailbox

variable {α : Type}

theorem take?_eq_some {m m' : Mailbox α} {message : α} (h : m.take? = some (message, m')) :
    m.queue = message :: m'.queue ∧ m'.waiting = m.waiting := by
  unfold take? at h
  split at h
  · cases h
  · rename_i hqueue
    cases h
    exact ⟨hqueue, rfl⟩

theorem trySend?_eq_some {m m' : Mailbox α} {message : α} (h : m.trySend? message = some m') :
    m' = { m with queue := m.queue ++ [message] } := by
  unfold trySend? at h
  split at h
  · exact (Option.some.inj h).symm
  · cases h

/-- Who finds no room waits. -/
theorem send_of_full {m : Mailbox α} {message : α} (h : m.trySend? message = none) (other : α) :
    m.send other = { m with waiting := m.waiting ++ [other] } := by
  unfold trySend? at h
  split at h
  · cases h
  · rename_i hfull
    exact if_neg hfull

theorem trySend?_of_empty {m : Mailbox α} (hqueue : m.queue = []) (hwaiting : m.waiting = [])
    (hroom : 0 < m.capacity) (message : α) :
    m.trySend? message = some { m with queue := [message] } := by
  have hhas : m.hasRoom = true := by
    simp [hasRoom, hqueue, hwaiting, hroom]
  unfold trySend?
  rw [if_pos hhas, hqueue, List.nil_append]

/-- How often a sender waits for room. -/
def awaiting (m : Mailbox (Envelope α)) (ticket : Ticket) : Nat :=
  (m.waiting.filterMap (·.sender)).count ticket

variable (m : Mailbox (Envelope α)) (ticket : Ticket)

/-- Who sends is told at once, or waits. -/
theorem awaiting_post (other : Ticket) (message : α) :
    (m.post other message).1.awaiting ticket + toldIn (m.post other message).2 ticket =
      m.awaiting ticket + if other = ticket then 1 else 0 := by
  unfold post
  cases hsent : m.trySend? ⟨message, none⟩ with
  | some entered =>
    rw [trySend?_eq_some hsent]
    simp [awaiting, toldIn, List.count_singleton]
  | none =>
    dsimp only
    rw [send_of_full hsent]
    simp [awaiting, toldIn, List.count_singleton]

theorem awaiting_tryPost (other : Ticket) (message : α) (full : SessionError) :
    (m.tryPost other message full).1.awaiting ticket +
        toldIn (m.tryPost other message full).2 ticket =
      m.awaiting ticket + if other = ticket then 1 else 0 := by
  unfold tryPost
  cases hsent : m.trySend? ⟨message, none⟩ with
  | some entered =>
    rw [trySend?_eq_some hsent]
    simp [awaiting, toldIn, List.count_singleton]
  | none => simp [toldIn, List.count_singleton]

theorem queue_post (other : Ticket) (message : α) :
    ∃ entered, (m.post other message).1.queue = m.queue ++ entered := by
  unfold post
  cases hsent : m.trySend? ⟨message, none⟩ with
  | some entered => exact ⟨_, by rw [trySend?_eq_some hsent]⟩
  | none => exact ⟨[], by rw [send_of_full hsent, List.append_nil]⟩

theorem queue_tryPost (other : Ticket) (message : α) (full : SessionError) :
    ∃ entered, (m.tryPost other message full).1.queue = m.queue ++ entered := by
  unfold tryPost
  cases hsent : m.trySend? ⟨message, none⟩ with
  | some entered => exact ⟨_, by rw [trySend?_eq_some hsent]⟩
  | none => exact ⟨[], (List.append_nil _).symm⟩

/-- Who enters is told, and the others go on waiting. -/
theorem awaiting_refill : m.refill.awaiting ticket + toldIn m.admitted ticket = m.awaiting ticket := by
  have hsplit : m.entering ++ m.refill.waiting = m.waiting := List.take_append_drop m.room m.waiting
  unfold awaiting toldIn admitted
  rw [List.filterMap_map, ← hsplit, List.filterMap_append, List.count_append, Nat.add_comm]
  rfl

theorem toldIn_dismissed : toldIn m.dismissed ticket = m.awaiting ticket := by
  unfold toldIn dismissed awaiting
  rw [List.filterMap_map]
  rfl

end Mailbox

/-- The sender of what happens at a mailbox, if somebody sends. -/
def Incident.ticket? : Incident → Option Ticket
  | .notify ticket _ | .tryNotify ticket _ => some ticket
  | .enter | .absorb => none

namespace Intake

variable {i : Intake} {mailbox : Mailbox (Envelope Notification)}

/-! ## Who is told -/

/-- How often a sender was told so far, or waits. -/
def due (i : Intake) (ticket : Ticket) : Nat := i.mailbox.awaiting ticket + toldIn i.receipts ticket

theorem due_meet (incident : Incident) (ticket : Ticket) :
    (i.meet incident).due ticket = i.due ticket + if incident.ticket? = some ticket then 1 else 0 := by
  cases incident with
  | notify other notification =>
    have hpost := i.mailbox.awaiting_post ticket other notification
    simp only [meet, due, toldIn_append, Incident.ticket?, Option.some.injEq]
    omega
  | tryNotify other notification =>
    have hpost := i.mailbox.awaiting_tryPost ticket other notification notificationsFull
    simp only [meet, due, toldIn_append, Incident.ticket?, Option.some.injEq]
    omega
  | enter =>
    have hadmitted := i.mailbox.awaiting_refill ticket
    simp only [meet, due, toldIn_append, Incident.ticket?, reduceCtorEq, if_false]
    omega
  | absorb =>
    unfold meet
    cases htake : i.mailbox.take? with
    | none => rfl
    | some r =>
      have hwaiting := (Mailbox.take?_eq_some htake).2
      simp [due, Mailbox.awaiting, hwaiting, Incident.ticket?]

theorem due_foldl_meet (incidents : List Incident) (ticket : Ticket) :
    (incidents.foldl meet i).due ticket =
      i.due ticket + (incidents.filterMap Incident.ticket?).count ticket := by
  induction incidents generalizing i with
  | nil => rfl
  | cons incident incidents ih =>
    rw [List.foldl_cons, ih, due_meet]
    cases hsender : incident.ticket? with
    | none => simp [hsender]
    | some other =>
      simp [hsender, List.count_cons]
      omega

/-- **Every sender is told once, or waits**, of those who waited before and those who come meanwhile. -/
theorem due_during (mailbox : Mailbox (Envelope Notification)) (input : Input)
    (incidents : List Incident) (ticket : Ticket) :
    (during mailbox input incidents).due ticket =
      mailbox.awaiting ticket + (incidents.filterMap Incident.ticket?).count ticket := by
  have hsenders : (incidents.filter (· ≠ .absorb)).filterMap Incident.ticket? =
      incidents.filterMap Incident.ticket? := by
    rw [List.filterMap_filter]
    refine congrArg (incidents.filterMap ·) (funext fun incident => ?_)
    cases incident <;> rfl
  have hmet (seen : List Incident) : ((seen.foldl meet { mailbox }).finish).due ticket =
      mailbox.awaiting ticket + (seen.filterMap Incident.ticket?).count ticket :=
    due_foldl_meet seen ticket
  unfold during
  rw [hmet]
  split
  · rw [hsenders]
  · rfl

/-! ## What is taken -/

/-- The notifications that the session has taken, and those in the mailbox. -/
def seen (i : Intake) : List Notification := i.taken ++ i.mailbox.queue.map (·.message)

theorem seen_meet (incident : Incident) : ∃ more, (i.meet incident).seen = i.seen ++ more := by
  have hentered {mailbox : Mailbox (Envelope Notification)} {receipts : List Receipt}
      (h : ∃ entered, mailbox.queue = i.mailbox.queue ++ entered) :
      ∃ more, ({ i with mailbox, receipts } : Intake).seen = i.seen ++ more := by
    obtain ⟨entered, hqueue⟩ := h
    exact ⟨entered.map (·.message), by simp [seen, hqueue]⟩
  cases incident with
  | notify ticket notification => exact hentered (i.mailbox.queue_post ticket notification)
  | tryNotify ticket notification =>
    exact hentered (i.mailbox.queue_tryPost ticket notification notificationsFull)
  | enter => exact hentered ⟨i.mailbox.entering, rfl⟩
  | absorb =>
    refine ⟨[], ?_⟩
    unfold meet
    cases htake : i.mailbox.take? with
    | none => exact (List.append_nil _).symm
    | some r => simp [seen, (Mailbox.take?_eq_some htake).1]

theorem seen_foldl_meet (incidents : List Incident) :
    ∃ more, (incidents.foldl meet i).seen = i.seen ++ more := by
  induction incidents generalizing i with
  | nil => exact ⟨[], (List.append_nil _).symm⟩
  | cons incident incidents ih =>
    obtain ⟨first, hfirst⟩ := seen_meet (i := i) incident
    obtain ⟨more, hmore⟩ := ih (i := i.meet incident)
    exact ⟨first ++ more, by rw [List.foldl_cons, hmore, hfirst, List.append_assoc]⟩

/-- **Notifications are taken in the order in which they came**: those in the mailbox first. -/
theorem taken_during (mailbox : Mailbox (Envelope Notification)) (input : Input)
    (incidents : List Incident) :
    ∃ more, (during mailbox input incidents).taken = mailbox.queue.map (·.message) ++ more :=
  seen_foldl_meet (i := { mailbox }) _

/-- A session can take all that is in its mailbox. -/
theorem exists_absorbing (i : Intake) : ∃ incidents : List Incident, incidents.foldl meet i =
    { i with mailbox := { i.mailbox with queue := [] }, taken := i.seen } := by
  obtain ⟨⟨capacity, queue, waiting⟩, taken, receipts⟩ := i
  induction queue generalizing taken with
  | nil => exact ⟨[], by simp [seen]⟩
  | cons e queue ih =>
    obtain ⟨incidents, hrest⟩ := ih (taken ++ [e.message])
    refine ⟨.absorb :: incidents, ?_⟩
    rw [List.foldl_cons]
    refine Eq.trans hrest ?_
    simp [seen]

/-- A session that has emptied its mailbox can be given any notifications. -/
theorem exists_arriving (hqueue : i.mailbox.queue = []) (hwaiting : i.mailbox.waiting = [])
    (hroom : 0 < i.mailbox.capacity) (notifications : List Notification) :
    ∃ incidents : List Incident, (incidents.foldl meet i).seen = i.taken ++ notifications := by
  induction notifications generalizing i with
  | nil => exact ⟨[], by simp [seen, hqueue]⟩
  | cons notification notifications ih =>
    have hsent := Mailbox.trySend?_of_empty hqueue hwaiting hroom ⟨notification, none⟩
    have hmet : (i.meet (.notify ⟨0⟩ notification)).meet .absorb =
        ⟨{ i.mailbox with queue := [] }, i.taken ++ [notification],
          i.receipts ++ [⟨some ⟨0⟩, .ok ()⟩]⟩ := by
      simp only [meet, Mailbox.post, hsent]
      rfl
    obtain ⟨incidents, hrest⟩ := ih (i := (i.meet (.notify ⟨0⟩ notification)).meet .absorb)
      (by rw [hmet]) (by rw [hmet]; exact hwaiting) (by rw [hmet]; exact hroom)
    refine ⟨.notify ⟨0⟩ notification :: .absorb :: incidents, hrest.trans ?_⟩
    rw [hmet, List.append_assoc]
    rfl

/-- **Any notifications may come with a message** that does not end the session, after those in the mailbox if
nobody waits for room. -/
theorem exists_taken_during {input : Input} (hgoes : input.ends = false)
    (hwaiting : mailbox.waiting = []) (hroom : 0 < mailbox.capacity)
    (notifications : List Notification) : ∃ incidents,
      (during mailbox input incidents).taken = mailbox.queue.map (·.message) ++ notifications := by
  obtain ⟨absorbing, hempty⟩ := exists_absorbing { mailbox }
  obtain ⟨arriving, htaken⟩ := exists_arriving (i := absorbing.foldl meet { mailbox })
    (by rw [hempty]) (by rw [hempty]; exact hwaiting) (by rw [hempty]; exact hroom) notifications
  refine ⟨absorbing ++ arriving, ?_⟩
  unfold during
  rw [hgoes, if_neg Bool.false_ne_true]
  dsimp only
  rw [List.foldl_append]
  refine htaken.trans ?_
  rw [hempty]
  rfl

end Intake

end Softphone
