import Softphone.Proofs.Calls.Lifecycle

/-!
# What is told of a call

Some events tell how a call stands: it is up, paused, resumed, or over. The book of calls tells the truth,
but for one case (`CallBook.announced_truly_iff`): that a call is put on hold or resumed is told of a call
that has not been answered too, and such a call stays as it was.
-/

namespace Softphone

namespace Event

/-- Whether an event tells how a call stands. -/
def tellsState : Event → Bool
  | up | paused | resuming | hangup => true
  | _ => false

/-- A call, tracked or not, stands as an event tells. -/
def Agrees (call? : Option Call) : Event → Prop
  | up | resuming => ∃ call, call? = some call ∧ call.state = .established
  | paused => ∃ call, call? = some call ∧ call.state = .held
  | hangup => ∀ call, call? = some call → call.isLive = false
  | _ => True

theorem agrees_of_not_tellsState {e : Event} (h : e.tellsState = false) (call? : Option Call) :
    e.Agrees call? := by
  cases e with
  | up | paused | resuming | hangup => cases h
  | _ => trivial

end Event

namespace CallEventKind

/-- Whether a report of this class is that a call was put on hold or resumed. -/
def holdsOrResumes : CallEventKind → Bool
  | update code => code = CallBook.heldCode || code = CallBook.resumedCode
  | _ => false

end CallEventKind

namespace CallBook

variable {b : CallBook} {e : Event} {stamp : Stamp} {agent : AgentHandle}
  {event : CallEvent}

/-- Whether a report has a live call told to be on hold or resumed that has not been answered. -/
def misleads (b : CallBook) (agent : Option AgentHandle) (event : CallEvent) : Bool :=
  agent.isSome && event.kind.holdsOrResumes &&
    (b.registry.find? event.handle).any fun call => call.isLive && !call.state.isAnswered

/-! ## What a report tells -/

/-- A report that counts tells of its call what its class announces. -/
theorem emit_mem_receive_iff (hfresh : b.isStale event = false) (htells : e.tellsState = true) :
    .emit e ∈ (b.receive stamp (some agent) event).1 ↔ event.kind.announces = some e := by
  constructor
  · intro hmem
    cases asks_of_mem hfresh hmem with
    | announce hannounces => exact hannounces
    | _ => cases htells
  · intro hannounces
    exact mem_of_asks hfresh (.announce hannounces)

/-! ## Whether it is true -/

theorem not_misleads_of_silent (h : event.kind.announces = none) (agent : Option AgentHandle) :
    b.misleads agent event = false := by
  have hneither : event.kind.holdsOrResumes = false := by
    cases hkind : event.kind with
    | update code =>
      rw [hkind, CallEventKind.announces] at h
      split at h
      · cases h
      · split at h
        · cases h
        · simp [CallEventKind.holdsOrResumes, *]
    | _ => rfl
  rw [misleads, hneither, Bool.and_false, Bool.false_and]

theorem callAfter_of_find? {call : Call} (hcall : b.registry.find? event.handle = some call)
    (hgoes : event.kind.endsCall = false) :
    b.callAfter stamp agent event = some (call.reported stamp.time event.kind) := by
  simp [callAfter, hgoes, hcall]

theorem agrees_update_iff {call : Call} {time : Timestamp} {code : UInt32}
    (he : (CallEventKind.update code).announces = some e) :
    e.Agrees (some (call.reported time (.update code))) ↔ call.state.isAnswered = true := by
  have hreported (state : CallState) (hstate : state.isAnswered = true) :
      (if call.state.isAnswered then { call with state } else call).state = state ↔
        call.state.isAnswered = true := by
    split
    · simp_all
    · rename_i hunanswered
      refine iff_of_false (fun heq => hunanswered ?_) hunanswered
      rwa [heq]
  rw [CallEventKind.announces] at he
  rw [Call.reported]
  split at he
  · rename_i hheld
    obtain rfl := Option.some.inj he
    rw [if_pos hheld]
    simpa [Event.Agrees] using hreported .held rfl
  · rename_i hheld
    split at he
    · rename_i hresumed
      obtain rfl := Option.some.inj he
      rw [if_neg hheld, if_pos hresumed]
      simpa [Event.Agrees] using hreported .established rfl
    · cases he

/-- What a report that counts announces is true of its call, unless the report misleads. -/
theorem agrees_callAfter_iff (hfresh : b.isStale event = false)
    (he : event.kind.announces = some e) :
    e.Agrees (b.callAfter stamp agent event) ↔ b.misleads (some agent) event = false := by
  have hlive := live_of_not_stale hfresh
  unfold misleads
  cases hkind : event.kind with
  | incoming | outgoing | ringing | progress =>
    rw [hkind] at he
    cases he
  | update code =>
    rw [hkind] at he
    obtain ⟨call, hcall, hopen⟩ := hlive (by rw [hkind]; rfl)
    have hcode : code = heldCode ∨ code = resumedCode := by
      rw [CallEventKind.announces] at he
      split at he
      · exact .inl ‹_›
      · split at he
        · exact .inr ‹_›
        · cases he
    rw [callAfter_of_find? hcall (by rw [hkind]; rfl), hkind, agrees_update_iff he, hcall]
    simp [CallEventKind.holdsOrResumes, hcode, hopen]
  | established =>
    rw [hkind] at he
    obtain rfl := Option.some.inj he
    obtain ⟨call, hcall, -⟩ := hlive (by rw [hkind]; rfl)
    rw [callAfter_of_find? hcall (by rw [hkind]; rfl), hkind]
    simp [Event.Agrees, Call.reported, CallEventKind.holdsOrResumes]
  | closed tone =>
    rw [hkind] at he
    obtain rfl := Option.some.inj he
    have hover : Event.hangup.Agrees (b.callAfter stamp agent event) := by
      intro call hcall
      rw [callAfter, hkind] at hcall
      split at hcall
      · cases hcall
      · obtain rfl := Option.some.inj hcall
        rfl
    simp [hover, CallEventKind.holdsOrResumes]

theorem not_misleads_of_stale (hstale : b.isStale event = true) (agent : Option AgentHandle) :
    b.misleads agent event = false := by
  rw [isStale] at hstale
  split at hstale
  · rename_i hnone
    rw [misleads, hnone, Option.any_none, Bool.and_false]
  · rename_i call hcall
    rw [misleads, hcall, Option.any_some, Call.isLive, hstale, Bool.not_true, Bool.false_and,
      Bool.and_false]

/-- Whatever a report has told of its call is so once the report is dealt with. -/
def TellsTruly (b : CallBook) (stamp : Stamp) (agent : Option AgentHandle) (event : CallEvent) :
    Prop :=
  ∀ e, .emit e ∈ (b.receive stamp agent event).1 →
    e.Agrees ((b.receive stamp agent event).2.registry.find? event.handle)

theorem TellsTruly.of_silent {agent : Option AgentHandle}
    (h : (b.receive stamp agent event).1 = []) : b.TellsTruly stamp agent event := by
  intro e he
  rw [h] at he
  cases he

theorem tellsTruly_iff_of_fresh (h : b.Consistent) (hfresh : b.isStale event = false) :
    b.TellsTruly stamp (some agent) event ↔
      ∀ e, event.kind.announces = some e → e.Agrees (b.callAfter stamp agent event) := by
  rw [TellsTruly, find?_receive h hfresh, if_pos rfl]
  refine forall_congr' fun e => ?_
  cases htells : e.tellsState with
  | true => rw [emit_mem_receive_iff hfresh htells]
  | false =>
    have hagrees := e.agrees_of_not_tellsState htells (b.callAfter stamp agent event)
    exact iff_of_true (fun _ => hagrees) fun _ => hagrees

theorem tellsTruly_iff (h : b.Consistent) (agent : Option AgentHandle) :
    b.TellsTruly stamp agent event ↔ b.misleads agent event = false := by
  cases agent with
  | none => exact iff_of_true (.of_silent rfl) rfl
  | some agent =>
    cases hstale : b.isStale event with
    | true =>
      refine iff_of_true (.of_silent ?_) (not_misleads_of_stale hstale _)
      rw [receive_of_stale hstale]
    | false =>
      rw [tellsTruly_iff_of_fresh h hstale]
      cases hannounces : event.kind.announces with
      | none =>
        refine iff_of_true (fun e he => ?_) (not_misleads_of_silent hannounces _)
        cases he
      | some e =>
        rw [← agrees_callAfter_iff hstale hannounces]
        constructor
        · intro htrue
          exact htrue e rfl
        · rintro hagrees other hsame
          obtain rfl := Option.some.inj hsame
          exact hagrees

/-- **What is told of a call is true.** In the course of all that may happen to a book of calls, a report
has nothing told of its call that is not so afterwards, exactly unless the report is that a live call is
put on hold or resumed and this call has not been answered. -/
theorem announced_truly_iff (xs : List Happening) (stamp : Stamp) (agent : Option AgentHandle)
    (event : CallEvent) : (History.after xs).book.TellsTruly stamp agent event ↔
      (History.after xs).book.misleads agent event = false :=
  tellsTruly_iff (History.consistent_after xs) agent

/-- A call that has come in. -/
def rung : List Happening := [.report default (some ⟨1⟩) ⟨⟨1⟩, .incoming, "sip:alice@example.com"⟩]

/-- The report that this call was put on hold. -/
def heldUnanswered : CallEvent := ⟨⟨1⟩, .update heldCode, "sip:alice@example.com"⟩

/-- A call is told to be on hold while it still rings. -/
theorem hold_told_while_ringing :
    ¬ ∀ xs stamp agent event, (History.after xs).book.TellsTruly stamp agent event := by
  intro htrue
  obtain ⟨call, hcall, hheld⟩ := htrue rung default (some ⟨1⟩) heldUnanswered .paused (by decide)
  have hrings : (((History.after rung).book.receive default (some ⟨1⟩) heldUnanswered).2.registry.find?
      heldUnanswered.handle).map (·.state) = some (.ringing .inbound) := by decide
  rw [hcall, Option.map_some, hheld] at hrings
  cases hrings

end CallBook

end Softphone
