import Softphone.Proofs.Calls.OneClosed

/-!
# Reports keep to their own calls

A report leaves every live call but its own exactly as it is; of the others at most the closed one goes
(`CallBook.leavesOthers_receive`). Reports that only tell how a call goes on ask for the same whatever the
other calls are, so two of them on different calls come to the same in either order (`CallBook.receive_comm`).
-/

namespace Softphone

/-- Whether a report of this class only tells how its call goes on. -/
def CallEventKind.goesOn : CallEventKind → Bool
  | ringing | progress _ | update _ => true
  | incoming | outgoing | established | closed _ => false

/-- Changes of two calls do not see each other. -/
theorem Registry.modify_comm {r : Registry} {a b : CallHandle} {change other : Call → Call}
    (hne : a ≠ b) (hchange : ∀ c, (change c).handle = c.handle)
    (hother : ∀ c, (other c).handle = c.handle) :
    (r.modify a change).modify b other = (r.modify b other).modify a change := by
  unfold Registry.modify
  simp only [List.map_map]
  congr 1
  refine List.map_congr_left fun c _ => ?_
  dsimp only [Function.comp_apply]
  by_cases ha : c.handle = a
  · simp [ha, hchange, hne]
  · by_cases hb : c.handle = b
    · simp [hb, hother, hne.symm]
    · simp [ha, hb]

theorem Call.reported_handle (c : Call) (time : Timestamp) (kind : CallEventKind) :
    (c.reported time kind).handle = c.handle := by
  cases kind with
  | incoming | established | closed => rfl
  | ringing | progress => exact CallBook.enterEarly_handle c
  | outgoing | update =>
    rw [reported]
    repeat' split
    all_goals rfl

namespace CallBook

variable {b b' : CallBook} {a : CallHandle} {c : Call} {stamp : Stamp} {agent : Option AgentHandle}
  {event : CallEvent}

/-! ## The other calls -/

/-- The calls under other handles remain as they are, except that the closed one may go. -/
structure LeavesOthers (b b' : CallBook) (handle : CallHandle) : Prop where
  live : ∀ other call, other ≠ handle → b.registry.find? other = some call → call.isLive = true →
    b'.registry.find? other = some call
  /-- A call that does not remain is the only one that was closed, and it goes. -/
  closed : ∀ other call, other ≠ handle → b.registry.find? other = some call →
    b'.registry.find? other ≠ some call → b'.registry.find? other = none ∧
      call.state = .closed ∧ ∀ c ∈ b.registry.calls, c.state = .closed → c = call
  unknown : ∀ other, other ≠ handle → b.registry.find? other = none → b'.registry.find? other = none

theorem LeavesOthers.refl : b.LeavesOthers b a :=
  ⟨fun _ _ _ hc _ => hc, fun _ _ _ hc hgone => absurd hc hgone, fun _ _ hnone => hnone⟩

/-- At most the call under the closing handle goes. -/
theorem leavesOthers_of_closing (h : b.Consistent) (hafter : ∀ other, other ≠ a →
      b'.registry.find? other = b.registry.find? other ∨
        b.closing = some other ∧ b'.registry.find? other = none) : b.LeavesOthers b' a where
  live other call hne hc hlive := by
    rcases hafter other hne with hsame | ⟨hclosing, -⟩
    · exact hsame.trans hc
    · exact absurd hclosing (h.closing_ne hc hlive)
  closed other call hne hc hgone := by
    rcases hafter other hne with hsame | ⟨hclosing, hnone⟩
    · exact absurd (hsame.trans hc) hgone
    · refine ⟨hnone, (h.closed_iff hc).2 hclosing, fun c hmem hclosed => ?_⟩
      have hfound := Registry.find?_of_mem h.unique hmem
      have hhandle := (h.closed_iff hfound).1 hclosed
      rw [hclosing] at hhandle
      rw [← Option.some.inj hhandle, hc] at hfound
      exact (Option.some.inj hfound).symm
  unknown other hne hnone := by
    rcases hafter other hne with hsame | ⟨-, hgone⟩
    · exact hsame.trans hnone
    · exact hgone

/-- **A report is on one call.** The other live calls remain as they are. -/
theorem leavesOthers_receive (h : b.Consistent) (stamp : Stamp) (agent : Option AgentHandle)
    (event : CallEvent) : b.LeavesOthers (b.receive stamp agent event).2 event.handle := by
  cases agent with
  | none => exact .refl
  | some agent =>
    cases hstale : b.isStale event with
    | true =>
      rw [receive_of_stale hstale]
      exact .refl
    | false =>
      refine leavesOthers_of_closing h fun other hne => ?_
      rw [find?_receive h hstale, if_neg hne]
      split
      · exact .inr ⟨(‹_ ∧ _›).1, rfl⟩
      · exact .inl rfl

/-! ## Either order -/

/-- Whether a report is dealt with: there is an agent, and the report is not passed over. -/
def counts (b : CallBook) (agent : Option AgentHandle) (event : CallEvent) : Bool :=
  agent.isSome && !b.isStale event

/-- Changes one call, and nothing else. -/
def modifyCall (b : CallBook) (a : CallHandle) (change : Call → Call) : CallBook :=
  { b with registry := b.registry.modify a change }

/-- A change of another call does not make a report count or not. -/
theorem counts_modifyCall {change : Call → Call} (hne : event.handle ≠ a)
    (hchange : ∀ c, (change c).handle = c.handle) :
    (b.modifyCall a change).counts agent event = b.counts agent event := by
  unfold counts isStale modifyCall
  dsimp only
  rw [Registry.find?_modify hchange, if_neg hne]

theorem modifyCall_comm {handle : CallHandle} {change other : Call → Call} (hne : a ≠ handle)
    (hchange : ∀ c, (change c).handle = c.handle) (hother : ∀ c, (other c).handle = c.handle) :
    (b.modifyCall a change).modifyCall handle other = (b.modifyCall handle other).modifyCall a change := by
  unfold modifyCall
  dsimp only
  rw [Registry.modify_comm hne hchange hother]

/-- What a report comes to that asks for these actions and changes its call in this way. -/
def goOn (b : CallBook) (agent : Option AgentHandle) (event : CallEvent) (actions : List CallAction)
    (change : Call → Call) : List CallAction × CallBook :=
  if b.counts agent event then (actions, b.modifyCall event.handle change) else ([], b)

/-- A fresh report that only tells how its call goes on changes this call alone. What it asks for and how it
changes the call depend on the report, and neither on the time nor on the other calls. -/
theorem exists_receive_of_fresh (hkind : event.kind.goesOn = true) : ∃ actions change,
    (∀ c, (change c).handle = c.handle) ∧ ∀ (b : CallBook) (stamp : Stamp) (agent : AgentHandle),
      b.isStale event = false →
        b.receive stamp (some agent) event = (actions, b.modifyCall event.handle change) := by
  obtain ⟨handle, kind, remote⟩ := event
  cases kind with
  | incoming | outgoing | established | closed => cases hkind
  | ringing =>
    refine ⟨[.playRingback], enterEarly, enterEarly_handle, fun b stamp agent hfresh => ?_⟩
    rw [receive, hfresh]
    rfl
  | progress flags =>
    refine ⟨if flags &&& receiveOnly ≠ 0 then [.stopTone] else [.playRingback], enterEarly,
      enterEarly_handle, fun b stamp agent hfresh => ?_⟩
    rw [receive, hfresh]
    rfl
  | update code =>
    refine ⟨((CallEventKind.update code).announces.map CallAction.emit).toList,
      (·.reported default (.update code)), fun c => c.reported_handle _ _, fun b stamp agent hfresh => ?_⟩
    have hcodes : resumedCode ≠ heldCode := by decide
    rw [receive, hfresh]
    by_cases hheld : code = heldCode
    · simp [onUpdate, modifyCall, Call.reported, CallEventKind.announces, hheld]
    · by_cases hresumed : code = resumedCode
      · simp [onUpdate, modifyCall, Call.reported, CallEventKind.announces, hcodes, hresumed]
      · simp [onUpdate, modifyCall, Call.reported, CallEventKind.announces, hheld, hresumed, Registry.modify]

theorem exists_receive_of_goesOn (hkind : event.kind.goesOn = true) : ∃ actions change,
    (∀ c, (change c).handle = c.handle) ∧ ∀ (b : CallBook) (stamp : Stamp) (agent : Option AgentHandle),
      b.receive stamp agent event = b.goOn agent event actions change := by
  obtain ⟨actions, change, hchange, hfresh⟩ := exists_receive_of_fresh hkind
  refine ⟨actions, change, hchange, fun b stamp agent => ?_⟩
  unfold goOn counts
  cases agent with
  | none => rfl
  | some agent =>
    cases hstale : b.isStale event with
    | true => exact receive_of_stale hstale _
    | false => exact hfresh b stamp agent hstale

/-- What is the same whichever of two reports on different calls comes first. -/
structure Interchange (b : CallBook) (first second : CallEvent) : Prop where
  book : ∀ (agent agent' : Option AgentHandle) (t₁ t₂ t₃ t₄ : Stamp),
    ((b.receive t₁ agent first).2.receive t₂ agent' second).2 =
      ((b.receive t₃ agent' second).2.receive t₄ agent first).2
  /-- Behind the other, the first asks for what it asks for in front of it. -/
  first_actions : ∀ (agent agent' : Option AgentHandle) (t₁ t₂ t₃ : Stamp),
    ((b.receive t₁ agent' second).2.receive t₂ agent first).1 = (b.receive t₃ agent first).1
  second_actions : ∀ (agent agent' : Option AgentHandle) (t₁ t₂ t₃ : Stamp),
    ((b.receive t₁ agent first).2.receive t₂ agent' second).1 = (b.receive t₃ agent' second).1

section Interchange

variable {first second : CallEvent} {agent' : Option AgentHandle} {actions actions' : List CallAction}
  {change change' : Call → Call}

theorem counts_goOn (hne : second.handle ≠ first.handle) (hchange : ∀ c, (change c).handle = c.handle) :
    (b.goOn agent first actions change).2.counts agent' second = b.counts agent' second := by
  unfold goOn
  split
  · exact counts_modifyCall hne hchange
  · rfl

theorem goOn_actions :
    (b.goOn agent event actions change).1 = if b.counts agent event then actions else [] := by
  unfold goOn
  split <;> rfl

theorem goOn_book : (b.goOn agent event actions change).2 =
    if b.counts agent event then b.modifyCall event.handle change else b := by
  unfold goOn
  split <;> rfl

theorem goOn_actions_comm (hne : second.handle ≠ first.handle)
    (hchange : ∀ c, (change c).handle = c.handle) :
    ((b.goOn agent first actions change).2.goOn agent' second actions' change').1 =
      (b.goOn agent' second actions' change').1 := by
  rw [goOn_actions, counts_goOn hne hchange, goOn_actions]

theorem goOn_book_comm (hne : first.handle ≠ second.handle)
    (hchange : ∀ c, (change c).handle = c.handle) (hchange' : ∀ c, (change' c).handle = c.handle) :
    ((b.goOn agent first actions change).2.goOn agent' second actions' change').2 =
      ((b.goOn agent' second actions' change').2.goOn agent first actions change).2 := by
  rw [goOn_book, counts_goOn hne.symm hchange, goOn_book, goOn_book, counts_goOn hne hchange', goOn_book]
  cases b.counts agent first <;> cases b.counts agent' second
  · rfl
  · rfl
  · rfl
  · exact modifyCall_comm hne hchange hchange'

/-- **Either order.** Reports on different calls that only tell how the calls go on do not see each other. -/
theorem receive_comm (hne : first.handle ≠ second.handle) (hfirst : first.kind.goesOn = true)
    (hsecond : second.kind.goesOn = true) : b.Interchange first second := by
  obtain ⟨actions, change, hchange, hreceive⟩ := exists_receive_of_goesOn hfirst
  obtain ⟨actions', change', hchange', hreceive'⟩ := exists_receive_of_goesOn hsecond
  refine ⟨fun agent agent' t₁ t₂ t₃ t₄ => ?_, fun agent agent' t₁ t₂ t₃ => ?_,
    fun agent agent' t₁ t₂ t₃ => ?_⟩
  · simp only [hreceive, hreceive']
    exact goOn_book_comm hne hchange hchange'
  · simp only [hreceive, hreceive']
    exact goOn_actions_comm hne hchange'
  · simp only [hreceive, hreceive']
    exact goOn_actions_comm hne.symm hchange

end Interchange

/-- What keeps the calls of a book apart. -/
structure Apart (b : CallBook) : Prop where
  others : ∀ (stamp : Stamp) (agent : Option AgentHandle) (event : CallEvent),
    b.LeavesOthers (b.receive stamp agent event).2 event.handle
  either_order : ∀ first second : CallEvent, first.handle ≠ second.handle →
    first.kind.goesOn = true → second.kind.goesOn = true → b.Interchange first second

/-- **Calls are kept apart.** Whatever has happened to a book of calls, a report leaves every live call but
its own as it is, and two reports on different calls that only tell how the calls go on come to the same in
either order. The calls of the two need not be live for it. -/
theorem reports_keep_apart (xs : List Happening) : Apart (History.after xs).book where
  others := leavesOthers_receive (History.consistent_after xs)
  either_order _ _ := receive_comm

end CallBook

end Softphone
