import Softphone.Proofs.Calls.Lifecycle

/-!
# Calls that are being set up

Whether a call is tracked that has been answered provisionally (`CallBook.HasEarly`), which is what the
ringback is for. Such a call remains, or the tone is stopped (`CallBook.hasEarly_receive`). A report that
asks for the ringback leaves one, unless its call has been answered (`CallBook.hasEarly_asked_iff`).
-/

namespace Softphone.CallBook

variable {b : CallBook} {a : CallHandle} {c : Call} {stamp : Stamp} {agent : AgentHandle}
  {event : CallEvent}

/-- A live call has been answered provisionally. -/
def HasEarly (b : CallBook) : Prop := ∃ c ∈ b.registry.calls, c.isLive = true ∧ c.state = .early

instance : Decidable b.HasEarly :=
  inferInstanceAs (Decidable (∃ c ∈ b.registry.calls, c.isLive = true ∧ c.state = .early))

theorem HasEarly.of_find? (hc : b.registry.find? a = some c) (hearly : c.state = .early) :
    b.HasEarly := by
  refine ⟨c, Registry.mem_of_find? hc, ?_, hearly⟩
  rw [Call.isLive, hearly]
  rfl

theorem hasEarly_iff (h : b.Consistent) :
    b.HasEarly ↔ ∃ a c, b.registry.find? a = some c ∧ c.state = .early := by
  constructor
  · rintro ⟨c, hc, -, hearly⟩
    exact ⟨c.handle, c, Registry.find?_of_mem h.unique hc, hearly⟩
  · rintro ⟨a, c, hc, hearly⟩
    exact .of_find? hc hearly

theorem closing_ne_of_early (h : b.Consistent) (hc : b.registry.find? a = some c)
    (hearly : c.state = .early) : b.closing ≠ some a := by
  refine h.closing_ne hc ?_
  rw [Call.isLive, hearly]
  rfl

/-- A call that is dialled takes the place of none. -/
theorem HasEarly.dialled (h : b.Consistent) (hearly : b.HasEarly) (call : Call) (connected : Bool) :
    (b.dialled call connected).HasEarly := by
  obtain ⟨a, c, hc, hstate⟩ := (hasEarly_iff h).1 hearly
  refine .of_find? ?_ hstate (a := a)
  rw [find?_dialled, if_neg]
  · exact hc
  · rintro ⟨-, hfree, -⟩
    rw [find?_eq_none_iff.2 hfree] at hc
    cases hc

/-! ## Reports -/

theorem playRingback_not_mem_onToneFinished : .playRingback ∉ b.onToneFinished.1 :=
  fun hmem => nomatch eq_of_mem_onToneFinished hmem

/-- No other report asks for the ringback. -/
theorem playRingback_not_mem_receive {agent : Option AgentHandle}
    (h : event.kind.asksRingback = false) : .playRingback ∉ (b.receive stamp agent event).1 := by
  intro hmem
  cases (mem_receive_iff.1 hmem).2.2 with
  | playRingback hasks => exact Bool.false_ne_true (h.symm.trans hasks)

/-- A report that asks for the ringback asks for nothing else. -/
theorem receive_of_asksRingback (stamp : Stamp) (agent : AgentHandle)
    (hfresh : b.isStale event = false) (h : event.kind.asksRingback = true) :
    (b.receive stamp (some agent) event).1 = [.playRingback] := by
  unfold receive
  dsimp only
  rw [hfresh, if_neg Bool.false_ne_true]
  cases hkind : event.kind with
  | ringing => rfl
  | progress flags =>
    rw [hkind] at h
    have hplays : flags &&& receiveOnly = 0 := of_decide_eq_true h
    simp [onProgress, hplays]
  | _ =>
    rw [hkind] at h
    cases h

/-- A report that asks for the busy tone stops the tone that plays first. -/
theorem playBusy_not_mem_receive {agent : Option AgentHandle}
    (h : .stopTone ∉ (b.receive stamp agent event).1) :
    .playBusy ∉ (b.receive stamp agent event).1 := by
  intro hmem
  obtain ⟨hagent, hfresh, hasks⟩ := mem_receive_iff.1 hmem
  cases hasks with
  | playBusy hkind =>
    exact h (mem_receive_iff.2
      ⟨hagent, hfresh, .stopTone (congrArg CallEventKind.settles hkind)⟩)

/-- A report that is passed over is on no call that has been answered. -/
theorem not_answered_of_stale (hstale : b.isStale event = true) :
    (b.registry.find? event.handle).any (·.state.isAnswered) = false := by
  rw [isStale] at hstale
  split at hstale
  · simp [*]
  · rename_i c hc
    rw [hc, Option.any_some]
    cases hstate : c.state <;> simp_all [CallState.isAnswered, CallState.isTerminal]

/-- A report that leaves the tone alone neither establishes nor ends its call. -/
theorem state_reported_of_early (hfresh : b.isStale event = false)
    (htone : .stopTone ∉ (b.receive stamp (some agent) event).1) (hearly : c.state = .early) :
    event.kind.endsCall = false ∧ (c.reported stamp.time event.kind).state = .early := by
  have hopen : event.kind.settles ≠ true := fun hsettles =>
    htone (mem_of_asks hfresh (.stopTone hsettles))
  cases hkind : event.kind with
  | established | closed =>
    rw [hkind] at hopen
    exact absurd rfl hopen
  | incoming => exact ⟨rfl, hearly⟩
  | outgoing | ringing | progress | update =>
    simp [CallEventKind.endsCall, Call.reported, enterEarly, hearly, CallState.isAnswered]

/-- **A call that is being set up remains so**, unless the tone is stopped. -/
theorem hasEarly_receive (h : b.Consistent)
    (htone : .stopTone ∉ (b.receive stamp (some agent) event).1) (hearly : b.HasEarly) :
    (b.receive stamp (some agent) event).2.HasEarly := by
  cases hstale : b.isStale event with
  | true =>
    rw [receive_of_stale hstale]
    exact hearly
  | false =>
    obtain ⟨a, c, hc, hstate⟩ := (hasEarly_iff h).1 hearly
    have hfind : (b.receive stamp (some agent) event).2.registry.find? a = _ :=
      find?_receive h hstale a
    by_cases ha : a = event.handle
    · subst ha
      obtain ⟨hgoes, hstill⟩ := state_reported_of_early hstale htone hstate
      rw [if_pos rfl, callAfter, hgoes, hc] at hfind
      exact .of_find? hfind hstill
    · rw [if_neg ha, if_neg fun hdropped => closing_ne_of_early h hc hstate hdropped.1] at hfind
      exact .of_find? (hfind.trans hc) hstate

/-- After a report that asks for the ringback a call is being set up, unless none was before and the call
has been answered. -/
theorem hasEarly_asked_iff (h : b.Consistent) (stamp : Stamp) (agent : AgentHandle)
    (hfresh : b.isStale event = false) (hasks : event.kind.asksRingback = true)
    (hc : b.registry.find? event.handle = some c) :
    (b.receive stamp (some agent) event).2.HasEarly ↔ b.HasEarly ∨ c.state.isAnswered = false := by
  have hactions := receive_of_asksRingback stamp agent hfresh hasks
  have hafter : b.callAfter stamp agent event = some (enterEarly c) := by
    rw [callAfter, hc]
    cases hkind : event.kind with
    | ringing | progress => rfl
    | _ =>
      rw [hkind] at hasks
      cases hasks
  have hopen : c.state ≠ .closed := by
    intro hclosed
    rw [isStale, hc] at hfresh
    simp [hclosed, CallState.isTerminal] at hfresh
  constructor
  · intro hearly
    obtain ⟨a, d, hd, hstate⟩ := (hasEarly_iff (receive_consistent h _ _ _)).1 hearly
    rw [find?_receive h hfresh] at hd
    split at hd
    · obtain rfl := Option.some.inj (hafter.symm.trans hd)
      refine .inr (Bool.eq_false_iff.2 fun hanswered => ?_)
      obtain hstate' | hstate' := CallState.isAnswered_iff.1 hanswered <;>
        simp [enterEarly, hstate'] at hstate
    · split at hd
      · cases hd
      · exact .inl (.of_find? hd hstate)
  · rintro (hearly | hunanswered)
    · refine hasEarly_receive h ?_ hearly
      rw [hactions]
      simp
    · have hfind : (b.receive stamp (some agent) event).2.registry.find? event.handle = _ :=
        find?_receive h hfresh event.handle
      rw [if_pos rfl, hafter] at hfind
      refine .of_find? hfind ?_
      cases hstate : c.state <;> simp_all [enterEarly, CallState.isAnswered]

end Softphone.CallBook
