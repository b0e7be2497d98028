import Softphone.Proofs.Calls.Reported

/-!
# Live calls

Under which handles a live call is tracked after a report (`CallBook.isLive_receive`), after the end of
the busy tone, and after a call was dialled. Closed calls come and go without a trace here.
-/

namespace Softphone

namespace CallBook

variable {b : CallBook} {a x : CallHandle} {c call : Call}

/-- Whether a live call is tracked under a handle. -/
def isLive (b : CallBook) (a : CallHandle) : Bool := (b.registry.find? a).any (·.isLive)

/-- Whether a report brings in a call that nobody knew. -/
def admits (b : CallBook) (event : CallEvent) : Bool :=
  event.kind.admitsNewCall && !b.registry.contains event.handle

theorem isLive_of_find? (hc : b.registry.find? a = some c) : b.isLive a = c.isLive := by
  rw [isLive, hc]
  rfl

theorem exists_of_isLive (h : b.isLive a = true) :
    ∃ c, b.registry.find? a = some c ∧ c.isLive = true := by
  unfold isLive at h
  cases hc : b.registry.find? a with
  | none =>
    rw [hc] at h
    cases h
  | some c =>
    rw [hc] at h
    exact ⟨c, rfl, h⟩

theorem isLive_of_untracked (h : b.registry.contains a = false) : b.isLive a = false := by
  rw [Registry.contains, Option.isSome_eq_false_iff, Option.isNone_iff_eq_none] at h
  rw [isLive, h]
  rfl

theorem isLive_of_closing (h : b.Consistent) (ha : b.closing = some a) : b.isLive a = false := by
  obtain ⟨c, hc⟩ := Registry.contains_iff.1 (h.tracked ha)
  rw [isLive_of_find? hc, Call.isLive, (h.closed_iff hc).2 ha]
  rfl

theorem isLive_onToneFinished (h : b.Consistent) : b.onToneFinished.2.isLive x = b.isLive x := by
  rw [isLive, find?_onToneFinished]
  split
  · rename_i hclosing
    exact (isLive_of_closing h hclosing).symm
  · rfl

theorem isLive_dialled (hopen : call.isLive = true) (connected : Bool) :
    (b.dialled call connected).isLive x =
      if x = call.handle ∧ b.registry.contains x = false then connected else b.isLive x := by
  rw [isLive, find?_dialled]
  by_cases hnew : x = call.handle ∧ b.registry.contains x = false
  · rw [if_pos hnew]
    cases connected with
    | true =>
      rw [if_pos ⟨hnew.1, hnew.2, rfl⟩]
      exact hopen
    | false =>
      rw [if_neg (by simp), find?_eq_none_iff.2 hnew.2]
      rfl
  · rw [if_neg hnew, if_neg fun h => hnew ⟨h.1, h.2.1⟩]
    rfl

/-! ## Reports -/

variable {stamp : Stamp} {agent : AgentHandle} {event : CallEvent}

theorem isStale_of_untracked (hnew : b.registry.contains event.handle = false) :
    b.isStale event = !event.kind.admitsNewCall := by
  rw [Registry.contains, Option.isSome_eq_false_iff, Option.isNone_iff_eq_none] at hnew
  rw [isStale, hnew]

theorem isStale_of_tracked (htracked : b.registry.contains event.handle = true) :
    b.isStale event = !b.isLive event.handle := by
  obtain ⟨c, hc⟩ := Registry.contains_iff.1 htracked
  rw [isStale, hc, isLive_of_find? hc, Call.isLive, Bool.not_not]

/-- A report counts if it is on a live call or brings in a new one. -/
theorem isStale_eq : b.isStale event = !(b.isLive event.handle || b.admits event) := by
  unfold admits
  cases htracked : b.registry.contains event.handle with
  | true => rw [isStale_of_tracked htracked, Bool.not_true, Bool.and_false, Bool.or_false]
  | false =>
    rw [isStale_of_untracked htracked, isLive_of_untracked htracked, Bool.not_false, Bool.and_true,
      Bool.false_or]

/-- A report that ends nothing leaves its call as live as it was. -/
theorem isLive_reported (hlive : c.isLive = true) (hgoes : event.kind.endsCall = false) :
    (c.reported stamp.time event.kind).isLive = true := by
  cases hkind : event.kind with
  | incoming => exact hlive
  | outgoing =>
    rw [Call.reported]
    split
    · rfl
    · exact hlive
  | ringing | progress =>
    rw [Call.reported, enterEarly]
    split
    · rfl
    · rfl
    · exact hlive
  | update code =>
    rw [Call.reported]
    split
    · split
      · rfl
      · split
        · rfl
        · exact hlive
    · exact hlive
  | established => rfl
  | closed tone =>
    rw [hkind] at hgoes
    cases hgoes

theorem isLive_broughtIn : (broughtIn stamp agent event).isLive = true := by
  unfold broughtIn
  split <;> rfl

theorem isLive_callAfter (hfresh : b.isStale event = false) :
    (b.callAfter stamp agent event).any (·.isLive) = !event.kind.endsCall := by
  cases hends : event.kind.endsCall with
  | true =>
    rw [callAfter, hends]
    cases hkind : event.kind with
    | closed tone => cases b.lingers event <;> rfl
    | _ =>
      rw [hkind] at hends
      cases hends
  | false =>
    rw [callAfter, hends]
    refine isLive_reported ?_ hends
    rw [isStale] at hfresh
    cases hc : b.registry.find? event.handle with
    | none => exact isLive_broughtIn
    | some c =>
      rw [hc] at hfresh
      simpa [Call.isLive] using hfresh

/-- **Under which handles a live call is tracked after a report.** The handle of a report that ends its
call is free of live calls then; the one of a report that counts and ends nothing has one. -/
theorem isLive_receive (h : b.Consistent) : (b.receive stamp (some agent) event).2.isLive x =
    if x = event.handle then
      !event.kind.endsCall && (b.isLive x || b.admits event)
    else b.isLive x := by
  cases hstale : b.isStale event with
  | true =>
    rw [receive_of_stale hstale]
    rw [isStale_eq, Bool.not_eq_true', Bool.or_eq_false_iff] at hstale
    by_cases hx : x = event.handle
    · simp [hx, hstale]
    · simp [hx]
  | false =>
    rw [isLive, find?_receive h hstale]
    by_cases hx : x = event.handle
    · rw [if_pos hx, if_pos hx, isLive_callAfter hstale]
      rw [isStale_eq, Bool.not_eq_false'] at hstale
      rw [hx, hstale, Bool.and_true]
    · rw [if_neg hx, if_neg hx]
      split
      · rename_i hdropped
        exact (isLive_of_closing h hdropped.1).symm
      · rfl

end CallBook

end Softphone
