import Softphone.Proofs.Calls.Dialled

/-!
# Which calls are tracked

What is found under each handle once the closed call is gone, once a call is tracked, and once one is
changed. With these a report on an unknown handle always finds room for its call
(`CallBook.onIncoming_eq`, `CallBook.onOutgoing_eq`).
-/

namespace Softphone.CallBook

variable {b b' : CallBook} {a x : CallHandle} {c call : Call} {change : Call → Call}
  {stamp : Stamp} {agent : AgentHandle} {event : CallEvent}

/-! ## The closed call -/

theorem find?_drop (closed : CallHandle) :
    ({ b with registry := b.registry.remove closed, closing := none } : CallBook).registry.find? x =
      if some closed = some x then none else b.registry.find? x := by
  change (b.registry.remove closed).find? x = _
  simp [eq_comm]

theorem find?_finishClosing : b.finishClosing.2.registry.find? x =
    if b.closing = some x then none else b.registry.find? x := by
  unfold finishClosing
  split
  · simp [*]
  · rename_i closed hclosing
    rw [hclosing]
    exact find?_drop closed

theorem find?_onToneFinished : b.onToneFinished.2.registry.find? x =
    if b.closing = some x then none else b.registry.find? x := by
  unfold onToneFinished
  split
  · simp [*]
  · rename_i closed hclosing
    rw [hclosing]
    exact find?_drop closed

/-- A report that counts is not on the closed call. -/
theorem closing_ne_of_fresh (h : b.Consistent) (hfresh : b.isStale event = false) :
    b.closing ≠ some event.handle := by
  intro hclosing
  obtain ⟨c, hc⟩ := Registry.contains_iff.1 (h.tracked hclosing)
  rw [isStale, hc] at hfresh
  simp [(h.closed_iff hc).2 hclosing, CallState.isTerminal] at hfresh

/-! ## New calls -/

theorem find?_eq_none_iff : b.registry.find? a = none ↔ b.registry.contains a = false := by
  simp [Registry.contains]

theorem find?_track (htrack : b.track call = .ok b') : b'.registry.find? x =
    if x = call.handle then some call else b.registry.find? x := by
  obtain ⟨r, hput, rfl⟩ := track_eq_ok htrack
  change r.find? x = _
  exact Registry.find?_put hput

/-- A dialled call is tracked if its handle is free and the engine connects it. -/
theorem find?_dialled (call : Call) (connected : Bool) :
    (b.dialled call connected).registry.find? x =
      if x = call.handle ∧ b.registry.contains x = false ∧ connected = true then some call
      else b.registry.find? x := by
  cases hnew : b.registry.contains call.handle with
  | true =>
    rw [dialled_taken hnew, if_neg]
    rintro ⟨rfl, hfree, -⟩
    exact Bool.false_ne_true (hfree.symm.trans hnew)
  | false =>
    have htrack := track_eq_ok_iff.2 ⟨hnew, rfl⟩
    cases connected with
    | true =>
      rw [dialled_connected htrack, find?_track htrack]
      by_cases hx : x = call.handle
      · simp [hx, hnew]
      · simp [hx]
    | false =>
      rw [if_neg (by simp), Registry.find?, (dialled_unconnected htrack).1]
      rfl

/-- An outgoing call is tracked, whether it was before or not. -/
theorem find?_markOutgoing (b : CallBook) (stamp : Stamp) (agent : AgentHandle) (event : CallEvent) :
    ∃ b', b.markOutgoing stamp agent event = .ok b' ∧
      ∀ x, b'.registry.find? x = if x = event.handle then
        some ((b.registry.find? event.handle).getD
          (Call.new stamp event.handle agent .outbound event.remote))
        else b.registry.find? x := by
  unfold markOutgoing
  cases htracked : b.registry.contains event.handle with
  | true =>
    obtain ⟨c, hc⟩ := Registry.contains_iff.1 htracked
    rw [if_pos rfl, Registry.setCurrent_eq_ok_iff.2 ⟨htracked, rfl⟩]
    refine ⟨_, rfl, fun x => ?_⟩
    change b.registry.find? x = _
    by_cases hx : x = event.handle
    · simp [hx, hc]
    · simp [hx]
  | false =>
    have hnone := find?_eq_none_iff.2 htracked
    have htrack : b.track (Call.new stamp event.handle agent .outbound event.remote) = .ok _ :=
      track_eq_ok_iff.2 ⟨htracked, rfl⟩
    rw [if_neg Bool.false_ne_true]
    refine ⟨_, htrack, fun x => ?_⟩
    rw [find?_track htrack, hnone]
    rfl

/-- A tracked call is changed, and no other is. -/
theorem find?_modify_of_find? (hhandle : ∀ c, (change c).handle = c.handle)
    (hc : b.registry.find? a = some c) : (b.registry.modify a change).find? x =
      if x = a then some (change c) else b.registry.find? x := by
  rw [Registry.find?_modify hhandle]
  by_cases hx : x = a
  · simp [hx, hc]
  · simp [hx]

/-! ## Reports that bring in calls -/

/-- The call that a report brings in. -/
def broughtIn (stamp : Stamp) (agent : AgentHandle) (event : CallEvent) : Call :=
  match event.kind with
  | .incoming =>
    { Call.new stamp event.handle agent .inbound event.remote with state := .ringing .inbound }
  | _ => Call.new stamp event.handle agent .outbound event.remote

theorem onIncoming_of_tracked (h : b.registry.contains event.handle = true) :
    b.onIncoming stamp agent event = ([], b) := if_pos h

/-- A call that comes in under a free handle is tracked. -/
theorem onIncoming_eq (stamp : Stamp) (agent : AgentHandle)
    (hnew : b.registry.contains event.handle = false)
    (hkind : event.kind = .incoming) :
    ∃ b', b.finishClosing.2.track (broughtIn stamp agent event) = .ok b' ∧
      b.onIncoming stamp agent event =
        (b.finishClosing.1 ++ [.startRinging, .emit (.ring event.remote .inbound)], b') := by
  have hfree : b.finishClosing.2.registry.contains event.handle = false := by
    rw [← find?_eq_none_iff, find?_finishClosing, find?_eq_none_iff.2 hnew, ite_self]
  have hcall : broughtIn stamp agent event =
      { Call.new stamp event.handle agent .inbound event.remote with state := .ringing .inbound } := by
    rw [broughtIn, hkind]
  unfold onIncoming
  rw [hnew, if_neg Bool.false_ne_true, hcall]
  dsimp only
  split
  · rename_i hrefused
    rw [track_eq_ok_iff.2 ⟨hfree, rfl⟩] at hrefused
    cases hrefused
  · exact ⟨_, ‹_›, rfl⟩

/-- A call that goes out is tracked, and the application is told its other party. -/
theorem onOutgoing_eq (b : CallBook) (stamp : Stamp) (agent : AgentHandle) (event : CallEvent) :
    ∃ (marked : CallBook) (call : Call), call = (b.finishClosing.2.registry.find? event.handle).getD
        (Call.new stamp event.handle agent .outbound event.remote) ∧
      (∀ x, marked.registry.find? x =
        if x = event.handle then some call else b.finishClosing.2.registry.find? x) ∧
      b.onOutgoing stamp agent event =
        (b.finishClosing.1 ++ [.emit (.ring call.remote .outbound)],
          { marked with registry := marked.registry.modify event.handle fun c =>
            if c.state = .idle then { c with state := .ringing .outbound } else c }) := by
  obtain ⟨marked, hmark, hmarked⟩ := find?_markOutgoing b.finishClosing.2 stamp agent event
  have hcall := hmarked event.handle
  rw [if_pos rfl] at hcall
  refine ⟨marked, _, rfl, hmarked, ?_⟩
  unfold onOutgoing
  dsimp only
  rw [hmark]
  dsimp only
  rw [hcall]

end Softphone.CallBook
