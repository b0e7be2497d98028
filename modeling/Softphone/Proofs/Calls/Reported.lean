import Softphone.Proofs.Calls.Actions

/-!
# What becomes of the calls

A report that counts is on one call, the one under its handle or the one that it brings in. What becomes
of that call depends on the two alone (`Call.reported`), and of the others at most the closed one goes
(`CallBook.find?_receive`).
-/

namespace Softphone

/-- A call after a report on it. One that ends is closed then, whether it stays or goes. -/
def Call.reported (c : Call) (time : Timestamp) : CallEventKind → Call
  | .incoming => c
  | .outgoing => if c.state = .idle then { c with state := .ringing .outbound } else c
  | .ringing | .progress _ => CallBook.enterEarly c
  | .update code =>
    if c.state.isAnswered then
      if code = CallBook.heldCode then { c with state := .held }
      else if code = CallBook.resumedCode then { c with state := .established }
      else c
    else c
  | .established =>
    { c with state := .established, establishedAt := some (c.establishedAt.getD time) }
  | .closed _ => { c with state := .closed }

namespace CallBook

variable {b : CallBook} {a x : CallHandle} {c : Call} {stamp : Stamp} {agent : AgentHandle}
  {event : CallEvent}

/-- Whether a report closes its call in such a way that the busy tone is tried. -/
def lingers (b : CallBook) (event : CallEvent) : Bool :=
  match event.kind with
  | .closed tone => tone = some busyHint && (b.otherActive? event.handle).isNone
  | _ => false

/-- Whether a report takes the place of the closed call. -/
def dropsClosed (b : CallBook) (event : CallEvent) : Bool :=
  match event.kind with
  | .incoming => !b.registry.contains event.handle
  | .outgoing => true
  | _ => b.lingers event

/-- The call under the handle of a report, once the report is dealt with. -/
def callAfter (b : CallBook) (stamp : Stamp) (agent : AgentHandle) (event : CallEvent) :
    Option Call :=
  if event.kind.endsCall && !b.lingers event then none
  else
    let call := (b.registry.find? event.handle).getD (broughtIn stamp agent event)
    some (call.reported stamp.time event.kind)

/-! ## Reports -/

theorem enterEarly_handle (c : Call) : (enterEarly c).handle = c.handle := by
  unfold enterEarly
  split <;> rfl

theorem find?_onIncoming (hnew : b.registry.contains event.handle = false)
    (hkind : event.kind = .incoming) : (b.onIncoming stamp agent event).2.registry.find? x =
      if x = event.handle then some (broughtIn stamp agent event)
      else if b.closing = some x then none else b.registry.find? x := by
  obtain ⟨b', htrack, heq⟩ := onIncoming_eq stamp agent hnew hkind
  have hhandle : (broughtIn stamp agent event).handle = event.handle := by
    rw [broughtIn, hkind]
    rfl
  rw [heq, find?_track htrack, find?_finishClosing, hhandle]

theorem find?_onOutgoing (h : b.Consistent) (hfresh : b.isStale event = false)
    (hkind : event.kind = .outgoing) : (b.onOutgoing stamp agent event).2.registry.find? x =
      if x = event.handle then
        some (((b.registry.find? event.handle).getD (broughtIn stamp agent event)).reported
          stamp.time .outgoing)
      else if b.closing = some x then none else b.registry.find? x := by
  obtain ⟨marked, call, hcall, hmarked, heq⟩ := onOutgoing_eq b stamp agent event
  have hfound := hmarked event.handle
  rw [if_pos rfl] at hfound
  rw [find?_finishClosing, if_neg (closing_ne_of_fresh h hfresh)] at hcall
  rw [heq]
  dsimp only
  rw [find?_modify_of_find? ?_ hfound, hmarked, find?_finishClosing, hcall]
  · by_cases hx : x = event.handle
    · rw [if_pos hx, if_pos hx, broughtIn, hkind]
      rfl
    · simp [hx]
  · intro c
    split <;> rfl

theorem find?_enterEarly (hc : b.registry.find? a = some c) :
    (b.registry.modify a enterEarly).find? x =
      if x = a then some (enterEarly c) else b.registry.find? x :=
  find?_modify_of_find? enterEarly_handle hc

theorem find?_onUpdate (hc : b.registry.find? a = some c) (time : Timestamp) (code : UInt32) :
    (b.onUpdate a code).2.registry.find? x =
      if x = a then some (c.reported time (.update code)) else b.registry.find? x := by
  have hunchanged : b.registry.find? x = if x = a then some c else b.registry.find? x := by
    by_cases hx : x = a
    · simp [hx, hc]
    · simp [hx]
  have henter : ∀ state : CallState, (b.registry.modify a fun c =>
      if c.state.isAnswered then { c with state } else c).find? x =
        if x = a then some (if c.state.isAnswered then { c with state } else c)
        else b.registry.find? x := by
    intro state
    refine find?_modify_of_find? (fun c => ?_) hc
    split <;> rfl
  unfold onUpdate Call.reported
  dsimp only
  split
  · exact henter .held
  · split
    · exact henter .established
    · rw [ite_self]
      exact hunchanged

theorem find?_onEstablished (hc : b.registry.find? a = some c) (time : Timestamp) :
    (b.onEstablished time a).2.registry.find? x =
      if x = a then some (c.reported time .established) else b.registry.find? x := by
  have hmodified : (b.registry.modify a fun c =>
      { c with state := .established, establishedAt := some (c.establishedAt.getD time) }).find? x =
        if x = a then some (c.reported time .established) else b.registry.find? x :=
    find?_modify_of_find? (fun _ => rfl) hc
  rw [← hmodified]
  unfold onEstablished
  dsimp only
  split
  · rename_i hcurrent
    rw [Registry.find?, Registry.setCurrent_calls hcurrent]
    rfl
  · rfl

theorem find?_onClosed (h : b.Consistent) (hc : b.registry.find? event.handle = some c)
    (hlive : c.isLive = true) (time : Timestamp) {tone : Option String}
    (hkind : event.kind = .closed tone) :
    (b.onClosed time event.handle tone).2.registry.find? x =
      if x = event.handle then
        if b.lingers event then some { c with state := .closed } else none
      else if b.closing = some x ∧ b.lingers event = true then none
      else b.registry.find? x := by
  rcases closes_cases b event.handle tone with ⟨rfl, hothers⟩ | hleaves
  · have hlingers : b.lingers event = true := by simp [lingers, hkind, hothers]
    obtain ⟨_, _, _, _, heq⟩ := onClosed_lingering hc hothers time
    rw [heq]
    refine (find?_linger hc (h.closing_ne hc hlive) x).trans ?_
    simp [hlingers]
  · have hleft : b.lingers event = false := by
      rw [lingers, hkind]
      rcases hleaves with hhint | hothers
      · simp [hhint]
      · simp [Option.isNone_eq_false_iff.2 hothers]
    obtain ⟨_, _, _, _, heq⟩ := onClosed_leaving hc hleaves time
    rw [heq]
    refine Registry.find?_remove.trans ?_
    simp [hleft]

/-- **What a report makes of the calls.** The call under its handle becomes what the report says, or goes;
the closed call goes if the report takes its place; and no other call is touched. -/
theorem find?_receive (h : b.Consistent) (hfresh : b.isStale event = false) (x : CallHandle) :
    (b.receive stamp (some agent) event).2.registry.find? x =
      if x = event.handle then b.callAfter stamp agent event
      else if b.closing = some x ∧ b.dropsClosed event = true then none
      else b.registry.find? x := by
  have hlive := live_of_not_stale hfresh
  unfold receive
  dsimp only
  rw [hfresh, if_neg Bool.false_ne_true]
  cases hkind : event.kind with
  | incoming =>
    cases htracked : b.registry.contains event.handle with
    | true =>
      obtain ⟨c, hc⟩ := Registry.contains_iff.1 htracked
      rw [onIncoming_of_tracked htracked]
      by_cases hx : x = event.handle
      · simp [hx, hc, callAfter, hkind, CallEventKind.endsCall, Call.reported]
      · simp [hx, dropsClosed, hkind, htracked]
    | false =>
      have hnone := find?_eq_none_iff.2 htracked
      refine (find?_onIncoming htracked hkind).trans ?_
      simp [callAfter, dropsClosed, hkind, hnone, htracked, CallEventKind.endsCall, Call.reported]
  | outgoing =>
    refine (find?_onOutgoing h hfresh hkind).trans ?_
    simp [callAfter, dropsClosed, hkind, CallEventKind.endsCall]
  | ringing | progress flags =>
    obtain ⟨c, hc, -⟩ := hlive (congrArg CallEventKind.admitsNewCall hkind)
    refine (find?_enterEarly hc).trans ?_
    simp [callAfter, dropsClosed, lingers, hkind, hc, CallEventKind.endsCall, Call.reported]
  | update code =>
    obtain ⟨c, hc, -⟩ := hlive (congrArg CallEventKind.admitsNewCall hkind)
    refine (find?_onUpdate hc stamp.time code).trans ?_
    simp [callAfter, dropsClosed, lingers, hkind, hc, CallEventKind.endsCall]
  | established =>
    obtain ⟨c, hc, -⟩ := hlive (congrArg CallEventKind.admitsNewCall hkind)
    refine (find?_onEstablished hc stamp.time).trans ?_
    simp [callAfter, dropsClosed, lingers, hkind, hc, CallEventKind.endsCall]
  | closed tone =>
    obtain ⟨c, hc, hopen⟩ := hlive (congrArg CallEventKind.admitsNewCall hkind)
    refine (find?_onClosed h hc hopen stamp.time hkind).trans ?_
    cases hlingers : b.lingers event <;>
      simp [callAfter, dropsClosed, hlingers, hkind, hc, CallEventKind.endsCall, Call.reported]

end CallBook

end Softphone
