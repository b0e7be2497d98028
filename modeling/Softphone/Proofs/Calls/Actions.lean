import Softphone.Proofs.Calls.Tracked

/-!
# What reports ask for

What a report that counts asks for depends on its class, on the call under its handle, on the closed call,
and on whether another live call is current (`CallBook.mem_receive_iff`). So every action that a report asks
for is about calls (`CallBook.isOfCall_receive`), and the end of a call is told once, by the report that ends
it (`CallBook.count_hangup_receive`).
-/

namespace Softphone

/-- An action that publishes no state of the registration. -/
def CallAction.isOfCall : CallAction → Bool
  | emit (.registrationChanged _) => false
  | _ => true

namespace CallEventKind

/-- Whether a report of this class ends its call. -/
def endsCall : CallEventKind → Bool
  | closed _ => true
  | _ => false

/-- Whether a report of this class establishes or ends its call. -/
def settles : CallEventKind → Bool
  | established | closed _ => true
  | _ => false

/-- Whether a report of this class asks for the ringback. -/
def asksRingback : CallEventKind → Bool
  | ringing => true
  | progress flags => flags &&& CallBook.receiveOnly = 0
  | _ => false

/-- How its call stands once a report of this class counts, as far as the application is told. -/
def announces : CallEventKind → Option Event
  | update code =>
    if code = CallBook.heldCode then some .paused
    else if code = CallBook.resumedCode then some .resuming
    else none
  | established => some .up
  | closed _ => some .hangup
  | incoming | outgoing | ringing | progress _ => none

variable {kind : CallEventKind} {e : Event}

theorem announces_cases (h : kind.announces = some e) :
    (e = .paused ∨ e = .resuming) ∧ (∃ code, kind = .update code) ∨
      e = .up ∧ kind = .established ∨ e = .hangup ∧ kind.endsCall = true := by
  cases kind with
  | update code =>
    rw [announces] at h
    split at h
    · exact .inl ⟨.inl (Option.some.inj h).symm, code, rfl⟩
    · split at h
      · exact .inl ⟨.inr (Option.some.inj h).symm, code, rfl⟩
      · cases h
  | established => exact .inr (.inl ⟨(Option.some.inj h).symm, rfl⟩)
  | closed => exact .inr (.inr ⟨(Option.some.inj h).symm, rfl⟩)
  | _ => cases h

theorem admitsNewCall_of_asksRingback (h : kind.asksRingback = true) :
    kind.admitsNewCall = false := by
  cases kind with
  | incoming | outgoing => cases h
  | _ => rfl

end CallEventKind

namespace CallBook

variable {b : CallBook} {a : CallHandle} {c : Call} {stamp : Stamp} {agent : AgentHandle}
  {event : CallEvent} {action : CallAction}

/-- When a report that counts asks for an action. -/
inductive Asks (b : CallBook) (time : Timestamp) (event : CallEvent) : CallAction → Prop
  | startRinging (hkind : event.kind = .incoming)
    (hnew : b.registry.contains event.handle = false) : Asks b time event .startRinging
  | incoming (hkind : event.kind = .incoming) (hnew : b.registry.contains event.handle = false) :
    Asks b time event (.emit (.ring event.remote .inbound))
  | outgoing (hkind : event.kind = .outgoing) {remote : String}
    (hremote : remote = ((b.finishClosing.2.registry.find? event.handle).map (·.remote)).getD
      event.remote) : Asks b time event (.emit (.ring remote .outbound))
  | playRingback (hkind : event.kind.asksRingback = true) : Asks b time event .playRingback
  /-- The tone of the closed call is cut for the call that a report brings in. -/
  | cut (hkind : event.kind = .incoming ∧ b.registry.contains event.handle = false ∨
      event.kind = .outgoing) (hclosing : b.closing.isSome = true) : Asks b time event .stopTone
  | media {flags : UInt32} (hkind : event.kind = .progress flags)
    (hreceives : flags &&& receiveOnly ≠ 0) : Asks b time event .stopTone
  | stopTone (hkind : event.kind.settles = true) : Asks b time event .stopTone
  | stopRinging (hkind : event.kind.settles = true) : Asks b time event .stopRinging
  | announce {e : Event} (hkind : event.kind.announces = some e) : Asks b time event (.emit e)
  | playBusy (hkind : event.kind = .closed (some busyHint))
    (hothers : b.otherActive? event.handle = none) : Asks b time event .playBusy
  | releaseAudio {tone : Option String} (hkind : event.kind = .closed tone)
    (hhint : tone ≠ some busyHint) (hothers : b.otherActive? event.handle = none) :
    Asks b time event .releaseAudio
  | missed (hkind : event.kind.endsCall = true) {c : Call}
    (hc : b.registry.find? event.handle = some c) (hmissed : isMissed c = true) :
    Asks b time event (.emit (.missed c.remote time))

/-! ## The actions of each report -/

theorem receive_of_stale (hstale : b.isStale event = true) (agent : Option AgentHandle) :
    b.receive stamp agent event = ([], b) := by
  unfold receive
  split
  · rfl
  · rw [if_pos hstale]

/-- A closed call that is dropped has its tone stopped, and nothing else is asked for. -/
theorem mem_finishClosing_iff :
    action ∈ b.finishClosing.1 ↔ action = .stopTone ∧ b.closing.isSome = true := by
  unfold finishClosing
  split <;> simp [*]

/-- The end of a busy tone gives the audio back, and asks for nothing else. -/
theorem eq_of_mem_onToneFinished (h : action ∈ b.onToneFinished.1) : action = .releaseAudio := by
  unfold onToneFinished at h
  split at h
  · cases h
  · dsimp only at h
    split at h
    · cases h
    · exact List.mem_singleton.1 h

/-- What the end of a call asks of the audio, unless another live call is current. -/
def parting (b : CallBook) (handle : CallHandle) (tone : Option String) : List CallAction :=
  if (b.otherActive? handle).isSome then []
  else if tone = some busyHint then [.playBusy]
  else [.releaseAudio]

theorem mem_parting_iff {tone : Option String} : action ∈ b.parting a tone ↔
    b.otherActive? a = none ∧ (tone = some busyHint ∧ action = .playBusy ∨
      tone ≠ some busyHint ∧ action = .releaseAudio) := by
  unfold parting
  cases b.otherActive? a with
  | none => by_cases hhint : tone = some busyHint <;> simp [hhint]
  | some other => simp

/-- The end of a call is told last, but for the news that it was missed. -/
theorem actions_onClosed (hc : b.registry.find? a = some c) (time : Timestamp)
    (tone : Option String) : (b.onClosed time a tone).1 =
      [.stopRinging, .stopTone] ++ b.parting a tone ++
        .emit .hangup :: (if isMissed c then [.emit (.missed c.remote time)] else []) := by
  unfold onClosed parting
  rw [hc]
  dsimp only
  cases b.otherActive? a <;> by_cases hhint : tone = some busyHint <;> cases isMissed c <;>
    simp [hhint]

/-- What each report asks for is among the cases. -/
theorem asks_of_mem (hfresh : b.isStale event = false)
    (h : action ∈ (b.receive stamp (some agent) event).1) : b.Asks stamp.time event action := by
  have hlive := live_of_not_stale hfresh
  unfold receive at h
  dsimp only at h
  rw [hfresh, if_neg Bool.false_ne_true] at h
  cases hkind : event.kind with
  | incoming =>
    rw [hkind] at h
    cases htracked : b.registry.contains event.handle with
    | true =>
      rw [onIncoming_of_tracked htracked] at h
      cases h
    | false =>
      obtain ⟨_, -, heq⟩ := onIncoming_eq stamp agent htracked hkind
      rw [heq, List.mem_append, mem_finishClosing_iff] at h
      rcases h with ⟨rfl, hclosing⟩ | h
      · exact .cut (.inl ⟨hkind, htracked⟩) hclosing
      · simp only [List.mem_cons, List.not_mem_nil, or_false] at h
        obtain rfl | rfl := h
        · exact .startRinging hkind htracked
        · exact .incoming hkind htracked
  | outgoing =>
    rw [hkind] at h
    obtain ⟨_, call, hcall, -, heq⟩ := onOutgoing_eq b stamp agent event
    rw [heq, List.mem_append, mem_finishClosing_iff, List.mem_singleton] at h
    obtain ⟨rfl, hclosing⟩ | rfl := h
    · exact .cut (.inr hkind) hclosing
    · refine .outgoing hkind ?_
      rw [hcall]
      cases b.finishClosing.2.registry.find? event.handle <;> rfl
  | ringing =>
    rw [hkind] at h
    obtain rfl := List.mem_singleton.1 h
    exact .playRingback (congrArg CallEventKind.asksRingback hkind)
  | progress flags =>
    rw [hkind] at h
    dsimp only [onProgress] at h
    split at h
    · obtain rfl := List.mem_singleton.1 h
      exact .media hkind ‹_›
    · rename_i hsends
      obtain rfl := List.mem_singleton.1 h
      refine .playRingback ?_
      rw [hkind]
      exact decide_eq_true (not_not.1 hsends)
  | update code =>
    rw [hkind] at h
    dsimp only [onUpdate] at h
    split at h
    · rename_i hheld
      obtain rfl := List.mem_singleton.1 h
      exact .announce (by rw [hkind, CallEventKind.announces, if_pos hheld])
    · rename_i hheld
      split at h
      · rename_i hresumed
        obtain rfl := List.mem_singleton.1 h
        exact .announce (by rw [hkind, CallEventKind.announces, if_neg hheld, if_pos hresumed])
      · cases h
  | established =>
    rw [hkind] at h
    simp only [onEstablished, List.mem_cons, List.not_mem_nil, or_false] at h
    have hsettles := congrArg CallEventKind.settles hkind
    obtain rfl | rfl | rfl := h
    · exact .stopRinging hsettles
    · exact .stopTone hsettles
    · exact .announce (congrArg CallEventKind.announces hkind)
  | closed tone =>
    rw [hkind] at h
    obtain ⟨c, hc, -⟩ := hlive (congrArg CallEventKind.admitsNewCall hkind)
    have hsettles := congrArg CallEventKind.settles hkind
    rw [actions_onClosed hc, List.mem_append, List.mem_append, List.mem_cons, mem_parting_iff] at h
    simp only [List.mem_cons, List.not_mem_nil, or_false] at h
    obtain ((rfl | rfl) | ⟨hothers, ⟨rfl, rfl⟩ | ⟨hhint, rfl⟩⟩) | rfl | h := h
    · exact .stopRinging hsettles
    · exact .stopTone hsettles
    · exact .playBusy hkind hothers
    · exact .releaseAudio hkind hhint hothers
    · exact .announce (congrArg CallEventKind.announces hkind)
    · split at h
      · rename_i hmissed
        obtain rfl := List.mem_singleton.1 h
        exact .missed (congrArg CallEventKind.endsCall hkind) hc hmissed
      · cases h

/-- Each of the cases is asked for. -/
theorem mem_of_asks (hfresh : b.isStale event = false) (h : b.Asks stamp.time event action) :
    action ∈ (b.receive stamp (some agent) event).1 := by
  have hclosed {tone : Option String} (hkind : event.kind = .closed tone) {c : Call}
      (hc : b.registry.find? event.handle = some c) :
      (b.onClosed stamp.time event.handle tone).1 = [.stopRinging, .stopTone] ++
        b.parting event.handle tone ++
          .emit .hangup :: (if isMissed c then [.emit (.missed c.remote stamp.time)] else []) :=
    actions_onClosed hc stamp.time tone
  have hlive := live_of_not_stale hfresh
  unfold receive
  dsimp only
  rw [hfresh, if_neg Bool.false_ne_true]
  cases h with
  | startRinging hkind hnew | incoming hkind hnew =>
    obtain ⟨_, -, heq⟩ := onIncoming_eq stamp agent hnew hkind
    rw [hkind]
    dsimp only
    rw [heq]
    simp
  | outgoing hkind hremote =>
    obtain ⟨_, call, hcall, -, heq⟩ := onOutgoing_eq b stamp agent event
    rw [hkind, hremote]
    dsimp only
    rw [heq, hcall]
    cases b.finishClosing.2.registry.find? event.handle <;> simp [Call.new]
  | cut hkind hclosing =>
    have hcut := (mem_finishClosing_iff (b := b)).2 ⟨rfl, hclosing⟩
    rcases hkind with ⟨hkind, hnew⟩ | hkind
    · obtain ⟨_, -, heq⟩ := onIncoming_eq stamp agent hnew hkind
      rw [hkind]
      dsimp only
      rw [heq]
      exact List.mem_append_left _ hcut
    · obtain ⟨_, _, -, -, heq⟩ := onOutgoing_eq b stamp agent event
      rw [hkind]
      dsimp only
      rw [heq]
      exact List.mem_append_left _ hcut
  | playRingback hasks =>
    cases hkind : event.kind with
    | ringing => exact List.mem_cons_self
    | progress flags =>
      rw [hkind] at hasks
      have hsends : flags &&& receiveOnly = 0 := of_decide_eq_true hasks
      simp [onProgress, hsends]
    | _ =>
      rw [hkind] at hasks
      cases hasks
  | media hkind hreceives =>
    rw [hkind]
    simp [onProgress, hreceives]
  | stopTone hsettles | stopRinging hsettles =>
    cases hkind : event.kind with
    | established => simp [onEstablished]
    | closed tone =>
      obtain ⟨c, hc, -⟩ := hlive (congrArg CallEventKind.admitsNewCall hkind)
      dsimp only
      rw [hclosed hkind hc]
      simp
    | _ =>
      rw [hkind] at hsettles
      cases hsettles
  | announce hannounces =>
    cases hkind : event.kind with
    | update code =>
      rw [hkind, CallEventKind.announces] at hannounces
      dsimp only [onUpdate]
      split at hannounces
      · obtain rfl := Option.some.inj hannounces
        rw [if_pos ‹_›]
        exact List.mem_cons_self
      · rw [if_neg ‹_›]
        split at hannounces
        · obtain rfl := Option.some.inj hannounces
          rw [if_pos ‹_›]
          exact List.mem_cons_self
        · cases hannounces
    | established =>
      rw [hkind] at hannounces
      obtain rfl := Option.some.inj hannounces
      simp [onEstablished]
    | closed tone =>
      rw [hkind] at hannounces
      obtain rfl := Option.some.inj hannounces
      obtain ⟨c, hc, -⟩ := hlive (congrArg CallEventKind.admitsNewCall hkind)
      dsimp only
      rw [hclosed hkind hc]
      simp
    | _ =>
      rw [hkind] at hannounces
      cases hannounces
  | playBusy hkind hothers =>
    obtain ⟨c, hc, -⟩ := hlive (congrArg CallEventKind.admitsNewCall hkind)
    rw [hkind]
    dsimp only
    rw [hclosed hkind hc]
    simp [mem_parting_iff, hothers]
  | releaseAudio hkind hhint hothers =>
    obtain ⟨c, hc, -⟩ := hlive (congrArg CallEventKind.admitsNewCall hkind)
    rw [hkind]
    dsimp only
    rw [hclosed hkind hc]
    simp [mem_parting_iff, hothers, hhint]
  | missed hends hc hmissed =>
    cases hkind : event.kind with
    | closed tone =>
      dsimp only
      rw [hclosed hkind hc]
      simp [hmissed]
    | _ =>
      rw [hkind] at hends
      cases hends

/-- **What reports ask for.** A report asks for something only if it counts and there is an agent. -/
theorem mem_receive_iff {agent : Option AgentHandle} : action ∈ (b.receive stamp agent event).1 ↔
    agent.isSome = true ∧ b.isStale event = false ∧ b.Asks stamp.time event action := by
  cases agent with
  | none => exact iff_of_false List.not_mem_nil (by simp)
  | some agent =>
    cases hstale : b.isStale event with
    | true =>
      rw [receive_of_stale hstale]
      exact iff_of_false List.not_mem_nil (by simp)
    | false =>
      refine Iff.trans ⟨asks_of_mem hstale, mem_of_asks hstale⟩ ?_
      simp

/-! ## Actions about calls -/

theorem isOfCall_onToneFinished : ∀ action ∈ b.onToneFinished.1, action.isOfCall = true := by
  intro action hmem
  rw [eq_of_mem_onToneFinished hmem]
  rfl

/-- What a report on a call asks for is about calls. -/
theorem isOfCall_receive {agent : Option AgentHandle} :
    ∀ action ∈ (b.receive stamp agent event).1, action.isOfCall = true := by
  intro action hmem
  cases (mem_receive_iff.1 hmem).2.2 with
  | announce hannounces =>
    obtain ⟨rfl | rfl, -⟩ | ⟨rfl, -⟩ | ⟨rfl, -⟩ := CallEventKind.announces_cases hannounces <;> rfl
  | _ => rfl

/-! ## How often a report tells of the end of a call -/

theorem admitsNewCall_of_endsCall (h : event.kind.endsCall = true) :
    event.kind.admitsNewCall = false := by
  cases hkind : event.kind with
  | closed => rfl
  | _ => rw [hkind] at h; cases h

/-- A report that counts tells of the end of a call once if it ends its call, and else not at all. -/
theorem count_hangup_receive (hfresh : b.isStale event = false) :
    (b.receive stamp (some agent) event).1.count (.emit .hangup) =
      if event.kind.endsCall then 1 else 0 := by
  cases hkind : event.kind with
  | closed tone =>
    obtain ⟨c, hc, -⟩ := live_of_not_stale hfresh (congrArg CallEventKind.admitsNewCall hkind)
    have hparting : CallAction.emit .hangup ∉ b.parting event.handle tone := by
      simp [mem_parting_iff]
    unfold receive
    dsimp only
    rw [hfresh, if_neg Bool.false_ne_true, hkind]
    dsimp only
    rw [actions_onClosed hc, List.count_append, List.count_append, List.count_cons_self,
      List.count_eq_zero.2 hparting]
    split <;> rfl
  | _ =>
    refine List.count_eq_zero.2 fun hmem => ?_
    cases (mem_receive_iff.1 hmem).2.2 with
    | announce hannounces =>
      rw [hkind] at hannounces
      obtain ⟨h | h, -⟩ | ⟨h, -⟩ | ⟨-, hends⟩ := CallEventKind.announces_cases hannounces
      · cases h
      · cases h
      · cases h
      · cases hends

end CallBook

end Softphone
