import Softphone.Proofs.Calls.Lifecycle
import Softphone.Proofs.Calls.Live

/-!
# Callers who wait for an answer

Which calls came in and have neither been established nor ended. A report on an unknown handle brings in
a caller, and only a report that establishes or ends the call takes the caller away
(`CallBook.caller?_receive`); call control, other calls and the end of a busy tone do not.
-/

namespace Softphone

/-- The other party of a live call that came in and was never established. -/
def Call.caller? (c : Call) : Option String :=
  if c.isLive && CallBook.isMissed c then some c.remote else none

namespace CallBook

variable {b b' : CallBook} {a x : CallHandle} {c call : Call}

/-- The party that waits for an answer under a handle. -/
def caller? (b : CallBook) (a : CallHandle) : Option String := (b.registry.find? a).bind Call.caller?

theorem caller?_of_find? (hc : b.registry.find? a = some c) : b.caller? a = c.caller? := by
  rw [caller?, hc]
  rfl

theorem caller?_of_untracked (h : b.registry.contains a = false) : b.caller? a = none := by
  rw [Registry.contains, Option.isSome_eq_false_iff, Option.isNone_iff_eq_none] at h
  rw [caller?, h]
  rfl

theorem caller?_eq_some_iff {remote : String} : b.caller? a = some remote ↔
    ∃ c, b.registry.find? a = some c ∧ c.isLive = true ∧ c.direction = .inbound ∧
      c.wasEstablished = false ∧ c.remote = remote := by
  simp [caller?, Option.bind_eq_some_iff, Call.caller?, isMissed, and_assoc]

theorem caller?_of_closing (h : b.Consistent) (ha : b.closing = some a) : b.caller? a = none := by
  obtain ⟨c, hc⟩ := Registry.contains_iff.1 (h.tracked ha)
  rw [caller?_of_find? hc, Call.caller?, Call.isLive, (h.closed_iff hc).2 ha]
  rfl

/-- Nobody waits under the handle of the closed call when it goes. -/
theorem caller?_onToneFinished (h : b.Consistent) : b.onToneFinished.2.caller? x = b.caller? x := by
  rw [caller?, find?_onToneFinished]
  split
  · rename_i hclosing
    exact (caller?_of_closing h hclosing).symm
  · rfl

/-- A call that was dialled has no caller. -/
theorem caller?_dialled (hdirection : call.direction = .outbound) (connected : Bool) :
    (b.dialled call connected).caller? x = b.caller? x := by
  rw [caller?, find?_dialled]
  split
  · rename_i hdialled
    rw [caller?_of_untracked hdialled.2.1]
    simp [Call.caller?, isMissed, hdirection]
  · rfl

/-! ## Reports -/

variable {stamp : Stamp} {agent : AgentHandle} {event : CallEvent}

theorem caller?_of_stale (hstale : b.isStale event = true) : b.caller? event.handle = none := by
  unfold isStale at hstale
  split at hstale
  · rename_i hnone
    rw [caller?, hnone]
    rfl
  · rename_i c hc
    rw [caller?_of_find? hc, Call.caller?, Call.isLive, hstale]
    rfl

/-- A report that neither establishes nor ends its call leaves whoever waits for an answer. -/
theorem caller?_reported (hlive : c.isLive = true) (hkind : event.kind.settles = false) :
    (c.reported stamp.time event.kind).caller? = c.caller? := by
  have hgoes : event.kind.endsCall = false := by
    cases h : event.kind <;> simp_all [CallEventKind.settles, CallEventKind.endsCall]
  have hother : event.kind ≠ .established := by
    intro h
    rw [h] at hkind
    cases hkind
  have hsame := (Call.becomes_reported hlive stamp.time event.kind).same
  rw [Call.caller?, Call.caller?, isLive_reported hlive hgoes, hlive, isMissed, isMissed,
    hsame.direction, hsame.remote, Call.wasEstablished, Call.wasEstablished,
    Call.establishedAt_reported hother]

theorem caller?_callAfter (hfresh : b.isStale event = false) :
    (b.callAfter stamp agent event).bind Call.caller? =
      if event.kind.settles then none
      else if event.kind = .incoming ∧ b.registry.contains event.handle = false then some event.remote
      else b.caller? event.handle := by
  cases hsettles : event.kind.settles with
  | true =>
    rw [callAfter]
    cases hkind : event.kind with
    | established => simp [CallEventKind.endsCall, Call.reported, Call.caller?, isMissed, Call.wasEstablished]
    | closed tone =>
      cases b.lingers event <;>
        simp [CallEventKind.endsCall, Call.reported, Call.caller?, Call.isLive, CallState.isTerminal]
    | _ =>
      rw [hkind] at hsettles
      cases hsettles
  | false =>
    have hgoes : event.kind.endsCall = false := by
      cases h : event.kind <;> simp_all [CallEventKind.settles, CallEventKind.endsCall]
    rw [callAfter, hgoes]
    cases hc : b.registry.find? event.handle with
    | some c =>
      have htracked := Registry.contains_iff.2 ⟨c, hc⟩
      rw [isStale, hc] at hfresh
      rw [caller?_of_find? hc, htracked]
      simpa using caller?_reported (by simpa [Call.isLive] using hfresh) hsettles
    | none =>
      have hfree := find?_eq_none_iff.1 hc
      rw [isStale, hc] at hfresh
      rw [caller?_of_untracked hfree, hfree]
      cases hkind : event.kind <;> simp_all [CallEventKind.admitsNewCall, broughtIn, Call.reported,
        Call.caller?, isMissed, Call.new, Call.isLive, CallState.isTerminal, Call.wasEstablished]

/-- **Who waits for an answer after a report.** A report on an unknown handle brings in a caller; one that
establishes or ends a call takes the caller under its handle away. -/
theorem caller?_receive (h : b.Consistent) : (b.receive stamp (some agent) event).2.caller? x =
    if x = event.handle then
      if event.kind.settles then none
      else if event.kind = .incoming ∧ b.registry.contains x = false then some event.remote
      else b.caller? x
    else b.caller? x := by
  cases hstale : b.isStale event with
  | true =>
    rw [receive_of_stale hstale]
    split
    · rename_i hx
      subst hx
      have hknown : ¬ (event.kind = .incoming ∧ b.registry.contains event.handle = false) := by
        rintro ⟨hkind, hnew⟩
        rw [isStale_of_untracked hnew, hkind] at hstale
        cases hstale
      rw [if_neg hknown, caller?_of_stale hstale, ite_self]
    · rfl
  | false =>
    rw [caller?, find?_receive h hstale]
    by_cases hx : x = event.handle
    · subst hx
      rw [if_pos rfl, if_pos rfl, caller?_callAfter hstale]
    · rw [if_neg hx, if_neg hx]
      split
      · rename_i hdropped
        exact (caller?_of_closing h hdropped.1).symm
      · rfl

/-! ## The same callers -/

/-- The same parties wait for an answer. -/
structure SameCallers (b b' : CallBook) : Prop where
  consistent : b.Consistent → b'.Consistent
  caller? : b.Consistent → ∀ x, b'.caller? x = b.caller? x

namespace SameCallers

theorem refl : b.SameCallers b := ⟨id, fun _ _ => rfl⟩

theorem trans {b'' : CallBook} (h : b.SameCallers b') (h' : b'.SameCallers b'') : b.SameCallers b'' where
  consistent := h'.consistent ∘ h.consistent
  caller? hb x := (h'.caller? (h.consistent hb) x).trans (h.caller? hb x)

theorem onToneFinished : b.SameCallers b.onToneFinished.2 :=
  ⟨Consistent.onToneFinished, fun h _ => caller?_onToneFinished h⟩

theorem dialled (hdirection : call.direction = .outbound) (hopen : call.state ≠ .closed)
    (connected : Bool) : b.SameCallers (b.dialled call connected) :=
  ⟨fun h => h.dialled hopen connected, fun _ _ => caller?_dialled hdirection connected⟩

end SameCallers

/-- Somebody waits for an answer. -/
def HasCaller (b : CallBook) : Prop := ∃ x remote, b.caller? x = some remote

theorem SameCallers.hasCaller (h : b.SameCallers b') (hb : b.Consistent) (hcaller : b.HasCaller) :
    b'.HasCaller := by
  obtain ⟨x, remote, hwaits⟩ := hcaller
  exact ⟨x, remote, (h.caller? hb x).trans hwaits⟩

/-! ## For whom it rings -/

/-- Whoever waits for an answer still does after a report, or it asks for the end of ringing. -/
theorem hasCaller_receive (h : b.Consistent) (agent : Option AgentHandle) (hcaller : b.HasCaller) :
    .stopRinging ∈ (b.receive stamp agent event).1 ∨ (b.receive stamp agent event).2.HasCaller := by
  obtain ⟨x, remote, hwaits⟩ := hcaller
  cases agent with
  | none => exact .inr ⟨x, remote, hwaits⟩
  | some agent =>
    have hafter : (b.receive stamp (some agent) event).2.caller? x = _ := caller?_receive h
    by_cases hsettled : x = event.handle ∧ event.kind.settles = true
    · obtain ⟨rfl, hsettles⟩ := hsettled
      have hfresh : b.isStale event = false := by
        refine Bool.eq_false_iff.2 fun hstale => ?_
        rw [caller?_of_stale hstale] at hwaits
        cases hwaits
      exact .inl (mem_of_asks hfresh (.stopRinging hsettles))
    · refine .inr ⟨x, remote, hafter.trans ?_⟩
      split
      · rename_i hx
        rw [if_neg fun hsettles => hsettled ⟨hx, hsettles⟩, if_neg, hwaits]
        rintro ⟨-, hnew⟩
        rw [caller?_of_untracked hnew] at hwaits
        cases hwaits
      · exact hwaits

theorem startRinging_mem_receive {agent : Option AgentHandle}
    (h : .startRinging ∈ (b.receive stamp agent event).1) :
    agent.isSome = true ∧ event.kind = .incoming ∧ b.registry.contains event.handle = false := by
  obtain ⟨hagent, -, hasks⟩ := mem_receive_iff.1 h
  cases hasks with
  | startRinging hkind hnew => exact ⟨hagent, hkind, hnew⟩

/-- Whenever a report asks for ringing somebody waits for an answer. -/
theorem hasCaller_of_startRinging (h : b.Consistent) {agent : Option AgentHandle}
    (hstarts : .startRinging ∈ (b.receive stamp agent event).1) :
    (b.receive stamp agent event).2.HasCaller := by
  obtain ⟨hagent, hkind, hnew⟩ := startRinging_mem_receive hstarts
  obtain ⟨agent, rfl⟩ := Option.isSome_iff_exists.1 hagent
  refine ⟨event.handle, event.remote, (caller?_receive h).trans ?_⟩
  rw [if_pos rfl, hkind, if_neg (by decide), if_pos ⟨rfl, hnew⟩]

theorem ringing_not_mem_onToneFinished :
    .startRinging ∉ b.onToneFinished.1 ∧ .stopRinging ∉ b.onToneFinished.1 := by
  constructor <;> exact fun hmem => nomatch eq_of_mem_onToneFinished hmem

end CallBook

end Softphone
