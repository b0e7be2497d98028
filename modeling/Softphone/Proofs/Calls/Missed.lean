import Softphone.Proofs.Calls.Callers
import Softphone.Proofs.Calls.History
import Softphone.Proofs.Since

/-!
# Missed calls

A call is missed exactly if it came in and ends before it was established. The list of missed calls and
what the application is told of them agree, entry by entry (`CallBook.missed_exactly`).
-/

namespace Softphone

/-- The missed call that an action tells of. -/
def CallAction.missed? : CallAction → Option MissedCall
  | .emit (.missed remote time) => some ⟨remote, time⟩
  | _ => none

namespace CallBook

/-- Whether a happening is a report, made while there is an agent, that establishes or ends the call under
a handle. -/
def Happening.settles (x : Happening) (handle : CallHandle) : Bool :=
  match x with
  | .report _ (some _) event => event.handle = handle && event.kind.settles
  | _ => false

/-- In the course of some happenings a call came in under a handle that was free, and no report since then
has established or ended it. -/
def Unanswered (xs : List Happening) (handle : CallHandle) (remote : String) : Prop :=
  ∃ before stamp agent later,
    xs = before ++ .report stamp (some agent) ⟨handle, .incoming, remote⟩ :: later ∧
      (History.after before).book.registry.contains handle = false ∧
      ∀ x ∈ later, x.settles handle = false

/-- A report that the call under a handle has ended, made at a time while there is an agent. -/
def Happening.Ends (x : Happening) (handle : CallHandle) (time : Timestamp) : Prop :=
  ∃ stamp agent tone text, x = .report stamp (some agent) ⟨handle, .closed tone, text⟩ ∧
    stamp.time = time

/-- Which calls were missed in the course of some happenings, and with the one that comes next. -/
structure MissedExactly (xs : List Happening) : Prop where
  /-- The application was told of the calls in the list, in order and of no others. -/
  told : (History.after xs).book.missed = (History.after xs).actions.filterMap CallAction.missed?
  /-- One happening adds one entry at most. -/
  added_cases : ∀ x,
    (History.after (xs ++ [x])).book.missed = (History.after xs).book.missed ∨
      ∃ entry, (History.after (xs ++ [x])).book.missed = (History.after xs).book.missed ++ [entry]
  /-- It adds one exactly if it ends a call that came in and is still unanswered. -/
  added_iff : ∀ x entry,
    (History.after (xs ++ [x])).book.missed = (History.after xs).book.missed ++ [entry] ↔
      ∃ handle, Unanswered xs handle entry.remote ∧ x.Ends handle entry.time
  /-- Unanswered are the live inbound calls that were never established. -/
  unanswered_iff : ∀ handle remote, Unanswered xs handle remote ↔
    ∃ call, (History.after xs).book.registry.find? handle = some call ∧ call.isLive = true ∧
      call.direction = .inbound ∧ call.wasEstablished = false ∧ call.remote = remote
  /-- The application is told right after it was told of the end of the call. -/
  after_hangup : ∀ x before remote time later,
    ((History.after xs).book.happen x).1 = before ++ .emit (.missed remote time) :: later →
      before.getLast? = some (.emit .hangup)

variable {b : CallBook} {a : CallHandle} {c : Call} {stamp : Stamp} {agent : AgentHandle}
  {event : CallEvent} {x : Happening} {xs : List Happening} {remote : String}

/-! ## What a report tells of missed calls -/

/-- Some calls are missed and told of, and no others. -/
structure Tells (b : CallBook) (missed : List MissedCall) (r : List CallAction × CallBook) : Prop where
  told : r.1.filterMap CallAction.missed? = missed
  added : r.2.missed = b.missed ++ missed

theorem Tells.nothing {actions : List CallAction} {b' : CallBook}
    (h : actions.filterMap CallAction.missed? = []) (hmissed : b'.missed = b.missed) :
    b.Tells [] (actions, b') :=
  ⟨h, hmissed.trans (List.append_nil _).symm⟩

theorem tells_finishClosing : b.Tells [] b.finishClosing := by
  unfold finishClosing
  split
  · exact .nothing rfl rfl
  · exact .nothing rfl rfl

theorem track_missed {b' : CallBook} {call : Call} (htrack : b.track call = .ok b') :
    b'.missed = b.missed := by
  obtain ⟨_, rfl⟩ := track_eq_ok_iff.1 htrack
  rfl

theorem tells_onIncoming : b.Tells [] (b.onIncoming stamp agent event) := by
  obtain ⟨htold, hadded⟩ := tells_finishClosing (b := b)
  rw [List.append_nil] at hadded
  unfold onIncoming
  split
  · exact .nothing rfl rfl
  · dsimp only
    split
    · exact .nothing htold hadded
    · rename_i htrack
      refine .nothing ?_ ((track_missed htrack).trans hadded)
      rw [List.filterMap_append, htold]
      rfl

theorem markOutgoing_missed {b' : CallBook} (hmark : b.markOutgoing stamp agent event = .ok b') :
    b'.missed = b.missed := by
  unfold markOutgoing at hmark
  split at hmark
  · cases hcurrent : b.registry.setCurrent event.handle with
    | error e =>
      rw [hcurrent] at hmark
      cases hmark
    | ok r =>
      rw [hcurrent] at hmark
      cases hmark
      rfl
  · exact track_missed hmark

theorem tells_onOutgoing : b.Tells [] (b.onOutgoing stamp agent event) := by
  obtain ⟨htold, hadded⟩ := tells_finishClosing (b := b)
  rw [List.append_nil] at hadded
  unfold onOutgoing
  dsimp only
  split
  · exact .nothing htold hadded
  · rename_i hmark
    have hmarked := (markOutgoing_missed hmark).trans hadded
    split
    · exact .nothing htold hmarked
    · refine .nothing ?_ hmarked
      rw [List.filterMap_append, htold]
      rfl

theorem tells_onProgress (flags : UInt32) : b.Tells [] (b.onProgress a flags) := by
  unfold onProgress
  split
  · exact .nothing rfl rfl
  · exact .nothing rfl rfl

theorem tells_onUpdate (code : UInt32) : b.Tells [] (b.onUpdate a code) := by
  unfold onUpdate
  dsimp only
  split
  · exact .nothing rfl rfl
  · split
    · exact .nothing rfl rfl
    · exact .nothing rfl rfl

/-- The report that ends a call asks for other things first, then tells of the end, and last that the call
was missed, if it was. -/
theorem onClosed_eq (hc : b.registry.find? a = some c) (time : Timestamp) (tone : Option String) :
    ∃ others, others.filterMap CallAction.missed? = [] ∧
      (b.onClosed time a tone).1 = others ++ [.emit .hangup] ++
        (if isMissed c then [.emit (.missed c.remote time)] else []) ∧
      (b.onClosed time a tone).2.missed =
        b.missed ++ if isMissed c then [⟨c.remote, time⟩] else [] := by
  refine ⟨[.stopRinging, .stopTone] ++ b.parting a tone, ?_, ?_, ?_⟩
  · refine List.filterMap_eq_nil_iff.2 (List.forall_mem_append.2 ⟨by simp [CallAction.missed?], ?_⟩)
    intro action hmem
    obtain ⟨-, ⟨-, rfl⟩ | ⟨-, rfl⟩⟩ := mem_parting_iff.1 hmem <;> rfl
  · rw [actions_onClosed hc, List.append_assoc _ [_], List.singleton_append]
  · unfold onClosed
    rw [hc]
    dsimp only
    split <;> split <;> simp [linger]

/-- The end of a live call: it is missed if somebody waited for an answer. -/
theorem tells_onClosed (hc : b.registry.find? a = some c) (hlive : c.isLive = true)
    (time : Timestamp) (tone : Option String) :
    b.Tells ((b.caller? a).toList.map (⟨·, time⟩)) (b.onClosed time a tone) := by
  have hcaller : b.caller? a = if isMissed c then some c.remote else none := by
    rw [caller?_of_find? hc, Call.caller?, hlive, Bool.true_and]
  obtain ⟨others, hothers, hactions, hmissed⟩ := onClosed_eq hc time tone
  rw [hcaller]
  refine ⟨?_, hmissed.trans ?_⟩
  · rw [hactions, List.filterMap_append, List.filterMap_append, hothers]
    cases isMissed c <;> rfl
  · cases isMissed c <;> rfl

/-- The calls that a happening makes missed. -/
def missedBy (b : CallBook) : Happening → List MissedCall
  | .report stamp (some _) event =>
    if event.kind.endsCall then (b.caller? event.handle).toList.map (⟨·, stamp.time⟩) else []
  | _ => []

theorem tells_receive (stamp : Stamp) (agent : AgentHandle) (event : CallEvent) :
    b.Tells (b.missedBy (.report stamp (some agent) event)) (b.receive stamp (some agent) event) := by
  rw [missedBy]
  cases hstale : b.isStale event with
  | true =>
    rw [receive_of_stale hstale, caller?_of_stale hstale]
    change b.Tells (if event.kind.endsCall then [] else []) ([], b)
    rw [ite_self]
    exact .nothing rfl rfl
  | false =>
    unfold receive
    dsimp only
    rw [hstale, if_neg Bool.false_ne_true]
    cases hkind : event.kind with
    | incoming => exact tells_onIncoming
    | outgoing => exact tells_onOutgoing
    | ringing => exact .nothing rfl rfl
    | progress flags => exact tells_onProgress flags
    | update code => exact tells_onUpdate code
    | established => exact .nothing rfl rfl
    | closed tone =>
      obtain ⟨c, hc, hlive⟩ := live_of_not_stale hstale (congrArg CallEventKind.admitsNewCall hkind)
      exact tells_onClosed hc hlive stamp.time tone

theorem dialled_missed (call : Call) (connected : Bool) :
    (b.dialled call connected).missed = b.missed := by
  unfold dialled
  split
  · rfl
  · rename_i htrack
    have htracked := track_missed htrack
    split <;> exact htracked

/-- **What becomes missed.** A happening adds to the missed calls those that it tells of. -/
theorem tells_happen (b : CallBook) (x : Happening) : b.Tells (b.missedBy x) (b.happen x) := by
  cases x with
  | report stamp agent event =>
    cases agent with
    | none => exact .nothing rfl rfl
    | some agent => exact tells_receive stamp agent event
  | toneFinished =>
    change b.Tells [] b.onToneFinished
    unfold onToneFinished
    split
    · exact .nothing rfl rfl
    · refine .nothing ?_ rfl
      split <;> rfl
  | dial stamp handle agent target connected => exact .nothing rfl (dialled_missed _ connected)

/-! ## Where in the actions it is told -/

/-- Where the last of some actions is the only one of its kind, nothing else of that kind comes before. -/
theorem eq_of_append_singleton {α : Type} {p : α → Prop} {firsts before later : List α} {last x : α}
    (hfirsts : ∀ y ∈ firsts, ¬ p y) (hx : p x) (h : firsts ++ [last] = before ++ x :: later) :
    before = firsts := by
  rcases List.append_eq_append_iff.1 h with ⟨rest, rfl, hlast⟩ | ⟨rest, rfl, hlater⟩
  · cases rest with
    | nil => exact List.append_nil _
    | cons y rest => simp at hlast
  · cases rest with
    | nil => exact (List.append_nil _).symm
    | cons y rest =>
      obtain ⟨rfl, -⟩ := List.cons.inj hlater
      exact absurd hx (hfirsts _ (by simp))

theorem mem_missedBy_iff {entry : MissedCall} : entry ∈ b.missedBy x ↔
    ∃ handle, b.caller? handle = some entry.remote ∧ x.Ends handle entry.time := by
  constructor
  · intro hmem
    unfold missedBy at hmem
    split at hmem
    · rename_i stamp agent event
      split at hmem
      · rename_i hends
        obtain ⟨remote, hcaller, rfl⟩ := List.mem_map.1 hmem
        obtain ⟨handle, kind, text⟩ := event
        cases kind with
        | closed tone =>
          exact ⟨handle, Option.mem_toList.1 hcaller, stamp, agent, tone, text, rfl, rfl⟩
        | _ => cases hends
      · cases hmem
    · cases hmem
  · rintro ⟨handle, hcaller, stamp, agent, tone, text, rfl, htime⟩
    refine List.mem_map.2 ⟨entry.remote, Option.mem_toList.2 hcaller, ?_⟩
    rw [htime]

theorem missedBy_cases (b : CallBook) (x : Happening) :
    b.missedBy x = [] ∨ ∃ entry, b.missedBy x = [entry] := by
  unfold missedBy
  split
  · split
    · rename_i stamp agent event _
      cases b.caller? event.handle with
      | none => exact .inl rfl
      | some remote => exact .inr ⟨_, rfl⟩
    · exact .inl rfl
  · exact .inl rfl

/-- A missed call is told of right after the end of the call. -/
theorem getLast?_of_missed {before later : List CallAction} {time : Timestamp}
    (h : (b.happen x).1 = before ++ .emit (.missed remote time) :: later) :
    before.getLast? = some (.emit .hangup) := by
  have hmem : (⟨remote, time⟩ : MissedCall) ∈ b.missedBy x := by
    rw [← (tells_happen b x).told, h, List.filterMap_append]
    exact List.mem_append_right _ List.mem_cons_self
  obtain ⟨handle, hcaller, stamp, agent, tone, text, rfl, -⟩ := mem_missedBy_iff.1 hmem
  obtain ⟨c, hc, hlive, hinbound, hfresh, -⟩ := caller?_eq_some_iff.1 hcaller
  obtain ⟨others, hothers, hactions, -⟩ := onClosed_eq hc stamp.time tone
  have hmissed : isMissed c = true := by simp [isMissed, hinbound, hfresh]
  have hstale : b.isStale ⟨handle, .closed tone, text⟩ = false := by
    rw [isStale, hc]
    simpa [Call.isLive] using hlive
  have hreceive : (b.happen (.report stamp (some agent) ⟨handle, .closed tone, text⟩)).1 =
      (b.onClosed stamp.time handle tone).1 := by
    rw [happen, receive, hstale]
    rfl
  rw [hreceive, hactions, if_pos hmissed] at h
  have hquiet : ∀ action ∈ others ++ [.emit .hangup], ¬ action.missed?.isSome := by
    intro action haction
    rw [List.mem_append, List.mem_singleton] at haction
    rcases haction with haction | rfl
    · simp [List.filterMap_eq_nil_iff.1 hothers action haction]
    · simp [CallAction.missed?]
  rw [eq_of_append_singleton hquiet rfl h, List.getLast?_append]
  rfl

/-! ## Who is still unanswered -/

/-- **Who waits for an answer after a happening.** A report on a free handle brings in a caller, and a
caller stays until a report establishes or ends the call. -/
theorem caller?_happen (h : b.Consistent) : (b.happen x).2.caller? a = some remote ↔
    (∃ stamp agent, x = .report stamp (some agent) ⟨a, .incoming, remote⟩ ∧
      b.registry.contains a = false) ∨
    (b.caller? a = some remote ∧ x.settles a = false) := by
  have hkept {b' : CallBook} (hcaller : b'.caller? a = b.caller? a) (hspared : x.settles a = false)
      (hother : ∀ stamp agent, x ≠ .report stamp (some agent) ⟨a, .incoming, remote⟩) :
      b'.caller? a = some remote ↔
        (∃ stamp agent, x = .report stamp (some agent) ⟨a, .incoming, remote⟩ ∧
          b.registry.contains a = false) ∨ (b.caller? a = some remote ∧ x.settles a = false) := by
    rw [hcaller]
    exact ⟨fun hwaits => .inr ⟨hwaits, hspared⟩,
      fun hcases => hcases.elim (fun ⟨_, _, heq, _⟩ => absurd heq (hother _ _)) And.left⟩
  cases x with
  | toneFinished => exact hkept (caller?_onToneFinished h) rfl (fun _ _ => nofun)
  | dial stamp handle agent target connected =>
    exact hkept (caller?_dialled rfl connected) rfl (fun _ _ => nofun)
  | report stamp agent event =>
    cases agent with
    | none => exact hkept rfl rfl (fun _ _ heq => by cases heq)
    | some agent =>
      change (b.receive stamp (some agent) event).2.caller? a = some remote ↔ _
      rw [caller?_receive h]
      obtain ⟨handle, kind, text⟩ := event
      by_cases ha : a = handle
      · subst ha
        cases hnew : b.registry.contains a with
        | true => cases kind <;> simp [Happening.settles, CallEventKind.settles]
        | false =>
          have hnone := caller?_of_untracked hnew
          cases kind <;> simp [Happening.settles, CallEventKind.settles, hnone]
      · simp [Happening.settles, ha, Ne.symm ha]

theorem unanswered_iff_since : Unanswered xs a remote ↔ ∃ before y later, xs = before ++ y :: later ∧
    (∃ stamp agent, y = .report stamp (some agent) ⟨a, .incoming, remote⟩ ∧
      (History.after before).book.registry.contains a = false) ∧
    ∀ z ∈ later, z.settles a = false := by
  constructor
  · rintro ⟨before, stamp, agent, later, heq, hnew, hlater⟩
    exact ⟨before, _, later, heq, ⟨stamp, agent, rfl, hnew⟩, hlater⟩
  · rintro ⟨before, _, later, heq, ⟨stamp, agent, rfl, hnew⟩, hlater⟩
    exact ⟨before, stamp, agent, later, heq, hnew, hlater⟩

theorem unanswered_concat : Unanswered (xs ++ [x]) a remote ↔
    (∃ stamp agent, x = .report stamp (some agent) ⟨a, .incoming, remote⟩ ∧
      (History.after xs).book.registry.contains a = false) ∨
    (Unanswered xs a remote ∧ x.settles a = false) := by
  rw [unanswered_iff_since, unanswered_iff_since]
  exact exists_since_concat_iff

theorem caller?_after_iff : (History.after xs).book.caller? a = some remote ↔
    Unanswered xs a remote := by
  induction xs using List.reverseRecOn with
  | nil => exact iff_of_false nofun fun ⟨before, _, _, later, heq, _⟩ => by simp at heq
  | append_singleton xs x ih =>
    rw [History.after_concat, unanswered_concat, ← ih]
    exact caller?_happen (History.consistent_after xs)

theorem told_after (xs : List Happening) :
    (History.after xs).book.missed = (History.after xs).actions.filterMap CallAction.missed? := by
  induction xs using List.reverseRecOn with
  | nil => rfl
  | append_singleton xs x ih =>
    have htells := tells_happen (History.after xs).book x
    rw [History.after_concat]
    change ((History.after xs).book.happen x).2.missed = List.filterMap _ (_ ++ _)
    rw [List.filterMap_append, htells.told, htells.added, ih]

/-- **Missed calls are listed exactly.** In the course of any reports, ends of the busy tone and dialled
calls, the list of missed calls and what the application was told of them agree. A happening adds an entry
exactly if it ends a call that came in, from the party that the entry names, and was not established
since. -/
theorem missed_exactly (xs : List Happening) : MissedExactly xs := by
  have hadded (x : Happening) : (History.after (xs ++ [x])).book.missed =
      (History.after xs).book.missed ++ (History.after xs).book.missedBy x := by
    rw [History.after_concat]
    exact (tells_happen _ x).added
  refine ⟨told_after xs, fun x => ?_, fun x entry => ?_, fun handle remote => ?_, fun x before => ?_⟩
  · rw [hadded]
    rcases missedBy_cases (History.after xs).book x with hnone | ⟨entry, hentry⟩
    · exact .inl (by rw [hnone, List.append_nil])
    · exact .inr ⟨entry, by rw [hentry]⟩
  · have honly : (History.after xs).book.missedBy x = [entry] ↔
        entry ∈ (History.after xs).book.missedBy x := by
      rcases missedBy_cases (History.after xs).book x with hnone | ⟨other, hother⟩
      · simp [hnone]
      · simp [hother, eq_comm]
    rw [hadded, List.append_cancel_left_eq, honly, mem_missedBy_iff]
    simp only [caller?_after_iff]
  · rw [← caller?_after_iff, caller?_eq_some_iff]
  · exact fun _ _ _ => getLast?_of_missed

/-- A call that ends while the line is busy is missed once, though its end is reported twice. -/
example :
    let report (kind : CallEventKind) (text : String) : Happening :=
      .report default (some ⟨1⟩) ⟨⟨7⟩, kind, text⟩
    (History.after [report .incoming "bob", report (.closed (some busyHint)) "",
      report (.closed none) ""]).book.missed = [⟨"bob", default⟩] := by
  decide

end CallBook

end Softphone
