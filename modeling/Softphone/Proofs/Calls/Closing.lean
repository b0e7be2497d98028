import Softphone.Proofs.Calls.Consistent

/-!
# The closed call and its tone

Every report either leaves the closed call alone, drops it and stops its tone, or puts another call in
its place and asks for the busy tone (`CallBook.receive_ensues`). A report that leaves the closed call
alone stops its tone all the same if it `endsTone`.
-/

namespace Softphone.CallBook

variable {b b' : CallBook} {a : CallHandle} {c : Call}

/-! ## What a report asks of the tones -/

/-- Whether a report of this kind, on a live call, ends the tone of a call without starting another. -/
def silences (b : CallBook) (event : CallEvent) : Bool :=
  match event.kind with
  | .established => true
  | .progress flags => flags &&& receiveOnly ≠ 0
  | .closed tone => !(tone = some busyHint && (b.otherActive? event.handle).isNone)
  | _ => false

/-- Whether a report is on a live call and ends the tone of a call without starting another. -/
def endsTone (b : CallBook) (agent : Option AgentHandle) (event : CallEvent) : Bool :=
  agent.isSome && (b.registry.find? event.handle).any (·.isLive) && b.silences event

/-- How the actions of a report go with what becomes of the closed call. -/
inductive Ensues (b : CallBook) (silent : Bool) : List CallAction × CallBook → Prop
  /-- The closed call stays as it is. -/
  | kept {actions : List CallAction} {b' : CallBook} (hbusy : .playBusy ∉ actions)
    (htone : .stopTone ∈ actions ↔ silent = true) (hclosing : b'.closing = b.closing) :
    Ensues b silent (actions, b')
  /-- The closed call, if there is one, goes with its tone. -/
  | dropped {actions : List CallAction} {b' : CallBook} (hbusy : .playBusy ∉ actions)
    (htone : b.closing.isSome = true → .stopTone ∈ actions) (hsilent : silent = false)
    (hclosing : b'.closing = none) : Ensues b silent (actions, b')
  /-- Another call closes, and its busy tone is to play. -/
  | replaced {rest : List CallAction} {b' : CallBook} (hbusy : .playBusy ∉ rest)
    (htone : .stopTone ∉ rest) (hsilent : silent = false) (hclosing : b'.closing.isSome = true) :
    Ensues b silent ([.stopRinging, .stopTone, .playBusy] ++ rest, b')

theorem finishClosing_closing : b.finishClosing.2.closing = none := by
  unfold finishClosing
  split
  · assumption
  · rfl

theorem onToneFinished_closing : b.onToneFinished.2.closing = none := by
  unfold onToneFinished
  split
  · assumption
  · rfl

theorem finishClosing_actions :
    .playBusy ∉ b.finishClosing.1 ∧ (b.closing.isSome = true → .stopTone ∈ b.finishClosing.1) := by
  unfold finishClosing
  split <;> simp_all

theorem ensues_finishClosing (actions : List CallAction)
    (hbusy : .playBusy ∉ actions) (hclosing : b'.closing = b.finishClosing.2.closing) :
    b.Ensues false (b.finishClosing.1 ++ actions, b') := by
  refine .dropped ?_ (fun hsome => ?_) rfl (hclosing.trans finishClosing_closing)
  · rw [List.mem_append, not_or]
    exact ⟨finishClosing_actions.1, hbusy⟩
  · exact List.mem_append_left _ (finishClosing_actions.2 hsome)

variable {stamp : Stamp} {agent : AgentHandle} {event : CallEvent}

theorem onIncoming_ensues : b.Ensues false (b.onIncoming stamp agent event) := by
  unfold onIncoming
  split
  · exact .kept nofun (iff_of_false nofun nofun) rfl
  · dsimp only
    split
    · simpa using ensues_finishClosing [] nofun rfl
    · rename_i htrack
      exact ensues_finishClosing _ (by simp) (track_closing htrack)

theorem markOutgoing_closing (h : b.markOutgoing stamp agent event = .ok b') :
    b'.closing = b.closing :=
  (markOutgoing_cases h).elim And.right track_closing

theorem onOutgoing_ensues : b.Ensues false (b.onOutgoing stamp agent event) := by
  unfold onOutgoing
  dsimp only
  split
  · simpa using ensues_finishClosing [] nofun rfl
  · rename_i hmark
    split
    · simpa using ensues_finishClosing [] nofun (markOutgoing_closing hmark)
    · exact ensues_finishClosing _ (by simp) (markOutgoing_closing hmark :)

theorem onClosed_ensues (hc : b.registry.find? a = some c) (time : Timestamp)
    (tone : Option String) :
    b.Ensues (!(tone = some busyHint && (b.otherActive? a).isNone)) (b.onClosed time a tone) := by
  rcases closes_cases b a tone with ⟨rfl, hothers⟩ | hleaves
  · obtain ⟨rest, missed, hbusy, htone, heq⟩ := onClosed_lingering hc hothers time
    rw [heq]
    exact .replaced hbusy htone (by simp [hothers]) rfl
  · obtain ⟨rest, missed, hbusy, htone, heq⟩ := onClosed_leaving hc hleaves time
    rw [heq]
    refine .kept (by simpa using hbusy) (iff_of_true (by simp) ?_) rfl
    rcases hleaves with hhint | hothers
    · simp [hhint]
    · simp [Option.isNone_eq_false_iff.2 hothers]

theorem onUpdate_ensues (a : CallHandle) (code : UInt32) : b.Ensues false (b.onUpdate a code) := by
  unfold onUpdate
  dsimp only
  split
  · exact .kept (by simp) (by simp) rfl
  · split
    · exact .kept (by simp) (by simp) rfl
    · exact .kept (by simp) (by simp) rfl

theorem onProgress_ensues (a : CallHandle) (flags : UInt32) :
    b.Ensues (flags &&& receiveOnly ≠ 0) (b.onProgress a flags) := by
  unfold onProgress
  split
  · rename_i hreceives
    exact .kept (by simp) (by simp [hreceives]) rfl
  · rename_i hsends
    exact .kept (by simp) (by simpa using hsends) rfl

theorem endsTone_of_stale {event : CallEvent} (hstale : b.isStale event = true)
    (agent : Option AgentHandle) : b.endsTone agent event = false := by
  unfold endsTone
  unfold isStale at hstale
  split at hstale
  · simp [*]
  · simp_all [Call.isLive]

/-- **What a report does to the closed call and its tone.** -/
theorem receive_ensues (stamp : Stamp) (agent : Option AgentHandle) (event : CallEvent) :
    b.Ensues (b.endsTone agent event) (b.receive stamp agent event) := by
  unfold receive
  cases agent with
  | none => exact .kept nofun (by simp [endsTone]) rfl
  | some agent =>
    dsimp only
    split
    · rename_i hstale
      rw [endsTone_of_stale hstale]
      exact .kept nofun (by simp) rfl
    · rename_i hstale
      have hlive := live_of_not_stale (Bool.eq_false_iff.2 hstale)
      unfold endsTone
      cases hkind : event.kind with
      | incoming => simpa [silences, hkind] using onIncoming_ensues
      | outgoing => simpa [silences, hkind] using onOutgoing_ensues
      | ringing => exact .kept (by simp) (by simp [silences, hkind]) rfl
      | progress flags =>
        obtain ⟨c, hc, hlive⟩ := hlive (congrArg CallEventKind.admitsNewCall hkind)
        simpa [silences, hkind, hc, hlive] using onProgress_ensues event.handle flags
      | update code => simpa [silences, hkind] using onUpdate_ensues event.handle code
      | established =>
        obtain ⟨c, hc, hlive⟩ := hlive (congrArg CallEventKind.admitsNewCall hkind)
        exact .kept (by simp) (by simp [silences, hkind, hc, hlive]) rfl
      | closed tone =>
        obtain ⟨c, hc, hlive⟩ := hlive (congrArg CallEventKind.admitsNewCall hkind)
        simpa [silences, hkind, hc, hlive] using onClosed_ensues hc stamp.time tone

end Softphone.CallBook
