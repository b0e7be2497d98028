import Mathlib.Data.List.Induction
import Softphone.Proofs.Calls.Actions
import Softphone.Proofs.Calls.Live

/-!
# The course of calls under a handle

A handle is in use from the report or the request that admits a call under it to the report that ends
that call. Along every run the handles in use are those of the live calls, the end of a use is told
exactly once, and reports on a handle that is not in use come to nothing (`CallBook.orderly_throughout`).
-/

namespace Softphone.CallBook

/-! ## Handles in use -/

/-- One thing that happens to a book of calls. -/
inductive Move
  | report (stamp : Stamp) (agent : AgentHandle) (event : CallEvent)
  | toneFinished
  /-- A call is dialled. It is dropped again at once if the engine does not connect it. -/
  | dial (stamp : Stamp) (handle : CallHandle) (agent : AgentHandle) (target : String)
    (connected : Bool)

/-- The book after a move. -/
def after (b : CallBook) : Move → CallBook
  | .report stamp agent event => (b.receive stamp (some agent) event).2
  | .toneFinished => b.onToneFinished.2
  | .dial stamp handle agent target connected =>
    b.dialled (Call.new stamp handle agent .outbound target) connected

/-- A book of calls with the handles that are in use. -/
structure Course where
  book : CallBook := {}
  inUse : CallHandle → Bool := fun _ => false

namespace Course

/-- Whether a handle is in use after a move. A call that is admitted takes its handle into use; the
first report that ends the call, or its being dropped for want of a connection, ends the use. -/
def usedAfter (c : Course) (m : Move) (x : CallHandle) : Bool :=
  match m with
  | .report _ _ event =>
    if x = event.handle then !event.kind.endsCall && (c.inUse x || c.book.admits event)
    else c.inUse x
  | .toneFinished => c.inUse x
  | .dial _ handle _ _ connected =>
    if x = handle ∧ c.book.registry.contains x = false then connected else c.inUse x

def move (c : Course) (m : Move) : Course := ⟨c.book.after m, c.usedAfter m⟩

/-- The course after some moves, from a book without calls. -/
def run (ms : List Move) : Course := ms.foldl move {}

/-- What the reports on a handle can lead to. -/
structure Orderly (c : Course) : Prop where
  /-- A live call is tracked under exactly the handles in use. -/
  live_iff : ∀ x, c.book.isLive x = true ↔ c.inUse x = true
  /-- The end of a call is told once, by the report that ends the use of its handle. -/
  hangup_once : ∀ stamp agent event,
    (c.book.receive stamp (some agent) event).1.count (.emit .hangup) =
      if c.inUse event.handle ∧ event.kind.endsCall then 1 else 0
  /-- A report on a handle that is not in use admits a call, or asks for nothing and changes nothing. -/
  silent : ∀ stamp agent event, c.inUse event.handle = false → c.book.admits event = false →
    c.book.receive stamp (some agent) event = ([], c.book)
  /-- A report on a closed call asks for nothing and changes nothing. -/
  closed_silent : ∀ stamp agent event call, c.book.registry.find? event.handle = some call →
    call.state = .closed → c.book.receive stamp (some agent) event = ([], c.book)

variable {c : Course}

/-- The book is consistent, and its live calls are those of the handles in use. -/
structure Sound (c : Course) : Prop where
  consistent : c.book.Consistent
  live_eq : ∀ x, c.book.isLive x = c.inUse x

theorem Sound.move (h : c.Sound) (m : Move) : (c.move m).Sound := by
  cases m with
  | report stamp agent event =>
    refine ⟨receive_consistent h.consistent stamp (some agent) event, fun x => ?_⟩
    change (c.book.receive stamp (some agent) event).2.isLive x =
      c.usedAfter (.report stamp agent event) x
    rw [isLive_receive h.consistent, usedAfter, h.live_eq]
  | toneFinished =>
    refine ⟨h.consistent.onToneFinished, fun x => ?_⟩
    exact (isLive_onToneFinished h.consistent).trans (h.live_eq x)
  | dial stamp handle agent target connected =>
    refine ⟨h.consistent.dialled (fun h => by cases h) connected, fun x => ?_⟩
    change (c.book.dialled (Call.new stamp handle agent .outbound target) connected).isLive x =
      c.usedAfter (.dial stamp handle agent target connected) x
    rw [isLive_dialled rfl, usedAfter, h.live_eq]
    rfl

theorem sound_run (ms : List Move) : (run ms).Sound := by
  -- A run folds from the left, so its last move is the one to take off.
  induction ms using List.reverseRecOn with
  | nil => exact ⟨.empty, fun _ => rfl⟩
  | append_singleton ms m ih =>
    rw [run, List.foldl_append]
    exact ih.move m

end Course

/-- **The course of calls under a handle.** After any moves the handles in use are those of the live
calls, and reports keep to the order of a use: nothing before a call is admitted, one end, nothing
after it. -/
theorem orderly_throughout (ms : List Move) : (Course.run ms).Orderly := by
  have hsound := Course.sound_run ms
  generalize Course.run ms = c at hsound ⊢
  have hstale : ∀ event, c.book.isStale event = !(c.inUse event.handle || c.book.admits event) :=
    fun event => by rw [isStale_eq, hsound.live_eq]
  refine ⟨fun x => by rw [hsound.live_eq], ?_, ?_, ?_⟩
  · intro stamp agent event
    cases hcounts : c.inUse event.handle || c.book.admits event with
    | false =>
      rw [Bool.or_eq_false_iff] at hcounts
      rw [receive_of_stale (by simp [hstale, hcounts]), if_neg (by simp [hcounts])]
      rfl
    | true =>
      rw [count_hangup_receive (by rw [hstale, hcounts]; rfl)]
      -- a report that ends its call admits none, so it counts for a live call only
      have hused : event.kind.endsCall = true → c.inUse event.handle = true := by
        intro hends
        have hadmits : c.book.admits event = false := by
          rw [admits, admitsNewCall_of_endsCall hends, Bool.false_and]
        rwa [hadmits, Bool.or_false] at hcounts
      simp only [and_iff_right_of_imp hused]
  · intro stamp agent event hidle hadmits
    refine receive_of_stale ?_ _
    rw [hstale, hidle, hadmits]
    rfl
  · intro stamp agent event call hcall hclosed
    refine receive_of_stale ?_ _
    rw [isStale, hcall]
    exact congrArg CallState.isTerminal hclosed

end Softphone.CallBook
