import Mathlib.Data.List.Induction
import Softphone.Proofs.Calls.Dialled

/-!
# Histories of a book of calls

What may happen to a book of calls, in any order: reports, with an agent or without, the end of the busy
tone, and calls that are dialled. A history keeps the book and all that was asked for.
-/

namespace Softphone.CallBook

/-- One thing that happens to a book of calls. -/
inductive Happening
  | report (stamp : Stamp) (agent : Option AgentHandle) (event : CallEvent)
  | toneFinished
  /-- A call is dialled. It is dropped again at once if the engine does not connect it. -/
  | dial (stamp : Stamp) (handle : CallHandle) (agent : AgentHandle) (target : String)
    (connected : Bool)

/-- What a happening asks for, and the book after it. -/
def happen (b : CallBook) : Happening → List CallAction × CallBook
  | .report stamp agent event => b.receive stamp agent event
  | .toneFinished => b.onToneFinished
  | .dial stamp handle agent target connected =>
    ([], b.dialled (Call.new stamp handle agent .outbound target) connected)

theorem Consistent.happen {b : CallBook} (h : b.Consistent) (x : Happening) :
    (b.happen x).2.Consistent := by
  cases x with
  | report stamp agent event => exact receive_consistent h stamp agent event
  | toneFinished => exact h.onToneFinished
  | dial stamp handle agent target connected => exact h.dialled (fun hclosed => by cases hclosed) connected

/-- A book of calls, and what was asked for so far. -/
structure History where
  book : CallBook := {}
  actions : List CallAction := []

namespace History

def add (h : History) (x : Happening) : History :=
  ⟨(h.book.happen x).2, h.actions ++ (h.book.happen x).1⟩

/-- The history after some happenings, from a book without calls. -/
def after (xs : List Happening) : History := xs.foldl add {}

theorem after_concat (xs : List Happening) (x : Happening) : after (xs ++ [x]) = (after xs).add x :=
  List.foldl_concat ..

theorem consistent_after (xs : List Happening) : (after xs).book.Consistent := by
  induction xs using List.reverseRecOn with
  | nil => exact .empty
  | append_singleton xs x ih =>
    rw [after_concat]
    exact ih.happen x

end History

end Softphone.CallBook
