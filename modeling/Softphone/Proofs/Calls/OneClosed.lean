import Softphone.Proofs.Calls.Lifecycle
import Softphone.Proofs.Calls.Releasing

/-!
# The one closed call

A book keeps a closed call for one handle at a time, the one whose busy tone it waits for. Such a call is
not the live current one, and it remains closed until it goes (`CallBook.one_closing`).
-/

namespace Softphone.CallBook

variable {b : CallBook} {a : CallHandle} {c c' : Call} {xs ys : List Happening} {x : Happening}

/-- A call is not live again once it is closed, and not otherwise changed either. -/
theorem eq_of_closed (h : b.Consistent) (hc : b.registry.find? a = some c) (hclosed : c.state = .closed)
    (hc' : (b.happen x).2.registry.find? a = some c') : c' = c := by
  cases origin_happen h hc' with
  | unchanged hsame => exact Option.some.inj (hsame.symm.trans hc)
  | reported hbefore hlive =>
    obtain rfl := Option.some.inj (hbefore.symm.trans hc)
    exact absurd hclosed (Call.state_ne_closed hlive)
  | begun hfree =>
    rw [find?_eq_none_iff.2 hfree] at hc
    cases hc

theorem closed_of_stays (hstays : Stays xs ys a)
    (hc : (History.after xs).book.registry.find? a = some c) (hclosed : c.state = .closed) :
    (History.after (xs ++ ys)).book.registry.find? a = some c := by
  induction ys using List.reverseRecOn with
  | nil => rwa [List.append_nil]
  | append_singleton ys y ih =>
    obtain ⟨c', hc'⟩ := hstays.tracked
    rw [← List.append_assoc, find?_concat] at hc' ⊢
    obtain rfl := eq_of_closed (History.consistent_after _) (ih hstays.of_concat) hclosed hc'
    exact hc'

namespace Consistent

/-- The closing handle is the one of the closed call. -/
theorem closing_iff (h : b.Consistent) :
    b.closing = some a ↔ ∃ c, b.registry.find? a = some c ∧ c.state = .closed := by
  constructor
  · intro hclosing
    obtain ⟨c, hc⟩ := Registry.contains_iff.1 (h.tracked hclosing)
    exact ⟨c, hc, (h.closed_iff hc).2 hclosing⟩
  · rintro ⟨c, hc, hclosed⟩
    exact (h.closed_iff hc).1 hclosed

/-- Two closed calls are one, as no handle is tracked twice. -/
theorem closed_le_one (h : b.Consistent) :
    b.registry.calls.countP (·.state = .closed) ≤ 1 := by
  have hhandle : ∀ c ∈ b.registry.calls.filter (·.state = .closed), b.closing = some c.handle := by
    intro c hc
    obtain ⟨hmem, hclosed⟩ := List.mem_filter.1 hc
    exact (h.closed_iff (Registry.find?_of_mem h.unique hmem)).1 (of_decide_eq_true hclosed)
  have hnodup : ((b.registry.calls.filter (·.state = .closed)).map (·.handle)).Nodup :=
    h.unique.sublist (List.filter_sublist.map _)
  rw [List.countP_eq_length_filter]
  generalize b.registry.calls.filter (·.state = .closed) = closed at hhandle hnodup
  match closed with
  | [] => exact Nat.zero_le 1
  | [_] => exact Nat.le_refl 1
  | c :: d :: _ =>
    have hsame := (hhandle c (by simp)).symm.trans (hhandle d (by simp))
    simp [Option.some.inj hsame] at hnodup

end Consistent

/-- What is known of the closed call after some happenings, and in the course of those that follow. -/
structure OneClosing (xs : List Happening) : Prop where
  closing_iff : ∀ handle, (History.after xs).book.closing = some handle ↔
    ∃ call, (History.after xs).book.registry.find? handle = some call ∧ call.state = .closed
  closed_le_one : (History.after xs).book.registry.calls.countP (·.state = .closed) ≤ 1
  not_current : ∀ call, (History.after xs).book.registry.currentLive? = some call →
    call.state ≠ .closed ∧ (History.after xs).book.closing ≠ some call.handle
  /-- It remains as it is for as long as it is tracked. -/
  remains : ∀ ys handle call, Stays xs ys handle →
    (History.after xs).book.registry.find? handle = some call → call.state = .closed →
    (History.after (xs ++ ys)).book.registry.find? handle = some call

/-- **One call closes at a time.** In the course of all that may happen to a book of calls, exactly the call
under the closing handle is closed. It is not the live current one, and it never changes again. -/
theorem one_closing (xs : List Happening) : OneClosing xs where
  closing_iff _ := (History.consistent_after xs).closing_iff
  closed_le_one := (History.consistent_after xs).closed_le_one
  not_current call hcurrent := by
    obtain ⟨-, hcall, hlive⟩ := Registry.currentLive?_eq_some_iff.1 hcurrent
    exact ⟨Call.state_ne_closed hlive, (History.consistent_after xs).closing_ne hcall hlive⟩
  remains _ _ _ := closed_of_stays

end Softphone.CallBook
