import Softphone.Proofs.Calls.Consistent

/-!
# Dialled calls in the book

A call that was dialled is tracked before the engine connects it. Where the engine cannot, the call is
dropped again, but then no call is current (`CallBook.dialled_unconnected`).
-/

namespace Softphone

/-- The registry once a call was added to it and made current. -/
def Registry.withCurrent (r : Registry) (call : Call) : Registry :=
  { r with calls := r.calls ++ [call], currentHandle := some call.handle, added := r.added + 1 }

namespace CallBook

variable {b b' : CallBook} {call : Call}

/-- A call is tracked if its handle is free. -/
theorem track_eq_ok_iff : b.track call = .ok b' ↔
    b.registry.contains call.handle = false ∧
      b' = { b with registry := b.registry.withCurrent call } := by
  constructor
  · intro htrack
    obtain ⟨r, hput, rfl⟩ := track_eq_ok htrack
    obtain ⟨hnew, rfl⟩ := Registry.put_eq_ok_iff.1 hput
    exact ⟨hnew, rfl⟩
  · rintro ⟨hnew, rfl⟩
    have hput := Registry.put_eq_ok_iff.2 ⟨hnew, rfl⟩
    have htracked : Registry.contains
        { b.registry with calls := b.registry.calls ++ [call], added := b.registry.added + 1 }
        call.handle = true := by
      simp [Registry.contains, Registry.find?]
    have hcurrent := Registry.setCurrent_eq_ok_iff.2 ⟨htracked, rfl⟩
    unfold track
    rw [hput]
    simp only [bind, Except.bind, hcurrent]
    rfl

/-- Tracks a dialled call, unless its handle is taken, and drops it again if it was not connected. -/
def dialled (b : CallBook) (call : Call) (connected : Bool) : CallBook :=
  match b.track call with
  | .error _ => b
  | .ok tracked =>
    if connected then tracked
    else { tracked with registry := tracked.registry.remove call.handle }

/-- The same calls are tracked, and the same ones are current and closing. -/
structure SameCalls (b b' : CallBook) : Prop where
  calls : b'.registry.calls = b.registry.calls
  current : b'.registry.currentHandle = b.registry.currentHandle
  closing : b'.closing = b.closing

theorem SameCalls.refl : b.SameCalls b := ⟨rfl, rfl, rfl⟩

/-- A call under a handle that is taken is turned away. -/
theorem dialled_taken (htaken : b.registry.contains call.handle = true) (connected : Bool) :
    b.dialled call connected = b := by
  unfold dialled
  cases htrack : b.track call with
  | error e => rfl
  | ok tracked =>
    have hnew := (track_eq_ok_iff.1 htrack).1
    exact absurd (hnew.symm.trans htaken) Bool.false_ne_true

theorem dialled_connected (htrack : b.track call = .ok b') : b.dialled call true = b' := by
  unfold dialled
  rw [htrack]
  rfl

/-- Of a call that was not connected nothing stays, but the call that was current before is not. -/
theorem dialled_unconnected (htrack : b.track call = .ok b') :
    (b.dialled call false).registry.calls = b.registry.calls ∧
      (b.dialled call false).registry.currentHandle = none ∧
      (b.dialled call false).closing = b.closing := by
  obtain ⟨hnew, rfl⟩ := track_eq_ok_iff.1 htrack
  have hothers : b.registry.calls.filter (·.handle ≠ call.handle) = b.registry.calls := by
    rw [Registry.contains_eq_false_iff] at hnew
    exact List.filter_eq_self.2 fun c hc => by simpa using hnew c hc
  have htracked : (b.registry.withCurrent call).contains call.handle = true := by
    simp [Registry.withCurrent, Registry.contains, Registry.find?]
  unfold dialled
  rw [htrack]
  refine ⟨?_, ?_, rfl⟩
  · change ((b.registry.withCurrent call).remove call.handle).calls = _
    rw [Registry.remove_calls, Registry.withCurrent, List.filter_append, hothers]
    simp
  · change ((b.registry.withCurrent call).remove call.handle).currentHandle = _
    rw [Registry.remove, if_pos htracked]
    simp [Registry.withCurrent]

theorem sameCalls_unconnected_iff (htrack : b.track call = .ok b') :
    b.SameCalls (b.dialled call false) ↔ b.registry.currentHandle = none := by
  obtain ⟨hcalls, hcurrent, hclosing⟩ := dialled_unconnected htrack
  exact ⟨fun h => h.current.symm.trans hcurrent,
    fun hnone => ⟨hcalls, hcurrent.trans hnone.symm, hclosing⟩⟩

theorem Consistent.dialled (h : b.Consistent) (hopen : call.state ≠ .closed) (connected : Bool) :
    (b.dialled call connected).Consistent := by
  cases hnew : b.registry.contains call.handle with
  | true =>
    rw [dialled_taken hnew]
    exact h
  | false =>
    have htrack := track_eq_ok_iff.2 ⟨hnew, rfl⟩
    cases connected with
    | true =>
      rw [dialled_connected htrack]
      exact h.track htrack hopen
    | false =>
      obtain ⟨hcalls, _, hclosing⟩ := dialled_unconnected htrack
      exact h.congr hcalls hclosing

end CallBook

end Softphone
