import Mathlib.Data.List.Nodup
import Softphone.Registry

/-!
# The registry through its lookups

What each operation on the registry of calls does to the lookups after it, and that no handle comes to
be used twice.
-/

namespace Softphone.Registry

variable {r s : Registry} {a b : CallHandle} {c call : Call} {change : Call → Call}

/-- No two tracked calls have one handle. -/
def Unique (r : Registry) : Prop := (r.calls.map (·.handle)).Nodup

/-! ## Calls and lookups -/

theorem mem_of_find? (h : r.find? a = some c) : c ∈ r.calls := List.mem_of_find?_eq_some h

theorem handle_of_find? (h : r.find? a = some c) : c.handle = a := by
  simpa using List.find?_some h

theorem find?_of_mem (hr : r.Unique) (hc : c ∈ r.calls) : r.find? c.handle = some c := by
  cases hfind : r.find? c.handle with
  | none =>
    have hother := List.find?_eq_none.1 hfind c hc
    simp at hother
  | some d =>
    have hhandle := handle_of_find? hfind
    rw [List.inj_on_of_nodup_map hr (mem_of_find? hfind) hc hhandle]

theorem contains_iff : r.contains a = true ↔ ∃ c, r.find? a = some c := Option.isSome_iff_exists

theorem contains_eq_false_iff : r.contains a = false ↔ ∀ c ∈ r.calls, c.handle ≠ a := by
  unfold contains find?
  rw [Option.isSome_eq_false_iff, Option.isNone_iff_eq_none, List.find?_eq_none]
  simp

/-! ## Adding a call -/

theorem put_eq_ok_iff :
    r.put call = .ok s ↔ r.contains call.handle = false ∧
      s = { r with calls := r.calls ++ [call], added := r.added + 1 } := by
  unfold put
  cases hc : r.contains call.handle with
  | false => simp [eq_comm]
  | true => simp

theorem find?_put (h : r.put call = .ok s) :
    s.find? b = if b = call.handle then some call else r.find? b := by
  obtain ⟨hnew, rfl⟩ := put_eq_ok_iff.1 h
  unfold find?
  rw [List.find?_append]
  split
  · rename_i hb
    subst hb
    have hnone : r.calls.find? (·.handle = call.handle) = none := by
      simpa [contains, find?] using hnew
    rw [hnone]
    simp
  · rename_i hb
    simp [Ne.symm hb]

theorem Unique.put (hr : r.Unique) (h : r.put call = .ok s) : s.Unique := by
  obtain ⟨hnew, rfl⟩ := put_eq_ok_iff.1 h
  unfold Unique
  rw [List.map_append, List.map_singleton, List.nodup_append]
  refine ⟨hr, List.nodup_singleton _, fun a ha b hb => ?_⟩
  obtain ⟨c, hc, rfl⟩ := List.mem_map.1 ha
  rw [List.mem_singleton.1 hb]
  exact contains_eq_false_iff.1 hnew c hc

/-! ## Dropping a call -/

theorem remove_calls : (r.remove a).calls = r.calls.filter (·.handle ≠ a) := by
  unfold remove
  split
  · rfl
  · rename_i hnew
    rw [Bool.not_eq_true, contains_eq_false_iff] at hnew
    exact (List.filter_eq_self.2 fun c hc => by simpa using hnew c hc).symm

@[simp] theorem find?_remove : (r.remove a).find? b = if b = a then none else r.find? b := by
  unfold find?
  rw [remove_calls, List.find?_filter]
  split
  · rename_i hb
    subst hb
    refine List.find?_eq_none.2 fun c _ => ?_
    simp
  · rename_i hb
    congr 1
    funext c
    by_cases hc : c.handle = b <;> simp [hc, hb]

theorem Unique.remove (hr : r.Unique) (a : CallHandle) : (r.remove a).Unique := by
  unfold Unique
  rw [remove_calls]
  exact hr.sublist (List.filter_sublist.map _)

/-! ## Changing a call, and which is current -/

theorem find?_modify (hchange : ∀ c, (change c).handle = c.handle) :
    (r.modify a change).find? b = if b = a then (r.find? b).map change else r.find? b := by
  have hhandle : ∀ c : Call, (if c.handle = a then change c else c).handle = c.handle := by
    intro c
    split
    · exact hchange c
    · rfl
  unfold find? modify
  rw [List.find?_map]
  simp only [Function.comp_def, hhandle]
  cases hfind : r.calls.find? (·.handle = b) with
  | none => simp
  | some c =>
    have hc : c.handle = b := handle_of_find? (r := r) hfind
    by_cases hb : b = a <;> simp [hc, hb]

theorem Unique.modify (hr : r.Unique) (a : CallHandle)
    (hchange : ∀ c, (change c).handle = c.handle) : (r.modify a change).Unique := by
  have hsame : (r.modify a change).calls.map (·.handle) = r.calls.map (·.handle) := by
    unfold Registry.modify
    rw [List.map_map]
    refine List.map_congr_left fun c _ => ?_
    dsimp only [Function.comp_apply]
    split
    · exact hchange c
    · rfl
  unfold Unique
  rwa [hsame]

theorem setCurrent_eq_ok_iff :
    r.setCurrent a = .ok s ↔ r.contains a = true ∧ s = { r with currentHandle := some a } := by
  unfold setCurrent
  cases hc : r.contains a with
  | false => simp
  | true => simp [eq_comm]

theorem setCurrent_calls (h : r.setCurrent a = .ok s) : s.calls = r.calls := by
  obtain ⟨_, rfl⟩ := setCurrent_eq_ok_iff.1 h
  rfl

end Softphone.Registry
