import Softphone.Proofs.Calls.Registry
import Softphone.Proofs.Since

/-!
# The registry along any operations

Whatever calls are put, removed, made current and edited, in any order, the registry has under each handle the
call that was put last and not removed since, with the edits that came after it, and the current call is always
one of its calls (`Registry.holds_what_was_put`).
-/

namespace Softphone.Registry

/-! ## Operations -/

/-- A change of what is known of a call, which keeps its handle. -/
structure Edit where
  change : Call → Call
  handle_change : ∀ c, (change c).handle = c.handle

/-- One thing that is done to a registry. -/
inductive Operation
  | put (call : Call)
  | remove (handle : CallHandle)
  | setCurrent (handle : CallHandle)
  | edit (handle : CallHandle) (e : Edit)

namespace Operation

/-- The handle that an operation names. -/
def handle : Operation → CallHandle
  | put call => call.handle
  | remove handle | setCurrent handle | edit handle _ => handle

def isPut : Operation → Bool
  | put _ => true
  | _ => false

/-- What an operation makes of a tracked call. -/
def edited (op : Operation) (c : Call) : Call :=
  match op with
  | edit handle e => if handle = c.handle then e.change c else c
  | _ => c

end Operation

/-- Whether an operation fails. A call that is not there cannot be removed or edited. -/
def fails (r : Registry) : Operation → Bool
  | .put call => !(r.put call).isOk
  | .setCurrent handle => !(r.setCurrent handle).isOk
  | .remove handle | .edit handle _ => !r.contains handle

/-- The registry after an operation. -/
def after (r : Registry) : Operation → Registry
  | .put call => (r.put call).toOption.getD r
  | .remove handle => r.remove handle
  | .setCurrent handle => (r.setCurrent handle).toOption.getD r
  | .edit handle e => r.modify handle e.change

/-- The registry after some operations, from one without calls. -/
def afterAll (ops : List Operation) : Registry := ops.foldl after {}

theorem afterAll_concat (ops : List Operation) (op : Operation) :
    afterAll (ops ++ [op]) = (afterAll ops).after op := List.foldl_concat ..

variable {r : Registry} {ops : List Operation} {x : CallHandle} {c call : Call}

/-! ## One operation -/

/-- A call can be put only where there is none; every other operation needs one. -/
theorem fails_iff (r : Registry) (op : Operation) :
    r.fails op = true ↔ r.contains op.handle = op.isPut := by
  cases op with
  | put call =>
    change _ ↔ r.contains call.handle = true
    rw [fails, put]
    split
    · rename_i hold
      exact iff_of_true rfl hold
    · rename_i hnew
      exact iff_of_false Bool.false_ne_true hnew
  | setCurrent handle =>
    change _ ↔ r.contains handle = false
    rw [fails, setCurrent, ← Bool.not_eq_true]
    split
    · rename_i hold
      exact iff_of_false Bool.false_ne_true (not_not.2 hold)
    · rename_i hnew
      exact iff_of_true rfl hnew
  | remove handle | edit handle _ =>
    change _ ↔ r.contains handle = false
    rw [fails, Bool.not_eq_true']

theorem after_put_of_contains (hold : r.contains call.handle = true) : r.after (.put call) = r := by
  rw [after, put, if_pos hold]
  rfl

theorem after_setCurrent_of_not_contains (hnew : r.contains x = false) :
    r.after (.setCurrent x) = r := by
  rw [after, setCurrent, if_neg (Bool.eq_false_iff.1 hnew)]
  rfl

/-- **A failure changes nothing.** -/
theorem after_of_fails {op : Operation} (hfails : r.fails op = true) : r.after op = r := by
  have hcontains := (fails_iff r op).1 hfails
  cases op with
  | put call => exact after_put_of_contains hcontains
  | setCurrent handle => exact after_setCurrent_of_not_contains hcontains
  | remove handle => exact if_neg (Bool.eq_false_iff.1 hcontains)
  | edit handle e =>
    have hsame : ∀ c ∈ r.calls, (if c.handle = handle then e.change c else c) = c := fun c hc =>
      if_neg (contains_eq_false_iff.1 hcontains c hc)
    rw [after, modify, List.map_congr_left hsame, List.map_id']

theorem find?_after_put :
    (r.after (.put call)).find? x = some c ↔
      (call = c ∧ c.handle = x ∧ r.contains x = false) ∨ r.find? x = some c := by
  cases hold : r.contains call.handle with
  | true =>
    rw [after_put_of_contains hold, or_iff_right]
    rintro ⟨rfl, rfl, hnew⟩
    rw [hold] at hnew
    cases hnew
  | false =>
    have hput : r.put call = .ok (r.after (.put call)) := by
      rw [after, put_eq_ok_iff.2 ⟨hold, rfl⟩]
      rfl
    rw [find?_put hput]
    split
    · rename_i hx
      subst hx
      have hnone : r.find? call.handle ≠ some c := fun hfind => by
        rw [contains_iff.2 ⟨c, hfind⟩] at hold
        cases hold
      rw [or_iff_left hnone, Option.some.injEq]
      exact ⟨fun hcall => ⟨hcall, congrArg Call.handle hcall.symm, hold⟩, fun h => h.1⟩
    · rename_i hx
      rw [or_iff_right]
      rintro ⟨rfl, hhandle, -⟩
      exact hx hhandle.symm

/-- The call under a handle after an operation was put by it, or it was there before and the operation did not
remove it. -/
theorem find?_after_iff (op : Operation) :
    (r.after op).find? x = some c ↔
      (op = .put c ∧ c.handle = x ∧ r.contains x = false) ∨
        ∃ c', r.find? x = some c' ∧ op ≠ .remove x ∧ c = op.edited c' := by
  have hkept (hedits : ∀ c', op.edited c' = c') (hspares : op ≠ .remove x) :
      (∃ c', r.find? x = some c' ∧ op ≠ .remove x ∧ c = op.edited c') ↔ r.find? x = some c := by
    constructor
    · rintro ⟨c', hfind, -, rfl⟩
      rwa [hedits]
    · exact fun hfind => ⟨c, hfind, hspares, (hedits c).symm⟩
  cases op with
  | put call =>
    have hspares : Operation.put call ≠ .remove x := by rintro ⟨⟩
    rw [hkept (fun _ => rfl) hspares, find?_after_put, Operation.put.injEq]
  | setCurrent handle =>
    have hspares : Operation.setCurrent handle ≠ .remove x := by rintro ⟨⟩
    have hcalls : (r.after (.setCurrent handle)).calls = r.calls := by
      rw [after, setCurrent]
      split <;> rfl
    rw [hkept (fun _ => rfl) hspares, or_iff_right (by rintro ⟨⟨⟩, -⟩), find?, hcalls, find?]
  | remove handle =>
    rw [or_iff_right (by rintro ⟨⟨⟩, -⟩), after, find?_remove]
    split
    · rename_i hx
      refine iff_of_false (Option.some_ne_none c).symm ?_
      rintro ⟨c', -, hspares, -⟩
      exact hspares (congrArg Operation.remove hx.symm)
    · rename_i hx
      refine (hkept (fun _ => rfl) fun hremoves => hx ?_).symm
      exact (Operation.remove.inj hremoves).symm
  | edit handle e =>
    have hspares : Operation.edit handle e ≠ .remove x := by rintro ⟨⟩
    rw [or_iff_right (by rintro ⟨⟨⟩, -⟩), after, find?_modify e.handle_change]
    split
    · rename_i hx
      rw [Option.map_eq_some_iff]
      refine exists_congr fun c' => and_congr_right fun hfind => ?_
      rw [and_iff_right hspares, Operation.edited, if_pos (hx.symm.trans (handle_of_find? hfind).symm)]
      exact eq_comm
    · rename_i hx
      have hother : ∀ c', r.find? x = some c' → (Operation.edit handle e).edited c' = c' := fun c' hfind =>
        if_neg fun hhandle => hx ((handle_of_find? hfind).symm.trans hhandle.symm)
      constructor
      · exact fun hfind => ⟨c, hfind, hspares, (hother c hfind).symm⟩
      · rintro ⟨c', hfind, -, rfl⟩
        rwa [hother c' hfind]

theorem size_remove (hr : r.Unique) (hold : r.contains x = true) : (r.remove x).size + 1 = r.size := by
  obtain ⟨c, hc⟩ := contains_iff.1 hold
  have hmem : x ∈ r.calls.map (·.handle) := List.mem_map.2 ⟨c, mem_of_find? hc, handle_of_find? hc⟩
  have hone : r.calls.countP (·.handle = x) = 1 := by
    rw [← List.count_eq_one_of_mem hr hmem, List.count, List.countP_map]
    rfl
  rw [size, size, remove_calls, ← List.countP_eq_length_filter,
    List.length_eq_countP_add_countP (·.handle = x), hone, Nat.add_comm]
  simp

theorem contains_after {op : Operation} (hold : r.contains x = true) (hspares : op ≠ .remove x) :
    (r.after op).contains x = true := by
  obtain ⟨c, hc⟩ := contains_iff.1 hold
  exact contains_iff.2 ⟨_, (find?_after_iff op).2 (.inr ⟨c, hc, hspares, rfl⟩)⟩

/-! ## What every operation keeps -/

/-- Handles are unique, the current call is tracked, and the counts add up. -/
structure Kept (r : Registry) : Prop where
  unique : r.Unique
  current : ∀ handle, r.currentHandle = some handle → r.contains handle = true
  counted : r.added = r.removed + r.size

theorem Kept.put (h : r.Kept) (hnew : r.contains call.handle = false) : (r.after (.put call)).Kept := by
  have hput := put_eq_ok_iff.2 ⟨hnew, rfl⟩
  have hafter : r.after (.put call) = { r with calls := r.calls ++ [call], added := r.added + 1 } := by
    rw [after, hput]
    rfl
  refine ⟨?_, fun handle hcurrent => ?_, ?_⟩
  · rw [hafter]
    exact h.unique.put hput
  · rw [hafter] at hcurrent
    exact contains_after (h.current handle hcurrent) nofun
  · rw [hafter, size, List.length_append, List.length_singleton, ← Nat.add_assoc]
    exact congrArg (· + 1) h.counted

theorem Kept.remove (h : r.Kept) (hold : r.contains x = true) : (r.after (.remove x)).Kept := by
  have hsize := size_remove h.unique hold
  have hcounted := h.counted
  refine ⟨h.unique.remove x, fun handle hcurrent => ?_, ?_⟩
  · rw [after, Registry.remove, if_pos hold] at hcurrent
    obtain ⟨hcurrent, hother⟩ := Option.filter_eq_some_iff.1 hcurrent
    refine contains_after (h.current handle hcurrent) fun hremoves => ?_
    obtain rfl := Operation.remove.inj hremoves
    simp at hother
  · have hcounts : (r.remove x).added = r.added ∧ (r.remove x).removed = r.removed + 1 := by
      rw [Registry.remove, if_pos hold]
      exact ⟨rfl, rfl⟩
    rw [after, hcounts.1, hcounts.2]
    omega

theorem Kept.setCurrent (h : r.Kept) (hold : r.contains x = true) : (r.after (.setCurrent x)).Kept := by
  have hafter : r.after (.setCurrent x) = { r with currentHandle := some x } := by
    rw [after, setCurrent_eq_ok_iff.2 ⟨hold, rfl⟩]
    rfl
  rw [hafter]
  refine ⟨h.unique, fun handle hcurrent => ?_, h.counted⟩
  obtain rfl := Option.some.inj hcurrent
  exact hold

theorem Kept.edit (h : r.Kept) (e : Edit) : (r.after (.edit x e)).Kept where
  unique := h.unique.modify x e.handle_change
  current handle hcurrent := contains_after (h.current handle hcurrent) nofun
  counted := by
    rw [size, after, modify, List.length_map]
    exact h.counted

theorem Kept.after (h : r.Kept) (op : Operation) : (r.after op).Kept := by
  cases hfails : r.fails op with
  | true =>
    rw [after_of_fails hfails]
    exact h
  | false =>
    have hcontains : r.contains op.handle ≠ op.isPut := fun heq => by
      rw [(fails_iff r op).2 heq] at hfails
      cases hfails
    cases op with
    | put call => exact h.put (Bool.eq_false_iff.2 hcontains)
    | remove handle => exact h.remove (Bool.ne_false_iff.1 hcontains)
    | setCurrent handle => exact h.setCurrent (Bool.ne_false_iff.1 hcontains)
    | edit handle e => exact h.edit e

theorem kept_afterAll (ops : List Operation) : (afterAll ops).Kept := by
  induction ops using List.reverseRecOn with
  | nil => exact ⟨List.nodup_nil, nofun, rfl⟩
  | append_singleton ops op ih =>
    rw [afterAll_concat]
    exact ih.after op

/-! ## What was put last -/

/-- A call is the one put last under a handle and not removed since, with the edits that came after it. -/
def PutLast (ops : List Operation) (x : CallHandle) (c : Call) : Prop :=
  ∃ before call later, ops = before ++ .put call :: later ∧
    call.handle = x ∧ (afterAll before).fails (.put call) = false ∧ .remove x ∉ later ∧
    c = later.foldl (fun c op => op.edited c) call

theorem putLast_concat_iff (op : Operation) :
    PutLast (ops ++ [op]) x c ↔
      (op = .put c ∧ c.handle = x ∧ (afterAll ops).fails (.put c) = false) ∨
        ∃ c', PutLast ops x c' ∧ op ≠ .remove x ∧ c = op.edited c' := by
  constructor
  · rintro ⟨before, call, later, hops, hhandle, hput, hspared, rfl⟩
    rcases concat_eq_append_cons_iff.1 hops with ⟨rfl, hop, rfl⟩ | ⟨earlier, rfl, hbefore⟩
    · exact .inl ⟨hop.symm, hhandle, hput⟩
    · rw [List.mem_append, List.mem_singleton, not_or] at hspared
      refine .inr ⟨_, ⟨before, call, earlier, hbefore, hhandle, hput, hspared.1, rfl⟩,
        fun hremoves => hspared.2 hremoves.symm, ?_⟩
      rw [List.foldl_concat]
  · rintro (⟨rfl, hhandle, hput⟩ | ⟨c', hlast, hop, rfl⟩)
    · exact ⟨ops, c, [], rfl, hhandle, hput, List.not_mem_nil, rfl⟩
    · obtain ⟨before, call, later, hops, hhandle, hput, hspared, rfl⟩ := hlast
      refine ⟨before, call, later ++ [op], ?_, hhandle, hput, ?_, ?_⟩
      · rw [hops, List.append_assoc, List.cons_append]
      · rw [List.mem_append, List.mem_singleton, not_or]
        exact ⟨hspared, fun hremoves => hop hremoves.symm⟩
      · rw [List.foldl_concat]

theorem find?_afterAll_iff (ops : List Operation) :
    (afterAll ops).find? x = some c ↔ PutLast ops x c := by
  induction ops using List.reverseRecOn generalizing c with
  | nil =>
    refine iff_of_false nofun ?_
    rintro ⟨before, call, later, hops, -⟩
    exact List.append_ne_nil_of_right_ne_nil _ (List.cons_ne_nil _ _) hops.symm
  | append_singleton ops op ih =>
    rw [afterAll_concat, find?_after_iff, putLast_concat_iff]
    simp only [ih]
    refine or_congr_left (and_congr_right fun _ => and_congr_right fun hhandle => ?_)
    rw [← hhandle, ← Bool.not_eq_true, ← Bool.not_eq_true, fails_iff]
    rfl

/-- What holds of a registry after some operations. -/
structure Faithful (ops : List Operation) (r : Registry) : Prop where
  /-- Handles are unique, and every call is found under its own. -/
  unique : r.Unique
  own : ∀ x c, r.find? x = some c ↔ c ∈ r.calls ∧ c.handle = x
  /-- The current call is tracked, so that there is one if a handle is current. -/
  current : ∀ x, r.currentHandle = some x → r.contains x = true
  current_isSome : r.current?.isSome = r.currentHandle.isSome
  /-- What came and has not gone is there. -/
  counted : r.removed ≤ r.added ∧ r.added - r.removed = r.size
  /-- Under a handle is the call that was put last and not removed since, with its later edits. -/
  found : ∀ x c, r.find? x = some c ↔ PutLast ops x c
  /-- A call can be put only where there is none, and every other operation needs one. Otherwise the operation
  fails, and then everything stays as it was. -/
  failed : ∀ op, (r.fails op = true ↔ r.contains op.handle = op.isPut) ∧
    (r.fails op = true → r.after op = r)

/-- **The registry holds what was put.** After any operations every call is under its own handle as it was put and
edited, the current one is among them, and the counts add up; an operation that fails changes nothing. -/
theorem holds_what_was_put (ops : List Operation) : Faithful ops (afterAll ops) := by
  obtain ⟨hunique, hcurrent, hcounted⟩ := kept_afterAll ops
  refine ⟨hunique, fun x c => ?_, hcurrent, ?_, by omega, fun x c => find?_afterAll_iff ops,
    fun op => ⟨fails_iff _ op, after_of_fails⟩⟩
  · constructor
    · exact fun hfind => ⟨mem_of_find? hfind, handle_of_find? hfind⟩
    · rintro ⟨hmem, rfl⟩
      exact find?_of_mem hunique hmem
  · rw [current?]
    cases hhandle : (afterAll ops).currentHandle with
    | none => rfl
    | some x => exact hcurrent x hhandle

end Softphone.Registry
