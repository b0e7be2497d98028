import Mathlib.Data.List.Induction

/-!
# What came before, and what has happened since

One more element at the end of a list either is what one looks for, or leaves an earlier one standing
(`exists_since_concat_iff`). With it, what has been so since some time is followed along a run. What every
element needs of those before it (`EachAfter`) is followed in the same way.
-/

namespace Softphone

variable {α : Type} {starts needs : List α → α → Prop} {spares : α → Prop} {xs ys : List α} {x : α}

/-- A place in a list with one more element is the new end, or a place in the list. -/
theorem concat_eq_append_cons_iff {before later : List α} {y : α} :
    xs ++ [x] = before ++ y :: later ↔
      (before = xs ∧ y = x ∧ later = []) ∨
        ∃ earlier, later = earlier ++ [x] ∧ xs = before ++ y :: earlier := by
  constructor
  · intro heq
    rcases later.eq_nil_or_concat with rfl | ⟨earlier, z, rfl⟩
    · obtain ⟨rfl, hlast⟩ := List.append_inj' heq rfl
      exact .inl ⟨rfl, (List.singleton_inj.1 hlast).symm, rfl⟩
    · rw [List.concat_eq_append, ← List.cons_append, ← List.append_assoc] at heq
      obtain ⟨rfl, hlast⟩ := List.append_inj' heq rfl
      obtain rfl := List.singleton_inj.1 hlast
      exact .inr ⟨earlier, List.concat_eq_append, rfl⟩
  · rintro (⟨rfl, rfl, rfl⟩ | ⟨earlier, rfl, rfl⟩)
    · rfl
    · rw [List.append_assoc, List.cons_append]

theorem exists_since_concat_iff :
    (∃ before y later, xs ++ [x] = before ++ y :: later ∧ starts before y ∧ ∀ z ∈ later, spares z) ↔
      starts xs x ∨
        (∃ before y later, xs = before ++ y :: later ∧ starts before y ∧ ∀ z ∈ later, spares z) ∧
          spares x := by
  constructor
  · rintro ⟨before, y, later, heq, hstarts, hlater⟩
    rcases concat_eq_append_cons_iff.1 heq with ⟨rfl, rfl, -⟩ | ⟨earlier, rfl, hxs⟩
    · exact .inl hstarts
    · obtain ⟨hearlier, hspared⟩ := List.forall_mem_append.1 hlater
      exact .inr ⟨⟨before, y, earlier, hxs, hstarts, hearlier⟩, hspared _ (List.mem_singleton_self x)⟩
  · rintro (hstarts | ⟨⟨before, y, later, hxs, hstarts, hlater⟩, hspared⟩)
    · exact ⟨xs, x, [], rfl, hstarts, List.forall_mem_nil _⟩
    · refine ⟨before, y, later ++ [x], concat_eq_append_cons_iff.2 (.inr ⟨later, rfl, hxs⟩), hstarts, ?_⟩
      exact List.forall_mem_append.2 ⟨hlater, List.forall_mem_singleton.2 hspared⟩

/-! ## What each element needs -/

/-- Every element of a list finds what it needs among those before it. -/
def EachAfter (needs : List α → α → Prop) (xs : List α) : Prop :=
  ∀ before x later, xs = before ++ x :: later → needs before x

namespace EachAfter

theorem nil : EachAfter needs [] := by
  intro before x later heq
  cases before <;> cases heq

theorem of_append (h : EachAfter needs (xs ++ ys)) : EachAfter needs xs := by
  intro before x later heq
  refine h before x (later ++ ys) ?_
  rw [heq, List.append_assoc, List.cons_append]

end EachAfter

theorem eachAfter_concat_iff : EachAfter needs (xs ++ [x]) ↔ EachAfter needs xs ∧ needs xs x := by
  constructor
  · intro h
    exact ⟨h.of_append, h xs x [] rfl⟩
  · rintro ⟨hxs, hx⟩ before y later heq
    rcases concat_eq_append_cons_iff.1 heq with ⟨rfl, rfl, -⟩ | ⟨earlier, -, hplace⟩
    · exact hx
    · exact hxs before y earlier hplace

/-- More elements may come that find what they need in whatever came before them. -/
theorem eachAfter_append_iff (h : ∀ more, ∀ y ∈ ys, needs (xs ++ more) y) :
    EachAfter needs (xs ++ ys) ↔ EachAfter needs xs := by
  induction ys using List.reverseRecOn with
  | nil => rw [List.append_nil]
  | append_singleton ys y ih =>
    have hys : ∀ more, ∀ z ∈ ys, needs (xs ++ more) z := fun more z hz =>
      h more z (List.mem_append_left _ hz)
    have hy : needs (xs ++ ys) y := h ys y (List.mem_append_right _ (List.mem_singleton_self y))
    rw [← List.append_assoc, eachAfter_concat_iff, ih hys, and_iff_left hy]

end Softphone
