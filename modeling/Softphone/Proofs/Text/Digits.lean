import Mathlib.Algebra.Group.Nat.Defs
import Mathlib.Data.List.Basic
import Softphone.Text

/-!
# Numbers in digits

A number is read back from its decimal and from its hexadecimal digits, with zeros in front or without. What a
reader takes from the front of a text is fixed by where the digits end.
-/

namespace Softphone.Text

variable {n d width : Nat} {c : Char} {s rest : List Char}

/-! ## Prefixes -/

/-- A text does not go on with a character of a kind. -/
def EndsRun (p : Char → Bool) (rest : List Char) : Prop := ∀ c ∈ rest.head?, p c = false

theorem endsRun_nil {p : Char → Bool} : EndsRun p [] := nofun

theorem endsRun_cons {p : Char → Bool} (h : p c = false) : EndsRun p (c :: rest) := by
  intro d hd
  obtain rfl := Option.some.inj hd
  exact h

variable {p : Char → Bool}

theorem EndsRun.takeWhile (h : EndsRun p rest) : rest.takeWhile p = [] := by
  cases rest with
  | nil => rfl
  | cons c rest => simp [h c rfl]

theorem EndsRun.dropWhile (h : EndsRun p rest) : rest.dropWhile p = rest := by
  cases rest with
  | nil => rfl
  | cons c rest => simp [h c rfl]

theorem takeWhile_append (hs : ∀ c ∈ s, p c = true) (h : EndsRun p rest) :
    (s ++ rest).takeWhile p = s := by
  rw [List.takeWhile_append_of_pos hs, h.takeWhile, List.append_nil]

theorem dropWhile_append (hs : ∀ c ∈ s, p c = true) (h : EndsRun p rest) :
    (s ++ rest).dropWhile p = rest := by
  rw [List.dropWhile_append_of_pos hs, h.dropWhile]

/-! ## Decimal digits -/

theorem ofDigits_eq (s : List Char) : ofDigits s = Nat.ofDigitChars 10 s 0 :=
  Nat.ofDigitChars_eq_foldl.symm

@[simp] theorem ofDigits_toDigits (n : Nat) : ofDigits (Nat.toDigits 10 n) = n := by
  rw [ofDigits_eq, Nat.ofDigitChars_ten_toDigits]

theorem isDigit_toDigits (n : Nat) : ∀ c ∈ Nat.toDigits 10 n, c.isDigit = true :=
  fun _ hc => Nat.isDigit_of_mem_toDigits (by decide) (by decide) hc

theorem not_mem_toDigits (h : c.isDigit = false) (n : Nat) : c ∉ Nat.toDigits 10 n := by
  intro hmem
  cases (isDigit_toDigits n c hmem).symm.trans h

/-- The number at the end of a text is told apart from what comes before it, unless this ends in a digit too. -/
theorem append_toDigits_inj {t : List Char} {m : Nat} (hs : ∀ c ∈ s.getLast?, c.isDigit = false)
    (ht : ∀ c ∈ t.getLast?, c.isDigit = false) :
    s ++ Nat.toDigits 10 n = t ++ Nat.toDigits 10 m ↔ s = t ∧ n = m := by
  constructor
  · intro h
    have hend {u : List Char} (hu : ∀ c ∈ u.getLast?, c.isDigit = false) (k : Nat) :
        (u ++ Nat.toDigits 10 k).reverse.takeWhile Char.isDigit = (Nat.toDigits 10 k).reverse := by
      rw [List.reverse_append]
      exact takeWhile_append (fun c hc => isDigit_toDigits k c (List.mem_reverse.1 hc))
        fun c hc => hu c (List.head?_reverse ▸ hc)
    have hdigits : Nat.toDigits 10 n = Nat.toDigits 10 m :=
      List.reverse_inj.1 ((hend hs n).symm.trans ((congrArg _ (congrArg _ h)).trans (hend ht m)))
    have hnumber : n = m := by
      rw [← ofDigits_toDigits n, hdigits, ofDigits_toDigits]
    exact ⟨List.append_cancel_right (hdigits ▸ h), hnumber⟩
  · rintro ⟨rfl, rfl⟩
    rfl

theorem isBlank_of_isDigit {c : Char} (h : c.isDigit = true) : isBlank c = false := by
  have hrange : 48 ≤ c.toNat ∧ c.toNat ≤ 57 := by
    simpa [Char.isDigit, UInt32.le_iff_toNat_le] using h
  simp [isBlank]
  omega

/-- Digits without zeros in front begin with a zero only if they are a lone zero. -/
theorem head?_toDigits (h : 1 < (Nat.toDigits 10 n).length) : (Nat.toDigits 10 n).head? ≠ some '0' := by
  induction n using Nat.strongRecOn with
  | ind n ih =>
    rw [Nat.toDigits_eq_if (by decide)] at h ⊢
    split at h
    · simp at h
    · rename_i hn
      rw [if_neg hn, List.head?_append_of_ne_nil _ Nat.toDigits_ne_nil]
      by_cases hlong : 1 < (Nat.toDigits 10 (n / 10)).length
      · exact ih _ (by omega) hlong
      · have hsmall : n / 10 < 10 := by
          have := (Nat.length_toDigits_le_iff (b := 10) (n := n / 10) (k := 1) (by decide) (by decide)).1
            (by omega)
          simpa using this
        rw [Nat.toDigits_of_lt_base hsmall, List.head?_cons, Ne, Option.some.injEq, Nat.digitChar_eq_zero]
        omega

@[simp] theorem ofDigits_padded (width n : Nat) : ofDigits (padded width n) = n := by
  rw [padded, ofDigits_eq, Nat.ofDigitChars_append, Nat.ofDigitChars_replicate_zero, Nat.mul_zero,
    Nat.ofDigitChars_ten_toDigits]

theorem isDigit_padded (width n : Nat) : ∀ c ∈ padded width n, c.isDigit = true := by
  refine List.forall_mem_append.2 ⟨fun c hc => ?_, isDigit_toDigits n⟩
  rw [List.eq_of_mem_replicate hc]
  rfl

theorem length_padded (hwidth : 0 < width) (hn : n < 10 ^ width) : (padded width n).length = width := by
  have hlength := (Nat.length_toDigits_le_iff (b := 10) (by decide) hwidth).2 hn
  rw [padded, List.length_append, List.length_replicate]
  omega

theorem padded_ne_nil (width n : Nat) : padded width n ≠ [] :=
  List.append_ne_nil_of_right_ne_nil _ Nat.toDigits_ne_nil

/-! ## Hexadecimal digits -/

theorem hexDigit?_digitChar (h : d < 16) : hexDigit? (Nat.digitChar d) = some d := by
  revert d
  decide

theorem ofHex?_append (s rest : List Char) :
    ofHex? (s ++ rest) = (ofHex? s).bind fun n =>
      rest.foldlM (fun n c => (hexDigit? c).map (16 * n + ·)) n := by
  rw [ofHex?, List.foldlM_append]
  rfl

@[simp] theorem ofHex?_toHex (n : Nat) : ofHex? (toHex n) = some n := by
  induction n using Nat.strongRecOn with
  | ind n ih =>
    rw [toHex, Nat.toDigits_eq_if (by decide)]
    split
    · rename_i hn
      simp [ofHex?, hexDigit?_digitChar hn]
    · rename_i hn
      have hrest := ih (n / 16) (by omega)
      rw [ofHex?_append, ← toHex, hrest]
      simp [hexDigit?_digitChar (Nat.mod_lt n (by decide : 0 < 16))]
      omega

theorem isHex_toHex (n : Nat) : ∀ c ∈ toHex n, (hexDigit? c).isSome = true := by
  induction n using Nat.strongRecOn with
  | ind n ih =>
    rw [toHex, Nat.toDigits_eq_if (by decide)]
    split
    · rename_i hn
      simp [hexDigit?_digitChar hn]
    · rename_i hn
      refine List.forall_mem_append.2 ⟨ih (n / 16) (by omega), ?_⟩
      simp [hexDigit?_digitChar (Nat.mod_lt n (by decide : 0 < 16))]

theorem length_toHex (hwidth : 0 < width) (hn : n < 16 ^ width) : (toHex n).length ≤ width :=
  (Nat.length_toDigits_le_iff (by decide) hwidth).2 hn

end Softphone.Text
