import Softphone.Proofs.Text.Digits
import Softphone.Proofs.Timestamp.Calendar
import Softphone.Timestamp.Reader

/-!
# Points in time as they are written

The written form of a point in time is read back as that point (`Timestamp.parse?_text`), leap seconds and years
of any length included.
-/

namespace Softphone.Timestamp

open Text

variable {n width : Nat} {s rest : List Char}

/-! ## Numbers and marks -/

theorem trimStart_cons {c : Char} (h : isBlank c = false) : trimStart (c :: rest) = c :: rest :=
  (endsRun_cons h).dropWhile

theorem trimStart_append (hs : ∀ c ∈ s, c.isDigit = true) (hne : s ≠ []) :
    trimStart (s ++ rest) = s ++ rest := by
  cases s with
  | nil => exact absurd rfl hne
  | cons c s => exact trimStart_cons (isBlank_of_isDigit (hs c List.mem_cons_self))

/-- Digits are read as far as they go, or as far as there is room. -/
theorem readNumber?_append (width : Nat) (hs : ∀ c ∈ s, c.isDigit = true) (hne : s ≠ [])
    (hends : s.length = width ∨ s.length ≤ width ∧ EndsRun Char.isDigit rest) :
    readNumber? width (s ++ rest) = some (ofDigits s, rest) := by
  have hdigits : ((s ++ rest).takeWhile Char.isDigit).take width = s := by
    rw [List.takeWhile_append_of_pos hs]
    rcases hends with rfl | ⟨hfits, hends⟩
    · exact List.take_left
    · rw [hends.takeWhile, List.append_nil, List.take_of_length_le hfits]
  unfold readNumber?
  dsimp only
  rw [trimStart_append hs hne, hdigits, List.drop_left]
  simp [hne]

theorem readNumber?_padded (hwidth : 0 < width) (hn : n < 10 ^ width) (rest : List Char) :
    readNumber? width (padded width n ++ rest) = some (n, rest) := by
  rw [readNumber?_append width (isDigit_padded width n) (padded_ne_nil width n)
    (.inl (length_padded hwidth hn)), ofDigits_padded]

theorem dropMark?_cons (mark : Char) (hmark : isBlank mark = false) :
    dropMark? mark (mark :: rest) = some rest := by
  unfold dropMark?
  rw [trimStart_cons hmark]
  simp

theorem isDigit_head?_padded (width n : Nat) (rest : List Char) :
    ∀ c ∈ (padded width n ++ rest).head?, c.isDigit = true := by
  rw [List.head?_append_of_ne_nil _ (padded_ne_nil width n)]
  exact fun c hc => isDigit_padded width n c (List.mem_of_head? hc)

theorem readYear?_signed {c : Char} (hsign : c = '-' ∨ c = '+') (hrest : ∀ d ∈ rest.head?, d.isDigit = true)
    (hne : rest ≠ []) : readYear? (c :: rest) = (readNumber? rest.length rest).map fun r =>
      (if c = '-' then -(r.1 : Int) else r.1, r.2) := by
  have hdigit : (rest.head?.map Char.isDigit).getD false = true := by
    obtain ⟨d, hd⟩ := Option.isSome_iff_exists.1 (List.isSome_head?.2 hne)
    rw [hd]
    exact hrest d hd
  rcases hsign with rfl | rfl <;> exact if_pos hdigit

theorem readYear?_yearText (year : Int) (hends : EndsRun Char.isDigit rest) :
    readYear? (yearText year ++ rest) = some (year, rest) := by
  have hdigits (n : Nat) := isDigit_padded 4 n
  have hne (n : Nat) := padded_ne_nil 4 n
  unfold yearText
  split
  · -- Four digits, none of which is a sign.
    rename_i hyear
    have hread := readNumber?_padded (by decide : 0 < 4) (show year.toNat < 10 ^ 4 by omega) rest
    have hhead := isDigit_head?_padded 4 year.toNat rest
    unfold readYear?
    rw [trimStart_append (hdigits _) (hne _)]
    split
    · rename_i heq
      rw [heq] at hhead
      cases hhead _ rfl
    · rename_i heq
      rw [heq] at hhead
      cases hhead _ rfl
    · rw [hread, Option.map_some, Int.toNat_of_nonneg hyear.1]
  · -- A sign and as many digits as the year has.
    have hread := readNumber?_append (padded 4 year.natAbs ++ rest).length
      (hdigits year.natAbs) (hne _) (.inr ⟨by simp, hends⟩)
    rw [ofDigits_padded] at hread
    have hyear : (if (if year < 0 then '-' else '+') = '-' then -(year.natAbs : Int) else year.natAbs) = year := by
      by_cases hbefore : year < 0
      · rw [if_pos hbefore, if_pos rfl]
        omega
      · rw [if_neg hbefore, if_neg (by decide)]
        omega
    rw [List.cons_append, readYear?_signed (by split <;> simp) (isDigit_head?_padded 4 _ rest)
      (by simp [hne]), hread, Option.map_some, hyear]

theorem readNano?_decimals {power : Nat} (hs : ∀ c ∈ s, c.isDigit = true) (hne : s ≠ [])
    (hfits : s.length ≤ 9) (hpower : Nat.pow 10 (9 - s.length) = power) (hends : EndsRun Char.isDigit rest) :
    readNano? ('.' :: s ++ rest) = some (ofDigits s * power, rest) := by
  have hdigits : ((s ++ rest).takeWhile Char.isDigit).take 9 = s := by
    rw [takeWhile_append hs hends, List.take_of_length_le hfits]
  rw [List.cons_append]
  unfold readNano?
  simp only
  rw [hdigits, dropWhile_append hs hends, hpower]
  simp [hne]

theorem readNano?_fractionText (hn : n < 1000000000) (hends : EndsRun Char.isDigit rest)
    (hpoint : rest.head? ≠ some '.') : readNano? (fractionText n ++ rest) = some (n, rest) := by
  unfold fractionText
  split
  · rename_i hzero
    rw [hzero, List.nil_append]
    unfold readNano?
    split
    · exact absurd rfl hpoint
    · rfl
  have hread (power : Nat) {width m : Nat} (hwidth : 0 < width ∧ width ≤ 9) (hm : m < 10 ^ width)
      (hpower : Nat.pow 10 (9 - width) = power) :
      readNano? ('.' :: padded width m ++ rest) = some (m * power, rest) := by
    have hlength := length_padded hwidth.1 hm
    rw [readNano?_decimals (isDigit_padded width m) (padded_ne_nil width m) (by omega)
      (by rw [hlength, hpower]) hends, ofDigits_padded]
  split
  · rw [hread 1000000 (by decide) (by omega) (by decide), Nat.div_mul_cancel (by omega)]
  split
  · rw [hread 1000 (by decide) (by omega) (by decide), Nat.div_mul_cancel (by omega)]
  · rw [hread 1 (by decide) hn (by decide), Nat.mul_one]

/-! ## Points in time -/

/-- A clock in universal time makes the second of the day again, where the sixtieth second that it shows is the
last one with a second's worth of nanoseconds more. -/
theorem ofLocal?_clock {day : Int} {second nano shown fraction : Nat}
    (hvalid : isInstant day second nano = true)
    (hseconds : shown < 60 ∧ second % 60 = shown ∧ nano = fraction ∨
      shown = 60 ∧ second % 60 = 59 ∧ nano = fraction + 1000000000) :
    ofLocal? (dateOfDay day).1 (dateOfDay day).2.1 (dateOfDay day).2.2 (second / 3600)
      (second / 60 % 60) shown fraction 0 = some ⟨day, second, nano, hvalid⟩ := by
  have hshown : shown ≤ 60 ∧ second % 60 = (if shown == 60 then 59 else shown) ∧
      nano = if shown == 60 then fraction + 1000000000 else fraction := by
    rcases hseconds with ⟨hlt, hsecond, hnano⟩ | ⟨rfl, hsecond, hnano⟩
    · have hne : (shown == 60) = false := by simpa using Nat.ne_of_lt hlt
      simp [hne, hsecond, hnano, Nat.le_of_lt hlt]
    · simp [hsecond, hnano]
  obtain ⟨hshown, hsecond, hnano⟩ := hshown
  have hinstant : isYear (dateOfDay day).1 = true ∧ second < 86400 := by
    simp [isInstant] at hvalid
    exact hvalid.1
  have hclock : ((second / 3600 : Nat) : Int) * 3600 + ((second / 60 % 60 : Nat) : Int) * 60 +
      ((second % 60 : Nat) : Int) - 0 * 60 = second := by omega
  have hday : day + (second : Int) / 86400 = day ∧ ((second : Int) % 86400).toNat = second := by omega
  have hdate : isYear (dateOfDay day).1 && isDate (dateOfDay day).1 (dateOfDay day).2.1 (dateOfDay day).2.2 &&
      second / 3600 ≤ 23 && second / 60 % 60 ≤ 59 && shown ≤ 60 && (0 : Int).natAbs < 1440 := by
    have hrange : second / 3600 ≤ 23 ∧ second / 60 % 60 ≤ 59 := by omega
    simp [hinstant, isDate_dateOfDay, hrange, hshown]
  unfold ofLocal?
  rw [if_pos hdate]
  simp only [← hsecond, hclock, dayOfDate_dateOfDay, hday, ← hnano]
  exact dif_pos hvalid

/-- **A point in time is read back from its written form.** -/
@[simp] theorem parse?_text (t : Timestamp) : parse? t.text = some t := by
  obtain ⟨day, second, nano, hvalid⟩ := t
  have hinstant : isYear (dateOfDay day).1 = true ∧ second < 86400 ∧
      (nano < 1000000000 ∨ nano < 2000000000 ∧ second % 60 = 59) := by
    simpa [isInstant, and_assoc] using hvalid
  have hdate := dateOfDay_lt day
  have htwo {m : Nat} (hm : m < 100) (rest : List Char) :
      readNumber? 2 (padded 2 m ++ rest) = some (m, rest) := readNumber?_padded (by decide) hm rest
  -- A leap second is shown as the sixtieth.
  obtain ⟨shown, fraction, hshown, hfraction, hleap⟩ : ∃ shown fraction,
      (second % 60 + if decide (1000000000 ≤ nano) then 1 else 0) = shown ∧
      (if decide (1000000000 ≤ nano) then nano - 1000000000 else nano) = fraction ∧
      (nano < 1000000000 ∧ shown = second % 60 ∧ fraction = nano ∨
        1000000000 ≤ nano ∧ shown = second % 60 + 1 ∧ fraction = nano - 1000000000) := by
    refine ⟨_, _, rfl, rfl, ?_⟩
    rcases Nat.lt_or_ge nano 1000000000 with hnano | hnano
    · simp [Nat.not_le.2 hnano, hnano]
    · simp [hnano]
  unfold parse? text
  simp only [String.toList_ofList, List.append_assoc, List.cons_append, hshown, hfraction]
  refine Option.bind_eq_some_iff.2 ⟨_, readYear?_yearText _ (endsRun_cons rfl), ?_⟩
  refine Option.bind_eq_some_iff.2 ⟨_, dropMark?_cons '-' rfl, ?_⟩
  refine Option.bind_eq_some_iff.2 ⟨_, htwo hdate.1 _, ?_⟩
  refine Option.bind_eq_some_iff.2 ⟨_, dropMark?_cons '-' rfl, ?_⟩
  refine Option.bind_eq_some_iff.2 ⟨_, htwo hdate.2 _, ?_⟩
  refine Option.bind_eq_some_iff.2 ⟨_, htwo (by omega) _, ?_⟩
  refine Option.bind_eq_some_iff.2 ⟨_, dropMark?_cons ':' rfl, ?_⟩
  refine Option.bind_eq_some_iff.2 ⟨_, htwo (by omega) _, ?_⟩
  refine Option.bind_eq_some_iff.2 ⟨_, dropMark?_cons ':' rfl, ?_⟩
  refine Option.bind_eq_some_iff.2 ⟨_, htwo (by omega) _, ?_⟩
  refine Option.bind_eq_some_iff.2 ⟨_, readNano?_fractionText (by omega) (endsRun_cons rfl) (by decide), ?_⟩
  exact ofLocal?_clock hvalid (by omega)

end Softphone.Timestamp
