import Mathlib.Data.List.DropRight
import Mathlib.Data.List.Infix
import Softphone.Proofs.Text.Digits

/-!
# Fields of a text

Where separators part a text into fields, and what is left of a field without the blanks around it. Blanks
around fields make no difference (`trimChars_of_padded`), and a field that is trimmed stays as it is
(`IsField.trimChars`). A separator of several characters has its place in a text, or stands in what comes before
or after that place (`cut_cases`).
-/

namespace Softphone.Text

variable {sep c : Char} {s t before after field padded : List Char}

/-! ## Separators -/

theorem splitOn_ne_nil (sep : Char) (s : List Char) : splitOn sep s ≠ [] := by
  cases s with
  | nil => exact List.cons_ne_nil _ _
  | cons c s =>
    rw [splitOn]
    split
    · exact List.cons_ne_nil _ _
    · split <;> exact List.cons_ne_nil _ _

theorem splitOn_cons_self : splitOn sep (sep :: s) = [] :: splitOn sep s := by
  rw [splitOn, if_pos rfl]

theorem splitOn_cons_of_ne (h : c ≠ sep) :
    splitOn sep (c :: s) = (splitOn sep s).modifyHead (c :: ·) := by
  rw [splitOn, if_neg h]
  split
  · rename_i hnone
    exact absurd hnone (splitOn_ne_nil sep s)
  · rename_i hsome
    rw [hsome, List.modifyHead_cons]

/-- A separator ends the fields before it. -/
theorem splitOn_append_cons (s t : List Char) :
    splitOn sep (s ++ sep :: t) = splitOn sep s ++ splitOn sep t := by
  induction s with
  | nil => exact splitOn_cons_self
  | cons c s ih =>
    rw [List.cons_append]
    by_cases hc : c = sep
    · rw [hc, splitOn_cons_self, splitOn_cons_self, ih, List.cons_append]
    · obtain ⟨first, more, hfirst⟩ := List.exists_cons_of_ne_nil (splitOn_ne_nil sep s)
      rw [splitOn_cons_of_ne hc, splitOn_cons_of_ne hc, ih, hfirst]
      rfl

theorem splitOn_of_not_mem (h : sep ∉ s) : splitOn sep s = [s] := by
  induction s with
  | nil => rfl
  | cons c s ih =>
    obtain ⟨hc, hs⟩ := List.ne_and_not_mem_of_not_mem_cons h
    rw [splitOn_cons_of_ne (Ne.symm hc), ih hs, List.modifyHead_cons]

theorem not_mem_of_mem_splitOn (h : field ∈ splitOn sep s) : sep ∉ field := by
  induction s generalizing field with
  | nil =>
    rw [List.mem_singleton.1 h]
    exact List.not_mem_nil
  | cons c s ih =>
    by_cases hc : c = sep
    · rw [hc, splitOn_cons_self] at h
      rcases List.mem_cons.1 h with rfl | h
      · exact List.not_mem_nil
      · exact ih h
    · obtain ⟨first, more, hfirst⟩ := List.exists_cons_of_ne_nil (splitOn_ne_nil sep s)
      rw [splitOn_cons_of_ne hc, hfirst, List.modifyHead_cons] at h
      rw [hfirst] at ih
      rcases List.mem_cons.1 h with rfl | h
      · exact List.not_mem_cons_of_ne_of_not_mem (Ne.symm hc) (ih List.mem_cons_self)
      · exact ih (List.mem_cons_of_mem _ h)

/-- The fields of texts with separators between them are those of the texts. -/
theorem splitOn_intercalate (s : List Char) (ss : List (List Char)) :
    splitOn sep ([sep].intercalate (s :: ss)) = (s :: ss).flatMap (splitOn sep) := by
  induction ss generalizing s with
  | nil => simp
  | cons t ss ih =>
    rw [List.intercalate_cons_cons, List.append_assoc, List.singleton_append, splitOn_append_cons, ih]
    exact List.flatMap_cons.symm

/-- Between separators stand the texts that were put there, if none of them has one. -/
theorem splitOn_intercalate_eq_iff (s : List Char) (ss : List (List Char)) :
    splitOn sep ([sep].intercalate (s :: ss)) = s :: ss ↔ ∀ t ∈ s :: ss, sep ∉ t := by
  constructor
  · intro h t ht
    rw [← h] at ht
    exact not_mem_of_mem_splitOn ht
  · intro h
    rw [splitOn_intercalate, List.flatMap_congr fun t ht => splitOn_of_not_mem (h t ht), List.flatMap_singleton']

/-! ## Separators of several characters -/

/-- The ways in which a separator parts a list of characters. -/
def cutsChars (sep : List Char) : List Char → List (List Char × List Char)
  | [] => if sep = [] then [([], [])] else []
  | c :: s =>
    (if sep <+: c :: s then [([], (c :: s).drop sep.length)] else []) ++
      (cutsChars sep s).map fun cut => (c :: cut.1, cut.2)

/-- The ways in which a separator parts a text in what comes before it and what comes after it. -/
def cuts (sep s : String) : List (String × String) :=
  (cutsChars sep.toList s.toList).map fun cut => (.ofList cut.1, .ofList cut.2)

theorem mem_cutsChars_iff {sep before after : List Char} :
    (before, after) ∈ cutsChars sep s ↔ s = before ++ sep ++ after := by
  induction s generalizing before with
  | nil => by_cases h : sep = [] <;> simp [cutsChars, h, eq_comm]
  | cons c s ih =>
    have hhere : (before, after) ∈ (if sep <+: c :: s then [([], (c :: s).drop sep.length)] else []) ↔
        before = [] ∧ c :: s = sep ++ after := by
      split
      · rename_i hprefix
        obtain ⟨t, ht⟩ := hprefix
        simp [← ht, eq_comm]
      · rename_i hprefix
        exact iff_of_false List.not_mem_nil fun h => hprefix ⟨after, h.2.symm⟩
    rw [cutsChars, List.mem_append, hhere, List.mem_map]
    cases before with
    | nil => simp
    | cons d before => simp [ih, and_comm, eq_comm]

/-- The cuts are the pairs that give the text with the separator between them. -/
theorem mem_cuts_iff {sep s before after : String} :
    (before, after) ∈ cuts sep s ↔ s = before ++ sep ++ after := by
  have hcut : (before, after) ∈ cuts sep s ↔
      (before.toList, after.toList) ∈ cutsChars sep.toList s.toList := by
    rw [cuts, List.mem_map]
    constructor
    · rintro ⟨⟨_, _⟩, hcut, heq⟩
      obtain ⟨rfl, rfl⟩ := Prod.mk.inj heq
      rwa [String.toList_ofList, String.toList_ofList]
    · intro hcut
      exact ⟨_, hcut, by rw [String.ofList_toList, String.ofList_toList]⟩
  rw [hcut, mem_cutsChars_iff, ← String.toList_inj, String.toList_append, String.toList_append]

theorem append_append_ne_left {s sep t : String} (h : sep ≠ "") : s ++ sep ++ t ≠ s := by
  intro heq
  have hlength := congrArg String.length heq
  have hsep : 0 < sep.length := by
    rwa [Nat.pos_iff_ne_zero, Ne, String.length_eq_zero_iff]
  rw [String.length_append, String.length_append] at hlength
  omega

/-- A separator that stands in a text could be taken for the one after this text. -/
theorem recut_left {s t sep x y : String} (hsep : sep ≠ "") (h : (x, y) ∈ cuts sep s) :
    x ++ sep ++ (y ++ sep ++ t) = s ++ sep ++ t ∧ x ≠ s := by
  have heq := mem_cuts_iff.1 h
  refine ⟨by simp only [heq, String.append_assoc], fun hsame => ?_⟩
  exact append_append_ne_left hsep (heq.symm.trans hsame.symm)

/-- A separator that stands in a text could be taken for the one before this text. -/
theorem recut_right {s t sep x y : String} (hsep : sep ≠ "") (h : (x, y) ∈ cuts sep t) :
    s ++ sep ++ x ++ sep ++ y = s ++ sep ++ t ∧ s ++ sep ++ x ≠ s :=
  ⟨by simp only [mem_cuts_iff.1 h, String.append_assoc], append_append_ne_left hsep⟩

/-- No end of the first text overlaps with the beginning of the second one. -/
def Apart (sep sep' : List Char) : Prop :=
  ∀ rest ∈ sep.tails, rest ≠ [] → rest ≠ sep → ¬ rest <+: sep' ∧ ¬ sep' <+: rest

instance (sep sep' : List Char) : Decidable (Apart sep sep') := List.decidableBAll _ _

/-- Of two separators in a text the one that begins first ends before the other one begins. -/
theorem cut_of_append {sep sep' w y y' : List Char} (h : Apart sep sep')
    (heq : sep ++ y = w ++ (sep' ++ y')) :
    (w = [] ∧ sep ++ y = sep' ++ y') ∨ ∃ z, w = sep ++ z ∧ y = z ++ (sep' ++ y') := by
  rcases List.append_eq_append_iff.1 heq with ⟨z, hw, hy⟩ | ⟨rest, hsep, hrest⟩
  · exact .inr ⟨z, hw, hy⟩
  · by_cases hnil : rest = []
    · subst hnil
      rw [List.append_nil] at hsep
      exact .inr ⟨[], by rw [hsep, List.append_nil], by simpa using hrest.symm⟩
    · by_cases hall : rest = sep
      · subst hall
        have hw : w = [] := List.append_left_eq_self.1 hsep.symm
        rw [hw, List.nil_append] at heq
        exact .inl ⟨hw, heq⟩
      · -- The rest of the first separator would be the beginning of the second one.
        obtain ⟨hrest', hsep'⟩ := h rest ((List.mem_tails _ _).2 ⟨w, hsep.symm⟩) hnil hall
        rcases List.prefix_or_prefix_of_prefix (List.prefix_append rest y) ⟨y', hrest⟩ with hle | hle
        · exact absurd hle hrest'
        · exact absurd hle hsep'

/-- Two separators in a text begin in the same place, or one of them stands before the other one. -/
theorem cut_cases {sep sep' x x' y y' : String} (h : Apart sep.toList sep'.toList)
    (h' : Apart sep'.toList sep.toList) (heq : x ++ sep ++ y = x' ++ sep' ++ y') :
    (x = x' ∧ sep ++ y = sep' ++ y') ∨ (∃ z, x' = x ++ sep ++ z ∧ y = z ++ sep' ++ y') ∨
      ∃ z, x = x' ++ sep' ++ z ∧ y' = z ++ sep ++ y := by
  simp only [← String.toList_inj, String.toList_append, List.append_assoc] at heq ⊢
  have hofList (z : List Char) : ∃ s : String, s.toList = z := ⟨.ofList z, String.toList_ofList⟩
  rcases List.append_eq_append_iff.1 heq with ⟨w, hx', hw⟩ | ⟨w, hx, hw⟩
  · rcases cut_of_append h hw with ⟨rfl, hsame⟩ | ⟨z, rfl, hy⟩
    · exact .inl ⟨by rw [hx', List.append_nil], hsame⟩
    · obtain ⟨z, rfl⟩ := hofList z
      exact .inr (.inl ⟨z, hx', hy⟩)
  · rcases cut_of_append h' hw with ⟨rfl, hsame⟩ | ⟨z, rfl, hy⟩
    · exact .inl ⟨by rw [hx, List.append_nil], hsame.symm⟩
    · obtain ⟨z, rfl⟩ := hofList z
      exact .inr (.inr ⟨z, hx, hy⟩)

/-! ## Blanks -/

/-- A text has blanks only. -/
def AllBlank (s : List Char) : Prop := ∀ c ∈ s, isBlank c = true

/-- A text with blanks around it. -/
def Padded (padded field : List Char) : Prop :=
  ∃ before after, AllBlank before ∧ AllBlank after ∧ padded = before ++ field ++ after

/-- A text between commas that has no blanks around it. -/
structure IsField (s : List Char) : Prop where
  comma : ',' ∉ s
  first : ∀ c ∈ s.head?, isBlank c = false
  last : ∀ c ∈ s.getLast?, isBlank c = false

theorem isBlankText_append {s t : String} : isBlankText (s ++ t) = (isBlankText s && isBlankText t) := by
  simp [isBlankText]

theorem trimChars_eq (s : List Char) : trimChars s = (s.dropWhile isBlank).rdropWhile isBlank := rfl

theorem rdropWhile_append (h : AllBlank after) :
    (s ++ after).rdropWhile isBlank = s.rdropWhile isBlank := by
  rw [List.rdropWhile, List.reverse_append, List.dropWhile_append_of_pos, List.rdropWhile]
  exact fun c hc => h c (List.mem_reverse.1 hc)

/-- Blanks around a text make no difference once it is trimmed. -/
theorem trimChars_of_padded (h : Padded padded field) : trimChars padded = trimChars field := by
  obtain ⟨before, after, hbefore, hafter, rfl⟩ := h
  rw [trimChars_eq, trimChars_eq, List.append_assoc, List.dropWhile_append_of_pos hbefore,
    List.dropWhile_append]
  split
  · rename_i hblank
    have hnone : after.dropWhile isBlank = [] := List.dropWhile_eq_nil_iff.2 hafter
    rw [hnone, List.isEmpty_iff.1 hblank]
  · exact rdropWhile_append hafter

/-- A text that neither begins nor ends with a blank. -/
structure Unpadded (s : List Char) : Prop where
  first : ∀ c ∈ s.head?, isBlank c = false
  last : ∀ c ∈ s.getLast?, isBlank c = false

theorem Unpadded.trimChars (h : Unpadded s) : Text.trimChars s = s := by
  have hfirst : s.dropWhile isBlank = s := EndsRun.dropWhile h.first
  have hlast : s.reverse.dropWhile isBlank = s.reverse :=
    EndsRun.dropWhile (fun c hc => h.last c (List.head?_reverse ▸ hc))
  rw [trimChars_eq, hfirst, List.rdropWhile, hlast, List.reverse_reverse]

theorem unpadded_trimChars (s : List Char) : Unpadded (trimChars s) where
  first := by
    -- What is cut off at the end leaves the first character, unless it leaves nothing.
    obtain ⟨cut, hcut⟩ := List.rdropWhile_prefix isBlank (s.dropWhile isBlank)
    intro c hc
    have hmem : c ∈ (s.dropWhile isBlank).head? := by
      rw [← hcut, List.head?_append, ← trimChars_eq, Option.mem_def.1 hc]
      rfl
    have hstart := List.head?_dropWhile_not isBlank s
    rw [Option.mem_def.1 hmem] at hstart
    exact hstart
  last := by
    intro c hc
    rw [trimChars, List.getLast?_reverse] at hc
    have hend := List.head?_dropWhile_not isBlank (trimStart s).reverse
    rw [Option.mem_def.1 hc] at hend
    exact hend

theorem padded_trimChars (s : List Char) : Padded s (trimChars s) := by
  refine ⟨s.takeWhile isBlank, (s.dropWhile isBlank).rtakeWhile isBlank,
    fun c hc => List.mem_takeWhile_imp hc, fun c hc => List.mem_rtakeWhile_imp hc, ?_⟩
  rw [trimChars_eq, List.append_assoc, List.rdropWhile_append_rtakeWhile, List.takeWhile_append_dropWhile]

/-- A text is trimmed to the one text without blanks at its ends that it is but for blanks around it. -/
theorem trimChars_eq_iff : trimChars s = field ↔ Padded s field ∧ Unpadded field := by
  constructor
  · rintro rfl
    exact ⟨padded_trimChars s, unpadded_trimChars s⟩
  · rintro ⟨hpadded, hfield⟩
    rw [trimChars_of_padded hpadded, hfield.trimChars]

theorem trimChars_eq_nil_iff : trimChars s = [] ↔ AllBlank s := by
  constructor
  · intro h
    obtain ⟨before, after, hbefore, hafter, heq⟩ := padded_trimChars s
    rw [h, List.append_nil] at heq
    rw [heq]
    exact List.forall_mem_append.2 ⟨hbefore, hafter⟩
  · intro h
    exact trimChars_eq_iff.2 ⟨⟨s, [], h, List.forall_mem_nil _, by simp⟩, nofun, nofun⟩

theorem IsField.unpadded (h : IsField s) : Unpadded s := ⟨h.first, h.last⟩

theorem IsField.trimChars (h : IsField s) : Text.trimChars s = s := h.unpadded.trimChars

/-- A text between commas is a field once it is trimmed. -/
theorem isField_trimChars (h : ',' ∉ s) : IsField (trimChars s) where
  comma hmem := by
    have hstart : ',' ∈ s.dropWhile isBlank := (List.rdropWhile_prefix _ _).subset hmem
    exact h ((List.dropWhile_sublist _).subset hstart)
  first := (unpadded_trimChars s).first
  last := (unpadded_trimChars s).last

/-- Digits without a sign are a field. -/
theorem isField_toDigits (n : Nat) : IsField (Nat.toDigits 10 n) where
  comma := not_mem_toDigits rfl n
  first c hc := isBlank_of_isDigit (isDigit_toDigits n c (List.mem_of_mem_head? hc))
  last c hc := isBlank_of_isDigit (isDigit_toDigits n c (List.mem_of_mem_getLast? hc))

/-- A number is read back from its digits. -/
theorem readUnsigned?_toDigits {bound n : Nat} (h : n < bound) :
    readUnsigned? bound (Nat.toDigits 10 n) = some n := by
  have hsign : ∀ rest, Nat.toDigits 10 n ≠ '+' :: rest := by
    intro rest heq
    exact not_mem_toDigits rfl n (heq ▸ List.mem_cons_self)
  have hread : readDigits? (Nat.toDigits 10 n) = some n := by
    rw [readDigits?, if_neg, ofDigits_toDigits]
    simpa [Nat.toDigits_ne_nil] using isDigit_toDigits n
  rw [readUnsigned?, hread]
  · simp [h]
  · exact hsign

end Softphone.Text
