import Softphone.Json.Printer
import Softphone.Json.Reader
import Softphone.Proofs.Text.Digits

/-!
# Values as they are written

The text of a value is read back as that value (`Json.parse?_text`), whatever characters its strings have, if it
is plain: all its numbers are integers, its strings whole and its members named.
-/

namespace Softphone.Json

open Text

/-- A value that has a plain meaning all through. -/
inductive Plain : Json → Prop
  | null : Plain null
  | bool (value : Bool) : Plain (bool value)
  | int (value : Int) : Plain (int value)
  | str (value : String) : Plain (str value)
  | arr {items : List Json} (h : ∀ item ∈ items, Plain item) : Plain (arr items)
  | record {members : List (String × Json)} (h : ∀ m ∈ members, Plain m.2) : Plain (record members)

namespace Plain

variable {α : Type} {encode : α → Json}

theorem nat (n : Nat) : Plain (nat n) := .int n

theorem list (h : ∀ a, Plain (encode a)) (items : List α) : Plain (list encode items) :=
  .arr (List.forall_mem_map.2 fun a _ => h a)

theorem opt (h : ∀ a, Plain (encode a)) (value : Option α) : Plain (opt encode value) := by
  cases value with
  | none => exact .null
  | some a => exact h a

end Plain

variable {j : Json} {items : List Json} {members : List (String × Json)} {n fuel : Nat} {c : Char}
  {s rest : List Char}

/-! ## Texts -/

theorem push_append (a b : String) (c : Char) : (a ++ b).push c = a ++ b.push c := by
  rw [String.push_eq_append, String.push_eq_append, String.append_assoc]

theorem foldl_push_append (a b : String) (s : List Char) :
    s.foldl String.push (a ++ b) = a ++ s.foldl String.push b :=
  List.foldl_hom (a ++ ·) fun _ _ => push_append ..

/-- The characters of a string literal after its opening quote. -/
def literal (s : String) : List Char := s.toList.flatMap escapeChar ++ ['"']

theorem toList_foldl_push (out : String) (s : List Char) : (s.foldl String.push out).toList = out.toList ++ s := by
  induction s generalizing out with
  | nil => simp
  | cons c s ih => simp [ih]

theorem toList_quoteOnto (out s : String) : (quoteOnto out s).toList = out.toList ++ '"' :: literal s := by
  have hchars (out : String) (cs : List Char) :
      (cs.foldl (fun out c => (escapeChar c).foldl String.push out) out).toList =
        out.toList ++ cs.flatMap escapeChar := by
    induction cs generalizing out with
    | nil => simp
    | cons c cs ih => simp [ih, toList_foldl_push]
  simp [quoteOnto, literal, hchars]

theorem quoteOnto_append (a b s : String) : quoteOnto (a ++ b) s = a ++ quoteOnto b s := by
  rw [← String.toList_inj]
  simp [toList_quoteOnto]

theorem realOnto_append (a b : String) (whole fraction : List Char) (exponent : Int) :
    realOnto (a ++ b) whole fraction exponent = a ++ realOnto b whole fraction exponent := by
  unfold realOnto
  dsimp only
  rw [foldl_push_append]
  split
  · rw [push_append, String.append_assoc]
  · rw [push_append, foldl_push_append, push_append, String.append_assoc]

mutual

/-- What is written already stays in front of the text of a value. -/
theorem printOnto_append (a b : String) : ∀ j : Json, printOnto (a ++ b) j = a ++ printOnto b j
  | null => String.append_assoc ..
  | bool true => String.append_assoc ..
  | bool false => String.append_assoc ..
  | int _ => String.append_assoc ..
  | real whole fraction exponent => realOnto_append a b whole fraction exponent
  | str s => quoteOnto_append a b s
  | brokenStr => String.append_assoc ..
  | arr [] => String.append_assoc ..
  | arr (item :: items) => by
    rw [printOnto, printOnto, push_append, printOnto_append, itemsOnto_append]
  | obj [] => String.append_assoc ..
  | obj ((name, value) :: members) => by
    rw [printOnto, printOnto, push_append, quoteOnto_append, push_append, printOnto_append, membersOnto_append]

theorem itemsOnto_append (a b : String) : ∀ items : List Json, itemsOnto (a ++ b) items = a ++ itemsOnto b items
  | [] => push_append ..
  | item :: items => by
    rw [itemsOnto, itemsOnto, push_append, printOnto_append, itemsOnto_append]

theorem membersOnto_append (a b : String) :
    ∀ members : List (Option String × Json), membersOnto (a ++ b) members = a ++ membersOnto b members
  | [] => push_append ..
  | (name, value) :: members => by
    rw [membersOnto, membersOnto, push_append, quoteOnto_append, push_append, printOnto_append,
      membersOnto_append]

end

theorem printOnto_eq (out : String) (j : Json) : printOnto out j = out ++ j.text := by
  rw [text, ← printOnto_append, String.append_empty]

/-- The further items of an array and its end. -/
def itemsText (items : List Json) : List Char := items.flatMap (fun j => ',' :: j.text.toList) ++ [']']

/-- A member of an object after its opening quote. -/
def memberText (m : String × Json) : List Char := literal m.1 ++ ':' :: m.2.text.toList

/-- The further members of an object and its end. -/
def membersText (members : List (String × Json)) : List Char :=
  members.flatMap (fun m => ',' :: '"' :: memberText m) ++ ['\x7d']

theorem toList_itemsOnto (out : String) (items : List Json) :
    (itemsOnto out items).toList = out.toList ++ itemsText items := by
  induction items generalizing out with
  | nil => simp [itemsOnto, itemsText]
  | cons item items ih => simp [itemsOnto, ih, printOnto_eq, itemsText]

theorem toList_membersOnto (out : String) (members : List (String × Json)) :
    (membersOnto out (members.map fun m => (some m.1, m.2))).toList = out.toList ++ membersText members := by
  induction members generalizing out with
  | nil => simp [membersOnto, membersText]
  | cons m members ih => simp [membersOnto, ih, printOnto_eq, membersText, memberText, toList_quoteOnto]

theorem toList_text_arr (item : Json) (items : List Json) :
    (arr (item :: items)).text.toList = '[' :: (item.text.toList ++ itemsText items) := by
  rw [text, printOnto, toList_itemsOnto, printOnto_eq]
  simp

theorem toList_text_record (m : String × Json) (members : List (String × Json)) :
    (record (m :: members)).text.toList = '\x7b' :: '"' :: (memberText m ++ membersText members) := by
  rw [text, record, List.map_cons, printOnto, toList_membersOnto, printOnto_eq]
  simp [memberText, toList_quoteOnto]

theorem toList_text_str (s : String) : (str s).text.toList = '"' :: literal s :=
  toList_quoteOnto "" s

theorem toList_text_int (n : Int) :
    (int n).text.toList = (if n < 0 then ['-'] else []) ++ Nat.toDigits 10 n.natAbs := by
  rw [text, printOnto, String.empty_append]
  cases n with
  | ofNat n => exact Nat.toList_repr
  | negSucc n =>
    have hsign : toString (Int.negSucc n) = "-" ++ (n + 1).repr := rfl
    rw [if_pos (Int.negSucc_lt_zero n), hsign, String.toList_append, Nat.toList_repr]
    rfl

/-! ## Strings -/

/-- The escape of a character that has no letter of its own. -/
theorem ofHex?_hexDigits (hn : n < 32) :
    (hexDigits 4 n).length = 4 ∧ ofHex? (hexDigits 4 n) = some n := by
  revert n
  decide

/-- How a character is read back. -/
def piece (c : Char) : Piece :=
  if (letter? c).isNone ∧ c.toNat < 0x20 then .unit c.toNat else .char c

theorem readPieces_letter {letter : Char} (h : letter? c = some letter) (acc : List Piece) (s : List Char) :
    readPieces acc ('\\' :: letter :: s) = readPieces (.char c :: acc) s := by
  unfold letter? at h
  split at h <;> cases h <;> simp [readPieces, escape?]

theorem readPieces_escapeChar (acc : List Piece) (c : Char) (s : List Char) :
    readPieces acc (escapeChar c ++ s) = readPieces (piece c :: acc) s := by
  unfold escapeChar piece
  cases hletter : letter? c with
  | some letter => exact readPieces_letter hletter acc s
  | none =>
    dsimp only
    split
    · rename_i hcontrol
      obtain ⟨hlength, hvalue⟩ := ofHex?_hexDigits hcontrol
      generalize hexDigits 4 c.toNat = digits at hlength hvalue ⊢
      match digits, hlength with
      | [a, b, d, e], _ => simp [readPieces, hvalue, hcontrol]
    · rename_i hcontrol
      have hquote : c ≠ '"' := by
        rintro rfl
        cases hletter
      have hslash : c ≠ '\\' := by
        rintro rfl
        cases hletter
      rw [List.singleton_append, readPieces] <;> simp [hquote, hslash, hcontrol]

theorem readPieces_literal (acc : List Piece) (cs rest : List Char) :
    readPieces acc (cs.flatMap escapeChar ++ '"' :: rest) = some (acc.reverse ++ cs.map piece, rest) := by
  induction cs generalizing acc with
  | nil => simp [readPieces]
  | cons c cs ih =>
    rw [List.flatMap_cons, List.append_assoc, readPieces_escapeChar, ih]
    simp

theorem joinPieces_unit (acc : List Char) (hhigh : isHighSurrogate n = false) (hlow : isLowSurrogate n = false)
    (rest : List Piece) : joinPieces acc (.unit n :: rest) = joinPieces (Char.ofNat n :: acc) rest := by
  match rest with
  | [] | .char _ :: _ | .unit _ :: _ => simp [joinPieces, hhigh, hlow]

theorem joinPieces_piece (acc cs : List Char) : joinPieces acc (cs.map piece) = some (acc.reverse ++ cs) := by
  induction cs generalizing acc with
  | nil => simp [joinPieces]
  | cons c cs ih =>
    have hrest := ih (c :: acc)
    rw [List.map_cons, piece]
    split
    · rename_i hcontrol
      have hhigh : isHighSurrogate c.toNat = false := by
        simp [isHighSurrogate]
        omega
      have hlow : isLowSurrogate c.toNat = false := by
        simp [isLowSurrogate]
        omega
      rw [joinPieces_unit acc hhigh hlow, Char.ofNat_toNat, hrest]
      simp
    · simpa [joinPieces] using hrest

theorem readString?_literal (s : String) (rest : List Char) :
    readString? (literal s ++ rest) = some (some s, rest) := by
  unfold readString? literal
  rw [List.append_assoc, List.singleton_append, readPieces_literal]
  simp [joinPieces_piece]

/-! ## Numbers -/

/-- Whether a number that is read goes on with a character. -/
def inNumber (c : Char) : Bool := c.isDigit || c == '.' || c == 'e' || c == 'E'

theorem readDigits?_toDigits (hends : EndsRun inNumber rest) :
    readDigits? (Nat.toDigits 10 n ++ rest) = some (Nat.toDigits 10 n, rest) := by
  have hdigit : EndsRun Char.isDigit rest := fun c hc => by
    have hnot := hends c hc
    simp only [inNumber, Bool.or_eq_false_iff] at hnot
    exact hnot.1.1.1
  unfold readDigits?
  simp [takeWhile_append (isDigit_toDigits n) hdigit, dropWhile_append (isDigit_toDigits n) hdigit]

theorem readFraction?_end (hends : EndsRun inNumber rest) : readFraction? rest = some ([], rest) := by
  unfold readFraction?
  split
  · cases hends _ rfl
  · rfl

theorem readExponent?_end (hends : EndsRun inNumber rest) : readExponent? rest = some (none, rest) := by
  unfold readExponent?
  cases rest with
  | nil => rfl
  | cons c rest =>
    have hnot := hends c rfl
    simp [inNumber] at hnot
    simp [hnot]

theorem readNumber?_int (value : Int) (hends : EndsRun inNumber rest) :
    readNumber? ((int value).text.toList ++ rest) = some (int value, rest) := by
  obtain ⟨digits, hdigits⟩ : ∃ digits, Nat.toDigits 10 value.natAbs = digits := ⟨_, rfl⟩
  have hzeros : ¬ (1 < digits.length ∧ digits.head? = some '0') := by
    rw [← hdigits]
    exact fun h => head?_toDigits h.1 h.2
  have hnumber : ofDigits digits = value.natAbs := by rw [← hdigits, ofDigits_toDigits]
  have hread := readDigits?_toDigits (n := value.natAbs) hends
  rw [hdigits] at hread
  rw [toList_text_int, hdigits]
  have hhead : ∀ body, digits ++ rest ≠ '-' :: body := by
    intro body hbody
    have hfirst : digits.head? = some '-' := by
      rw [← List.head?_append_of_ne_nil _ (hdigits ▸ Nat.toDigits_ne_nil), hbody, List.head?_cons]
    cases isDigit_toDigits value.natAbs '-' (hdigits ▸ List.mem_of_head? hfirst)
  -- The sign is taken off in front; without one the first character is a digit.
  unfold readNumber?
  split
  rename_i negative body hsigned
  obtain ⟨rfl, rfl⟩ : negative = decide (value < 0) ∧ body = digits ++ rest := by
    by_cases hsign : value < 0
    · rw [if_pos hsign] at hsigned
      cases hsigned
      exact ⟨(decide_eq_true hsign).symm, rfl⟩
    · rw [if_neg hsign, List.nil_append] at hsigned
      split at hsigned
      · rename_i hminus
        exact absurd hminus (hhead _)
      · cases hsigned
        exact ⟨(decide_eq_false hsign).symm, rfl⟩
  have hplain : ([] : List Char).isEmpty && (none : Option Int).isNone &&
      !(decide (value < 0) && (value.natAbs : Int) == 0) := by
    simp
    omega
  have hvalue : (if decide (value < 0) = true then -(value.natAbs : Int) else value.natAbs) = value := by
    simp only [decide_eq_true_eq]
    split <;> omega
  simp only [hread, Option.bind_eq_bind, Option.bind_some, if_neg hzeros, readFraction?_end hends,
    readExponent?_end hends, hnumber, if_pos hplain, hvalue]
  rfl

/-! ## Readers -/

theorem skipBlanks_cons (h : (c == ' ' || c == '\t' || c == '\n' || c == '\r') = false) :
    skipBlanks (c :: s) = c :: s :=
  (endsRun_cons (p := fun c => c == ' ' || c == '\t' || c == '\n' || c == '\r') h).dropWhile

theorem readItems_last {item : Json} (h : readValue fuel s = some (item, ']' :: rest)) :
    readItems (fuel + 1) s = some ([item], rest) := by
  rw [readItems]
  simp [h, skipBlanks_cons (c := ']') rfl]

theorem readItems_more {item : Json} {tail : List Char} (h : readValue fuel s = some (item, ',' :: tail))
    (htail : readItems fuel tail = some (items, rest)) : readItems (fuel + 1) s = some (item :: items, rest) := by
  rw [readItems]
  simp [h, skipBlanks_cons (c := ',') rfl, htail]

theorem readMembers_last {m : String × Json} (h : readValue fuel s = some (m.2, '\x7d' :: rest)) :
    readMembers (fuel + 1) ('"' :: (literal m.1 ++ ':' :: s)) = some ([(some m.1, m.2)], rest) := by
  rw [readMembers]
  simp [skipBlanks_cons (c := '"') rfl, readString?_literal, skipBlanks_cons (c := ':') rfl, h,
    skipBlanks_cons (c := '\x7d') rfl]

theorem readMembers_more {m : String × Json} {more : List (Option String × Json)} {tail : List Char}
    (h : readValue fuel s = some (m.2, ',' :: tail)) (htail : readMembers fuel tail = some (more, rest)) :
    readMembers (fuel + 1) ('"' :: (literal m.1 ++ ':' :: s)) = some ((some m.1, m.2) :: more, rest) := by
  rw [readMembers]
  simp [skipBlanks_cons (c := '"') rfl, readString?_literal, skipBlanks_cons (c := ':') rfl, h,
    skipBlanks_cons (c := ',') rfl, htail]

/-- Whether an item may begin with a character. -/
def beginsItem (c : Char) : Bool := !(c == ' ' || c == '\t' || c == '\n' || c == '\r') && c != ']'

theorem beginsItem_iff : beginsItem c = true ↔
    (c == ' ' || c == '\t' || c == '\n' || c == '\r') = false ∧ c ≠ ']' := by
  rw [beginsItem, Bool.and_eq_true, Bool.not_eq_true', bne_iff_ne]

theorem readValue_items (hc : beginsItem c = true) (h : readItems fuel (c :: s) = some (items, rest)) :
    readValue (fuel + 1) ('[' :: c :: s) = some (arr items, rest) := by
  obtain ⟨hblank, hend⟩ := beginsItem_iff.1 hc
  rw [readValue, skipBlanks_cons (c := '[') rfl]
  simp [skipBlanks_cons hblank, hend, h]

theorem readValue_members {members : List (Option String × Json)}
    (h : readMembers fuel ('"' :: s) = some (members, rest)) :
    readValue (fuel + 1) ('\x7b' :: '"' :: s) = some (obj members, rest) := by
  rw [readValue, skipBlanks_cons (c := '\x7b') rfl]
  simp [skipBlanks_cons (c := '"') rfl, h]

theorem ne_of_signed {d : Char} (h : c = '-' ∨ c.isDigit = true) (hd : d ≠ '-' ∧ d.isDigit = false) :
    c ≠ d := by
  rintro rfl
  rcases h with rfl | h
  · exact hd.1 rfl
  · exact Bool.false_ne_true (hd.2.symm.trans h)

theorem beginsItem_of_signed (h : c = '-' ∨ c.isDigit = true) : beginsItem c = true := by
  have hne (d : Char) (hd : d ≠ '-' ∧ d.isDigit = false) : c ≠ d := ne_of_signed h hd
  simp [beginsItem, hne ' ' (by decide), hne '\t' (by decide), hne '\n' (by decide), hne '\r' (by decide),
    hne ']' (by decide)]

/-- What begins with a digit or a sign is a number. -/
theorem readValue_number (h : c = '-' ∨ c.isDigit = true) :
    readValue (fuel + 1) (c :: s) = readNumber? (c :: s) := by
  rw [readValue, skipBlanks_cons (beginsItem_iff.1 (beginsItem_of_signed h)).1]
  split
  all_goals first
    | rfl
    | rename_i heq
      exact absurd (List.cons.inj heq).1 (ne_of_signed h (by decide))

/-! ## Values -/

/-- A value is read wherever its text stands. -/
structure Reads (j : Json) : Prop where
  begins : ∃ c s, j.text.toList = c :: s ∧ beginsItem c = true
  reads : ∀ fuel rest, j.text.toList.length ≤ fuel → EndsRun inNumber rest →
    readValue fuel (j.text.toList ++ rest) = some (j, rest)

theorem Reads.length_pos (h : Reads j) : 0 < j.text.toList.length := by
  obtain ⟨c, s, htext, -⟩ := h.begins
  rw [htext]
  exact Nat.succ_pos _

/-- A value whose text begins so is read from there. -/
theorem reads_cons (htext : j.text.toList = c :: s) (hc : beginsItem c = true)
    (h : ∀ fuel rest, s.length ≤ fuel → EndsRun inNumber rest →
      readValue (fuel + 1) (c :: (s ++ rest)) = some (j, rest)) : Reads j := by
  refine ⟨⟨c, s, htext, hc⟩, fun fuel rest hfuel hends => ?_⟩
  rw [htext, List.length_cons] at hfuel
  obtain ⟨fuel, rfl⟩ := Nat.exists_eq_add_of_lt hfuel
  rw [htext]
  exact h _ rest (by omega) hends

theorem reads_null : Reads null :=
  reads_cons rfl rfl fun fuel rest _ _ => by
    rw [readValue, skipBlanks_cons rfl]
    rfl

theorem reads_bool (value : Bool) : Reads (bool value) := by
  cases value
  · refine reads_cons rfl rfl fun fuel rest _ _ => ?_
    rw [readValue, skipBlanks_cons rfl]
    rfl
  · refine reads_cons rfl rfl fun fuel rest _ _ => ?_
    rw [readValue, skipBlanks_cons rfl]
    rfl

theorem reads_str (value : String) : Reads (str value) := by
  refine reads_cons (toList_text_str value) rfl fun fuel rest _ _ => ?_
  rw [readValue, skipBlanks_cons rfl]
  simp [readString?_literal]

theorem reads_int (value : Int) : Reads (int value) := by
  obtain ⟨c, s, htext, hc⟩ : ∃ c s, (int value).text.toList = c :: s ∧ (c = '-' ∨ c.isDigit = true) := by
    rw [toList_text_int]
    split
    · exact ⟨'-', _, rfl, .inl rfl⟩
    · obtain ⟨c, s, hdigits⟩ := List.exists_cons_of_ne_nil (Nat.toDigits_ne_nil (n := value.natAbs) (b := 10))
      refine ⟨c, s, hdigits, .inr (isDigit_toDigits value.natAbs c ?_)⟩
      rw [hdigits]
      exact List.mem_cons_self
  refine reads_cons htext (beginsItem_of_signed hc) fun fuel rest _ hends => ?_
  have hread := readNumber?_int value hends
  rw [htext] at hread
  exact (readValue_number hc).trans hread

/-- Items are read up to the end of the array. -/
theorem readItems_itemsText (rest : List Char) {item : Json} (hitem : Reads item)
    (h : ∀ item ∈ items, Reads item)
    (hfuel : (item.text.toList ++ itemsText items).length ≤ fuel) :
    readItems fuel (item.text.toList ++ (itemsText items ++ rest)) = some (item :: items, rest) := by
  induction items generalizing item fuel with
  | nil =>
    rw [itemsText, List.flatMap_nil, List.nil_append, List.length_append, List.length_singleton] at hfuel
    obtain ⟨fuel, rfl⟩ := Nat.exists_eq_add_of_lt hfuel
    exact readItems_last (hitem.reads _ _ (by omega) (endsRun_cons rfl))
  | cons next items ih =>
    rw [List.forall_mem_cons] at h
    have hsplit : itemsText (next :: items) = ',' :: (next.text.toList ++ itemsText items) := by
      simp [itemsText]
    rw [hsplit, List.length_append, List.length_cons] at hfuel
    obtain ⟨fuel, rfl⟩ : ∃ more, fuel = more + 1 := ⟨fuel - 1, by omega⟩
    rw [hsplit, List.cons_append, List.append_assoc]
    have hpos := hitem.length_pos
    exact readItems_more (hitem.reads _ _ (by omega) (endsRun_cons rfl)) (ih h.1 h.2 (by omega))

theorem reads_arr (h : ∀ item ∈ items, Reads item) : Reads (arr items) := by
  cases items with
  | nil =>
    refine reads_cons rfl rfl fun fuel rest _ _ => ?_
    rw [readValue, skipBlanks_cons rfl]
    rfl
  | cons item items =>
    rw [List.forall_mem_cons] at h
    refine reads_cons (toList_text_arr item items) rfl fun fuel rest hfuel _ => ?_
    obtain ⟨c, s, htext, hc⟩ := h.1.begins
    have hread := readItems_itemsText rest h.1 h.2 hfuel
    rw [htext] at hread
    rw [htext, List.append_assoc]
    exact readValue_items hc hread

/-- Members are read up to the end of the object. -/
theorem readMembers_membersText (rest : List Char) {m : String × Json} (hm : Reads m.2)
    (h : ∀ m ∈ members, Reads m.2)
    (hfuel : (memberText m ++ membersText members).length < fuel) :
    readMembers fuel ('"' :: (memberText m ++ (membersText members ++ rest))) =
      some ((m :: members).map fun m => (some m.1, m.2), rest) := by
  induction members generalizing m fuel with
  | nil =>
    obtain ⟨fuel, rfl⟩ : ∃ more, fuel = more + 1 := ⟨fuel - 1, by omega⟩
    simp only [memberText, List.length_append, List.length_cons] at hfuel
    rw [memberText, List.append_assoc, List.cons_append]
    exact readMembers_last (hm.reads fuel _ (by omega) (endsRun_cons rfl))
  | cons next members ih =>
    rw [List.forall_mem_cons] at h
    have hsplit : membersText (next :: members) = ',' :: '"' :: (memberText next ++ membersText members) := by
      simp [membersText]
    obtain ⟨fuel, rfl⟩ : ∃ more, fuel = more + 1 := ⟨fuel - 1, by omega⟩
    have htail (hlt : (memberText next ++ membersText members).length < fuel) := ih h.1 h.2 hlt
    rw [hsplit] at hfuel ⊢
    simp only [memberText, List.length_append, List.length_cons] at hfuel
    rw [memberText, List.append_assoc, List.cons_append, List.cons_append, List.cons_append, List.append_assoc]
    refine readMembers_more (hm.reads fuel _ (by omega) (endsRun_cons rfl)) (htail ?_)
    simp only [memberText, List.length_append, List.length_cons]
    omega

theorem reads_record (h : ∀ m ∈ members, Reads m.2) : Reads (record members) := by
  cases members with
  | nil =>
    refine reads_cons rfl rfl fun fuel rest _ _ => ?_
    rw [readValue, skipBlanks_cons rfl]
    rfl
  | cons m members =>
    rw [List.forall_mem_cons] at h
    refine reads_cons (toList_text_record m members) rfl fun fuel rest hfuel _ => ?_
    have hread := readMembers_membersText rest h.1 h.2 hfuel
    rw [List.cons_append, List.append_assoc]
    exact readValue_members hread

theorem Plain.reads (h : Plain j) : Reads j := by
  induction h with
  | null => exact reads_null
  | bool value => exact reads_bool value
  | int value => exact reads_int value
  | str value => exact reads_str value
  | arr _ ih => exact reads_arr ih
  | record _ ih => exact reads_record ih

/-- **A plain value is read back from its text.** -/
theorem parse?_text (h : Plain j) : parse? j.text = some j := by
  have hread := h.reads.reads (j.text.toList.length + 1) [] (Nat.le_succ _) endsRun_nil
  rw [List.append_nil] at hread
  unfold parse?
  simp [hread, skipBlanks]

end Softphone.Json
