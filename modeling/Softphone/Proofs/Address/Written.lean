import Mathlib.Data.List.TakeWhile
import Softphone.Address.Json
import Softphone.Proofs.Text.Digits

/-!
# Addresses as they are written

The written form of an address is read back as that address (`Address.parse?_text`): four octets, eight groups,
groups around a run of zeros that is left out, and an address of version 4 inside one of version 6.
-/

namespace Softphone.Address

open Text

variable {n g o room : Nat} {gs : List Nat} {rest : List Char}

/-! ## Octets -/

theorem readOctet?_toDigits (ho : o < 256) (hends : EndsRun Char.isDigit rest) :
    readOctet? (Nat.toDigits 10 o ++ rest) = some (o, rest) := by
  have hpos := Nat.length_toDigits_pos (b := 10) (n := o)
  have hlength : (Nat.toDigits 10 o).length ≤ 3 :=
    (Nat.length_toDigits_le_iff (by decide) (by decide)).2 (by omega)
  unfold readOctet?
  simp only [takeWhile_append (isDigit_toDigits o) hends, dropWhile_append (isDigit_toDigits o) hends,
    ofDigits_toDigits]
  rw [if_neg (by omega), if_neg fun h => head?_toDigits h.1 h.2, if_neg (by omega)]

theorem readOctets?_cons {count acc : Nat} (ho : o < 256) (hends : EndsRun Char.isDigit rest) :
    readOctets? (count + 1) acc ('.' :: (Nat.toDigits 10 o ++ rest)) = readOctets? count (256 * acc + o) rest := by
  rw [readOctets?, readOctet?_toDigits ho hends]
  rfl

theorem toList_dotted (n : Nat) : (dotted n).toList =
    Nat.toDigits 10 ((n >>> 24) % 256) ++ '.' :: (Nat.toDigits 10 ((n >>> 16) % 256) ++
      '.' :: (Nat.toDigits 10 ((n >>> 8) % 256) ++ '.' :: Nat.toDigits 10 (n % 256))) := by
  simp [dotted]

theorem readDotted?_dotted (hn : n < UInt32.size) (hends : EndsRun Char.isDigit rest) :
    readDotted? ((dotted n).toList ++ rest) = some (n, rest) := by
  have hoctet (m : Nat) : m % 256 < 256 := Nat.mod_lt m (by decide)
  have hdot (rest : List Char) : EndsRun Char.isDigit ('.' :: rest) := endsRun_cons rfl
  have hnumber : 256 * (256 * (256 * ((n >>> 24) % 256) + (n >>> 16) % 256) + (n >>> 8) % 256) + n % 256 = n := by
    rw [UInt32.size] at hn
    simp only [Nat.shiftRight_eq_div_pow]
    omega
  rw [toList_dotted]
  unfold readDotted?
  simp only [List.append_assoc, List.cons_append, Option.bind_eq_bind, Option.bind_some,
    readOctet?_toDigits (hoctet _) (hdot _), readOctets?_cons (hoctet _) (hdot _),
    readOctets?_cons (hoctet _) hends, readOctets?, hnumber]

theorem readOctets?_eq_none {count acc : Nat} {s : List Char} (h : s.head? ≠ some '.') :
    readOctets? (count + 1) acc s = none := by
  rw [readOctets?]
  rintro rest rfl
  exact h rfl

/-- What has no dot after its first digits is not four octets. -/
theorem readDotted?_eq_none {s : List Char} (h : (s.dropWhile Char.isDigit).head? ≠ some '.') :
    readDotted? s = none := by
  unfold readDotted? readOctet?
  dsimp only
  split
  · rfl
  split
  · rfl
  split
  · rfl
  · exact readOctets?_eq_none h

/-! ## Groups -/

/-- A text that ends or goes on with a colon. -/
def AtColon (rest : List Char) : Prop := ∀ c ∈ rest.head?, c = ':'

theorem AtColon.endsRun {p : Char → Bool} (h : AtColon rest) (hp : p ':' = false) : EndsRun p rest :=
  fun c hc => h c hc ▸ hp

theorem AtColon.not_point (h : AtColon rest) : rest.head? ≠ some '.' := by
  intro hpoint
  cases h _ hpoint

/-- Where groups may end: at the end of a text or before two colons. -/
def EndsGroups (rest : List Char) : Prop := rest = [] ∨ ∃ tail, rest = ':' :: ':' :: tail

theorem EndsGroups.atColon (h : EndsGroups rest) : AtColon rest := by
  rcases h with rfl | ⟨tail, rfl⟩
  · exact nofun
  · rintro c ⟨⟩
    rfl

theorem readGroup?_toHex (hg : g < 65536) (hcolon : AtColon rest) :
    readGroup? (toHex g ++ rest) = some (g, rest) := by
  have hends : EndsRun (fun c => (hexDigit? c).isSome) rest := hcolon.endsRun (by decide)
  have hpos := Nat.length_toDigits_pos (b := 16) (n := g)
  have hlength : (toHex g).length ≤ 4 := length_toHex (by decide) hg
  rw [← toHex] at hpos
  unfold readGroup?
  simp only [takeWhile_append (isHex_toHex g) hends, dropWhile_append (isHex_toHex g) hends, ofHex?_toHex]
  rw [if_neg (by omega)]
  rfl

/-- A group in digits is not the first of four octets. -/
theorem readDotted?_toHex (hcolon : AtColon rest) : readDotted? (toHex g ++ rest) = none := by
  have hdigits : ∀ c ∈ toHex g, c ≠ '.' := by
    rintro c hc rfl
    cases isHex_toHex g '.' hc
  refine readDotted?_eq_none ?_
  -- The decimal digits in front end before a letter or after the group.
  generalize toHex g = digits at hdigits
  induction digits with
  | nil =>
    rw [List.nil_append, (hcolon.endsRun (p := Char.isDigit) rfl).dropWhile]
    exact hcolon.not_point
  | cons c digits ih =>
    rw [List.forall_mem_cons] at hdigits
    rw [List.cons_append, List.dropWhile_cons]
    split
    · exact ih hdigits.2
    · simpa using hdigits.1

/-- Groups, each after a colon. -/
def eachAfterColon (gs : List Nat) : List Char := gs.flatMap fun g => ':' :: toHex g

theorem toList_colons_cons (g : Nat) (gs : List Nat) :
    (colons (g :: gs)).toList = toHex g ++ eachAfterColon gs := by
  rw [colons, String.toList_intercalate]
  induction gs generalizing g with
  | nil => simp [eachAfterColon]
  | cons g' gs ih =>
    have hrest := ih g'
    simp only [List.map_cons] at hrest ⊢
    rw [List.intercalate_cons_cons, hrest]
    simp [eachAfterColon]

/-- One group is read, and the rest as if it followed one. -/
theorem readGroups_group {first : Bool} {s : List Char} (hs : afterColon? first s = some (toHex g ++ rest))
    (hg : g < 65536) (hcolon : AtColon rest) : readGroups (room + 1) first s =
      (g :: (readGroups room false rest).1, (readGroups room false rest).2) := by
  have hdotted : (if room = 0 then none else readDotted? (toHex g ++ rest)) = none := by
    rw [readDotted?_toHex hcolon, ite_self]
  rw [readGroups]
  simp only [hs, hdotted, readGroup?_toHex hg hcolon]

theorem readDotted?_of_atColon (h : AtColon rest) : readDotted? rest = none := by
  refine readDotted?_eq_none ?_
  rw [(h.endsRun (p := Char.isDigit) rfl).dropWhile]
  exact h.not_point

/-- Where no group begins, none is read. -/
theorem readGroups_none {first : Bool} (hs : ∀ body, afterColon? first rest = some body → AtColon body) :
    readGroups room first rest = ([], false, rest) := by
  cases room with
  | zero => rfl
  | succ room =>
    rw [readGroups]
    cases hbody : afterColon? first rest with
    | none => rfl
    | some body =>
      have hcolon := hs body hbody
      have hends : EndsRun (fun c => (hexDigit? c).isSome) body := hcolon.endsRun (by decide)
      have hgroup : readGroup? body = none := by
        unfold readGroup?
        simp only [hends.takeWhile, List.length_nil, true_or, if_true]
      simp only [readDotted?_of_atColon hcolon, ite_self, hgroup]

theorem atColon_eachAfterColon (h : EndsGroups rest) : AtColon (eachAfterColon gs ++ rest) := by
  cases gs with
  | nil => exact h.atColon
  | cons g gs =>
    rintro c ⟨⟩
    rfl

/-- Groups are read up to their end. -/
theorem readGroups_eachAfterColon (hgs : ∀ g ∈ gs, g < 65536) (hroom : gs.length ≤ room)
    (h : EndsGroups rest) :
    readGroups room false (eachAfterColon gs ++ rest) = (gs, false, rest) := by
  induction gs generalizing room with
  | nil =>
    refine readGroups_none fun body hbody => ?_
    rcases h with rfl | ⟨tail, rfl⟩
    · cases hbody
    · cases hbody
      rintro c ⟨⟩
      rfl
  | cons g gs ih =>
    rw [List.forall_mem_cons] at hgs
    cases room with
    | zero => exact absurd hroom (Nat.not_succ_le_zero _)
    | succ room =>
      have hs : afterColon? false (eachAfterColon (g :: gs) ++ rest) =
          some (toHex g ++ (eachAfterColon gs ++ rest)) := by
        simp [eachAfterColon, afterColon?]
      rw [readGroups_group hs hgs.1 (atColon_eachAfterColon h), ih hgs.2 (Nat.le_of_succ_le_succ hroom)]

theorem readGroups_colons (room : Nat) (hgs : ∀ g ∈ gs, g < 65536) (hroom : gs.length ≤ room)
    (h : EndsGroups rest) :
    readGroups room true ((colons gs).toList ++ rest) = (gs, false, rest) := by
  cases gs with
  | nil =>
    refine readGroups_none fun body hbody => ?_
    cases hbody
    exact h.atColon
  | cons g gs =>
    rw [List.forall_mem_cons] at hgs
    cases room with
    | zero => exact absurd hroom (Nat.not_succ_le_zero _)
    | succ room =>
      have hs : afterColon? true ((colons (g :: gs)).toList ++ rest) =
          some (toHex g ++ (eachAfterColon gs ++ rest)) := by
        simp [toList_colons_cons, afterColon?]
      rw [readGroups_group hs hgs.1 (atColon_eachAfterColon h),
        readGroups_eachAfterColon hgs.2 (Nat.le_of_succ_le_succ hroom) h]

theorem readDotted?_colons (gs : List Nat) (h : EndsGroups rest) :
    readDotted? ((colons gs).toList ++ rest) = none := by
  cases gs with
  | nil => exact readDotted?_of_atColon h.atColon
  | cons g gs =>
    rw [toList_colons_cons, List.append_assoc]
    exact readDotted?_toHex (atColon_eachAfterColon h)

/-! ## Numbers in groups -/

/-- The bits from a place on are those from the next group on and the group between. -/
theorem shift_step (n : Nat) {k above : Nat} (habove : above = k + 16) :
    65536 * (n >>> above) + (n >>> k) % 65536 = n >>> k := by
  rw [habove, Nat.shiftRight_add, Nat.shiftRight_eq_div_pow _ 16]
  exact Nat.div_add_mod ..

theorem ofGroups_groups (hn : n < 340282366920938463463374607431768211456) : ofGroups (groups n) = n := by
  have hfirst : 65536 * 0 + (n >>> 112) % 65536 = n >>> 112 := by
    rw [Nat.shiftRight_eq_div_pow]
    omega
  simp only [ofGroups, groups, List.map_cons, List.map_nil, List.foldl_cons, List.foldl_nil]
  rw [hfirst, shift_step n (k := 96) rfl, shift_step n (k := 80) rfl, shift_step n (k := 64) rfl,
    shift_step n (k := 48) rfl, shift_step n (k := 32) rfl, shift_step n (k := 16) rfl,
    shift_step n (k := 0) rfl, Nat.shiftRight_zero]

theorem lt_of_mem_groups {n : Nat} : ∀ g ∈ groups n, g < 65536 := by
  intro g hg
  obtain ⟨shift, -, rfl⟩ := List.mem_map.1 hg
  exact Nat.mod_lt _ (by decide)

/-- The run that is left out is one of zeros. -/
theorem zeroRun_spec (gs : List Nat) : (zeroRun gs).1 + (zeroRun gs).2 ≤ gs.length ∧
    gs.take (zeroRun gs).1 ++ List.replicate (zeroRun gs).2 0 ++ gs.drop ((zeroRun gs).1 + (zeroRun gs).2) =
      gs := by
  induction gs with
  | nil => exact ⟨Nat.le_refl 0, rfl⟩
  | cons g gs ih =>
    rw [zeroRun]
    split
    · -- The run begins here.
      have hzeros : ∀ d ∈ (g :: gs).takeWhile (· == 0), d = 0 := by
        intro d hd
        simpa using List.mem_takeWhile_imp hd
      have hrun := List.takeWhile_prefix (l := g :: gs) (· == 0)
      refine ⟨by simpa using hrun.length_le, ?_⟩
      dsimp only
      rw [← List.eq_replicate_of_mem hzeros, List.take_zero, List.nil_append, Nat.zero_add]
      exact (List.prefix_iff_eq_append.1 hrun)
    · obtain ⟨hle, hgs⟩ := ih
      refine ⟨by simp only [List.length_cons]; omega, ?_⟩
      simp only [List.take_succ_cons, List.cons_append, Nat.add_right_comm _ 1, List.drop_succ_cons, hgs]

/-! ## Addresses -/

theorem readColoned?_colons (hgs : ∀ g ∈ gs, g < 65536) (hlength : gs.length = 8) :
    readColoned? (colons gs).toList = some (ofGroups gs, []) := by
  have hread := readGroups_colons 8 hgs (Nat.le_of_eq hlength) (.inl rfl)
  rw [List.append_nil] at hread
  unfold readColoned?
  simp only [hread, hlength, if_true]

/-- Groups that are left out are zeros. -/
theorem readColoned?_gap {tail : List Nat} {octets : Bool} {s : List Char} (hgs : ∀ g ∈ gs, g < 65536)
    (hlength : gs.length < 8) (hs : readGroups (7 - gs.length) true s = (tail, octets, rest)) :
    readColoned? ((colons gs).toList ++ ':' :: ':' :: s) =
      some (ofGroups (gs ++ List.replicate (8 - gs.length - tail.length) 0 ++ tail), rest) := by
  have hread := readGroups_colons 8 hgs (Nat.le_of_lt hlength) (.inr ⟨s, rfl⟩)
  unfold readColoned?
  simp only [hread, if_neg (Nat.ne_of_lt hlength), hs]
  rfl

theorem readColoned?_embedded (hn : n < UInt32.size) : readColoned? ("::ffff:" ++ dotted n).toList =
    some (0xFFFF * UInt32.size + n, []) := by
  have hdotted := readDotted?_dotted hn endsRun_nil
  rw [List.append_nil] at hdotted
  have hoctets : readGroups 6 false (':' :: (dotted n).toList) = ([n / 65536, n % 65536], true, []) := by
    rw [readGroups]
    simp only [afterColon?, Bool.false_eq_true, if_false, hdotted]
    rfl
  have hcolon : AtColon (':' :: (dotted n).toList) := by
    rintro c ⟨⟩
    rfl
  have hs : readGroups 7 true (toHex 0xFFFF ++ ':' :: (dotted n).toList) = _ :=
    readGroups_group rfl (by decide) hcolon
  rw [hoctets] at hs
  have hgap := readColoned?_gap (List.forall_mem_nil fun g => g < 65536) (by decide) hs
  have hnumber : ofGroups ([] ++ List.replicate (8 - 0 - 3) 0 ++ [0xFFFF, n / 65536, n % 65536]) =
      0xFFFF * UInt32.size + n := by
    rw [UInt32.size] at *
    simp only [ofGroups, List.nil_append, Nat.sub_zero, List.foldl_append, List.foldl_cons, List.foldl_nil]
    simp [List.replicate]
    omega
  rw [String.toList_append]
  exact hgap.trans (congrArg (fun m => some (m, [])) hnumber)

theorem readColoned?_coloned (hn : n < 340282366920938463463374607431768211456) :
    readColoned? (coloned n).toList = some (n, []) := by
  unfold coloned
  dsimp only
  split
  · rename_i hembedded
    rw [readColoned?_embedded (Nat.mod_lt n (by decide)), ← hembedded, Nat.div_add_mod']
  have hlt := lt_of_mem_groups (n := n)
  have hlength : (groups n).length = 8 := rfl
  have hnumber := ofGroups_groups hn
  split
  · rw [readColoned?_colons hlt hlength, hnumber]
  · rename_i hrun
    obtain ⟨hle, hgs⟩ := zeroRun_spec (groups n)
    generalize zeroRun (groups n) = run at hrun hle hgs
    obtain ⟨start, zeros⟩ := run
    dsimp only at hrun hle hgs ⊢
    have hhead : ((groups n).take start).length = start := by
      rw [List.length_take]
      omega
    have htail : ((groups n).drop (start + zeros)).length = 8 - (start + zeros) := by
      rw [List.length_drop, hlength]
    have hs := readGroups_colons (7 - start)
      (fun g hg => hlt g (List.mem_of_mem_drop hg)) (by rw [htail]; omega) (.inl rfl : EndsGroups [])
    rw [← hhead, List.append_nil] at hs
    have hgap := readColoned?_gap (fun g hg => hlt g (List.mem_of_mem_take hg)) (by omega) hs
    have hzeros : 8 - start - (8 - (start + zeros)) = zeros := by omega
    rw [hhead, htail, hzeros, hgs, hnumber] at hgap
    simpa using hgap

theorem readDotted?_coloned (n : Nat) : readDotted? (coloned n).toList = none := by
  unfold coloned
  dsimp only
  split
  · refine readDotted?_of_atColon ?_
    rw [String.toList_append]
    rintro c ⟨⟩
    rfl
  split
  · have hread := readDotted?_colons (groups n) (.inl rfl)
    rwa [List.append_nil] at hread
  · rw [String.append_assoc, String.toList_append, String.toList_append]
    exact readDotted?_colons _ (.inr ⟨_, rfl⟩)

/-- **An address is read back from its written form.** -/
@[simp] theorem parse?_text (a : Address) : parse? a.text = some a := by
  cases a with
  | v4 bits =>
    have hread := readDotted?_dotted bits.isLt endsRun_nil
    rw [List.append_nil] at hread
    unfold parse? text
    simp only [hread, BitVec.ofNat_toNat, BitVec.setWidth_eq]
  | v6 bits =>
    unfold parse? text
    simp only [readDotted?_coloned, readColoned?_coloned bits.isLt, BitVec.ofNat_toNat, BitVec.setWidth_eq]

end Softphone.Address
