import Mathlib.Data.List.Induction
import Mathlib.Data.List.Sort
import Softphone.Address.Table

/-!
# Tables through their lookups

A table is determined by what it gives for each address (`ext_get?`), and every operation is described
by the lookups after it.
-/

namespace Softphone

theorem Address.ne_of_lt {a b : Address} (h : a < b) : a ≠ b := by
  rintro rfl
  exact Address.lt_irrefl a h

namespace AddressTable

variable {t u : AddressTable} {a b : Address} {name : String} {es fs : List (Address × String)}

/-! ## Entries and lookups -/

theorem find?_eq_some_iff (h : es.Pairwise (·.1 < ·.1)) :
    es.find? (·.1 = a) = some (a, name) ↔ (a, name) ∈ es := by
  refine ⟨List.mem_of_find?_eq_some, fun hmem => ?_⟩
  induction es with
  | nil => cases hmem
  | cons head rest ih =>
    obtain ⟨hhead, hrest⟩ := List.pairwise_cons.1 h
    rcases List.mem_cons.1 hmem with rfl | hmem
    · simp
    · have hne : head.1 ≠ a := Address.ne_of_lt (hhead _ hmem)
      rw [List.find?_cons_of_neg (by simpa using hne)]
      exact ih hrest hmem

theorem get?_eq_some_iff : t.get? a = some name ↔ (a, name) ∈ t.entries := by
  rw [← find?_eq_some_iff t.ascending]
  simp only [get?, Option.map_eq_some_iff]
  constructor
  · rintro ⟨⟨b, other⟩, hfind, rfl⟩
    have hb : b = a := by simpa using List.find?_some hfind
    rw [hfind, hb]
  · exact fun h => ⟨_, h, rfl⟩

/-- Two tables that give the same for every address are one table. -/
theorem ext_get? (h : ∀ a, t.get? a = u.get? a) : t = u := by
  have hmem : ∀ e, e ∈ t.entries ↔ e ∈ u.entries := by
    rintro ⟨a, name⟩
    rw [← get?_eq_some_iff, ← get?_eq_some_iff, h]
  have hnodup : ∀ s : AddressTable, s.entries.Nodup := fun s =>
    s.ascending.imp fun hlt heq => Address.ne_of_lt hlt (congrArg Prod.fst heq)
  have hperm : t.entries.Perm u.entries :=
    (List.perm_ext_iff_of_nodup (hnodup t) (hnodup u)).2 hmem
  have heq : t.entries = u.entries :=
    hperm.eq_of_pairwise (fun _ _ _ _ hab hba =>
      (Address.lt_irrefl _ (Address.lt_trans hab hba)).elim) t.ascending u.ascending
  cases t
  cases u
  cases heq
  rfl

theorem eq_iff_get? : t = u ↔ ∀ a, t.get? a = u.get? a :=
  ⟨fun h _ => h ▸ rfl, ext_get?⟩

theorem mem_addresses_iff : a ∈ t.addresses ↔ ∃ name, t.get? a = some name := by
  simp only [addresses, List.mem_map, get?_eq_some_iff]
  constructor
  · rintro ⟨⟨b, name⟩, hmem, rfl⟩
    exact ⟨name, hmem⟩
  · rintro ⟨name, hmem⟩
    exact ⟨_, hmem, rfl⟩

theorem get?_eq_none_iff : t.get? a = none ↔ a ∉ t.addresses := by
  rw [mem_addresses_iff, Option.eq_none_iff_forall_ne_some, not_exists]

theorem addresses_ascending (t : AddressTable) : t.addresses.Pairwise (· < ·) :=
  List.pairwise_map.2 t.ascending

theorem nodup_addresses (t : AddressTable) : t.addresses.Nodup :=
  t.addresses_ascending.imp Address.ne_of_lt

@[simp] theorem get?_empty : empty.get? a = none := rfl

/-! ## Changes -/

theorem mem_insertEntry_iff {e : Address × String} (h : es.Pairwise (·.1 < ·.1)) :
    e ∈ insertEntry a name es ↔ e = (a, name) ∨ e.1 ≠ a ∧ e ∈ es := by
  induction es with
  | nil => simp [insertEntry]
  | cons head rest ih =>
    obtain ⟨b, other⟩ := head
    obtain ⟨hhead, hrest⟩ := List.pairwise_cons.1 h
    unfold insertEntry
    split
    · rename_i hab
      have hother : ∀ e ∈ (b, other) :: rest, e.1 ≠ a := by
        intro e he
        rcases List.mem_cons.1 he with rfl | he
        · exact (Address.ne_of_lt hab).symm
        · exact (Address.ne_of_lt (Address.lt_trans hab (hhead e he))).symm
      rw [List.mem_cons]
      exact or_congr_right ⟨fun he => ⟨hother e he, he⟩, And.right⟩
    · split
      · rename_i hba
        rw [List.mem_cons, ih hrest, List.mem_cons]
        constructor
        · rintro (rfl | rfl | ⟨hne, he⟩)
          · exact .inr ⟨Address.ne_of_lt hba, .inl rfl⟩
          · exact .inl rfl
          · exact .inr ⟨hne, .inr he⟩
        · rintro (rfl | ⟨hne, rfl | he⟩)
          · exact .inr (.inl rfl)
          · exact .inl rfl
          · exact .inr (.inr ⟨hne, he⟩)
      · rename_i hab hba
        obtain rfl := Address.eq_of_not_lt hab hba
        rw [List.mem_cons, List.mem_cons]
        constructor
        · rintro (rfl | he)
          · exact .inl rfl
          · exact .inr ⟨(Address.ne_of_lt (hhead e he)).symm, .inr he⟩
        · rintro (rfl | ⟨hne, rfl | he⟩)
          · exact .inl rfl
          · exact (hne rfl).elim
          · exact .inr he

@[simp] theorem get?_insert :
    (t.insert a name).get? b = if b = a then some name else t.get? b := by
  have hmem : ∀ n, (t.insert a name).get? b = some n ↔
      (b, n) = (a, name) ∨ b ≠ a ∧ t.get? b = some n := by
    intro n
    rw [get?_eq_some_iff, get?_eq_some_iff]
    exact mem_insertEntry_iff t.ascending
  ext n
  rw [hmem]
  split <;> simp_all [eq_comm]

@[simp] theorem get?_filter {keep : Address × String → Bool} :
    (t.filter keep).get? a = (t.get? a).filter fun name => keep (a, name) := by
  ext name
  rw [get?_eq_some_iff, Option.filter_eq_some_iff, get?_eq_some_iff]
  exact List.mem_filter

@[simp] theorem get?_erase : (t.erase a).get? b = if b = a then none else t.get? b := by
  rw [erase, get?_filter]
  by_cases h : b = a <;> cases t.get? b <;> simp [h]

@[simp] theorem get?_insertNew :
    (t.insertNew a name).get? b = if b = a then some ((t.get? a).getD name) else t.get? b := by
  unfold insertNew contains
  cases h : t.get? a with
  | none => simp
  | some other => by_cases hba : b = a <;> simp [hba, h]

theorem mem_addresses_insert : b ∈ (t.insert a name).addresses ↔ b = a ∨ b ∈ t.addresses := by
  simp only [mem_addresses_iff, get?_insert]
  by_cases h : b = a
  · simp [h]
  · simp [h]

/-! ## Many changes at once -/

theorem get?_foldl_erase (as : List Address) (t : AddressTable) :
    (as.foldl erase t).get? b = if b ∈ as then none else t.get? b := by
  induction as generalizing t with
  | nil => simp
  | cons a as ih =>
    rw [List.foldl_cons, ih, get?_erase]
    by_cases hba : b = a <;> simp [hba]

theorem mem_addresses_foldl_erase {as : List Address} :
    b ∈ (as.foldl erase t).addresses ↔ b ∉ as ∧ b ∈ t.addresses := by
  simp only [mem_addresses_iff, get?_foldl_erase]
  by_cases h : b ∈ as
  · simp [h]
  · simp [h]

theorem get?_foldl_insertNew (h : es.Pairwise (·.1 < ·.1)) (t : AddressTable) :
    (es.foldl (fun t e => t.insertNew e.1 e.2) t).get? b =
      (t.get? b).or ((es.find? (·.1 = b)).map (·.2)) := by
  induction es generalizing t with
  | nil => simp
  | cons head rest ih =>
    obtain ⟨hhead, hrest⟩ := List.pairwise_cons.1 h
    rw [List.foldl_cons, ih hrest, get?_insertNew]
    by_cases hb : b = head.1
    · subst hb
      cases t.get? head.1 <;> simp
    · rw [if_neg hb, List.find?_cons_of_neg (by simpa using Ne.symm hb)]

theorem get?_foldl_insert (h : es.Pairwise (·.1 < ·.1)) (t : AddressTable) :
    (es.foldl (fun t e => t.insert e.1 e.2) t).get? b =
      ((es.find? (·.1 = b)).map (·.2)).or (t.get? b) := by
  induction es generalizing t with
  | nil => rfl
  | cons head rest ih =>
    obtain ⟨hhead, hrest⟩ := List.pairwise_cons.1 h
    rw [List.foldl_cons, ih hrest, get?_insert]
    by_cases hb : b = head.1
    · subst hb
      have hlater : rest.find? (·.1 = head.1) = none := by
        refine List.find?_eq_none.2 fun e he => ?_
        simpa using (Address.ne_of_lt (hhead e he)).symm
      simp [hlater]
    · rw [if_neg hb, List.find?_cons_of_neg (by simpa using Ne.symm hb)]

/-- Of two entries for an address the one in the table stands. -/
@[simp] theorem get?_merge : (t.merge u).get? a = (t.get? a).or (u.get? a) :=
  get?_foldl_insertNew u.ascending t

theorem mem_addresses_merge : a ∈ (t.merge u).addresses ↔ a ∈ t.addresses ∨ a ∈ u.addresses := by
  simp only [mem_addresses_iff, get?_merge]
  cases t.get? a <;> simp

/-! ## Tables of lists -/

/-- Of two entries for an address in a list the later stands. -/
theorem get?_ofList_append :
    (ofList (es ++ fs)).get? a = ((ofList fs).get? a).or ((ofList es).get? a) := by
  induction fs using List.reverseRecOn with
  | nil =>
    rw [List.append_nil]
    rfl
  | append_singleton fs f ih =>
    unfold ofList at ih ⊢
    rw [← List.append_assoc, List.foldl_concat, List.foldl_concat, get?_insert, get?_insert, ih]
    split <;> rfl

theorem mem_of_get?_ofList (h : (ofList es).get? a = some name) : (a, name) ∈ es := by
  induction es using List.reverseRecOn with
  | nil => cases h
  | append_singleton es e ih =>
    rw [ofList, List.foldl_concat, get?_insert] at h
    split at h
    · rename_i hsame
      rw [List.mem_append, List.mem_singleton, hsame, ← Option.some.inj h]
      exact .inr rfl
    · exact List.mem_append_left _ (ih h)

theorem mem_addresses_ofList : a ∈ (ofList es).addresses ↔ a ∈ es.map (·.1) := by
  induction es using List.reverseRecOn with
  | nil => rfl
  | append_singleton es e ih =>
    rw [ofList, List.foldl_concat, mem_addresses_insert, List.map_append, List.mem_append, or_comm]
    exact or_congr ih List.mem_singleton.symm

/-- A list that has one entry for each address is read off as it is. -/
theorem get?_ofList_iff (h : ∀ e ∈ es, ∀ e' ∈ es, e.1 = e'.1 → e = e') :
    (ofList es).get? a = some name ↔ (a, name) ∈ es := by
  refine ⟨mem_of_get?_ofList, fun hmem => ?_⟩
  obtain ⟨name', hname'⟩ := mem_addresses_iff.1 (mem_addresses_ofList.2 (List.mem_map_of_mem hmem))
  have hsame := h _ (mem_of_get?_ofList hname') _ hmem rfl
  rw [hname', (Prod.mk.inj hsame).2]

end AddressTable

end Softphone
