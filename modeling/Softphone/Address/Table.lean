import Softphone.Address

/-!
# Tables of addresses

A table gives the name of an interface to each of finitely many addresses and lists them in
ascending order, so that two tables with the same entries are equal.
-/

namespace Softphone

/-- Addresses with their interfaces, in strictly ascending order of the addresses. -/
structure AddressTable where
  entries : List (Address × String)
  ascending : entries.Pairwise (·.1 < ·.1)

namespace AddressTable

/-- The table without entries. -/
def empty : AddressTable := ⟨[], List.Pairwise.nil⟩

instance : Inhabited AddressTable := ⟨empty⟩

instance : DecidableEq AddressTable := fun a b =>
  if h : a.entries = b.entries then
    .isTrue (by cases a; cases b; simpa using h)
  else .isFalse fun e => h (e ▸ rfl)

/-- The entries with that of `a` set to `name`. -/
def insertEntry (a : Address) (name : String) : List (Address × String) → List (Address × String)
  | [] => [(a, name)]
  | (b, other) :: rest =>
    if a < b then (a, name) :: (b, other) :: rest
    else if b < a then (b, other) :: insertEntry a name rest
    else (a, name) :: rest

theorem mem_insertEntry {a : Address} {name : String} {es : List (Address × String)}
    {e : Address × String} (h : e ∈ insertEntry a name es) : e = (a, name) ∨ e ∈ es := by
  induction es with
  | nil => exact .inl (by simpa [insertEntry] using h)
  | cons head rest ih =>
    obtain ⟨b, other⟩ := head
    unfold insertEntry at h
    split at h
    · rcases List.mem_cons.1 h with h | h
      · exact .inl h
      · exact .inr h
    · split at h
      · rcases List.mem_cons.1 h with h | h
        · exact .inr (h ▸ List.mem_cons_self)
        · exact (ih h).imp id (List.mem_cons_of_mem _)
      · rcases List.mem_cons.1 h with h | h
        · exact .inl h
        · exact .inr (List.mem_cons_of_mem _ h)

theorem insertEntry_ascending (a : Address) (name : String) {es : List (Address × String)}
    (h : es.Pairwise (·.1 < ·.1)) : (insertEntry a name es).Pairwise (·.1 < ·.1) := by
  induction es with
  | nil => exact List.pairwise_singleton _ _
  | cons head rest ih =>
    obtain ⟨b, other⟩ := head
    obtain ⟨hb, hrest⟩ := List.pairwise_cons.1 h
    unfold insertEntry
    split
    · rename_i hab
      refine List.pairwise_cons.2 ⟨fun e he => ?_, h⟩
      rcases List.mem_cons.1 he with rfl | he
      · exact hab
      · exact Address.lt_trans hab (hb e he)
    · split
      · rename_i hba
        refine List.pairwise_cons.2 ⟨fun e he => ?_, ih hrest⟩
        rcases mem_insertEntry he with rfl | he
        · exact hba
        · exact hb e he
      · rename_i hab hba
        obtain rfl := Address.eq_of_not_lt hab hba
        exact List.pairwise_cons.2 ⟨hb, hrest⟩

/-- Sets the interface of one address. -/
def insert (t : AddressTable) (a : Address) (name : String) : AddressTable where
  entries := insertEntry a name t.entries
  ascending := insertEntry_ascending a name t.ascending

/-- Keeps the entries that pass a test. -/
def filter (t : AddressTable) (keep : Address × String → Bool) : AddressTable where
  entries := t.entries.filter keep
  ascending := t.ascending.filter keep

/-- Drops one address. -/
def erase (t : AddressTable) (a : Address) : AddressTable :=
  t.filter (·.1 ≠ a)

/-- The interface of an address. -/
def get? (t : AddressTable) (a : Address) : Option String :=
  (t.entries.find? (·.1 = a)).map (·.2)

def contains (t : AddressTable) (a : Address) : Bool :=
  (t.get? a).isSome

/-- The addresses in ascending order. -/
def addresses (t : AddressTable) : List Address :=
  t.entries.map (·.1)

def size (t : AddressTable) : Nat := t.entries.length

def isEmpty (t : AddressTable) : Bool := t.entries.isEmpty

/-- The table of a list of entries; of two for one address the later stands. -/
def ofList (es : List (Address × String)) : AddressTable :=
  es.foldl (fun t e => t.insert e.1 e.2) empty

/-- Adds an entry unless the address has one already. -/
def insertNew (t : AddressTable) (a : Address) (name : String) : AddressTable :=
  if t.contains a then t else t.insert a name

/-- Adds the entries of another table whose addresses are new. -/
def merge (t extra : AddressTable) : AddressTable :=
  extra.entries.foldl (fun t e => t.insertNew e.1 e.2) t

end AddressTable

end Softphone
