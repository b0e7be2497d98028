import Softphone.Address.Printer
import Softphone.Network.Hotspot
import Softphone.Proofs.Address.Table

/-!
# What is discovered of hotspots

What is discovered among the interfaces of a device are the private addresses of the first one that serves a hotspot
(`Hotspot.discover_exact`). Which addresses are private is said by the ranges they lie in.
-/

namespace Softphone

/-! ## Private addresses -/

namespace Address

/-- The first and the last address of each private range: 10/8, 172.16/12, 192.168/16 and fec0::/10. -/
def privateRanges : List (Address × Address) := [
  (.v4 0x0A000000, .v4 0x0AFFFFFF),
  (.v4 0xAC100000, .v4 0xAC1FFFFF),
  (.v4 0xC0A80000, .v4 0xC0A8FFFF),
  (.v6 0xFEC00000000000000000000000000000, .v6 0xFEFFFFFFFFFFFFFFFFFFFFFFFFFFFFFF)]

/-- An address lies in a private range. -/
def IsPrivate (a : Address) : Prop := ∃ r ∈ privateRanges, r.1.rank ≤ a.rank ∧ a.rank ≤ r.2.rank

theorem isPrivate_iff {a : Address} : a.IsPrivate ↔
    (v4 0x0A000000).rank ≤ a.rank ∧ a.rank ≤ (v4 0x0AFFFFFF).rank ∨
      (v4 0xAC100000).rank ≤ a.rank ∧ a.rank ≤ (v4 0xAC1FFFFF).rank ∨
      (v4 0xC0A80000).rank ≤ a.rank ∧ a.rank ≤ (v4 0xC0A8FFFF).rank ∨
      (v6 0xFEC00000000000000000000000000000).rank ≤ a.rank ∧
        a.rank ≤ (v6 0xFEFFFFFFFFFFFFFFFFFFFFFFFFFFFFFF).rank := by
  simp only [IsPrivate, privateRanges, List.mem_cons, List.not_mem_nil, or_false, exists_eq_or_imp,
    exists_eq_left]

theorem inBlock_iff {width : Nat} {bits : BitVec width} {length block : Nat} :
    inBlock bits length block = true ↔
      block <<< (width - length) ≤ bits.toNat ∧ bits.toNat < (block + 1) <<< (width - length) := by
  have hpos := Nat.two_pow_pos (width - length)
  rw [inBlock, beq_iff_eq, Nat.shiftRight_eq_div_pow, Nat.div_eq_iff hpos, Nat.shiftLeft_eq, Nat.shiftLeft_eq,
    Nat.add_mul]
  omega

theorem isSiteLocal_iff {a : Address} : a.isSiteLocal = true ↔ a.IsPrivate := by
  -- All ranks that occur are numbers but that of the address, so the bounds decide.
  cases a with
  | v4 bits =>
    have := bits.isLt
    simp only [isSiteLocal, Bool.or_eq_true, inBlock_iff, isPrivate_iff, rank, UInt32.size,
      BitVec.ofNat_eq_ofNat, BitVec.toNat_ofNat, Nat.reduceSub, Nat.reducePow, Nat.reduceMod, Nat.reduceAdd,
      Nat.reduceShiftLeft]
    omega
  | v6 bits =>
    have := bits.isLt
    simp only [isSiteLocal, inBlock_iff, isPrivate_iff, rank, UInt32.size, BitVec.ofNat_eq_ofNat,
      BitVec.toNat_ofNat, Nat.reduceSub, Nat.reducePow, Nat.reduceMod, Nat.reduceAdd, Nat.reduceShiftLeft]
    omega

example : privateRanges.map (fun r => (r.1.text, r.2.text)) = [
    ("10.0.0.0", "10.255.255.255"), ("172.16.0.0", "172.31.255.255"),
    ("192.168.0.0", "192.168.255.255"), ("fec0::", "feff:ffff:ffff:ffff:ffff:ffff:ffff:ffff")] := by
  decide

end Address

/-! ## Interfaces that serve a hotspot -/

theorem Text.occursIn_iff {part text : List Char} : occursIn part text = true ↔ part <:+: text := by
  induction text with
  | nil =>
    rw [occursIn, List.isEmpty_iff, List.infix_nil]
  | cons c rest ih =>
    rw [occursIn, Bool.or_eq_true, List.isPrefixOf_iff_prefix, ih, List.infix_cons_iff]

namespace InterfaceInfo

/-- An interface has the name of one of a hotspot, and a private address. -/
def Serves (i : InterfaceInfo) : Prop :=
  ("ap".toList <+: i.name.toList ∨ "wlan".toList <:+: i.name.toList) ∧ ∃ a ∈ i.addresses, a.IsPrivate

/-- A list of interfaces into which others were put, anywhere, none of which serves a hotspot. -/
inductive Filled : List InterfaceInfo → List InterfaceInfo → Prop
  | nil : Filled [] []
  | kept {is js : List InterfaceInfo} (i : InterfaceInfo) (h : Filled is js) : Filled (i :: is) (i :: js)
  | idle {is js : List InterfaceInfo} {i : InterfaceInfo} (hidle : ¬ i.Serves) (h : Filled is js) :
    Filled is (i :: js)

end InterfaceInfo

namespace Hotspot

open InterfaceInfo

variable {i : InterfaceInfo} {is js : List InterfaceInfo} {a : Address} {name : String}

/-- A name is that of a hotspot if it begins with the first word, or has the second somewhere in it. -/
theorem isHotspotName_iff : isHotspotName name = true ↔
    "ap".toList <+: name.toList ∨ "wlan".toList <:+: name.toList := by
  rw [isHotspotName, Bool.or_eq_true, List.isPrefixOf_iff_prefix, Text.occursIn_iff]

/-- A table holds the private addresses of the first interface that serves a hotspot, each on that interface. -/
structure FirstServing (is : List InterfaceInfo) (i : InterfaceInfo) (t : AddressTable) : Prop where
  serves : i.Serves
  first : ∃ before later, is = before ++ i :: later ∧ ∀ j ∈ before, ¬ j.Serves
  get?_iff (a : Address) (name : String) : t.get? a = some name ↔
    a ∈ i.addresses ∧ a.IsPrivate ∧ name = i.name

theorem mem_privateAddresses_iff :
    (a, name) ∈ privateAddresses i ↔ a ∈ i.addresses ∧ a.IsPrivate ∧ name = i.name := by
  rw [privateAddresses, List.mem_map]
  constructor
  · rintro ⟨b, hb, heq⟩
    obtain ⟨rfl, rfl⟩ := Prod.mk.inj heq
    obtain ⟨hlisted, hsite⟩ := List.mem_filter.1 hb
    exact ⟨hlisted, Address.isSiteLocal_iff.1 hsite, rfl⟩
  · rintro ⟨hlisted, hprivate, rfl⟩
    exact ⟨a, List.mem_filter.2 ⟨hlisted, Address.isSiteLocal_iff.2 hprivate⟩, rfl⟩

theorem serves_iff : i.Serves ↔ isHotspotName i.name = true ∧ (!(privateAddresses i).isEmpty) = true := by
  rw [Serves, ← isHotspotName_iff, Bool.not_eq_true', List.isEmpty_eq_false_iff_exists_mem]
  refine and_congr_right fun _ => ⟨?_, ?_⟩
  · rintro ⟨a, hlisted, hprivate⟩
    exact ⟨(a, i.name), mem_privateAddresses_iff.2 ⟨hlisted, hprivate, rfl⟩⟩
  · rintro ⟨⟨a, name⟩, hmem⟩
    obtain ⟨hlisted, hprivate, -⟩ := mem_privateAddresses_iff.1 hmem
    exact ⟨a, hlisted, hprivate⟩

instance : DecidablePred Serves := fun _ => decidable_of_iff _ serves_iff.symm

/-- All that counts of a list is the first interface in it that serves a hotspot. -/
theorem discover_eq (is : List InterfaceInfo) :
    discover is = .ofList (((is.find? (Serves ·)).map privateAddresses).getD []) := by
  have hserves : (fun i : InterfaceInfo => decide i.Serves) =
      fun i => decide (isHotspotName i.name = true ∧ (!(privateAddresses i).isEmpty) = true) :=
    funext fun _ => decide_eq_decide.2 serves_iff
  rw [discover, List.find?_map, List.find?_filter, hserves]
  rfl

theorem discover_of_none (h : ∀ i ∈ is, ¬ i.Serves) : discover is = .empty := by
  have hnone : is.find? (Serves ·) = none := List.find?_eq_none.2 (by simpa using h)
  rw [discover_eq, hnone]
  rfl

theorem discover_of_some (h : is.find? (Serves ·) = some i) : FirstServing is i (discover is) := by
  obtain ⟨hserves, before, later, heq, hbefore⟩ := List.find?_eq_some_iff_append.1 h
  refine ⟨of_decide_eq_true hserves, ⟨before, later, heq, by simpa using hbefore⟩, fun a name => ?_⟩
  rw [discover_eq, h, Option.map_some, Option.getD_some, ← mem_privateAddresses_iff]
  refine AddressTable.get?_ofList_iff fun e he e' he' haddress => ?_
  obtain ⟨-, -, hname⟩ := mem_privateAddresses_iff.1 he
  obtain ⟨-, -, hname'⟩ := mem_privateAddresses_iff.1 he'
  exact Prod.ext haddress (hname.trans hname'.symm)

/-- An interface that serves a hotspot has something to be discovered. -/
theorem FirstServing.ne_empty {t : AddressTable} (h : FirstServing is i t) : t ≠ .empty := by
  rintro rfl
  obtain ⟨-, a, hlisted, hprivate⟩ := h.serves
  cases (h.get?_iff a i.name).2 ⟨hlisted, hprivate, rfl⟩

theorem discover_eq_empty_iff : discover is = .empty ↔ ∀ i ∈ is, ¬ i.Serves := by
  refine ⟨fun hempty => ?_, discover_of_none⟩
  cases hfind : is.find? (Serves ·) with
  | none => simpa using hfind
  | some i => exact absurd hempty (discover_of_some hfind).ne_empty

theorem find?_filled (h : Filled is js) : js.find? (Serves ·) = is.find? (Serves ·) := by
  induction h with
  | nil => rfl
  | kept i _ ih => rw [List.find?_cons, List.find?_cons, ih]
  | idle hidle _ ih => rw [List.find?_cons_of_neg (by simpa using hidle), ih]

theorem exists_find?_of_ne_empty (h : discover is ≠ .empty) : ∃ i, is.find? (Serves ·) = some i := by
  refine Option.ne_none_iff_exists'.1 fun hnone => h (discover_of_none ?_)
  simpa using hnone

/-- What a discovery has to give for a list of interfaces. -/
structure Discovers (is : List InterfaceInfo) (t : AddressTable) : Prop where
  empty_iff : t = .empty ↔ ∀ i ∈ is, ¬ i.Serves
  first (h : t ≠ .empty) : ∃ i, FirstServing is i t

/-- **What is discovered.** It is nothing if no interface serves a hotspot, and else what the first one that does
has to give; interfaces after that one change nothing, nor do those anywhere that serve no hotspot. -/
theorem discover_exact (is : List InterfaceInfo) :
    Discovers is (discover is) ∧
      (discover is ≠ .empty → ∀ more, discover (is ++ more) = discover is) ∧
      ∀ js, Filled is js → discover js = discover is := by
  refine ⟨⟨discover_eq_empty_iff, fun hsome => ?_⟩, fun hsome more => ?_, fun js hfilled => ?_⟩
  · obtain ⟨i, hfind⟩ := exists_find?_of_ne_empty hsome
    exact ⟨i, discover_of_some hfind⟩
  · obtain ⟨i, hfind⟩ := exists_find?_of_ne_empty hsome
    rw [discover_eq, discover_eq, List.find?_append, hfind, Option.some_or]
  · rw [discover_eq, discover_eq, find?_filled hfilled]

end Hotspot

end Softphone
