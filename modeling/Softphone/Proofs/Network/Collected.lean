import Softphone.Network.Snapshot
import Softphone.Proofs.Address.Table
import Softphone.Proofs.Since

/-!
# What a snapshot collects

A snapshot of a platform has the addresses that attached networks carry, each on the interface of the last network
that does, and a table that is added to it leaves these as they are (`Snapshot.collect_exact`).
-/

namespace Softphone

variable {p : Platform} {family : AddressFamily} {network : NetworkId} {a : Address} {name : String}

/-- A network has an address that the engine may use: the platform tells what the network can do and how it
is linked, the foreground may use it where the platform says so, its interface has a name, and the address
is of global scope and of the wanted family. -/
def Platform.Carries (p : Platform) (family : AddressFamily) (network : NetworkId) (a : Address)
    (name : String) : Prop :=
  ∃ capabilities properties,
    p.capabilities network = some capabilities ∧ p.properties network = some properties ∧
      (p.reportsForeground = true → capabilities.foreground = true) ∧
      properties.interface = some name ∧ ⟨a, .global⟩ ∈ properties.addresses ∧ family.admits a = true

/-- The last of some networks that carry an address has it on an interface of this name. -/
def Platform.CarriesLast (p : Platform) (family : AddressFamily) (networks : List NetworkId) (a : Address)
    (name : String) : Prop :=
  ∃ before network later, networks = before ++ network :: later ∧ p.Carries family network a name ∧
    ∀ other ∈ later, ∀ name', ¬ p.Carries family other a name'

theorem Platform.not_carriesLast_nil : ¬ p.CarriesLast family [] a name := by
  rintro ⟨before, network, later, heq, -⟩
  cases before <;> cases heq

theorem Platform.carriesLast_concat_iff {networks : List NetworkId} :
    p.CarriesLast family (networks ++ [network]) a name ↔
      p.Carries family network a name ∨
        p.CarriesLast family networks a name ∧ ∀ name', ¬ p.Carries family network a name' :=
  exists_since_concat_iff

namespace Snapshot

/-- What a snapshot has to hold of a platform. -/
structure Collects (s : Snapshot) (p : Platform) (family : AddressFamily) : Prop where
  active : s.active = p.active
  mem_iff (a : Address) : a ∈ s.addresses.addresses ↔
    ∃ network ∈ p.attached, ∃ name, p.Carries family network a name
  /-- Of the networks that carry an address the last gives the interface. -/
  get?_iff (a : Address) (name : String) : s.addresses.get? a = some name ↔
    p.CarriesLast family p.attached a name

/-- What a snapshot has to hold once the addresses of a table were added to another. -/
structure Extends (merged s : Snapshot) (extra : AddressTable) : Prop where
  active : merged.active = s.active
  mem_iff (a : Address) : a ∈ merged.addresses.addresses ↔ a ∈ s.addresses.addresses ∨ a ∈ extra.addresses
  /-- An address that both have stays on the interface of the snapshot. -/
  kept {a : Address} (h : a ∈ s.addresses.addresses) : merged.addresses.get? a = s.addresses.get? a
  added {a : Address} (h : a ∉ s.addresses.addresses) : merged.addresses.get? a = extra.get? a

/-! ## One network -/

theorem mem_contribution_iff : (a, name) ∈ contribution p family network ↔ p.Carries family network a name := by
  constructor
  · intro h
    unfold contribution at h
    split at h
    · rename_i capabilities properties hcapabilities hproperties
      split at h
      · rename_i interface hinterface
        split at h
        · cases h
        · rename_i husable
          obtain ⟨l, hl, heq⟩ := List.mem_map.1 h
          obtain ⟨rfl, rfl⟩ := Prod.mk.inj heq
          obtain ⟨hmem, hwanted⟩ := List.mem_filter.1 hl
          rw [Bool.and_eq_true, decide_eq_true_iff] at hwanted
          have hforeground : p.reportsForeground = true → capabilities.foreground = true := by
            simpa using husable
          have hglobal : (⟨l.address, .global⟩ : LinkAddress) ∈ properties.addresses := by
            rwa [← hwanted.1]
          exact ⟨capabilities, properties, hcapabilities, hproperties, hforeground, hinterface, hglobal,
            hwanted.2⟩
      · cases h
    · cases h
  · rintro ⟨capabilities, properties, hcapabilities, hproperties, hforeground, hinterface, hmem, hadmits⟩
    have husable : ¬ (p.reportsForeground && !capabilities.foreground) = true := by
      simpa using hforeground
    rw [contribution, hcapabilities, hproperties]
    dsimp only
    rw [hinterface]
    dsimp only
    rw [if_neg husable]
    exact List.mem_map.2 ⟨⟨a, .global⟩, List.mem_filter.2 ⟨hmem, by simpa using hadmits⟩, rfl⟩

theorem eq_of_mem_contribution {e e' : Address × String} (h : e ∈ contribution p family network)
    (h' : e' ∈ contribution p family network) (haddress : e.1 = e'.1) : e = e' := by
  obtain ⟨_, _, -, hproperties, -, hinterface, -⟩ := mem_contribution_iff.1 h
  obtain ⟨_, _, -, hproperties', -, hinterface', -⟩ := mem_contribution_iff.1 h'
  obtain rfl := Option.some.inj (hproperties.symm.trans hproperties')
  exact Prod.ext haddress (Option.some.inj (hinterface.symm.trans hinterface'))

theorem get?_ofList_contribution :
    (AddressTable.ofList (contribution p family network)).get? a = some name ↔ p.Carries family network a name :=
  (AddressTable.get?_ofList_iff fun _ h _ h' => eq_of_mem_contribution h h').trans mem_contribution_iff

/-! ## Many networks -/

theorem get?_ofList_contributions (networks : List NetworkId) :
    (AddressTable.ofList (networks.flatMap (contribution p family))).get? a = some name ↔
      p.CarriesLast family networks a name := by
  induction networks using List.reverseRecOn with
  | nil => exact iff_of_false nofun Platform.not_carriesLast_nil
  | append_singleton networks network ih =>
    have hnone : (AddressTable.ofList (contribution p family network)).get? a = none ↔
        ∀ name', ¬ p.Carries family network a name' := by
      simp only [Option.eq_none_iff_forall_ne_some, ne_eq, get?_ofList_contribution]
    rw [List.flatMap_append, List.flatMap_singleton, AddressTable.get?_ofList_append, Option.or_eq_some_iff,
      get?_ofList_contribution, hnone, ih, Platform.carriesLast_concat_iff]
    exact or_congr_right and_comm

theorem collects (p : Platform) (family : AddressFamily) : (collect p family).Collects p family where
  active := rfl
  get?_iff _ _ := get?_ofList_contributions p.attached
  mem_iff a := by
    refine AddressTable.mem_addresses_ofList.trans ?_
    simp only [List.mem_map, List.mem_flatMap]
    constructor
    · rintro ⟨⟨_, name⟩, ⟨network, hattached, hmem⟩, rfl⟩
      exact ⟨network, hattached, name, mem_contribution_iff.1 hmem⟩
    · rintro ⟨network, hattached, name, hcarries⟩
      exact ⟨(a, name), ⟨network, hattached, mem_contribution_iff.2 hcarries⟩, rfl⟩

theorem merge_extends (s : Snapshot) (extra : AddressTable) : (s.merge extra).Extends s extra where
  active := rfl
  mem_iff _ := AddressTable.mem_addresses_merge
  kept h := by
    obtain ⟨name, hname⟩ := AddressTable.mem_addresses_iff.1 h
    rw [merge, AddressTable.get?_merge, hname]
    rfl
  added h := by
    rw [merge, AddressTable.get?_merge, AddressTable.get?_eq_none_iff.2 h, Option.none_or]

/-- **What is collected, and what is added to it.** An address is in the snapshot of a platform exactly if an
attached network carries it, with the interface of the last such network. A table adds what is missing. -/
theorem collect_exact (p : Platform) (family : AddressFamily) (extra : AddressTable) :
    (collect p family).Collects p family ∧
      ((collect p family).merge extra).Extends (collect p family) extra :=
  ⟨collects p family, merge_extends _ extra⟩

end Snapshot

end Softphone
