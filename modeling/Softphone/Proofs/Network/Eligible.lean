import Softphone.Proofs.Network.Collected
import Softphone.Proofs.Network.Discovered
import Softphone.Proofs.Network.Effects
import Softphone.Proofs.Network.Hotspot
import Softphone.Proofs.Network.Pass

/-!
# Which addresses the engine is offered

The engine is offered addresses by a pass and at the end of the delay after a hotspot came up. An address that a
pass adds is on a network that the platform tells of then, or is a known one of the hotspot
(`Mobility.offered_of_mem_added`); what is found of a hotspot is private and on an interface of a hotspot
(`Hotspot.listed_of_mem_discover`). Either way it is of the wanted family.
-/

namespace Softphone

/-- The address that an effect offers to the engine, with the name of its interface. -/
def Effect.addition? : Effect → Option (Address × String)
  | addAddress a name _ => some (a, name)
  | _ => none

theorem Effect.addition?_of_not_addition {e : Effect} (h : e.isAddition = false) : e.addition? = none := by
  cases e <;> first | rfl | cases h

theorem Effect.addition?_of_not_transport {e : Effect} (h : e.isTransport = false) :
    e.addition? = none := by
  cases e <;> first | rfl | cases h

variable {a : Address} {name : String}

/-! ## Networks -/

/-- An address of global scope is on the named interface of an attached network of which the platform tells
what it can do and how it is linked, and which may be used. -/
def Platform.Offers (p : Platform) (a : Address) (name : String) : Prop :=
  ∃ network ∈ p.attached, ∃ capabilities properties,
    p.capabilities network = some capabilities ∧ p.properties network = some properties ∧
      (p.reportsForeground = true → capabilities.foreground = true) ∧
      properties.interface = some name ∧ ⟨a, .global⟩ ∈ properties.addresses

namespace Snapshot

variable {p : Platform} {family : AddressFamily}

theorem offers_of_get?_collect (h : (collect p family).addresses.get? a = some name) :
    p.Offers a name ∧ family.admits a = true := by
  obtain ⟨network, hattached, hmem⟩ := List.mem_flatMap.1 (AddressTable.mem_of_get?_ofList h)
  obtain ⟨capabilities, properties, hcapabilities, hproperties, hforeground, hinterface, hlisted, hadmits⟩ :=
    mem_contribution_iff.1 hmem
  exact ⟨⟨network, hattached, capabilities, properties, hcapabilities, hproperties, hforeground, hinterface,
    hlisted⟩, hadmits⟩

end Snapshot

/-! ## Hotspots -/

namespace Hotspot

/-- An address is private, and one of some lists of interfaces has it on an interface of a hotspot. -/
structure Listed (lists : List (List InterfaceInfo)) (a : Address) (name : String) : Prop where
  siteLocal : a.isSiteLocal = true
  hotspotName : "ap".toList <+: name.toList ∨ "wlan".toList <:+: name.toList
  listed : ∃ interfaces ∈ lists, ∃ i ∈ interfaces, i.name = name ∧ a ∈ i.addresses

theorem Listed.mono {lists lists' : List (List InterfaceInfo)} (h : Listed lists a name)
    (hsubset : lists ⊆ lists') : Listed lists' a name := by
  obtain ⟨interfaces, hmem, hlisted⟩ := h.listed
  exact ⟨h.siteLocal, h.hotspotName, interfaces, hsubset hmem, hlisted⟩

theorem listed_of_mem_discover {interfaces : List InterfaceInfo}
    (h : (a, name) ∈ (discover interfaces).entries) : Listed [interfaces] a name := by
  have hget := AddressTable.get?_eq_some_iff.2 h
  have hsome : discover interfaces ≠ .empty := by
    intro hempty
    rw [hempty] at hget
    cases hget
  obtain ⟨i, hfind⟩ := exists_find?_of_ne_empty hsome
  have hfirst := discover_of_some hfind
  obtain ⟨hlisted, hprivate, rfl⟩ := (hfirst.get?_iff a name).1 hget
  exact ⟨Address.isSiteLocal_iff.2 hprivate, hfirst.serves.1, interfaces, List.mem_singleton_self _, i,
    List.mem_of_find?_eq_some hfind, rfl, hlisted⟩

end Hotspot

namespace Mobility

variable {σ : Type} {m : Mobility} {w : World σ} {p : Platform} {timers : Timers}

/-! ## Passes -/

/-- An address that a pass is to add is on a network, or it is a known one of the hotspot. -/
theorem offered_of_mem_added (h : (a, name) ∈ (m.steps p).added) :
    m.settings.family.admits a = true ∧
      (p.Offers a name ∨ m.hotspotAddresses.get? a = some name) := by
  have hwanted := (SnapshotDiff.mem_added_iff.1 h).1
  rw [wanted, Snapshot.merge, AddressTable.get?_merge, Option.or_eq_some_iff] at hwanted
  rcases hwanted with hcollected | ⟨-, hhotspot⟩
  · obtain ⟨hoffers, hadmits⟩ := Snapshot.offers_of_get?_collect hcollected
    exact ⟨hadmits, .inl hoffers⟩
  · rw [hotspotWanted] at hhotspot
    split at hhotspot
    · rw [AddressTable.get?_filter, Option.filter_eq_some_iff] at hhotspot
      exact ⟨hhotspot.2, .inr hhotspot.1⟩
    · cases hhotspot

theorem additions_of_not_addition {es : List Effect} (h : ∀ e ∈ es, e.isAddition = false) :
    es.filterMap Effect.addition? = [] :=
  List.filterMap_eq_nil_iff.2 fun e he => Effect.addition?_of_not_addition (h e he)

theorem additions_additionEffects (es : List (Address × String)) (refused : List Address) :
    (additionEffects es refused).filterMap Effect.addition? = es := by
  rw [additionEffects, callEffects, List.filterMap_map]
  exact (List.filterMap_congr fun _ _ => rfl).trans List.filterMap_some

section Engine

variable [Engine σ]

/-- All addresses that are found of a hotspot are offered, one after another. -/
theorem additions_addHotspot (m : Mobility) (found : List (Address × String)) (w : World σ) :
    (m.addHotspot found w).2.2.record Effect.addition? = w.record Effect.addition? ++ found := by
  induction found generalizing m w with
  | nil => exact (List.append_nil _).symm
  | cons e rest ih =>
    obtain ⟨a, name⟩ := e
    rw [addHotspot]
    dsimp only
    rw [ih, World.addAddress, World.record_moveTo, List.append_assoc]
    rfl

end Engine

section Pass

variable [Engine σ] [Connectivity σ]

/-- A pass offers the addresses that it is to add, and no others. -/
theorem additions_reconcile (m : Mobility) (w : World σ) :
    (m.reconcile w).2.2.record Effect.addition? =
      w.record Effect.addition? ++ (m.steps (m.surveyed w)).added := by
  have hremovals : (removalEffects (m.steps (m.surveyed w)).removed (m.unremoved w)).filterMap
      Effect.addition? = [] := additions_of_not_addition (forall_mem_callEffects fun _ _ => rfl)
  rw [World.record, reconcile_trace, passEffects]
  simp only [List.filterMap_append, additions_additionEffects, hremovals,
    additions_of_not_addition (forall_mem_resolverEffects fun _ _ => rfl),
    additions_of_not_addition (forall_mem_resetEffects fun _ => rfl),
    additions_of_not_addition (forall_mem_lockEffects rfl rfl), List.append_nil, List.nil_append]
  rfl

end Pass

end Mobility

end Softphone
