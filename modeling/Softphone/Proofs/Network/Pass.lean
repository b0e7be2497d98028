import Softphone.Network.Mobility
import Softphone.Proofs.Address.Table
import Softphone.Proofs.Trace

/-!
# What a pass does

`reconcile_trace` lists the effects of a pass in order, and `reconcile_snapshot` gives the snapshot that
it stores. Both speak of the addresses that the engine refused to let go of (`unremoved`) and of those
that it refused to take (`unadded`).
-/

namespace Softphone

/-! ## Calls that change the addresses of the engine -/

namespace Effect

/-- An address is offered to the engine. -/
def isAddition : Effect → Bool
  | addAddress _ _ _ => true
  | _ => false

/-- The engine is asked to let go of an address. -/
def isRemoval : Effect → Bool
  | removeAddress _ _ => true
  | _ => false

/-- The engine is asked to change its addresses. -/
def isChange (e : Effect) : Bool := e.isAddition || e.isRemoval

/-- The engine refuses a change of its addresses. -/
def isRefusal : Effect → Bool
  | addAddress _ _ accepted | removeAddress _ accepted => !accepted
  | _ => false

end Effect

/-! ## Steps between tables -/

namespace SnapshotDiff

variable {old new : Snapshot} {a : Address} {name : String}

/-- The entries of one table that another does not have, as a table. -/
def missingTable (source target : AddressTable) : AddressTable :=
  source.filter fun e => target.get? e.1 ≠ some e.2

theorem get?_missingTable (source target : AddressTable) :
    (missingTable source target).get? a =
      if source.get? a = target.get? a then none else source.get? a := by
  rw [missingTable, AddressTable.get?_filter]
  cases source.get? a with
  | none => simp
  | some name =>
    by_cases h : target.get? a = some name
    · simp [Option.filter, h]
    · simp [Option.filter, h, Ne.symm h]

theorem removed_between : (between old new).removed =
    (missingTable old.addresses new.addresses).addresses := rfl

theorem added_between : (between old new).added =
    (missingTable new.addresses old.addresses).entries := rfl

theorem mem_removed_iff : a ∈ (between old new).removed ↔
    old.addresses.get? a ≠ new.addresses.get? a ∧ ∃ name, old.addresses.get? a = some name := by
  rw [removed_between, AddressTable.mem_addresses_iff]
  simp only [get?_missingTable]
  split <;> simp_all

theorem mem_added_iff : (a, name) ∈ (between old new).added ↔
    new.addresses.get? a = some name ∧ old.addresses.get? a ≠ some name := by
  rw [added_between, ← AddressTable.get?_eq_some_iff, get?_missingTable]
  split <;> rename_i h <;> simp_all [eq_comm]

end SnapshotDiff

namespace Mobility

variable {σ : Type}

section Calls

variable [Engine σ] {w : World σ} {as : List Address} {es : List (Address × String)}

/-! ## Calls one after another -/

/-- The effects of some calls, all accepted but those on an address of `refused`. -/
def callEffects {α : Type} (key : α → Address) (call : α → Bool → Effect) (xs : List α)
    (refused : List Address) : List Effect :=
  xs.map fun x => call x (key x ∉ refused)

theorem callEffects_cons {α : Type} (key : α → Address) (call : α → Bool → Effect) {x : α}
    {xs : List α} {refused : List Address} (accepted : Bool) (hx : key x ∉ xs.map key)
    (hr : key x ∉ refused) :
    callEffects key call (x :: xs) (if accepted then refused else key x :: refused) =
      call x accepted :: callEffects key call xs refused := by
  cases accepted with
  | true => simp [callEffects, hr]
  | false =>
    have hne : ∀ y ∈ xs, key y ≠ key x := fun y hy heq => hx (heq ▸ List.mem_map_of_mem hy)
    have htail : ∀ y ∈ xs, call y (key y ∉ key x :: refused) = call y (key y ∉ refused) :=
      fun y hy => by simp [hne y hy]
    simp only [callEffects, List.map_cons, Bool.false_eq_true, if_false, List.map_congr_left htail]
    simp

theorem countP_callEffects_eq_zero {α : Type} {key : α → Address} {call : α → Bool → Effect}
    {xs : List α} {refused : List Address} {p : Effect → Bool}
    (h : ∀ x accepted, p (call x accepted) = false) :
    (callEffects key call xs refused).countP p = 0 := by
  refine List.countP_eq_zero.2 fun e he => ?_
  obtain ⟨x, -, rfl⟩ := List.mem_map.1 he
  simp [h]

theorem countP_callEffects {α : Type} {key : α → Address} {call : α → Bool → Effect} {xs : List α}
    {refused : List Address} {p : Effect → Bool} (h : ∀ x accepted, p (call x accepted) = true) :
    (callEffects key call xs refused).countP p = xs.length := by
  rw [List.countP_eq_length.2, callEffects, List.length_map]
  intro e he
  obtain ⟨x, -, rfl⟩ := List.mem_map.1 he
  exact h x _

theorem forall_mem_callEffects {α : Type} {key : α → Address} {call : α → Bool → Effect}
    {xs : List α} {refused : List Address} {q : Effect → Prop} (h : ∀ x accepted, q (call x accepted)) :
    ∀ e ∈ callEffects key call xs refused, q e :=
  List.forall_mem_map.2 fun x _ => h x _

/-- The removals of some addresses. -/
def removalEffects : List Address → List Address → List Effect :=
  callEffects id .removeAddress

/-- The additions of some entries. -/
def additionEffects : List (Address × String) → List Address → List Effect :=
  callEffects (·.1) fun e => .addAddress e.1 e.2

theorem removeAddress_false_mem_iff {a : Address} {refused : List Address} :
    .removeAddress a false ∈ removalEffects as refused ↔ a ∈ as ∧ a ∈ refused := by
  simp only [removalEffects, callEffects, List.mem_map, id_eq]
  constructor
  · rintro ⟨b, hb, heq⟩
    obtain ⟨rfl, hrefused⟩ := Effect.removeAddress.inj heq
    exact ⟨hb, by simpa using hrefused⟩
  · exact fun ⟨ha, hrefused⟩ => ⟨a, ha, by simp [hrefused]⟩

theorem removeAll_sublist (as : List Address) (w : World σ) : (removeAll as w).1.Sublist as := by
  induction as generalizing w with
  | nil => exact .slnil
  | cons a as ih =>
    unfold removeAll
    dsimp only
    split
    · exact (ih _).cons _
    · exact (ih _).cons_cons _

theorem addAll_sublist (es : List (Address × String)) (w : World σ) :
    (addAll es w).1.Sublist (es.map (·.1)) := by
  induction es generalizing w with
  | nil => exact .slnil
  | cons e es ih =>
    unfold addAll
    dsimp only
    split
    · exact (ih _).cons _
    · exact (ih _).cons_cons _

theorem removeAll_trace (h : as.Nodup) :
    (removeAll as w).2.trace = w.trace ++ removalEffects as (removeAll as w).1 := by
  induction as generalizing w with
  | nil => exact (List.append_nil _).symm
  | cons a as ih =>
    obtain ⟨ha, has⟩ := List.nodup_cons.1 h
    have hna : a ∉ (removeAll as (w.removeAddress a).2).1 := fun hmem =>
      ha ((removeAll_sublist as _).subset hmem)
    have hcons := callEffects_cons id .removeAddress (w.removeAddress a).1 (by simpa using ha) hna
    rw [removeAll, ih has, World.trace_removeAddress, List.append_assoc]
    exact congrArg (w.trace ++ ·) hcons.symm

theorem addAll_trace (h : (es.map (·.1)).Nodup) :
    (addAll es w).2.trace = w.trace ++ additionEffects es (addAll es w).1 := by
  induction es generalizing w with
  | nil => exact (List.append_nil _).symm
  | cons e es ih =>
    obtain ⟨a, name⟩ := e
    obtain ⟨ha, hes⟩ := List.nodup_cons.1 h
    have hna : a ∉ (addAll es (w.addAddress a name).2).1 := fun hmem =>
      ha ((addAll_sublist es _).subset hmem)
    have hcons := callEffects_cons (·.1) (fun e => .addAddress e.1 e.2) (x := (a, name))
      (w.addAddress a name).1 ha hna
    rw [addAll, ih hes, World.trace_addAddress, List.append_assoc]
    exact congrArg (w.trace ++ ·) hcons.symm

end Calls

/-! ## What is stored -/

section

variable {old wanted : AddressTable} {notAdded notRemoved : List Address} {a : Address}

theorem get?_reached : (reached old wanted notAdded notRemoved).get? a =
    (if a ∈ notAdded then none else wanted.get? a).or
      (if a ∈ notRemoved then old.get? a else none) := by
  rw [reached, ← AddressTable.get?_foldl_erase]
  generalize notAdded.foldl AddressTable.erase wanted = kept
  induction notRemoved generalizing kept with
  | nil => simp
  | cons b bs ih =>
    rw [List.foldl_cons, ih]
    by_cases hab : a = b
    · subst hab
      cases ho : old.get? a <;> cases hk : kept.get? a <;> simp [hk]
    · cases old.get? b <;> simp [hab]

end

/-! ## The pass as a whole -/

/-- The steps from the stored snapshot to the wanted one. -/
def steps (m : Mobility) (p : Platform) : SnapshotDiff := .between m.snapshot (m.wanted p)

theorem nodup_removed (m : Mobility) (p : Platform) : (m.steps p).removed.Nodup :=
  AddressTable.nodup_addresses (SnapshotDiff.missingTable _ _)

theorem nodup_added (m : Mobility) (p : Platform) : ((m.steps p).added.map (·.1)).Nodup :=
  AddressTable.nodup_addresses (SnapshotDiff.missingTable _ _)

theorem updateResolvers_mobility [Engine σ] (m : Mobility) (p : Platform) (w : World σ) :
    (m.updateResolvers p w).2.1 =
      { m with resolvers := (m.updateResolvers p w).2.1.resolvers } := by
  unfold updateResolvers
  dsimp only
  repeat' split
  all_goals rfl

/-- The name servers that a pass hands to the engine. -/
def resolverEffects [Engine σ] (m : Mobility) (p : Platform) (w : World σ) : List Effect :=
  if m.running ∧ m.settings.dns.isDynamic ∧ m.wantedResolvers p ≠ m.resolvers then
    [.setResolvers (m.wantedResolvers p).endpoints
      (w.setResolvers (m.wantedResolvers p).endpoints).1]
  else []

theorem forall_mem_resolverEffects [Engine σ] {m : Mobility} {p : Platform} {w : World σ}
    {q : Effect → Prop} (h : ∀ servers accepted, q (.setResolvers servers accepted)) :
    ∀ e ∈ m.resolverEffects p w, q e := by
  unfold resolverEffects
  split
  · exact List.forall_mem_singleton.2 (h _ _)
  · exact List.forall_mem_nil _

theorem updateResolvers_trace [Engine σ] (m : Mobility) (p : Platform) (w : World σ) :
    (m.updateResolvers p w).2.2.trace = w.trace ++ m.resolverEffects p w := by
  unfold updateResolvers resolverEffects
  dsimp only
  repeat' split
  all_goals simp_all

theorem followWifi_mobility [Connectivity σ] (m : Mobility) (wifi : Bool) (w : World σ) :
    (m.followWifi wifi w).1 = { m with lockHeld := wifi } := by
  obtain ⟨_, _, _, _, _, _, held, _, _, _⟩ := m
  cases wifi <;> cases held <;> rfl

/-- What a pass does to the lock. -/
def lockEffects (m : Mobility) (wifi : Bool) : List Effect :=
  if wifi = m.lockHeld then [] else if wifi then [.acquireLock] else [.releaseLock]

theorem forall_mem_lockEffects {m : Mobility} {wifi : Bool} {q : Effect → Prop}
    (hacquire : q .acquireLock) (hrelease : q .releaseLock) : ∀ e ∈ m.lockEffects wifi, q e := by
  unfold lockEffects
  split
  · exact List.forall_mem_nil _
  · split
    · exact List.forall_mem_singleton.2 hacquire
    · exact List.forall_mem_singleton.2 hrelease

theorem followWifi_trace [Connectivity σ] (m : Mobility) (wifi : Bool) (w : World σ) :
    (m.followWifi wifi w).2.trace = w.trace ++ m.lockEffects wifi := by
  unfold followWifi dropLock lockEffects
  cases wifi <;> cases m.lockHeld <;> simp

section Pass

variable [Engine σ] [Connectivity σ] (m : Mobility) (w : World σ)

/-- The platform as a pass surveys it for networks and addresses: once the name servers are up to date. -/
def surveyed : Platform := (m.updateResolvers w.platform w).2.2.platform

variable {m w} in
/-- A platform that does not mind the name servers is surveyed as it was when the pass began. -/
theorem surveyed_of_kept
    (h : ∀ servers, Connectivity.platform (Engine.setResolvers servers w.host).2 = w.platform) :
    m.surveyed w = w.platform := by
  unfold surveyed updateResolvers
  dsimp only
  repeat' split
  all_goals first | rfl | exact h _

/-- The removals of a pass: what the engine would not let go of, and the world after them. -/
def removals : List Address × World σ :=
  removeAll (m.steps (m.surveyed w)).removed (m.updateResolvers w.platform w).2.2

/-- The additions of a pass: what the engine would not take, and the world after them. -/
def additions : List Address × World σ :=
  addAll (m.steps (m.surveyed w)).added (m.removals w).2

/-- The addresses that the engine would not let go of in a pass. -/
def unremoved : List Address := (m.removals w).1

/-- The addresses that the engine would not take in a pass. -/
def unadded : List Address := (m.additions w).1

/-- How many addresses a pass removes. -/
def removedCount : Nat := (m.steps (m.surveyed w)).removed.length - (m.unremoved w).length

/-- How many addresses a pass adds. -/
def addedCount : Nat := (m.steps (m.surveyed w)).added.length - (m.unadded w).length

/-- Whether a pass resets the transport. -/
def resets : Bool :=
  0 < m.addedCount w || 0 < m.removedCount w || (m.surveyed w).active ≠ m.snapshot.active || m.dirty

/-- What the engine has after a pass, as far as is known. -/
def reachedAddresses : AddressTable :=
  reached m.snapshot.addresses (m.wanted (m.surveyed w)).addresses (m.unadded w) (m.unremoved w)

/-- The world of a pass once the transport is reset, if it is. -/
def afterReset : World σ :=
  if m.resets w then (m.additions w).2.resetTransport else (m.additions w).2

/-- Whether the active network of a pass has Wi-Fi, as the platform tells when the engine has all the rest. -/
def wifiInUse : Bool := usesWifi (m.afterReset w).platform (m.surveyed w).active

/-- The reset of the transport in a pass. -/
def resetEffects : List Effect :=
  if m.resets w then
    [.resetTransport true true (Engine.resetTransport true true (m.additions w).2.host).1]
  else []

theorem reconcile_outcome : (m.reconcile w).1 =
    { added := m.addedCount w
      removed := m.removedCount w
      failures := (m.unremoved w).length + (m.unadded w).length
      transportReset := m.resets w
      dnsChanged := (m.updateResolvers w.platform w).1 } := by
  unfold reconcile
  dsimp only
  rw [updateResolvers_mobility]
  rfl

theorem reconcile_mobility : (m.reconcile w).2.1 =
    { m with
      resolvers := (m.updateResolvers w.platform w).2.1.resolvers
      snapshot := ⟨m.reachedAddresses w, (m.surveyed w).active⟩
      lockHeld := m.wifiInUse w
      dirty := false
      stats := { m.stats with
        passes := m.stats.passes + 1
        addressFailures :=
          m.stats.addressFailures + ((m.unremoved w).length + (m.unadded w).length)
        transportResets := m.stats.transportResets + if m.resets w then 1 else 0 } } := by
  unfold reconcile
  dsimp only
  rw [updateResolvers_mobility, followWifi_mobility]
  rfl

/-- The effects of a pass in order: name servers, removals, additions, the reset of the transport, and
the lock. -/
def passEffects : List Effect :=
  m.resolverEffects w.platform w ++
    (removalEffects (m.steps (m.surveyed w)).removed (m.unremoved w) ++
      (additionEffects (m.steps (m.surveyed w)).added (m.unadded w) ++
        (m.resetEffects w ++ m.lockEffects (m.wifiInUse w))))

variable {m w} in
theorem forall_mem_resetEffects {q : Effect → Prop}
    (h : ∀ accepted, q (.resetTransport true true accepted)) : ∀ e ∈ m.resetEffects w, q e := by
  unfold resetEffects
  split
  · exact List.forall_mem_singleton.2 (h _)
  · exact List.forall_mem_nil _

/-- Of the effects of a pass only its removals and additions change the addresses of the engine. -/
theorem countP_passEffects {p : Effect → Bool} (h : ∀ e, e.isChange = false → p e = false) :
    (m.passEffects w).countP p =
      (removalEffects (m.steps (m.surveyed w)).removed (m.unremoved w)).countP p +
        (additionEffects (m.steps (m.surveyed w)).added (m.unadded w)).countP p := by
  have hnone : ∀ {es : List Effect}, (∀ e ∈ es, e.isChange = false) → es.countP p = 0 :=
    fun hes => List.countP_eq_zero.2 fun e he => by simp [h e (hes e he)]
  simp only [passEffects, List.countP_append, hnone (forall_mem_resolverEffects fun _ _ => rfl),
    hnone (forall_mem_resetEffects fun _ => rfl), hnone (forall_mem_lockEffects rfl rfl)]
  omega

/-- What stands in the effects of a pass. -/
theorem mem_passEffects_iff {e : Effect} : e ∈ m.passEffects w ↔
    e ∈ m.resolverEffects w.platform w ∨
      (∃ a ∈ (m.steps (m.surveyed w)).removed, e = .removeAddress a (a ∉ m.unremoved w)) ∨
      (∃ x ∈ (m.steps (m.surveyed w)).added, e = .addAddress x.1 x.2 (x.1 ∉ m.unadded w)) ∨
      e ∈ m.resetEffects w ∨
      e ∈ m.lockEffects (m.wifiInUse w) := by
  simp only [passEffects, removalEffects, additionEffects, callEffects, List.mem_append,
    List.mem_map, id_eq, eq_comm]

theorem removals_trace : (m.removals w).2.trace = w.trace ++ m.resolverEffects w.platform w ++
    removalEffects (m.steps (m.surveyed w)).removed (m.unremoved w) := by
  rw [← updateResolvers_trace]
  exact removeAll_trace (nodup_removed m (m.surveyed w))

/-- What a pass does once its removals are done. -/
theorem reconcile_trace_removals : (m.reconcile w).2.2.trace = (m.removals w).2.trace ++
    (additionEffects (m.steps (m.surveyed w)).added (m.unadded w) ++
      (m.resetEffects w ++ m.lockEffects (m.wifiInUse w))) := by
  have hreset : (m.afterReset w).trace = (m.additions w).2.trace ++ m.resetEffects w := by
    unfold afterReset resetEffects
    split
    · exact World.trace_resetTransport
    · exact (List.append_nil _).symm
  have hadditions : (m.additions w).2.trace = (m.removals w).2.trace ++
      additionEffects (m.steps (m.surveyed w)).added (m.unadded w) :=
    addAll_trace (nodup_added m (m.surveyed w))
  unfold reconcile
  dsimp only
  rw [updateResolvers_mobility, followWifi_trace]
  refine (congrArg (· ++ m.lockEffects _) hreset).trans ?_
  rw [hadditions, List.append_assoc, List.append_assoc]
  rfl

theorem reconcile_trace : (m.reconcile w).2.2.trace = w.trace ++ m.passEffects w := by
  rw [reconcile_trace_removals, removals_trace, passEffects]
  simp only [List.append_assoc]

end Pass

end Mobility

end Softphone
