import Softphone.Proofs.Network.Pass

/-!
# The addresses of the engine

The engine has the addresses that it took and has not let go of since (`World.bound`); calls that it
refused change nothing. `get?_bound_reconcile` says what it has after a pass.
-/

namespace Softphone

namespace AddressTable

variable {t u : AddressTable} {a b : Address} {es : List Effect} {refused : List Address}

/-- The addresses that the engine has after an effect. -/
def after (t : AddressTable) : Effect → AddressTable
  | .addAddress a interface true => t.insert a interface
  | .removeAddress a true => t.erase a
  | _ => t

theorem after_of_not_change {e : Effect} (h : e.isChange = false) : t.after e = t := by
  cases e with
  | addAddress | removeAddress => cases h
  | _ => rfl

theorem foldl_after_of_not_change (h : ∀ e ∈ es, e.isChange = false) : es.foldl after t = t := by
  induction es with
  | nil => rfl
  | cons e es ih =>
    rw [List.foldl_cons, after_of_not_change (h e List.mem_cons_self)]
    exact ih fun e he => h e (List.mem_cons_of_mem _ he)

theorem get?_foldl_removalEffects (as refused : List Address) (t : AddressTable) :
    ((Mobility.removalEffects as refused).foldl after t).get? b =
      if b ∈ as ∧ b ∉ refused then none else t.get? b := by
  induction as generalizing t with
  | nil => simp [Mobility.removalEffects, Mobility.callEffects]
  | cons a as ih =>
    have hstep : (t.after (.removeAddress a (a ∉ refused))).get? b =
        if b = a ∧ b ∉ refused then none else t.get? b := by
      by_cases ha : a ∈ refused <;> by_cases hb : b = a <;> simp [after, ha, hb]
    simp only [Mobility.removalEffects, Mobility.callEffects, List.map_cons, List.foldl_cons,
      id_eq] at ih ⊢
    rw [ih, hstep]
    by_cases hb : b = a
    · subst hb
      by_cases hr : b ∈ refused <;> simp [hr]
    · simp [hb]

theorem get?_foldl_additionEffects {entries : List (Address × String)} (t : AddressTable)
    (h : entries.Pairwise (·.1 < ·.1)) :
    ((Mobility.additionEffects entries refused).foldl after t).get? b =
      (if b ∈ refused then none else (entries.find? (·.1 = b)).map (·.2)).or (t.get? b) := by
  induction entries generalizing t with
  | nil => simp [Mobility.additionEffects, Mobility.callEffects]
  | cons e entries ih =>
    obtain ⟨a, name⟩ := e
    obtain ⟨hhead, hrest⟩ := List.pairwise_cons.1 h
    have hstep : (t.after (.addAddress a name (a ∉ refused))).get? b =
        if b = a ∧ b ∉ refused then some name else t.get? b := by
      by_cases ha : a ∈ refused <;> by_cases hb : b = a <;> simp [after, ha, hb]
    simp only [Mobility.additionEffects, Mobility.callEffects, List.map_cons, List.foldl_cons]
      at ih ⊢
    rw [ih _ hrest, hstep]
    by_cases hb : b = a
    · subst hb
      have hnone : entries.find? (·.1 = b) = none :=
        List.find?_eq_none.2 fun e he => by simpa using (Address.ne_of_lt (hhead e he)).symm
      by_cases hr : b ∈ refused <;> simp [hr, hnone]
    · simp [hb, Ne.symm hb]

end AddressTable

namespace World

variable {σ : Type} {w w' : World σ} {es : List Effect}

/-- The addresses that the engine has: those it took and has not let go of since. -/
def bound (w : World σ) : AddressTable := w.trace.foldl AddressTable.after .empty

theorem bound_eq (h : w'.trace = w.trace ++ es) : w'.bound = es.foldl AddressTable.after w.bound := by
  rw [bound, h, List.foldl_append]
  rfl

theorem bound_of_not_change (h : w'.trace = w.trace ++ es) (hes : ∀ e ∈ es, e.isChange = false) :
    w'.bound = w.bound := by
  rw [bound_eq h, AddressTable.foldl_after_of_not_change hes]

@[simp] theorem bound_within {host : σ} : (w.within host).bound = w.bound := rfl

theorem bound_addAddress [Engine σ] {a : Address} {name : String} : (w.addAddress a name).2.bound =
    if (w.addAddress a name).1 then w.bound.insert a name else w.bound := by
  rw [bound_eq trace_addAddress]
  cases (w.addAddress a name).1 <;> rfl

end World

namespace Mobility

variable {σ : Type} [Engine σ] {m : Mobility} {w : World σ} {a : Address}

theorem get?_bound_removeAll {as : List Address} (h : as.Nodup) : (removeAll as w).2.bound.get? a =
    if a ∈ as ∧ a ∉ (removeAll as w).1 then none else w.bound.get? a := by
  rw [World.bound_eq (removeAll_trace h), AddressTable.get?_foldl_removalEffects]

variable [Connectivity σ]

theorem mem_removed_of_mem_unremoved (h : a ∈ m.unremoved w) : a ∈ (m.steps (m.surveyed w)).removed :=
  (removeAll_sublist _ _).subset h

theorem mem_added_of_mem_unadded (h : a ∈ m.unadded w) :
    ∃ name, (a, name) ∈ (m.steps (m.surveyed w)).added := by
  obtain ⟨e, he, rfl⟩ := List.mem_map.1 ((addAll_sublist _ _).subset h)
  exact ⟨e.2, he⟩

/-- The interface with which a pass adds an address, if it does. -/
theorem find?_added (m : Mobility) (p : Platform) (a : Address) :
    ((m.steps p).added.find? (·.1 = a)).map (·.2) =
      if (m.wanted p).addresses.get? a = m.snapshot.addresses.get? a then none
      else (m.wanted p).addresses.get? a :=
  SnapshotDiff.get?_missingTable _ _

/-- What the engine has after a pass: the additions that it accepted, and of what it had before
everything but the removals that it accepted. -/
theorem get?_bound_reconcile : (m.reconcile w).2.2.bound.get? a =
    (if a ∈ m.unadded w then none
      else ((m.steps (m.surveyed w)).added.find? (·.1 = a)).map (·.2)).or
      (if a ∈ (m.steps (m.surveyed w)).removed ∧ a ∉ m.unremoved w then none else w.bound.get? a) := by
  have hsorted : (m.steps (m.surveyed w)).added.Pairwise (·.1 < ·.1) :=
    (SnapshotDiff.missingTable _ _).ascending
  rw [World.bound_eq (reconcile_trace m w), passEffects]
  simp only [List.foldl_append]
  rw [AddressTable.foldl_after_of_not_change (forall_mem_lockEffects rfl rfl),
    AddressTable.foldl_after_of_not_change (forall_mem_resetEffects fun _ => rfl),
    AddressTable.get?_foldl_additionEffects _ hsorted, AddressTable.get?_foldl_removalEffects,
    AddressTable.foldl_after_of_not_change (forall_mem_resolverEffects fun _ _ => rfl)]

/-- A pass that begins with a true snapshot stores a true snapshot, whatever the engine refuses. -/
theorem bound_reconcile (h : m.snapshot.addresses = w.bound) :
    (m.reconcile w).2.2.bound = m.reachedAddresses w := by
  refine AddressTable.ext_get? fun a => ?_
  have hremoved : a ∈ (m.steps (m.surveyed w)).removed ↔
      m.snapshot.addresses.get? a ≠ (m.wanted (m.surveyed w)).addresses.get? a ∧
        ∃ name, m.snapshot.addresses.get? a = some name := SnapshotDiff.mem_removed_iff
  have hunremoved : a ∈ m.unremoved w → a ∈ (m.steps (m.surveyed w)).removed :=
    mem_removed_of_mem_unremoved
  have hunadded : a ∈ m.unadded w →
      (m.wanted (m.surveyed w)).addresses.get? a ≠ m.snapshot.addresses.get? a := fun hmem heq => by
    obtain ⟨name, hname⟩ := mem_added_of_mem_unadded hmem
    obtain ⟨hnew, hold⟩ := SnapshotDiff.mem_added_iff.1 hname
    exact hold (heq ▸ hnew)
  rw [get?_bound_reconcile, find?_added, ← h, reachedAddresses, get?_reached]
  by_cases heq : (m.wanted (m.surveyed w)).addresses.get? a = m.snapshot.addresses.get? a
  · have hstays : a ∉ (m.steps (m.surveyed w)).removed := fun hmem => (hremoved.1 hmem).1 heq.symm
    have hkept : a ∉ m.unremoved w := fun hmem => hstays (hunremoved hmem)
    have htaken : a ∉ m.unadded w := fun hmem => hunadded hmem heq
    simp [heq, hstays, hkept, htaken]
  · cases hold : m.snapshot.addresses.get? a with
    | none => simp [hold ▸ heq]
    | some name =>
      have hgoes : a ∈ (m.steps (m.surveyed w)).removed := hremoved.2 ⟨Ne.symm heq, name, hold⟩
      rw [hold] at heq
      by_cases hkept : a ∈ m.unremoved w <;> simp [heq, hgoes, hkept]

end Mobility

end Softphone
