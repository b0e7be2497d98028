import Mathlib.Data.List.Chain
import Softphone.Proofs.Network.Effects
import Softphone.Proofs.Network.Hotspot
import Softphone.Proofs.Network.Pass

/-!
# The performance lock

The trace tells who holds the performance lock: it is held if it was taken last. A mobility knows that
(`Mobility.LockKept`), so it takes the lock only when it is free and gives it back only when it is held,
whether in a pass or when it stops.
-/

namespace Softphone

variable {σ : Type}

/-- The lock is taken, or given back. -/
def Effect.lockMove? : Effect → Option Bool
  | acquireLock => some true
  | releaseLock => some false
  | _ => none

theorem Effect.lockMove?_of_not_ofPass {e : Effect} (h : e.isOfPass = false) : e.lockMove? = none := by
  cases e <;> first | rfl | cases h

namespace World

/-- How the lock was moved, the first time first: whether it was taken or given back. -/
def lockMoves (w : World σ) : List Bool := w.record Effect.lockMove?

/-- The lock was taken and not given back since. -/
def lockHeld (w : World σ) : Bool := w.lockMoves.getLastD false

end World

namespace Mobility

variable {m m' : Mobility} {w w' : World σ}

/-- What the lock is moved by where it should be held from now on, or not. -/
def lockChange (m : Mobility) (wifi : Bool) : List Bool := if wifi = m.lockHeld then [] else [wifi]

/-- The lock is held as the mobility has it. It was taken first, and taken and given back by turns. -/
structure LockKept (m : Mobility) (w : World σ) : Prop where
  held : w.lockHeld = m.lockHeld
  varied : w.lockMoves.IsChain (· ≠ ·)
  first : w.lockMoves.head? ≠ some false
  balance : w.lockMoves.count true = w.lockMoves.count false + m.lockHeld.toNat

theorem lockKept_new (settings : NetworkSettings) (host : σ) :
    LockKept { settings } ({ host } : World σ) :=
  ⟨rfl, .nil, nofun, rfl⟩

theorem LockKept.kept (h : m.LockKept w) (hmoves : w'.lockMoves = w.lockMoves)
    (hheld : m'.lockHeld = m.lockHeld) : m'.LockKept w' := by
  refine ⟨?_, ?_, ?_, ?_⟩
  · rw [World.lockHeld, hmoves, hheld]
    exact h.held
  · rw [hmoves]
    exact h.varied
  · rw [hmoves]
    exact h.first
  · rw [hmoves, hheld]
    exact h.balance

/-- A lock that is free is taken, and one that is held is given back. -/
theorem LockKept.moved (h : m.LockKept w) (hmoves : w'.lockMoves = w.lockMoves ++ [!m.lockHeld])
    (hheld : m'.lockHeld = !m.lockHeld) : m'.LockKept w' := by
  refine ⟨?_, ?_, ?_, ?_⟩
  · rw [World.lockHeld, hmoves, List.getLastD_concat, hheld]
  · rw [hmoves]
    refine List.isChain_append.2 ⟨h.varied, .singleton _, fun last hlast next hnext => ?_⟩
    obtain rfl := Option.some.inj hnext
    have hstands : m.lockHeld = last := by
      rw [← h.held, World.lockHeld, List.getLastD_eq_getLast?, hlast, Option.getD_some]
    rw [hstands]
    exact (Bool.not_ne_self last).symm
  · rw [hmoves]
    cases hbefore : w.lockMoves with
    | nil =>
      have hfree : m.lockHeld = false := by
        rw [← h.held, World.lockHeld, hbefore]
        rfl
      rw [hfree]
      exact nofun
    | cons move moves =>
      have hfirst := h.first
      rw [hbefore] at hfirst
      exact hfirst
  · rw [hmoves, hheld, List.count_append, List.count_append, h.balance]
    cases m.lockHeld <;> simp

/-- A lock that is moved only where it is not yet as it should be is kept. -/
theorem LockKept.changed (h : m.LockKept w) {wifi : Bool}
    (hmoves : w'.lockMoves = w.lockMoves ++ m.lockChange wifi) (hheld : m'.lockHeld = wifi) :
    m'.LockKept w' := by
  unfold lockChange at hmoves
  split at hmoves
  · rename_i hsame
    exact h.kept (hmoves.trans (List.append_nil _)) (hheld.trans hsame)
  · rename_i hother
    obtain rfl : wifi = !m.lockHeld := Bool.eq_not.2 hother
    exact h.moved hmoves hheld

theorem LockKept.of_grows (h : m.LockKept w) (hheld : m'.lockHeld = m.lockHeld)
    (hgrows : w.Grows (·.lockMove? = none) w') : m'.LockKept w' := h.kept hgrows.record hheld

/-- As often as the lock was taken it was given back, once it is free. -/
theorem LockKept.count_eq (h : m.LockKept w) (hfree : m.lockHeld = false) :
    w.lockMoves.count true = w.lockMoves.count false := by
  rw [h.balance, hfree]
  rfl

section Connectivity

variable [Connectivity σ]

theorem lockMoves_dropLock (m : Mobility) (w : World σ) :
    (m.dropLock w).2.lockMoves = w.lockMoves ++ m.lockChange false := by
  unfold dropLock lockChange
  cases m.lockHeld with
  | true => exact World.record_moveTo _ _ _ _
  | false => exact (List.append_nil _).symm

theorem LockKept.stop (h : m.LockKept w) : (m.stop w).1.LockKept (m.stop w).2 :=
  h.changed (lockMoves_dropLock { m with running := false, pending := false } w)
    (congrArg lockHeld stop_mobility)

variable [Engine σ]

/-- A pass moves the lock only if it is not as the platform asks for. -/
theorem lockMoves_reconcile (m : Mobility) (w : World σ) : (m.reconcile w).2.2.lockMoves =
    w.lockMoves ++ m.lockChange (m.wifiInUse w) := by
  have hnone : ∀ {es : List Effect}, (∀ e ∈ es, e.lockMove? = none) →
      es.filterMap Effect.lockMove? = [] := List.filterMap_eq_nil_iff.2
  have hremovals : (removalEffects (m.steps (m.surveyed w)).removed (m.unremoved w)).filterMap
      Effect.lockMove? = [] := hnone (forall_mem_callEffects fun _ _ => rfl)
  have hadditions : (additionEffects (m.steps (m.surveyed w)).added (m.unadded w)).filterMap
      Effect.lockMove? = [] := hnone (forall_mem_callEffects fun _ _ => rfl)
  rw [World.lockMoves, World.record, reconcile_trace, passEffects]
  simp only [List.filterMap_append, hnone (forall_mem_resolverEffects fun _ _ => rfl), hremovals,
    hadditions, hnone (forall_mem_resetEffects fun _ => rfl), List.nil_append]
  refine congrArg (w.lockMoves ++ ·) ?_
  unfold lockEffects lockChange
  generalize m.wifiInUse w = wifi
  split
  · rfl
  · cases wifi <;> rfl

theorem LockKept.reconcile (h : m.LockKept w) : (m.reconcile w).2.1.LockKept (m.reconcile w).2.2 :=
  h.changed (lockMoves_reconcile m w) (by rw [reconcile_mobility])

end Connectivity

/-- The active network has Wi-Fi if the platform tells so of what it can be used for. -/
theorem usesWifi_iff {p : Platform} {active : Option NetworkId} : usesWifi p active = true ↔
    ∃ network capabilities, active = some network ∧ p.capabilities network = some capabilities ∧
      capabilities.wifi = true := by
  unfold usesWifi
  cases active with
  | none => simp
  | some network =>
    rw [Option.bind_some]
    cases hcapabilities : p.capabilities network <;> simp [hcapabilities]

end Mobility

end Softphone
