import Softphone.Network.Mobility
import Softphone.Proofs.Trace

/-!
# What a mobility does to the world

Whatever a mobility is asked to do, all that it does to the world concerns the networks: the addresses of
the engine, its transport, its name servers and the performance lock. For each operation it is said what
kinds of effects it can have; only a pass resets the transport.
-/

namespace Softphone

namespace Effect

/-- Something is done about the networks. -/
def isNetwork : Effect → Bool
  | addAddress _ _ _ | removeAddress _ _ | resetTransport _ _ _ | setResolvers _ _ | acquireLock
  | releaseLock => true
  | _ => false

/-- Something is done about an agent, or the state of the registration is published. -/
def isAccount : Effect → Bool
  | allocateAgent _ _ | register _ _ | unregister _ _ | publish (.registrationChanged _) => true
  | _ => false

/-- The transport is reset. -/
def isReset : Effect → Bool
  | resetTransport _ _ _ => true
  | _ => false

/-- The engine is asked for something about its addresses, its transport or its name servers. -/
def isTransport : Effect → Bool
  | addAddress _ _ _ | removeAddress _ _ | resetTransport _ _ _ | setResolvers _ _ => true
  | _ => false

/-- Something is done that only comes of a pass, or with the end of the session. -/
def isOfPass : Effect → Bool
  | resetTransport _ _ _ | acquireLock | releaseLock => true
  | _ => false

/-- What is done concerns neither the account nor the networks. -/
def IsLocal (e : Effect) : Prop := e.isAccount = false ∧ e.isNetwork = false

theorem isAccount_of_isNetwork {e : Effect} (h : e.isNetwork = true) : e.isAccount = false := by
  cases e <;> first | rfl | cases h

theorem isOfPass_of_not_network {e : Effect} (h : e.isNetwork = false) : e.isOfPass = false := by
  cases e <;> first | rfl | cases h

theorem isReset_of_not_ofPass {e : Effect} (h : e.isOfPass = false) : e.isReset = false := by
  cases e <;> first | rfl | cases h

theorem isReset_of_not_network {e : Effect} (h : e.isNetwork = false) : e.isReset = false :=
  isReset_of_not_ofPass (isOfPass_of_not_network h)

theorem isTransport_of_not_network {e : Effect} (h : e.isNetwork = false) :
    e.isTransport = false := by
  cases e <;> first | rfl | cases h

end Effect

namespace Mobility

variable {σ : Type} {p : Effect → Prop}

section Engine

variable [Engine σ] (m : Mobility) (w : World σ)

/-- At most the name servers are set where they are brought up to date. -/
theorem grows_updateResolvers (hp : ∀ servers accepted, p (.setResolvers servers accepted))
    (platform : Platform) : w.Grows p (m.updateResolvers platform w).2.2 := by
  unfold updateResolvers
  dsimp only
  split
  · exact .refl
  · split
    · exact .refl
    · split
      · split <;> exact .step (hp _ _)
      · exact .refl

theorem grows_removeAll (hp : ∀ a accepted, p (.removeAddress a accepted)) (as : List Address) :
    w.Grows p (removeAll as w).2 := by
  induction as generalizing w with
  | nil => exact .refl
  | cons a as ih => exact .trans (.step (hp _ _)) (ih (w.removeAddress a).2)

theorem grows_addAll (hp : ∀ a name accepted, p (.addAddress a name accepted))
    (es : List (Address × String)) : w.Grows p (addAll es w).2 := by
  induction es generalizing w with
  | nil => exact .refl
  | cons e es ih => exact .trans (.step (hp _ _ _)) (ih (w.addAddress e.1 e.2).2)

/-- At most addresses are removed where the hotspot is reported on or off. -/
theorem grows_onHotspotChanged (hp : ∀ a accepted, p (.removeAddress a accepted)) (enabled : Bool)
    (timers : Timers) : w.Grows p (m.onHotspotChanged enabled timers w).2.2 := by
  unfold onHotspotChanged
  split
  · exact .refl
  · split
    · exact .refl
    · exact grows_removeAll w hp _

/-- Nothing but additions comes of offering addresses. -/
theorem grows_addHotspot (hp : ∀ a name accepted, p (.addAddress a name accepted))
    (found : List (Address × String)) : w.Grows p (m.addHotspot found w).2.2 := by
  induction found generalizing m w with
  | nil => exact .refl
  | cons e rest ih => exact .trans (.step (hp _ _ _)) (ih _ (w.addAddress e.1 e.2).2)

end Engine

variable [Connectivity σ] (m : Mobility) (w : World σ)

theorem grows_dropLock (hp : p .releaseLock) : w.Grows p (m.dropLock w).2 := by
  unfold dropLock
  split
  · exact .step hp
  · exact .refl

theorem grows_followWifi (hacquire : p .acquireLock) (hrelease : p .releaseLock) (wifi : Bool) :
    w.Grows p (m.followWifi wifi w).2 := by
  unfold followWifi
  split
  · split
    · exact .refl
    · exact .step hacquire
  · exact grows_dropLock m w hrelease

/-- At most the lock is given back where the mobility stops. -/
theorem grows_stop (hp : p .releaseLock) : w.Grows p (m.stop w).2 := grows_dropLock _ w hp

variable [Engine σ]

/-- At most the name servers are set where the networks begin to be followed. -/
theorem grows_start (hp : ∀ servers accepted, p (.setResolvers servers accepted)) :
    w.Grows p (m.start w).2 := by
  unfold start
  dsimp only
  split
  · exact .refl
  · exact .step (hp _ _)

/-- Once the name servers are up to date, a pass changes addresses, resets the transport and moves the
lock. -/
theorem grows_reconcile_of_resolvers (hremove : ∀ a accepted, p (.removeAddress a accepted))
    (hadd : ∀ a name accepted, p (.addAddress a name accepted))
    (hreset : ∀ accepted, p (.resetTransport true true accepted)) (hacquire : p .acquireLock)
    (hrelease : p .releaseLock) :
    (m.updateResolvers w.platform w).2.2.Grows p (m.reconcile w).2.2 := by
  have hresets : ∀ (reset : Bool) {w₀ w' : World σ}, w₀.Grows p w' →
      w₀.Grows p (if reset then w'.resetTransport else w') := by
    intro reset w₀ w' h
    split
    · exact h.trans (.step (hreset _))
    · exact h
  have hchanges : ∀ (removed : List Address) (added : List (Address × String)) (w' : World σ),
      w'.Grows p (addAll added (removeAll removed w').2).2 := fun _ _ _ =>
    (grows_removeAll _ hremove _).trans (grows_addAll _ hadd _)
  unfold reconcile
  exact (hresets _ (hchanges _ _ _)).trans (grows_followWifi _ _ hacquire hrelease _)

theorem grows_reconcile : w.Grows (·.isNetwork = true) (m.reconcile w).2.2 :=
  (grows_updateResolvers m w (fun _ _ => rfl) w.platform).trans
    (grows_reconcile_of_resolvers m w (fun _ _ => rfl) (fun _ _ _ => rfl) (fun _ => rfl) rfl rfl)

/-- At most addresses are offered once the delay after a hotspot came up is over. -/
theorem grows_onHotspotDebounce (hp : ∀ a name accepted, p (.addAddress a name accepted))
    (timers : Timers) : w.Grows p (m.onHotspotDebounce timers w).2.2 := by
  unfold onHotspotDebounce
  split
  · exact .refl
  · dsimp only
    split <;> exact grows_addHotspot m w hp _

end Mobility

end Softphone
