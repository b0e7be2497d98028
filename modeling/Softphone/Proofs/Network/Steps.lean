import Softphone.Network.Mobility
import Softphone.Proofs.Host

/-!
# What a mobility does to a host

Whatever a mobility is asked to do, it sets no volume.
-/

namespace Softphone.Mobility

variable {σ : Type} [Host σ] (m : Mobility) (w : World σ)

theorem steps_updateResolvers (p : Platform) :
    Host.Steps w.host (m.updateResolvers p w).2.2.host := by
  rw [updateResolvers]
  split
  · exact .refl
  · dsimp only
    split
    · exact .refl
    · split
      · split <;> exact .one (.setResolvers _)
      · exact .refl

theorem steps_removeAll (as : List Address) : Host.Steps w.host (removeAll as w).2.host := by
  induction as generalizing w with
  | nil => exact .refl
  | cons a as ih => exact .trans (.one (.removeAddress a)) (ih (w.removeAddress a).2)

theorem steps_addAll (es : List (Address × String)) :
    Host.Steps w.host (addAll es w).2.host := by
  induction es generalizing w with
  | nil => exact .refl
  | cons e es ih => exact .trans (.one (.addAddress e.1 e.2)) (ih (w.addAddress e.1 e.2).2)

theorem steps_dropLock : Host.Steps w.host (m.dropLock w).2.host := by
  rw [dropLock]
  split
  · exact .one .releaseLock
  · exact .refl

theorem steps_followWifi (wifi : Bool) : Host.Steps w.host (m.followWifi wifi w).2.host := by
  rw [followWifi]
  split
  · split
    · exact .refl
    · exact .one .acquireLock
  · exact steps_dropLock m w

theorem steps_reconcile : Host.Steps w.host (m.reconcile w).2.2.host := by
  have hreset : ∀ (reset : Bool) {w' : World σ}, Host.Steps w.host w'.host →
      Host.Steps w.host (if reset then w'.resetTransport else w').host := by
    intro reset w' h
    cases reset with
    | true => exact .snoc h .resetTransport
    | false => exact h
  have hresolvers := steps_updateResolvers m w w.platform
  rw [reconcile]
  refine .trans (hreset _ ?_) (steps_followWifi _ _ _)
  exact hresolvers.trans ((steps_removeAll _ _).trans (steps_addAll _ _))

theorem steps_start : Host.Steps w.host (m.start w).2.host := by
  rw [start]
  dsimp only
  split
  · exact .refl
  · exact .one (.setResolvers _)

theorem steps_stop : Host.Steps w.host (m.stop w).2.host := steps_dropLock _ w

theorem steps_onHotspotChanged (enabled : Bool) (timers : Timers) :
    Host.Steps w.host (m.onHotspotChanged enabled timers w).2.2.host := by
  rw [onHotspotChanged]
  split
  · exact .refl
  · split
    · exact .refl
    · exact steps_removeAll w _

theorem steps_addHotspot (found : List (Address × String)) :
    Host.Steps w.host (m.addHotspot found w).2.2.host := by
  induction found generalizing m w with
  | nil => exact .refl
  | cons e rest ih => exact .trans (.one (.addAddress e.1 e.2)) (ih _ (w.addAddress e.1 e.2).2)

theorem steps_onHotspotDebounce (timers : Timers) :
    Host.Steps w.host (m.onHotspotDebounce timers w).2.2.host := by
  rw [onHotspotDebounce]
  split
  · exact .refl
  · dsimp only
    split <;> exact steps_addHotspot m w _

end Softphone.Mobility
