import Softphone.Proofs.Audio.Routing
import Softphone.Proofs.Audio.Volumes

/-!
# Moves of a router

All that a router can be asked to do, one after the other, and what may be expected of the device that it asks.
-/

namespace Softphone

/-! ## Devices -/

section Devices

variable {σ : Type} [AudioDevice σ]

/-- A device whose route is changed by a route that it grants, and not by one that it refuses or by a change of
the mode. What becomes of the route once an explicit choice is dropped is left open. -/
class RoutesAsGranted (σ : Type) [AudioDevice σ] : Prop where
  currentRoute_applyRoute (route : AudioRoute) (h : σ) :
    AudioDevice.currentRoute (AudioDevice.applyRoute route h).2 =
      if (AudioDevice.applyRoute route h).1 then route else AudioDevice.currentRoute h
  currentRoute_setMode (mode : AudioMode) (h : σ) :
    AudioDevice.currentRoute (AudioDevice.setMode mode h) = AudioDevice.currentRoute h

/-- As long as a device is in one of these states it has both routes and grants them, and its mode is what it
was last set to. It stays among them whatever is asked of it. -/
structure Obliging (needsNormalMode : Bool) (among : σ → Prop) : Prop where
  speakerNeedsNormalMode {h : σ} (hh : among h) :
    AudioDevice.speakerNeedsNormalMode h = needsNormalMode
  offers {h : σ} (hh : among h) (route : AudioRoute) : route ∈ AudioDevice.availableRoutes h
  grants {h : σ} (hh : among h) (route : AudioRoute) : (AudioDevice.applyRoute route h).1 = true
  mode_applyRoute {h : σ} (hh : among h) (route : AudioRoute) :
    AudioDevice.mode (AudioDevice.applyRoute route h).2 = AudioDevice.mode h
  mode_clearRoute {h : σ} (hh : among h) :
    AudioDevice.mode (AudioDevice.clearRoute h) = AudioDevice.mode h
  mode_setMode {h : σ} (hh : among h) (mode : AudioMode) :
    AudioDevice.mode (AudioDevice.setMode mode h) = mode
  applyRoute {h : σ} (hh : among h) (route : AudioRoute) : among (AudioDevice.applyRoute route h).2
  clearRoute {h : σ} (hh : among h) : among (AudioDevice.clearRoute h)
  setMode {h : σ} (hh : among h) (mode : AudioMode) : among (AudioDevice.setMode mode h)

theorem Obliging.currentRoute_applyRoute [RoutesAsGranted σ] {needsNormalMode : Bool} {among : σ → Prop}
    (hdevice : Obliging needsNormalMode among) {h : σ} (hh : among h) (route : AudioRoute) :
    AudioDevice.currentRoute (AudioDevice.applyRoute route h).2 = route := by
  rw [RoutesAsGranted.currentRoute_applyRoute, if_pos (hdevice.grants hh route)]

end Devices

namespace Bench

instance : RoutesAsGranted Bench where
  currentRoute_applyRoute route b := by
    change (b.audio.applyRoute route).2.route =
      if (b.audio.applyRoute route).1 then route else b.audio.route
    unfold Audio.applyRoute
    split
    · rfl
    · rfl
  currentRoute_setMode _ _ := rfl

/-- A bench whose script has the device grant both routes and report its own mode. -/
structure Grants (needsNormalMode : Bool) (b : Bench) : Prop where
  needsNormalMode : b.audio.needsNormalMode = needsNormalMode
  routes (route : AudioRoute) : route ∈ b.audio.routes
  refusesRoutes : b.audio.refusesRoutes = false
  reportedMode : b.audio.reportedMode = none

theorem Grants.applyRoute {needsNormalMode : Bool} {b : Bench} (h : b.Grants needsNormalMode)
    (route : AudioRoute) : b.audio.applyRoute route =
      (true, { b.audio with route, switches := b.audio.switches + 1 }) := by
  have hgranted : ¬(b.audio.refusesRoutes || !b.audio.routes.contains route) = true := by
    simp [h.refusesRoutes, h.routes route]
  rw [Audio.applyRoute, if_neg hgranted]

theorem obliging (needsNormalMode : Bool) : Obliging needsNormalMode (Grants needsNormalMode) where
  speakerNeedsNormalMode hb := hb.needsNormalMode
  offers hb := hb.routes
  grants hb route := congrArg Prod.fst (hb.applyRoute route)
  mode_applyRoute {b} hb route := by
    change (b.audio.applyRoute route).2.reportedMode.getD (b.audio.applyRoute route).2.mode = _
    rw [hb.applyRoute]
    rfl
  mode_clearRoute _ := rfl
  mode_setMode {b} hb mode := by
    change b.audio.reportedMode.getD mode = mode
    rw [hb.reportedMode]
    rfl
  applyRoute {b} hb route := by
    have happlied : (AudioDevice.applyRoute route b).2 =
        { b with audio := { b.audio with route, switches := b.audio.switches + 1 } } :=
      congrArg (fun r => { b with audio := Prod.snd r }) (hb.applyRoute route)
    rw [happlied]
    exact ⟨hb.needsNormalMode, hb.routes, hb.refusesRoutes, hb.reportedMode⟩
  clearRoute hb := hb
  setMode hb _ := ⟨hb.needsNormalMode, hb.routes, hb.refusesRoutes, hb.reportedMode⟩

end Bench

/-! ## Moves -/

namespace Router

/-- What a router can be asked to do. -/
inductive Move
  | request (speaker : Bool) (ticket : Ticket)
  | toggle (ticket : Ticket)
  | cancel
  | modeChanged (mode : AudioMode)
  deriving DecidableEq

variable {σ : Type}

theorem host_cancel (r : Router) (w : World σ) : (r.cancel w).2.host = w.host :=
  host_answerAll false r.waiting w

variable [AudioDevice σ]

/-- Does what was asked of the router. -/
def move (s : Router × World σ) : Move → Router × World σ
  | .request speaker ticket => s.1.request speaker ticket s.2
  | .toggle ticket => s.1.toggle ticket s.2
  | .cancel => s.1.cancel s.2
  | .modeChanged mode => s.1.onModeChanged mode s.2

/-- Does what was asked in order. -/
def run (s : Router × World σ) (ms : List Move) : Router × World σ := ms.foldl move s

end Router

end Softphone
