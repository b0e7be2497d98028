import Softphone.Proofs.Audio.Moves

/-!
# Where routing stands

On a device that grants what it is asked for, a router and its device are a small machine: the route, the mode
and whether a switch waits decide what every move comes to (`standsAt_move`), and so what a run comes to
(`standsAt_run`).
-/

namespace Softphone.Router

/-- Where routing stands: the route, the mode, and whether a switch to the speaker waits. -/
structure Standing where
  route : AudioRoute
  mode : AudioMode
  switching : Bool
  deriving DecidableEq, Repr

namespace Standing

/-- Where routing stands after a request for the speaker or the earpiece. -/
def request (needsNormalMode speaker : Bool) (p : Standing) : Standing :=
  if p.switching && speaker then p
  else if p.route = target speaker then { p with switching := false }
  else if !speaker then ⟨.earpiece, if needsNormalMode then .normal else p.mode, false⟩
  else if !needsNormalMode then ⟨.speaker, p.mode, false⟩
  else if p.mode = .normal then ⟨.speaker, .inCommunication, false⟩
  else ⟨p.route, .normal, true⟩

/-- Where it stands after a toggle, which asks for the route that is not in force. -/
def toggle (needsNormalMode : Bool) (p : Standing) : Standing :=
  p.request needsNormalMode (p.route = .earpiece)

def cancel (p : Standing) : Standing := { p with switching := false }

/-- Where it stands after a mode was confirmed. -/
def modeChanged (mode : AudioMode) (p : Standing) : Standing :=
  if p.switching && mode = .normal then ⟨.speaker, .inCommunication, false⟩ else p

def after (needsNormalMode : Bool) (p : Standing) : Move → Standing
  | .request speaker _ => p.request needsNormalMode speaker
  | .toggle _ => p.toggle needsNormalMode
  | .cancel => p.cancel
  | .modeChanged mode => p.modeChanged mode

end Standing

variable {σ : Type} [AudioDevice σ]

/-- Where a router and its device stand. -/
def standing (s : Router × World σ) : Standing :=
  ⟨AudioDevice.currentRoute s.2.host, AudioDevice.mode s.2.host, s.1.switching⟩

/-! ## Moves on an obliging device -/

/-- The device is still among some states, and routing stands as it should. -/
def StandsAt (among : σ → Prop) (s : Router × World σ) (p : Standing) : Prop :=
  among s.2.host ∧ standing s = p

variable {needsNormalMode speaker : Bool} {among : σ → Prop} {r : Router} {w : World σ}
  {s : Router × World σ} {p : Standing} {m : Move} {ms : List Move}

theorem standsAt_standing (hs : among s.2.host) : StandsAt among s (standing s) := ⟨hs, rfl⟩

namespace StandsAt

/-- The device is left alone. -/
theorem withRouter (h : StandsAt among (r, w) p) (r' : Router) :
    StandsAt among (r', w) { p with switching := r'.switching } := by
  obtain ⟨hw, rfl⟩ := h
  exact ⟨hw, rfl⟩

theorem answerAll (h : StandsAt among (r, w) p) (on : Bool) (tickets : List Ticket) :
    StandsAt among (r, answerAll on tickets w) p := by
  obtain ⟨hw, rfl⟩ := h
  have hhost := host_answerAll on tickets w
  exact ⟨hhost ▸ hw, by rw [standing, standing, hhost]⟩

theorem cancel (h : StandsAt among (r, w) p) : StandsAt among (r.cancel w) p.cancel :=
  (h.answerAll false r.waiting).withRouter {}

variable [RoutesAsGranted σ]

theorem applyRoute (h : StandsAt among (r, w) p) (hdevice : Obliging needsNormalMode among) (route : AudioRoute) :
    StandsAt among (r, (w.applyRoute route).2) { p with route } := by
  obtain ⟨hw, rfl⟩ := h
  have hroute : AudioDevice.currentRoute (w.applyRoute route).2.host = route :=
    hdevice.currentRoute_applyRoute hw route
  have hmode : AudioDevice.mode (w.applyRoute route).2.host = AudioDevice.mode w.host :=
    hdevice.mode_applyRoute hw route
  exact ⟨hdevice.applyRoute hw route, by rw [standing, hroute, hmode]; rfl⟩

/-- What the route was before does not count, nor what dropping the explicit choice made of it. -/
theorem clearRoute_applyRoute (h : StandsAt among (r, w) p) (hdevice : Obliging needsNormalMode among)
    (route : AudioRoute) : StandsAt among (r, (w.clearRoute.applyRoute route).2) { p with route } := by
  obtain ⟨hw, rfl⟩ := h
  have hcleared := (standsAt_standing (s := (r, w.clearRoute)) (hdevice.clearRoute hw)).applyRoute hdevice route
  have hmode : (standing (r, w.clearRoute)).mode = (standing (r, w)).mode := hdevice.mode_clearRoute hw
  rw [hmode] at hcleared
  exact hcleared

theorem setMode (h : StandsAt among (r, w) p) (hdevice : Obliging needsNormalMode among) (mode : AudioMode) :
    StandsAt among (r, w.setMode mode) { p with mode } := by
  obtain ⟨hw, rfl⟩ := h
  have hroute : AudioDevice.currentRoute (w.setMode mode).host = AudioDevice.currentRoute w.host :=
    RoutesAsGranted.currentRoute_setMode mode w.host
  have hmode : AudioDevice.mode (w.setMode mode).host = mode := hdevice.mode_setMode hw mode
  exact ⟨hdevice.setMode hw mode, by rw [standing, hroute, hmode]; rfl⟩

theorem switchToSpeaker (h : StandsAt among (r, w) p) (hdevice : Obliging needsNormalMode among) :
    StandsAt among (r, (switchToSpeaker w).2) ⟨.speaker, .inCommunication, p.switching⟩ :=
  (h.applyRoute hdevice .speaker).setMode hdevice .inCommunication

theorem switchToEarpiece (h : StandsAt among (r, w) p) (hdevice : Obliging needsNormalMode among) :
    StandsAt among (r, switchToEarpiece w)
      ⟨.earpiece, if needsNormalMode then .normal else p.mode, p.switching⟩ := by
  unfold Router.switchToEarpiece
  rw [hdevice.speakerNeedsNormalMode h.1]
  cases needsNormalMode with
  | false => exact h.applyRoute hdevice .earpiece
  | true =>
    have happlied := h.clearRoute_applyRoute hdevice .earpiece
    have hmode : AudioDevice.mode (w.clearRoute.applyRoute .earpiece).2.host = p.mode :=
      congrArg Standing.mode happlied.2
    rw [if_pos rfl]
    dsimp only
    rw [hmode]
    split
    · exact happlied.setMode hdevice .normal
    · rename_i hother
      have hnormal : p.mode = .normal := by
        cases hp : p.mode with
        | normal => rfl
        | inCommunication => exact (hother hp).elim
      rw [hnormal] at happlied
      exact happlied

/-- A change of the route, while no switch waits. -/
theorem change (h : StandsAt among (r, w) p) (hdevice : Obliging needsNormalMode among)
    (hidle : p.switching = false) (hroute : p.route ≠ target speaker) (ticket : Ticket) :
    StandsAt among (r.change speaker ticket w) (p.request needsNormalMode speaker) := by
  have hmode : AudioDevice.mode w.host = p.mode := congrArg Standing.mode h.2
  unfold Router.change Standing.request
  rw [hdevice.speakerNeedsNormalMode h.1, hmode, hidle, Bool.false_and, if_neg Bool.false_ne_true,
    if_neg hroute, ← hidle]
  split
  · exact h.switchToEarpiece hdevice
  · split
    · exact h.applyRoute hdevice .speaker
    · split
      · exact h.switchToSpeaker hdevice
      · exact (h.setMode hdevice .normal).withRouter ⟨true, r.waiting ++ [ticket]⟩

theorem proceed (h : StandsAt among (r, w) p) (hdevice : Obliging needsNormalMode among)
    (hidle : p.switching = false) (speaker : Bool) (ticket : Ticket) :
    StandsAt among (r.proceed speaker ticket w) (p.request needsNormalMode speaker) := by
  have hcurrent : AudioDevice.currentRoute w.host = p.route := congrArg Standing.route h.2
  unfold Router.proceed
  rw [hcurrent]
  split
  · rename_i hroute
    have hsame : p.request needsNormalMode speaker = p := by
      unfold Standing.request
      rw [hidle, Bool.false_and, if_neg Bool.false_ne_true, if_pos hroute, ← hidle]
    rw [hsame]
    exact h
  · exact h.change hdevice hidle ‹_› ticket

theorem request (h : StandsAt among (r, w) p) (hdevice : Obliging needsNormalMode among) (speaker : Bool)
    (ticket : Ticket) :
    StandsAt among (r.request speaker ticket w) (p.request needsNormalMode speaker) := by
  have hswitching : r.switching = p.switching := congrArg Standing.switching h.2
  have hgoes := request_goes r speaker ticket w
  generalize r.request speaker ticket w = s at hgoes ⊢
  cases hgoes with
  | lacks hlacks => exact (hlacks (hdevice.offers h.1 _)).elim
  | joins _ hpending hspeaker =>
    have hsame : p.request needsNormalMode speaker = p :=
      if_pos ((Bool.and_eq_true _ _).mpr ⟨hswitching.symm.trans hpending, hspeaker⟩)
    rw [hsame]
    exact h
  | proceeds _ hidle => exact h.proceed hdevice (hswitching.symm.trans hidle) speaker ticket
  | givesUp _ _ hearpiece =>
    have hgivenUp : p.cancel.request needsNormalMode speaker = p.request needsNormalMode speaker := by
      simp [Standing.request, Standing.cancel, hearpiece]
    rw [← hgivenUp]
    exact h.cancel.proceed hdevice rfl speaker ticket

theorem toggle (h : StandsAt among (r, w) p) (hdevice : Obliging needsNormalMode among) (ticket : Ticket) :
    StandsAt among (r.toggle ticket w) (p.toggle needsNormalMode) := by
  have hasked : (!w.isSpeakerOn) = decide (p.route = .earpiece) := by
    obtain ⟨-, rfl⟩ := h
    unfold World.isSpeakerOn standing
    cases AudioDevice.currentRoute w.host <;> rfl
  unfold Router.toggle Standing.toggle
  rw [hasked]
  exact h.request hdevice _ ticket

theorem modeChanged (h : StandsAt among (r, w) p) (hdevice : Obliging needsNormalMode among)
    (mode : AudioMode) : StandsAt among (r.onModeChanged mode w) (p.modeChanged mode) := by
  have hswitching : r.switching = p.switching := congrArg Standing.switching h.2
  unfold onModeChanged Standing.modeChanged
  rw [hswitching]
  split
  · exact ((h.switchToSpeaker hdevice).answerAll _ r.waiting).withRouter {}
  · exact h

end StandsAt

variable [RoutesAsGranted σ]

/-- **What a move comes to on an obliging device.** -/
theorem standsAt_move (hdevice : Obliging needsNormalMode among) (hs : among s.2.host) (m : Move) :
    StandsAt among (move s m) ((standing s).after needsNormalMode m) := by
  have h := standsAt_standing hs
  cases m with
  | request speaker ticket => exact h.request hdevice speaker ticket
  | toggle ticket => exact h.toggle hdevice ticket
  | cancel => exact h.cancel
  | modeChanged mode => exact h.modeChanged hdevice mode

theorem standsAt_run (hdevice : Obliging needsNormalMode among) (hs : among s.2.host) (ms : List Move) :
    StandsAt among (run s ms) (ms.foldl (Standing.after needsNormalMode) (standing s)) := by
  induction ms generalizing s with
  | nil => exact ⟨hs, rfl⟩
  | cons m ms ih =>
    obtain ⟨hamong, hstanding⟩ := standsAt_move hdevice hs m
    rw [List.foldl_cons, ← hstanding]
    exact ih hamong

end Softphone.Router
