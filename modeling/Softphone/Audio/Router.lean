import Softphone.Host

/-!
# Routing

Sound comes out of the earpiece in normal mode or out of the speaker in communication mode. Where the
speaker can be chosen in normal mode only, a request made in another mode asks the device for normal
mode and is kept waiting; the switch is made when the device confirms the mode, and everyone who waits
is then told the outcome, once.
-/

namespace Softphone

/-- Whether a switch to the speaker waits for normal mode, and the requests that wait for it. -/
structure Router where
  switching : Bool := false
  waiting : List Ticket := []
  deriving DecidableEq, Repr

namespace Router

variable {σ : Type}

/-- Gives several requests the same answer, in order. -/
def answerAll (on : Bool) (tickets : List Ticket) (w : World σ) : World σ :=
  tickets.foldl (fun w ticket => w.reply ticket (.isOn on)) w

/-- Gives up a switch: those who wait are told that the speaker is off. -/
def cancel (r : Router) (w : World σ) : Router × World σ :=
  ({}, answerAll false r.waiting w)

variable [AudioDevice σ]

/-- Chooses the speaker and enters communication mode; tells whether the speaker is on. -/
def switchToSpeaker (w : World σ) : Bool × World σ :=
  let r := w.applyRoute .speaker
  (r.1, r.2.setMode .inCommunication)

/-- Chooses the earpiece, and leaves communication mode where that goes with the speaker. -/
def switchToEarpiece (w : World σ) : World σ :=
  if AudioDevice.speakerNeedsNormalMode w.host then
    let w := (w.clearRoute.applyRoute .earpiece).2
    if AudioDevice.mode w.host = .inCommunication then w.setMode .normal else w
  else (w.applyRoute .earpiece).2

/-- Goes to a route that is available and not in force, while no switch waits. -/
def change (r : Router) (speaker : Bool) (ticket : Ticket) (w : World σ) : Router × World σ :=
  if !speaker then (r, (switchToEarpiece w).reply ticket (.isOn false))
  else if !AudioDevice.speakerNeedsNormalMode w.host then
    let s := w.applyRoute .speaker
    (r, s.2.reply ticket (.isOn s.1))
  else if AudioDevice.mode w.host = .normal then
    let s := switchToSpeaker w
    (r, s.2.reply ticket (.isOn s.1))
  else
    ({ r with switching := true, waiting := r.waiting ++ [ticket] }, w.setMode .normal)

/-- The route that a request is for. -/
def target (speaker : Bool) : AudioRoute := if speaker then .speaker else .earpiece

/-- A request for the speaker or the earpiece. A request for the speaker joins a switch that waits, and
one for the earpiece gives it up; a route that the device lacks changes nothing. -/
def request (r : Router) (speaker : Bool) (ticket : Ticket) (w : World σ) : Router × World σ :=
  if target speaker ∉ AudioDevice.availableRoutes w.host then
    (r, w.reply ticket (.isOn w.isSpeakerOn))
  else if r.switching && speaker then
    ({ r with waiting := r.waiting ++ [ticket] }, w)
  else
    let (r, w) := if r.switching then r.cancel w else (r, w)
    if AudioDevice.currentRoute w.host = target speaker then
      (r, w.reply ticket (.isOn w.isSpeakerOn))
    else r.change speaker ticket w

/-- A request for the route that is not in force. -/
def toggle (r : Router) (ticket : Ticket) (w : World σ) : Router × World σ :=
  r.request (!w.isSpeakerOn) ticket w

/-- The device has changed its mode; normal mode completes a switch that waits. -/
def onModeChanged (r : Router) (mode : AudioMode) (w : World σ) : Router × World σ :=
  if r.switching && mode = .normal then
    let s := switchToSpeaker w
    ({}, answerAll s.1 r.waiting s.2)
  else (r, w)

end Router

end Softphone
