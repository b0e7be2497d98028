import Softphone.Session.Actions
import Softphone.Session.Control
import Softphone.Session.Input
import Softphone.Session.Registering

/-!
# Turns

A session takes one message at a time and deals with it completely. After each it takes all
notifications that have queued up meanwhile, and then runs one pass at most, so that a burst of
notifications is answered by one pass that sees them all.
-/

namespace Softphone.Session

variable {σ : Type} [Host σ]

/-! ## One message -/

/-- Answers a request once it is dealt with. -/
def answerWith {α : Type} (ticket : Ticket) (encode : α → Reply) (r : α × Session σ) :
    Session σ :=
  r.2.reply ticket (encode r.1)

/-- A request for the speaker, for the earpiece, or for a change; it may be answered later. -/
def routeAudio (ticket : Ticket) (on : Option Bool) (s : Session σ) : Session σ :=
  let (router, world) := match on with
    | some on => s.router.request on ticket s.world
    | none => s.router.toggle ticket s.world
  { s with router, world }

/-- Stops everything: timers, mobility, sounds and vibration, and last the registration. -/
def teardown (s : Session σ) : Session σ :=
  let timers := s.timers.cancelAll
  let (mobility, world) := s.mobility.stop s.world
  let (player, timers, world) := s.player.stopAll timers world
  let (router, world) := s.router.cancel world.cancelVibration
  { s with timers, mobility, player, router, world := world.abandonFocus, ended := true }
    |>.unregister.2

/-- Deals with a request of the application. -/
def handleCommand (ticket : Ticket) (command : Command) (s : Session σ) : Session σ :=
  match command with
  | .signIn account => answerWith ticket .done (s.signIn account)
  | .dial target => answerWith ticket .success (s.dial target)
  | .answer => answerWith ticket .done s.answer
  | .hangup => answerWith ticket .done (s.endCall hangupStatus)
  | .reject => answerWith ticket .done (s.endCall rejectStatus)
  | .hold held => answerWith ticket .success (s.hold held)
  | .transfer target => answerWith ticket .success (s.transfer target)
  | .sendDigits digits => answerWith ticket .success (s.sendDigits digits)
  | .setMuted muted => answerWith ticket .success (s.setMuted muted)
  | .setSpeaker on => s.routeAudio ticket on
  | .refresh => answerWith ticket .done s.refresh
  | .unregister => answerWith ticket (.success ∘ .ok) s.unregister
  | .registrationState => s.reply ticket (.registration s.registration.state)
  | .isMicOn => s.reply ticket (.isOn s.isMicOn)
  | .isSpeakerOn => s.reply ticket (.isOn s.isSpeakerOn)
  | .currentCall => s.reply ticket (.currentCall s.currentCallId?)
  | .missedCalls => s.reply ticket (.missedCalls s.calls.missed)
  | .stats => s.reply ticket (.stats s.mobility.stats)
  | .shutdown => s.teardown.reply ticket (.done (.ok ()))

/-- Deals with a report of the engine. -/
def handleEngine (event : EngineEvent) (s : Session σ) : Session σ :=
  match event with
  | .registration signal =>
    { s with registration := s.registration.receive signal }.publishRegistration
  | .call event =>
    let (stamp, world) := s.world.stamp
    let (actions, calls) := s.calls.receive stamp s.registration.agent event
    { s with calls, world }.execute actions

/-- Deals with a notification of the platform. -/
def handleNotification (s : Session σ) (notification : Notification) : Session σ :=
  match notification with
  | .network (.hotspotChanged enabled) =>
    let (mobility, timers, world) := s.mobility.onHotspotChanged enabled s.timers s.world
    { s with mobility, timers, world }
  | .network change => { s with mobility := s.mobility.observe change }
  | .audioMode mode =>
    let (router, world) := s.router.onModeChanged mode s.world
    { s with router, world }
  | .toneFinished =>
    let (wasBusy, player) := s.player.onToneFinished
    let s := { s with player }
    if wasBusy then
      let (actions, s) := s.finishTone
      s.execute actions
    else s

/-- Does what a timer of a kind is for. -/
def handleTimer (kind : TimerKind) (s : Session σ) : Session σ :=
  match kind with
  | .hotspotDebounce =>
    let (mobility, timers, world) := s.mobility.onHotspotDebounce s.timers s.world
    { s with mobility, timers, world }
  | .hotspotFollowUp =>
    if s.mobility.running then { s with mobility := s.mobility.request } else s
  | .ringtoneRestart => { s with world := s.player.onRestartTick s.world }
  | .vibrate => { s with world := s.player.onVibrateTick s.world }

/-- Deals with the firing of a timer, if it still counts. -/
def handleFiring (firing : Firing) (s : Session σ) : Session σ :=
  let (accepted, timers) := s.timers.accept firing
  let s := { s with timers }
  if accepted then s.handleTimer firing.kind else s

/-- Deals with one message. -/
def handle (input : Input) (s : Session σ) : Session σ :=
  match input with
  | .notification notification => s.handleNotification notification
  | .engine event => s.handleEngine event
  | .firing firing => s.handleFiring firing
  | .command ticket command => s.handleCommand ticket command
  | .abandoned => s.teardown

/-! ## A turn -/

/-- Takes the wish for a pass, and runs it if the platform is followed. -/
def runPass (s : Session σ) : Session σ :=
  let (pending, mobility) := s.mobility.takePending
  let s := { s with mobility }
  if pending && s.mobility.running then
    let (_, mobility, world) := s.mobility.reconcile s.world
    { s with mobility, world }
  else s

/-- Deals with a message, with the notifications that have queued up, and with the wish for a pass. A
session that the message ends takes nothing more. -/
def turn (input : Input) (queued : List Notification) (s : Session σ) : Session σ :=
  let s := s.handle input
  if s.ended then s else (queued.foldl handleNotification s).runPass

end Softphone.Session
