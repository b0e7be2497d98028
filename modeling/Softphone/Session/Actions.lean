import Softphone.Session

/-!
# Carrying out actions

What the book of calls asks for is done in order. When the busy tone cannot be started its end will
never be reported, so the closed call is dropped at once; what that asks for is done after the rest.
-/

namespace Softphone.Session

variable {σ : Type} [ToneDevice σ] [AudioDevice σ]

/-- Gives the audio back, and gives up a switch of the route. -/
def releaseAudio (s : Session σ) : Session σ :=
  let (router, world) := s.router.cancel s.world
  let (player, world) := s.player.releaseAudio world
  { s with router, player, world }

/-- The busy tone is over, or could not be started: the closed call goes. -/
def finishTone (s : Session σ) : List CallAction × Session σ :=
  let (actions, calls) := s.calls.onToneFinished
  (actions, { s with calls })

/-- Carries out one action; gives what is to be done later because of it. -/
def perform (action : CallAction) (s : Session σ) : List CallAction × Session σ :=
  match action with
  | .startRinging =>
    let (player, timers, world) := s.player.startRinging s.timers s.world
    ([], { s with player, timers, world })
  | .stopRinging =>
    let (player, timers, world) := s.player.stopRinging s.timers s.world
    ([], { s with player, timers, world })
  | .playRingback =>
    let (player, world) := s.player.playRingback s.world
    ([], { s with player, world })
  | .stopTone =>
    let (player, world) := s.player.stopTone s.world
    ([], { s with player, world })
  | .playBusy =>
    let (plays, player, world) := s.player.playBusy s.world
    let s := { s with player, world }
    if plays then ([], s) else s.finishTone
  | .releaseAudio => ([], s.releaseAudio)
  | .emit event => ([], s.publish event)

/-- Carries out actions in order; gives what is to be done after them. -/
def performAll : List CallAction → Session σ → List CallAction × Session σ
  | [], s => ([], s)
  | action :: rest, s =>
    let (later, s) := s.perform action
    let (more, s) := performAll rest s
    (later ++ more, s)

/-- Carries out actions, and then what they left to be done. -/
def execute (actions : List CallAction) (s : Session σ) : Session σ :=
  let (later, s) := s.performAll actions
  (s.performAll later).2

end Softphone.Session
