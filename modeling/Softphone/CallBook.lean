import Softphone.Event
import Softphone.Registry
import Softphone.Signal

/-!
# The book of calls

Follows the calls through the reports of the engine and says what has to be done about each report,
without doing it. A call that closes with a busy hint stays, closed, until the busy tone has ended,
so that call control cannot act on it while audio is still being taken down.
-/

namespace Softphone

/-- What a report on a call asks for. -/
inductive CallAction
  /-- Begin to ring and to vibrate. -/
  | startRinging
  | stopRinging
  | playRingback
  /-- Stop the ringback or the busy tone. -/
  | stopTone
  /-- Play the busy tone once. -/
  | playBusy
  /-- Give the audio back to the device. -/
  | releaseAudio
  | emit (event : Event)
  deriving DecidableEq, Repr

/-- The calls, those that were missed, and the closed one whose busy tone is playing. -/
structure CallBook where
  registry : Registry := {}
  missed : List MissedCall := []
  closing : Option CallHandle := none
  deriving DecidableEq, Repr

namespace CallBook

/-- The tone hint that asks for the busy tone. -/
def busyHint : String := "busy"

/-- The flag of a provisional answer whose sender only receives media. -/
def receiveOnly : UInt32 := 1

/-- The update code for a call that was put on hold. -/
def heldCode : UInt32 := 1

/-- The update code for a call that was resumed. -/
def resumedCode : UInt32 := 3

/-- Adds a call and makes it current. -/
def track (b : CallBook) (call : Call) : Except SessionError CallBook := do
  let registry ← b.registry.put call
  let registry ← registry.setCurrent call.handle
  return { b with registry }

/-- Drops the closed call, whose tone is cut short. -/
def finishClosing (b : CallBook) : List CallAction × CallBook :=
  match b.closing with
  | none => ([], b)
  | some handle =>
    ([.stopTone], { b with registry := b.registry.remove handle, closing := none })

/-- A call comes in. A repeated report changes nothing. -/
def onIncoming (b : CallBook) (stamp : Stamp) (agent : AgentHandle) (event : CallEvent) :
    List CallAction × CallBook :=
  if b.registry.contains event.handle then ([], b)
  else
    let (actions, b) := b.finishClosing
    let call : Call :=
      { Call.new stamp event.handle agent .inbound event.remote with state := .ringing .inbound }
    match b.track call with
    | .error _ => (actions, b)
    | .ok b => (actions ++ [.startRinging, .emit (.ring event.remote .inbound)], b)

/-- The outgoing call, new or dialled before, becomes current; an idle one now rings. -/
def markOutgoing (b : CallBook) (stamp : Stamp) (agent : AgentHandle) (event : CallEvent) :
    Except SessionError CallBook :=
  if b.registry.contains event.handle then
    (b.registry.setCurrent event.handle).map fun registry => { b with registry }
  else b.track (Call.new stamp event.handle agent .outbound event.remote)

/-- A call goes out. The application is told the party that was dialled. -/
def onOutgoing (b : CallBook) (stamp : Stamp) (agent : AgentHandle) (event : CallEvent) :
    List CallAction × CallBook :=
  let (actions, b) := b.finishClosing
  match b.markOutgoing stamp agent event with
  | .error _ => (actions, b)
  | .ok b =>
    match b.registry.find? event.handle with
    | none => (actions, b)
    | some call =>
      let registry := b.registry.modify event.handle fun c =>
        if c.state = .idle then { c with state := .ringing .outbound } else c
      (actions ++ [.emit (.ring call.remote .outbound)], { b with registry })

/-- A call that is being set up has been answered provisionally. -/
def enterEarly (c : Call) : Call :=
  match c.state with
  | .idle | .ringing _ => { c with state := .early }
  | _ => c

/-- The other side rings. -/
def onRinging (b : CallBook) (handle : CallHandle) : List CallAction × CallBook :=
  ([.playRingback], { b with registry := b.registry.modify handle enterEarly })

/-- A provisional answer. Where the other side sends no media the ringback is played here. -/
def onProgress (b : CallBook) (handle : CallHandle) (flags : UInt32) :
    List CallAction × CallBook :=
  (if flags &&& receiveOnly ≠ 0 then [.stopTone] else [.playRingback],
    { b with registry := b.registry.modify handle enterEarly })

/-- A call was put on hold or resumed. -/
def onUpdate (b : CallBook) (handle : CallHandle) (code : UInt32) : List CallAction × CallBook :=
  let enter := fun (state : CallState) (event : Event) =>
    let registry := b.registry.modify handle fun c =>
      if c.state.isAnswered then { c with state } else c
    ([CallAction.emit event], { b with registry })
  if code = heldCode then enter .held .paused
  else if code = resumedCode then enter .established .resuming
  else ([], b)

/-- A call is established, and becomes current. -/
def onEstablished (b : CallBook) (time : Timestamp) (handle : CallHandle) :
    List CallAction × CallBook :=
  let registry := b.registry.modify handle fun c =>
    { c with state := .established, establishedAt := some (c.establishedAt.getD time) }
  let registry := match registry.setCurrent handle with
    | .ok registry => registry
    | .error _ => registry
  ([.stopRinging, .stopTone, .emit .up], { b with registry })

/-- The live current call, if it is another than the one with this handle. -/
def otherActive? (b : CallBook) (handle : CallHandle) : Option Call :=
  b.registry.currentLive?.filter (·.handle ≠ handle)

/-- Keeps a closed call until its busy tone ends. An earlier such call goes. -/
def linger (b : CallBook) (handle : CallHandle) : CallBook :=
  let registry := b.registry.modify handle fun c => { c with state := .closed }
  let registry := match b.closing with
    | some earlier => registry.remove earlier
    | none => registry
  { b with registry, closing := some handle }

/-- Whether a call that closes was missed: it came in and was never established. -/
def isMissed (c : Call) : Bool := c.direction == .inbound && !c.wasEstablished

/-- A call is over. -/
def onClosed (b : CallBook) (time : Timestamp) (handle : CallHandle) (tone : Option String) :
    List CallAction × CallBook :=
  let opening := [CallAction.stopRinging, .stopTone]
  match b.registry.find? handle with
  | none => (opening ++ [.emit .hangup], b)
  | some call =>
    let others := (b.otherActive? handle).isSome
    let (actions, after) :=
      if tone = some busyHint ∧ !others then ([.playBusy], b.linger handle)
      else (if others then [] else [.releaseAudio],
        { b with registry := b.registry.remove handle })
    if isMissed call then
      (opening ++ actions ++ [.emit .hangup, .emit (.missed call.remote time)],
        { after with missed := after.missed ++ [⟨call.remote, time⟩] })
    else (opening ++ actions ++ [.emit .hangup], after)

/-- Whether a report is passed over: it is on an unknown call and brings none in, or on a call that
is closed already. -/
def isStale (b : CallBook) (event : CallEvent) : Bool :=
  match b.registry.find? event.handle with
  | none => !event.kind.admitsNewCall
  | some call => call.state.isTerminal

/-- Applies a report. Without a user agent, reports on calls are passed over. -/
def receive (b : CallBook) (stamp : Stamp) (agent : Option AgentHandle) (event : CallEvent) :
    List CallAction × CallBook :=
  match agent with
  | none => ([], b)
  | some agent =>
    if b.isStale event then ([], b)
    else match event.kind with
      | .incoming => b.onIncoming stamp agent event
      | .outgoing => b.onOutgoing stamp agent event
      | .ringing => b.onRinging event.handle
      | .progress flags => b.onProgress event.handle flags
      | .update code => b.onUpdate event.handle code
      | .established => b.onEstablished stamp.time event.handle
      | .closed tone => b.onClosed stamp.time event.handle tone

/-- The busy tone has ended: the closed call goes, and audio is given back unless another call is
live. -/
def onToneFinished (b : CallBook) : List CallAction × CallBook :=
  match b.closing with
  | none => ([], b)
  | some handle =>
    let registry := b.registry.remove handle
    (if registry.currentLive?.isSome then [] else [.releaseAudio],
      { b with registry, closing := none })

end CallBook

end Softphone
