import Softphone.Session

/-!
# Registering

Setting up an account, renewing its registration and giving it up. A registration that the engine
refuses to begin is reported as an event and not as a failure of the request.
-/

namespace Softphone.Session

variable {σ : Type} [Engine σ]

/-- Asks the engine to register an agent. -/
def register (agent : AgentHandle) (s : Session σ) : Session σ :=
  let r := s.world.register agent
  let s := { s with world := r.2 }
  match r.1 with
  | .ok () => s
  | .error e => s.publish (.error e.text)

/-- Unregisters the agent, if there is one, without telling the application. -/
def releaseAgent (s : Session σ) : Session σ :=
  match s.registration.release with
  | (none, _) => s
  | (some agent, registration) => { s with registration, world := s.world.unregister agent }

/-- How a failure to make an agent is reported. -/
def allocationError : SessionError → SessionError
  | .agentAllocationFailed reason => .agentAllocationFailed reason
  | e => .agentAllocationFailed e.text

/-- Begins to follow the platform, unless that has begun already. -/
def ensureMobility [Connectivity σ] (s : Session σ) : Session σ :=
  if s.mobility.running then s
  else
    let (mobility, world) := s.mobility.start s.world
    { s with mobility, world }

/-- Sets up an account: the agent of an earlier one is released, a new one is made, a pass is asked for
and the agent is registered. -/
def signIn [Connectivity σ] (account : Account) (s : Session σ) :
    Except SessionError Unit × Session σ :=
  match account.check with
  | .error e => (.error e, s)
  | .ok () =>
    let s := s.releaseAgent
    let r := s.world.allocateAgent account
    let s := { s with world := r.2 }
    match r.1 with
    | .error e => (.error (allocationError e), s)
    | .ok agent =>
      let s := { s with registration := s.registration.attach agent }.ensureMobility
      (.ok (), { s with mobility := s.mobility.request }.register agent)

/-- Registers the agent again, unless it is registered. -/
def refresh (s : Session σ) : Except SessionError Unit × Session σ :=
  match s.registration.refresh with
  | (.alreadyRegistered, _) => (.ok (), s)
  | (.noAgent, _) => (.error .noSession, s)
  | (.register agent, registration) =>
    (.ok (), { s with registration }.publishRegistration.register agent)

/-- Gives up the registration; tells whether there was an agent. -/
def unregister (s : Session σ) : Bool × Session σ :=
  match s.registration.release with
  | (none, _) => (false, s)
  | (some agent, registration) =>
    let s := { s with registration }.publishRegistration
    (true, { s with world := s.world.unregister agent })

end Softphone.Session
