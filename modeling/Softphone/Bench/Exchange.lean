import Softphone.Account
import Softphone.Address.Table
import Softphone.Handle
import Softphone.SessionError

/-!
# A scripted exchange

An engine that accepts every request but those it was told to fail, and hands out handles by counting.
-/

namespace Softphone.Bench

/-- What an engine can be told to fail. -/
inductive Failure
  | allocateAgent
  | register
  | allocateCall
  | connect
  | hold
  | resolvers
  deriving DecidableEq, Repr

/-- A request that an engine can be told to carry out and then report as failed. -/
inductive Refusal
  | allocateAgent
  | unregister
  | answer
  | hangup
  | transfer
  | digit (digit : Char)
  | resetTransport
  deriving DecidableEq, Repr

/-- What the engine knows of a call. -/
structure Line where
  call : CallHandle
  held : Bool := false
  target : Option String := none
  deriving DecidableEq, Repr

/-- An engine that follows a script. -/
structure Exchange where
  /-- The next handle; agents and calls share the count. -/
  nextHandle : UInt64 := 100
  muted : Bool := false
  lines : List Line := []
  failures : List Failure := []
  refusals : List Refusal := []
  /-- Addresses that cannot be added. -/
  unbindable : List Address := []
  /-- Addresses that cannot be removed. -/
  stuck : List Address := []
  deriving DecidableEq, Repr

namespace Exchange

/-- Switches an entry of a list on or off. -/
def switched {α : Type} [DecidableEq α] (entries : List α) (entry : α) (on : Bool) : List α :=
  if on then (if entry ∈ entries then entries else entries ++ [entry])
  else entries.filter (· ≠ entry)

def setFailure (e : Exchange) (failure : Failure) (on : Bool) : Exchange :=
  { e with failures := switched e.failures failure on }

def setRefusal (e : Exchange) (refusal : Refusal) (on : Bool) : Exchange :=
  { e with refusals := switched e.refusals refusal on }

/-- Lets every address be added and removed again. -/
def heal (e : Exchange) : Exchange := { e with unbindable := [], stuck := [] }

def fails (e : Exchange) (failure : Failure) : Bool := e.failures.contains failure

def refuses (e : Exchange) (refusal : Refusal) : Bool := e.refusals.contains refusal

/-- The error of a refused request. -/
def refused (operation : String) : SessionError := .engine operation "host refused"

/-- The outcome of a request that fails only when it is to be refused. -/
def unlessRefused (e : Exchange) (refusal : Refusal) (operation : String) :
    Except SessionError Unit :=
  if e.refuses refusal then .error (refused operation) else .ok ()

/-- Hands out an agent, unless that is to fail. -/
def takeAgent (e : Exchange) : Except SessionError AgentHandle × Exchange :=
  if e.fails .allocateAgent then (.error (.agentAllocationFailed "mock refused account"), e)
  else (.ok ⟨e.nextHandle⟩, { e with nextHandle := e.nextHandle + 1 })

def allocateAgent (e : Exchange) : Except SessionError AgentHandle × Exchange :=
  if e.refuses .allocateAgent then (.error (refused "allocate_agent"), e.takeAgent.2)
  else e.takeAgent

def register (e : Exchange) : Except SessionError Unit :=
  if e.fails .register then .error (.engine "register" "mock register failure") else .ok ()

/-- Sets up a new call. What was known of a call with its handle is forgotten. -/
def allocateCall (e : Exchange) : Option CallHandle × Exchange :=
  if e.fails .allocateCall then (none, e)
  else
    let call : CallHandle := ⟨e.nextHandle⟩
    let others := e.lines.filter (·.call ≠ call)
    (some call, { e with nextHandle := e.nextHandle + 1, lines := others ++ [{ call }] })

/-- Changes what is known of a call, which may be new. -/
def modifyLine (e : Exchange) (call : CallHandle) (change : Line → Line) : Exchange :=
  if e.lines.any (·.call = call) then
    { e with lines := e.lines.map fun line => if line.call = call then change line else line }
  else { e with lines := e.lines ++ [change { call }] }

def connect (e : Exchange) (call : CallHandle) (target : String) : Bool × Exchange :=
  if e.fails .connect then (false, e)
  else (true, e.modifyLine call fun line => { line with target := some target })

def hold (e : Exchange) (call : CallHandle) (held : Bool) : Bool × Exchange :=
  if e.fails .hold then (false, e)
  else (true, e.modifyLine call fun line => { line with held })

/-- What is known of a call. -/
def line? (e : Exchange) (call : CallHandle) : Option Line := e.lines.find? (·.call = call)

def isHeld (e : Exchange) (call : CallHandle) : Bool := (e.line? call).any (·.held)

def target? (e : Exchange) (call : CallHandle) : Option String := (e.line? call).bind (·.target)

end Exchange

end Softphone.Bench
