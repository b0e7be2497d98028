import Softphone.Network.Link

/-!
# Name servers

The list of name servers that the engine is given: each server once, where it first comes up.
-/

namespace Softphone

/-- Name servers in order of preference. -/
structure ResolverList where
  servers : List Address := []
  deriving DecidableEq, Repr

namespace ResolverList

/-- The port that name servers listen on. -/
def port : Nat := 53

/-- Adds a server at the end unless it is in the list. -/
def push (l : ResolverList) (server : Address) : ResolverList :=
  if server ∈ l.servers then l else ⟨l.servers ++ [server]⟩

/-- The list of some servers, each where it first comes up. -/
def ofList (servers : List Address) : ResolverList :=
  servers.foldl push {}

/-- The servers that a network names. -/
def serversOf (p : Platform) (network : NetworkId) : List Address :=
  ((p.properties network).map (·.dnsServers)).getD []

/-- The servers of all networks: those of the active network first, also when it is not attached, and
then those of the other attached ones in the platform's order. -/
def collect (p : Platform) : ResolverList :=
  let first := (p.active.map (serversOf p)).getD []
  let others := p.attached.filter fun network => some network ≠ p.active
  ofList (first ++ others.flatMap (serversOf p))

def isEmpty (l : ResolverList) : Bool := l.servers.isEmpty

/-- The servers with their port. -/
def endpoints (l : ResolverList) : List Endpoint := l.servers.map (⟨·, port⟩)

/-- The list in the engine's own form, with commas between. -/
def text (l : ResolverList) : String := ",".intercalate (l.endpoints.map (·.text))

end ResolverList

end Softphone
