import Softphone.Address.Table
import Softphone.Network.Link

/-!
# Snapshots of the addresses

The addresses that the engine should use at one moment, and the steps from one snapshot to another.
-/

namespace Softphone

/-- Addresses with their interfaces, and the active network. -/
structure Snapshot where
  addresses : AddressTable := .empty
  active : Option NetworkId := none
  deriving DecidableEq

namespace Snapshot

/-- The addresses that a network contributes: those beyond the link and of the wanted family, if the
network may be used and its interface has a name. -/
def contribution (p : Platform) (family : AddressFamily) (network : NetworkId) :
    List (Address × String) :=
  match p.capabilities network, p.properties network with
  | some capabilities, some properties =>
    match properties.interface with
    | some interface =>
      if p.reportsForeground && !capabilities.foreground then []
      else (properties.addresses.filter fun l =>
        l.scope = .global && family.admits l.address).map fun l => (l.address, interface)
    | none => []
  | _, _ => []

/-- The addresses of all attached networks. Of two networks with the same address the later in the
platform's order gives the interface. -/
def collect (p : Platform) (family : AddressFamily) : Snapshot where
  addresses := .ofList (p.attached.flatMap (contribution p family))
  active := p.active

/-- Adds the addresses of a table that are not there yet. -/
def merge (s : Snapshot) (extra : AddressTable) : Snapshot :=
  { s with addresses := s.addresses.merge extra }

end Snapshot

/-- The steps from one snapshot to another: first the removals, then the additions, each in ascending
order. An address that moved to another interface is in both lists. -/
structure SnapshotDiff where
  removed : List Address
  added : List (Address × String)
  deriving DecidableEq, Repr

namespace SnapshotDiff

/-- The entries of one table that another does not have. -/
def missing (source target : AddressTable) : List (Address × String) :=
  source.entries.filter fun e => target.get? e.1 ≠ some e.2

/-- The steps from `old` to `new`. -/
def between (old new : Snapshot) : SnapshotDiff where
  removed := (missing old.addresses new.addresses).map (·.1)
  added := missing new.addresses old.addresses

def isEmpty (d : SnapshotDiff) : Bool := d.added.isEmpty && d.removed.isEmpty

end SnapshotDiff

end Softphone
