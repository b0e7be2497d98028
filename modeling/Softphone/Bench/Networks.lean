import Softphone.Network.Link

/-!
# Scripted networks

Networks that come and go as told, the interfaces of the device, its hotspot and the performance lock.
-/

namespace Softphone.Bench

/-- A network as it is attached; what is missing the platform does not tell. -/
structure Network where
  id : NetworkId
  properties : Option LinkProperties := none
  capabilities : Option NetworkCapabilities := none
  deriving DecidableEq, Repr

/-- A platform that follows a script. -/
structure Networks where
  /-- The attached networks in ascending order of their numbers. -/
  attached : List Network := []
  /-- Networks that stand in for the attached ones. -/
  override : Option (List Network) := none
  active : Option NetworkId := none
  interfaces : List InterfaceInfo := []
  hotspotEnabled : Bool := false
  reportsForeground : Bool := true
  lockHeld : Bool := false
  /-- How often the lock was taken. -/
  acquisitions : Nat := 0
  deriving DecidableEq, Repr

namespace Networks

/-- The addresses that some texts write; a text that writes none is passed over. -/
def readAll (texts : List String) : List Address := texts.filterMap Address.parse?

/-- Puts a network at its place, where it takes over from one with the same number. -/
def insertOrdered (network : Network) : List Network → List Network
  | [] => [network]
  | other :: rest =>
    if network.id.raw < other.id.raw then network :: other :: rest
    else if network.id = other.id then network :: rest
    else other :: insertOrdered network rest

/-- Attaches a network that the foreground may use. -/
def attach (n : Networks) (id : NetworkId) (interface : String) (addresses servers : List String)
    (wifi : Bool) : Networks :=
  let properties : LinkProperties :=
    { interface := some interface
      addresses := (readAll addresses).map LinkAddress.ofAddress
      dnsServers := readAll servers }
  { n with attached := insertOrdered ⟨id, some properties, some ⟨true, wifi⟩⟩ n.attached }

/-- Detaches a network, which is then not active any more. -/
def detach (n : Networks) (id : NetworkId) : Networks :=
  { n with attached := n.attached.filter (·.id ≠ id), active := n.active.filter (· ≠ id) }

/-- Changes an attached network. -/
def modify (n : Networks) (id : NetworkId) (change : Network → Network) : Networks :=
  { n with attached := n.attached.map fun network => if network.id = id then change network else network }

def setForeground (n : Networks) (id : NetworkId) (foreground : Bool) : Networks :=
  n.modify id fun network =>
    { network with capabilities := network.capabilities.map fun c => { c with foreground } }

/-- Adds an address to a network, if the text writes one. -/
def addLink (n : Networks) (id : NetworkId) (text : String) : Networks :=
  n.modify id fun network =>
    { network with
      properties := network.properties.map fun p =>
        { p with addresses := p.addresses ++ (readAll [text]).map LinkAddress.ofAddress } }

def setServers (n : Networks) (id : NetworkId) (servers : List String) : Networks :=
  n.modify id fun network =>
    { network with
      properties := network.properties.map fun p => { p with dnsServers := readAll servers } }

/-- The networks that the platform tells of. -/
def shown (n : Networks) : List Network := n.override.getD n.attached

/-- What the platform tells. -/
def platform (n : Networks) : Platform :=
  let find? := fun id => n.shown.find? (·.id = id)
  { active := n.active
    attached := n.shown.map (·.id)
    properties := fun id => (find? id).bind (·.properties)
    capabilities := fun id => (find? id).bind (·.capabilities)
    interfaces := n.interfaces
    hotspotEnabled := n.hotspotEnabled
    reportsForeground := n.reportsForeground }

def acquireLock (n : Networks) : Networks :=
  { n with lockHeld := true, acquisitions := n.acquisitions + 1 }

def releaseLock (n : Networks) : Networks := { n with lockHeld := false }

end Networks

end Softphone.Bench
