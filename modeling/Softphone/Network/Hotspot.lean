import Softphone.Address.Table
import Softphone.Network.Link

/-!
# Hotspots

The addresses on which the device itself serves a network to others.
-/

namespace Softphone.Hotspot

/-- Whether the name of an interface is that of a hotspot. -/
def isHotspotName (name : String) : Bool :=
  "ap".toList.isPrefixOf name.toList || Text.occursIn "wlan".toList name.toList

/-- The private addresses of an interface. -/
def privateAddresses (i : InterfaceInfo) : List (Address × String) :=
  (i.addresses.filter (·.isSiteLocal)).map (·, i.name)

/-- The private addresses of the first hotspot interface that has any. -/
def discover (interfaces : List InterfaceInfo) : AddressTable :=
  let candidates := (interfaces.filter (isHotspotName ·.name)).map privateAddresses
  .ofList ((candidates.find? (!·.isEmpty)).getD [])

end Softphone.Hotspot
