import Softphone.Config
import Softphone.Handle

/-!
# Links of the platform

What the platform tells about a network, and all it tells at one moment.
-/

namespace Softphone

/-- How far an address reaches. -/
inductive AddressScope
  /-- Beyond the link; private ranges count as such. -/
  | global
  | link
  | host
  deriving DecidableEq, Repr

namespace AddressScope

def toJson : AddressScope → Json
  | global => .str "Universe"
  | link => .str "Link"
  | host => .str "Host"

def ofJson? : Json → Option AddressScope :=
  Json.choice? [("Universe", global), ("Link", link), ("Host", host)]

end AddressScope

/-- An address of a link. -/
structure LinkAddress where
  address : Address
  scope : AddressScope
  deriving DecidableEq, Repr

namespace LinkAddress

/-- An address with the scope that its range implies. -/
def ofAddress (a : Address) : LinkAddress := ⟨a, if a.isLinkLocal then .link else .global⟩

def toJson (l : LinkAddress) : Json := .record [
  ("address", l.address.toJson),
  ("scope", l.scope.toJson)]

def ofJson? (j : Json) : Option LinkAddress := do
  let r ← j.record? ["address", "scope"]
  return {
    address := ← r.required "address" Address.ofJson?
    scope := ← r.required "scope" AddressScope.ofJson? }

end LinkAddress

/-- The link of a network. -/
structure LinkProperties where
  interface : Option String := none
  addresses : List LinkAddress := []
  dnsServers : List Address := []
  deriving DecidableEq, Repr

namespace LinkProperties

def toJson (p : LinkProperties) : Json := .record [
  ("interface_name", .opt .str p.interface),
  ("addresses", .list LinkAddress.toJson p.addresses),
  ("dns_servers", .list Address.toJson p.dnsServers)]

def ofJson? (j : Json) : Option LinkProperties := do
  let r ← j.record? ["interface_name", "addresses", "dns_servers"]
  return {
    interface := ← r.optional "interface_name" Json.str?
    addresses := ← r.required "addresses" (Json.list? LinkAddress.ofJson?)
    dnsServers := ← r.required "dns_servers" (Json.list? Address.ofJson?) }

end LinkProperties

/-- What a network can be used for. -/
structure NetworkCapabilities where
  /-- An application in the foreground may use it. -/
  foreground : Bool := false
  wifi : Bool := false
  deriving DecidableEq, Repr

namespace NetworkCapabilities

def toJson (c : NetworkCapabilities) : Json := .record [
  ("foreground", .bool c.foreground),
  ("wifi", .bool c.wifi)]

def ofJson? (j : Json) : Option NetworkCapabilities := do
  let r ← j.record? ["foreground", "wifi"]
  return {
    foreground := ← r.required "foreground" Json.bool?
    wifi := ← r.required "wifi" Json.bool? }

end NetworkCapabilities

/-- An interface of the device. -/
structure InterfaceInfo where
  name : String
  addresses : List Address
  deriving DecidableEq, Repr

namespace InterfaceInfo

def toJson (i : InterfaceInfo) : Json := .record [
  ("name", .str i.name),
  ("addresses", .list Address.toJson i.addresses)]

def ofJson? (j : Json) : Option InterfaceInfo := do
  let r ← j.record? ["name", "addresses"]
  return {
    name := ← r.required "name" Json.str?
    addresses := ← r.required "addresses" (Json.list? Address.ofJson?) }

end InterfaceInfo

/-- A change that the platform reports. -/
inductive NetworkNotification
  | available (network : NetworkId)
  /-- The network will soon be lost; nothing needs to be done yet. -/
  | losing (network : NetworkId)
  | lost (network : NetworkId)
  | capabilitiesChanged (network : NetworkId)
  | linkPropertiesChanged (network : NetworkId)
  | hotspotChanged (enabled : Bool)
  deriving DecidableEq, Repr

def NetworkNotification.name : NetworkNotification → String
  | available _ => "available"
  | losing _ => "losing"
  | lost _ => "lost"
  | capabilitiesChanged _ => "capabilities_changed"
  | linkPropertiesChanged _ => "link_properties_changed"
  | hotspotChanged _ => "hotspot_changed"

/-- What the platform tells about the networks at one moment. -/
structure Platform where
  active : Option NetworkId := none
  /-- The attached networks, in the platform's order. -/
  attached : List NetworkId := []
  properties : NetworkId → Option LinkProperties := fun _ => none
  capabilities : NetworkId → Option NetworkCapabilities := fun _ => none
  interfaces : List InterfaceInfo := []
  hotspotEnabled : Bool := false
  /-- Whether the platform says of networks if the foreground may use them. -/
  reportsForeground : Bool := true

instance : Inhabited Platform := ⟨{}⟩

end Softphone
