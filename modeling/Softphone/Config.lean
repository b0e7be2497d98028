import Softphone.Address.Json
import Softphone.Json.Reader
import Softphone.SessionError

/-!
# Configuration

What the coordinator is told when it starts: which addresses and resolvers to use, how to sound, and
how many messages its queues hold. `Config.parse` reads a configuration from text and accepts only
those that pass `Config.check`.
-/

namespace Softphone

/-- Which addresses the engine is given. -/
inductive AddressFamily
  | any
  | v4Only
  | v6Only
  deriving DecidableEq, Repr

namespace AddressFamily

def admits (family : AddressFamily) (a : Address) : Bool :=
  match family with
  | any => true
  | v4Only => a.isV4
  | v6Only => a.isV6

def toJson : AddressFamily → Json
  | any => .str "any"
  | v4Only => .str "ipv4_only"
  | v6Only => .str "ipv6_only"

def ofJson? : Json → Option AddressFamily :=
  Json.choice? [("any", any), ("ipv4_only", v4Only), ("ipv6_only", v6Only)]

end AddressFamily

/-- Where the addresses of name servers come from. -/
inductive DnsMode
  /-- They follow the attached networks. -/
  | dynamic
  /-- They are given once and for all. -/
  | static (servers : List Address)
  deriving DecidableEq, Repr

namespace DnsMode

def isDynamic : DnsMode → Bool
  | dynamic => true
  | static _ => false

def toJson : DnsMode → Json
  | dynamic => .str "dynamic"
  | static servers => .record [("static", .list Address.toJson servers)]

def ofJson? (j : Json) : Option DnsMode :=
  match j.case? with
  | some ("dynamic", none) => some dynamic
  | some ("dynamic", some .null) => some dynamic
  | some ("static", some servers) => (servers.list? Address.ofJson?).map static
  | _ => none

end DnsMode

/-- Network policy. Delays are in milliseconds. -/
structure NetworkSettings where
  family : AddressFamily := .any
  dns : DnsMode := .dynamic
  /-- From the report of a hotspot to the look at its interfaces. -/
  hotspotDebounce : UInt64 := 1000
  /-- From the addition of hotspot addresses to the pass that follows. -/
  hotspotFollowUp : UInt64 := 2000
  deriving DecidableEq, Repr

namespace NetworkSettings

def toJson (s : NetworkSettings) : Json := .record [
  ("address_family", s.family.toJson),
  ("dns", s.dns.toJson),
  ("hotspot_debounce", .nat s.hotspotDebounce.toNat),
  ("hotspot_follow_up", .nat s.hotspotFollowUp.toNat)]

def ofJson? (j : Json) : Option NetworkSettings := do
  let r ← j.record? ["address_family", "dns", "hotspot_debounce", "hotspot_follow_up"]
  let base : NetworkSettings := {}
  return {
    family := ← r.withDefault "address_family" base.family AddressFamily.ofJson?
    dns := ← r.withDefault "dns" base.dns DnsMode.ofJson?
    hotspotDebounce := ← r.withDefault "hotspot_debounce" base.hotspotDebounce Json.uint64?
    hotspotFollowUp := ← r.withDefault "hotspot_follow_up" base.hotspotFollowUp Json.uint64? }

end NetworkSettings

/-- Audio policy. -/
structure AudioSettings where
  /-- The call volume in tenths of the maximum, applied when a call is answered; zero leaves the
  volumes alone. -/
  callVolume : UInt8 := 0
  /-- The country whose tones are played. -/
  toneCountry : String := "us"
  deriving DecidableEq, Repr

namespace AudioSettings

def toJson (s : AudioSettings) : Json := .record [
  ("call_volume", .nat s.callVolume.toNat),
  ("tone_country", .str s.toneCountry)]

def ofJson? (j : Json) : Option AudioSettings := do
  let r ← j.record? ["call_volume", "tone_country"]
  let base : AudioSettings := {}
  return {
    callVolume := ← r.withDefault "call_volume" base.callVolume Json.uint8?
    toneCountry := ← r.withDefault "tone_country" base.toneCountry Json.str? }

end AudioSettings

/-- The whole configuration. -/
structure Config where
  network : NetworkSettings := {}
  audio : AudioSettings := {}
  /-- How many messages each queue of the coordinator holds. -/
  eventCapacity : UInt64 := 256
  deriving DecidableEq, Repr

namespace Config

/-- The highest call volume. -/
def maxCallVolume : UInt8 := 10

/-- Finds the first setting that is out of range. -/
def check (c : Config) : Except SessionError Unit :=
  if maxCallVolume < c.audio.callVolume then
    .error (.invalidConfiguration "audio.call_volume"
      (toString c.audio.callVolume.toNat ++ " exceeds " ++ toString maxCallVolume.toNat))
  else if Text.isBlankText c.audio.toneCountry then
    .error (.invalidConfiguration "audio.tone_country" "must not be empty")
  else if c.eventCapacity = 0 then
    .error (.invalidConfiguration "event_capacity" "must be at least 1")
  else if c.network.dns = .static [] then
    .error (.invalidConfiguration "network.dns" "static mode needs at least one server")
  else .ok ()

def toJson (c : Config) : Json := .record [
  ("network", c.network.toJson),
  ("audio", c.audio.toJson),
  ("event_capacity", .nat c.eventCapacity.toNat)]

def ofJson? (j : Json) : Option Config := do
  let r ← j.record? ["network", "audio", "event_capacity"]
  let base : Config := {}
  return {
    network := ← r.withDefault "network" base.network NetworkSettings.ofJson?
    audio := ← r.withDefault "audio" base.audio AudioSettings.ofJson?
    eventCapacity := ← r.withDefault "event_capacity" base.eventCapacity Json.uint64? }

/-- Reads a configuration from a value. -/
def load (j : Option Json) : Except SessionError Config :=
  match j.bind ofJson? with
  | none => .error (.invalidConfiguration "json" "malformed")
  | some c => c.check.map fun _ => c

/-- Reads a configuration from a text. -/
def parse (text : String) : Except SessionError Config := load (Json.parse? text)

def withFamily (c : Config) (family : AddressFamily) : Config :=
  { c with network.family := family }

def withDns (c : Config) (dns : DnsMode) : Config :=
  { c with network.dns := dns }

def withHotspotDelays (c : Config) (debounce followUp : UInt64) : Config :=
  { c with network.hotspotDebounce := debounce, network.hotspotFollowUp := followUp }

def withCallVolume (c : Config) (volume : UInt8) : Config :=
  { c with audio.callVolume := volume }

def withToneCountry (c : Config) (country : String) : Config :=
  { c with audio.toneCountry := country }

def withEventCapacity (c : Config) (capacity : UInt64) : Config :=
  { c with eventCapacity := capacity }

end Config

end Softphone
