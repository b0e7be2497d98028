import Softphone.Host
import Softphone.Network.Hotspot
import Softphone.Network.Resolvers
import Softphone.Network.Snapshot
import Softphone.Timer

/-!
# Mobility

Keeps the engine's addresses, its transport and its name servers in step with the networks of the
platform. Everything that changes only marks that a pass is wanted; a pass then compares what the
engine has with what the platform offers:

1. it brings the name servers up to date,
2. collects the addresses of the networks and of the hotspot,
3. tells the engine the differences, removals first,
4. resets the transport if an address or the active network changed, and follows Wi-Fi with the lock.

The stored snapshot is what the engine really has, so that what failed is tried again.
-/

namespace Softphone

/-- What a pass did. -/
structure PassOutcome where
  added : Nat := 0
  removed : Nat := 0
  failures : Nat := 0
  transportReset : Bool := false
  dnsChanged : Bool := false
  deriving DecidableEq, Repr

/-- What is known of the engine's addresses and of the hotspot, and what is still to be done. -/
structure Mobility where
  settings : NetworkSettings := {}
  running : Bool := false
  snapshot : Snapshot := {}
  resolvers : ResolverList := {}
  hotspotOn : Bool := false
  hotspotAddresses : AddressTable := .empty
  lockHeld : Bool := false
  /-- A pass is wanted. -/
  pending : Bool := false
  /-- Addresses of the engine were changed outside a pass. -/
  dirty : Bool := false
  stats : MobilityStats := {}

namespace Mobility

variable {σ : Type}

/-- Asks for a pass. -/
def request (m : Mobility) : Mobility :=
  { m with
    pending := true
    stats.coalesced := m.stats.coalesced + if m.pending then 1 else 0 }

/-- Takes the wish for a pass; tells whether there was one. -/
def takePending (m : Mobility) : Bool × Mobility := (m.pending, { m with pending := false })

/-- Takes note of a change of a network. A network that is only about to be lost asks for nothing, and
hotspots have operations of their own. -/
def observe (m : Mobility) : NetworkNotification → Mobility
  | .losing _ | .hotspotChanged _ => m
  | .available _ | .lost _ | .capabilitiesChanged _ | .linkPropertiesChanged _ =>
    if m.running then m.request else m

/-! ## Name servers -/

/-- The name servers that the settings ask for. -/
def wantedResolvers (m : Mobility) (p : Platform) : ResolverList :=
  match m.settings.dns with
  | .dynamic => .collect p
  | .static servers => .ofList servers

/-- Brings the name servers up to date; tells whether they changed. While the session runs a given
list stays as it is, and a list that the engine refuses is not kept. -/
def updateResolvers [Engine σ] (m : Mobility) (p : Platform) (w : World σ) :
    Bool × Mobility × World σ :=
  if m.running && !m.settings.dns.isDynamic then (false, m, w)
  else
    let wanted := m.wantedResolvers p
    if wanted = m.resolvers then (false, m, w)
    else if m.running then
      let r := w.setResolvers wanted.endpoints
      if r.1 then (true, { m with resolvers := wanted }, r.2) else (false, m, r.2)
    else (true, { m with resolvers := wanted }, w)

/-! ## The performance lock -/

/-- Gives the lock back if it is held. -/
def dropLock [Connectivity σ] (m : Mobility) (w : World σ) : Mobility × World σ :=
  if m.lockHeld then ({ m with lockHeld := false }, w.releaseLock) else (m, w)

/-- Holds the lock exactly while Wi-Fi is in use. -/
def followWifi [Connectivity σ] (m : Mobility) (wifi : Bool) (w : World σ) :
    Mobility × World σ :=
  if wifi then
    if m.lockHeld then (m, w) else ({ m with lockHeld := true }, w.acquireLock)
  else m.dropLock w

/-! ## Passes -/

/-- Removes addresses from the engine in order; gives those that it would not let go of. -/
def removeAll [Engine σ] : List Address → World σ → List Address × World σ
  | [], w => ([], w)
  | a :: rest, w =>
    let r := w.removeAddress a
    let later := removeAll rest r.2
    (if r.1 then later.1 else a :: later.1, later.2)

/-- Adds addresses to the engine in order; gives those that it would not take. -/
def addAll [Engine σ] : List (Address × String) → World σ → List Address × World σ
  | [], w => ([], w)
  | (a, interface) :: rest, w =>
    let r := w.addAddress a interface
    let later := addAll rest r.2
    (if r.1 then later.1 else a :: later.1, later.2)

/-- The addresses of the hotspot that the engine should have. -/
def hotspotWanted (m : Mobility) : AddressTable :=
  if m.hotspotOn then m.hotspotAddresses.filter fun e => m.settings.family.admits e.1 else .empty

/-- The snapshot that the engine should come to. -/
def wanted (m : Mobility) (p : Platform) : Snapshot :=
  (Snapshot.collect p m.settings.family).merge m.hotspotWanted

/-- What the engine has after a pass: what was wanted, without the addresses it would not take and
with those it would not let go of. -/
def reached (old wanted : AddressTable) (notAdded notRemoved : List Address) : AddressTable :=
  let kept := notAdded.foldl AddressTable.erase wanted
  notRemoved.foldl (fun t a =>
    match old.get? a with
    | some interface => t.insertNew a interface
    | none => t) kept

/-- Whether the network that is active has Wi-Fi. -/
def usesWifi (p : Platform) (active : Option NetworkId) : Bool :=
  ((active.bind p.capabilities).map (·.wifi)).getD false

/-- Runs one pass. The platform is asked for the name servers first, for networks and addresses once the
engine has the name servers, and for the Wi-Fi once the engine has all the rest. -/
def reconcile [Engine σ] [Connectivity σ] (m : Mobility) (w : World σ) :
    PassOutcome × Mobility × World σ :=
  let (dnsChanged, m, w) := m.updateResolvers w.platform w
  let next := m.wanted w.platform
  let diff := SnapshotDiff.between m.snapshot next
  let removals := removeAll diff.removed w
  let additions := addAll diff.added removals.2
  let removed := diff.removed.length - removals.1.length
  let added := diff.added.length - additions.1.length
  let failures := removals.1.length + additions.1.length
  let addresses := reached m.snapshot.addresses next.addresses additions.1 removals.1
  let reset := 0 < added || 0 < removed || next.active ≠ m.snapshot.active || m.dirty
  let w := if reset then additions.2.resetTransport else additions.2
  let stats := { m.stats with
    passes := m.stats.passes + 1
    addressFailures := m.stats.addressFailures + failures
    transportResets := m.stats.transportResets + if reset then 1 else 0 }
  let m := { m with snapshot := ⟨addresses, next.active⟩, dirty := false, stats }
  let (m, w) := m.followWifi (usesWifi w.platform next.active) w
  (⟨added, removed, failures, reset, dnsChanged⟩, m, w)

/-! ## Beginning and end -/

/-- Begins to follow the platform. A hotspot that is on already is looked at, and a given list of name
servers is handed to the engine. -/
def start [Engine σ] [Connectivity σ] (m : Mobility) (w : World σ) : Mobility × World σ :=
  let p := w.platform
  let m := { m with
    running := true
    hotspotOn := p.hotspotEnabled
    hotspotAddresses :=
      if p.hotspotEnabled then Hotspot.discover p.interfaces else m.hotspotAddresses }
  match m.settings.dns with
  | .dynamic => (m, w)
  | .static servers =>
    let list := ResolverList.ofList servers
    let r := w.setResolvers list.endpoints
    (if r.1 then { m with resolvers := list } else m, r.2)

/-- Stops following the platform. -/
def stop [Connectivity σ] (m : Mobility) (w : World σ) : Mobility × World σ :=
  ({ m with running := false, pending := false } : Mobility).dropLock w

/-! ## Hotspots -/

/-- The hotspot was reported on or off. When it comes up its interfaces are looked at after a delay.
When it goes down its addresses are removed at once and a pass is wanted. -/
def onHotspotChanged [Engine σ] (m : Mobility) (enabled : Bool) (timers : Timers)
    (w : World σ) : Mobility × Timers × World σ :=
  if enabled = m.hotspotOn then (m, timers, w)
  else if enabled then
    let timers := timers.cancelKind .hotspotDebounce
    let timers := (timers.scheduleOnce .hotspotDebounce m.settings.hotspotDebounce.toNat).2
    ({ m with hotspotOn := true }, timers, w)
  else
    let timers := (timers.cancelKind .hotspotDebounce).cancelKind .hotspotFollowUp
    let known := m.hotspotAddresses.addresses
    let removals := removeAll known w
    let m := { m with
      hotspotOn := false
      hotspotAddresses := .empty
      snapshot.addresses := known.foldl AddressTable.erase m.snapshot.addresses
      dirty := m.dirty || !known.isEmpty }
    (if m.running then m.request else m, timers, removals.2)

/-- Adds hotspot addresses of the wanted family to the engine, and to what is known of it those that it
takes; tells whether it took any. -/
def addHotspot [Engine σ] (m : Mobility) (found : List (Address × String)) (w : World σ) :
    Bool × Mobility × World σ :=
  match found with
  | [] => (false, m, w)
  | (a, interface) :: rest =>
    let r := w.addAddress a interface
    let m := if r.1 then
      { m with
        snapshot.addresses := m.snapshot.addresses.insert a interface
        hotspotAddresses := m.hotspotAddresses.insert a interface }
      else m
    let later := addHotspot m rest r.2
    (r.1 || later.1, later.2)

/-- The delay after a hotspot came up is over: its addresses are added, and if the engine took any a
pass follows after another delay. -/
def onHotspotDebounce [Engine σ] [Connectivity σ] (m : Mobility) (timers : Timers)
    (w : World σ) : Mobility × Timers × World σ :=
  if !m.hotspotOn then (m, timers, w)
  else
    let found := (Hotspot.discover w.platform.interfaces).entries.filter fun e =>
      m.settings.family.admits e.1
    let (any, m, w) := m.addHotspot found w
    if any then
      ({ m with dirty := true },
        (timers.scheduleOnce .hotspotFollowUp m.settings.hotspotFollowUp.toNat).2, w)
    else (m, timers, w)

end Mobility

end Softphone
