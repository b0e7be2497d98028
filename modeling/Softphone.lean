import Softphone.Account
import Softphone.Address
import Softphone.Address.Json
import Softphone.Address.Printer
import Softphone.Address.Reader
import Softphone.Address.Table
import Softphone.Audio.Player
import Softphone.Audio.Router
import Softphone.Audio.Sound
import Softphone.Audio.Volume
import Softphone.Bench
import Softphone.Bench.Audio
import Softphone.Bench.Exchange
import Softphone.Bench.Networks
import Softphone.Broadcast
import Softphone.Call
import Softphone.CallBook
import Softphone.CallId
import Softphone.Config
import Softphone.Coordinator
import Softphone.Coordinator.Client
import Softphone.Double
import Softphone.Effect
import Softphone.Effect.Log
import Softphone.Event
import Softphone.Handle
import Softphone.Host
import Softphone.Json
import Softphone.Json.Decode
import Softphone.Json.Holdable
import Softphone.Json.Numeral
import Softphone.Json.Printer
import Softphone.Json.Reader
import Softphone.Logging
import Softphone.Mailbox
import Softphone.Network.Hotspot
import Softphone.Network.Link
import Softphone.Network.Mobility
import Softphone.Network.Resolvers
import Softphone.Network.Snapshot
import Softphone.Registration
import Softphone.Registry
import Softphone.Reply
import Softphone.Session
import Softphone.Session.Actions
import Softphone.Session.Control
import Softphone.Session.Input
import Softphone.Session.Registering
import Softphone.Session.Turn
import Softphone.SessionError
import Softphone.Signal
import Softphone.Signal.Printer
import Softphone.Target
import Softphone.Text
import Softphone.Timer
import Softphone.Timestamp
import Softphone.Timestamp.Reader
import Softphone.Proofs.Address.Table
import Softphone.Proofs.Network.Pass
import Softphone.Proofs.Network.Bound
import Softphone.Proofs.Network.Mirror
import Softphone.Proofs.Network.Convergence
import Softphone.Proofs.Network.Difference
import Softphone.Proofs.Network.Collected
import Softphone.Proofs.Network.Discovered
import Softphone.Proofs.Network.Preference
import Softphone.Proofs.Network.Steady
import Softphone.Proofs.Calls.Closing
import Softphone.Proofs.Audio.Playing
import Softphone.Proofs.Coordinator.Run
import Softphone.Proofs.Session.Actions
import Softphone.Proofs.Session.Lingering
import Softphone.Proofs.Coordinator.Lingering
import Softphone.Proofs.Calls.Dialled
import Softphone.Proofs.Session.Dialling
import Softphone.Proofs.Calls.Live
import Softphone.Proofs.Calls.Course
import Softphone.Proofs.Network.Effects
import Softphone.Proofs.Timers.Numbered
import Softphone.Proofs.Session.Spares
import Softphone.Proofs.Session.Told
import Softphone.Proofs.Coordinator.Told
import Softphone.Proofs.Network.Unreset
import Softphone.Proofs.Session.Resetting
import Softphone.Proofs.Coordinator.Resetting
import Softphone.Proofs.Network.Requests
import Softphone.Proofs.Session.Passes
import Softphone.Proofs.Coordinator.Passes
import Softphone.Proofs.Coordinator.Agents
import Softphone.Proofs.Calls.Releasing
import Softphone.Proofs.Session.Performed
import Softphone.Proofs.Coordinator.Releasing
import Softphone.Proofs.Audio.Volumes
import Softphone.Proofs.Network.Steps
import Softphone.Proofs.Coordinator.Volumes
import Softphone.Proofs.Timers.Course
import Softphone.Proofs.Calls.Callers
import Softphone.Proofs.Calls.History
import Softphone.Proofs.Calls.Missed
import Softphone.Proofs.Audio.Ringing
import Softphone.Proofs.Audio.Routing
import Softphone.Proofs.Audio.Moves
import Softphone.Proofs.Audio.Standing
import Softphone.Proofs.Audio.Coupling
import Softphone.Proofs.Audio.Toggling
import Softphone.Proofs.Audio.Truthful
import Softphone.Proofs.Session.Audible
import Softphone.Proofs.Session.Quiet
import Softphone.Proofs.Session.Ringing
import Softphone.Proofs.Session.Routing
import Softphone.Proofs.Coordinator.Ringing
import Softphone.Proofs.Coordinator.Answers
import Softphone.Proofs.Since
import Softphone.Proofs.Calls.Lifecycle
import Softphone.Proofs.Calls.OneClosed
import Softphone.Proofs.Calls.Announced
import Softphone.Proofs.Calls.Setup
import Softphone.Proofs.Session.Ringback
import Softphone.Proofs.Coordinator.Ringback
import Softphone.Proofs.Network.Hotspot
import Softphone.Proofs.Network.Justified
import Softphone.Proofs.Session.Networks
import Softphone.Proofs.Coordinator.Dealt
import Softphone.Proofs.Session.Early
import Softphone.Proofs.Coordinator.Early
import Softphone.Proofs.Session.Hotspot
import Softphone.Proofs.Coordinator.Hotspot
import Softphone.Proofs.Session.Debounce
import Softphone.Proofs.Coordinator.Debounce
import Softphone.Proofs.Network.Held
import Softphone.Proofs.Session.Held
import Softphone.Proofs.Coordinator.Held
import Softphone.Proofs.Network.Resolvers
import Softphone.Proofs.Session.Resolvers
import Softphone.Proofs.Coordinator.Resolvers
import Softphone.Proofs.Network.Lock
import Softphone.Proofs.Session.Lock
import Softphone.Proofs.Coordinator.Lock
import Softphone.Proofs.Session.Teardown
import Softphone.Proofs.Session.Digits
import Softphone.Proofs.Coordinator.Teardown
import Softphone.Proofs.Calls.Apart
import Softphone.Proofs.Audio.Sounding
import Softphone.Proofs.Network.Eligible
import Softphone.Proofs.Session.Eligible
import Softphone.Proofs.Coordinator.Acts
import Softphone.Proofs.Coordinator.Eligible
import Softphone.Proofs.Audio.Device
import Softphone.Proofs.Calls.Owners
import Softphone.Proofs.Session.Owners
import Softphone.Proofs.Session.Principals
import Softphone.Proofs.Coordinator.Stale
import Softphone.Proofs.Coordinator.Recovery
import Softphone.Proofs.Calls.Operations
import Softphone.Proofs.Text.Digits
import Softphone.Proofs.Timestamp.Calendar
import Softphone.Proofs.Timestamp.Written
import Softphone.Proofs.Address.Written
import Softphone.Proofs.Json.Written
import Softphone.Proofs.Json.Decode
import Softphone.Proofs.Config
import Softphone.Proofs.Event
import Softphone.Proofs.Network.Answers
import Softphone.Proofs.Text.Fields
import Softphone.Proofs.Signal
import Softphone.Proofs.Coordinator.Raised
import Softphone.Proofs.Network.Retried
import Softphone.Proofs.Session.Retried
import Softphone.Proofs.Coordinator.Retried
import Softphone.Proofs.Target
import Softphone.Proofs.Account
