import LiveGraph.Animation
import LiveGraph.Attribute.Error
import LiveGraph.Attribute.Set
import LiveGraph.Attribute.SlotMap
import LiveGraph.Attribute.Table
import LiveGraph.Bytes
import LiveGraph.CommandLine.Options
import LiveGraph.CommandLine.Run
import LiveGraph.Config
import LiveGraph.Config.Document
import LiveGraph.Console
import LiveGraph.Edit
import LiveGraph.Emitter.Error
import LiveGraph.Emitter.Network
import LiveGraph.Error
import LiveGraph.Event
import LiveGraph.Fault
import LiveGraph.Graph.Basic
import LiveGraph.Graph.Data
import LiveGraph.Graph.Random
import LiveGraph.Json.Basic
import LiveGraph.Json.Reader
import LiveGraph.Kind
import LiveGraph.Layout
import LiveGraph.Lock.Machine
import LiveGraph.Lock.State
import LiveGraph.Main
import LiveGraph.Number.Decimal
import LiveGraph.Number.Double
import LiveGraph.Number.Format
import LiveGraph.Number.Numeral
import LiveGraph.Number.Rounding
import LiveGraph.Number.Single
import LiveGraph.Pool.Machine
import LiveGraph.Proofs.Bytes
import LiveGraph.Proofs.Replica
import LiveGraph.Proofs.Snapshot
import LiveGraph.Pulse
import LiveGraph.Random.Sample
import LiveGraph.Random.Source
import LiveGraph.Record
import LiveGraph.Replica
import LiveGraph.Session.Animation
import LiveGraph.Session.Graph
import LiveGraph.Session.Handles
import LiveGraph.Session.Lock
import LiveGraph.Session.Pool
import LiveGraph.Session.Store
import LiveGraph.Session.Trouble
import LiveGraph.Size
import LiveGraph.Snapshot
import LiveGraph.Store.Basic
import LiveGraph.Store.Changes
import LiveGraph.Store.Flush
import LiveGraph.Text.Blank
import LiveGraph.Text.Extender
import LiveGraph.Text.Quoted
import LiveGraph.Text.Range
import LiveGraph.Text.Unassigned
import LiveGraph.Proofs.Store.Tracking
import LiveGraph.Proofs.Store.Invariant
import LiveGraph.Proofs.Edit
import LiveGraph.Proofs.Store.Flush
import LiveGraph.Proofs.Store.Step
import LiveGraph.Proofs.Store.Convergence
import LiveGraph.Proofs.Graph.Consistency
import LiveGraph.Proofs.Lock.Exclusion
import LiveGraph.Proofs.Lock.Announcement
import LiveGraph.Proofs.Graph.Channel
import LiveGraph.Proofs.Graph.Replication
import LiveGraph.Proofs.Graph.Separation
import LiveGraph.Proofs.Graph.System
import LiveGraph.Proofs.Store.History
import LiveGraph.Proofs.Store.Publication
import LiveGraph.Proofs.Store.Allocation
import LiveGraph.Proofs.Store.Flat
import LiveGraph.Proofs.Store.Safety
import LiveGraph.Proofs.Store.Capacity
import LiveGraph.Proofs.Lock.Cancellation
import LiveGraph.Proofs.Lock.Waiting
import LiveGraph.Proofs.Lock.Bracketing
import LiveGraph.Proofs.Graph.Geometry
import LiveGraph.Proofs.Graph.Placement
import LiveGraph.Proofs.Store.Rebase
import LiveGraph.Proofs.Store.Delivery
import LiveGraph.Proofs.Store.Interchange
import LiveGraph.Proofs.Graph.Change
import LiveGraph.Proofs.Graph.Bookkeeping
import LiveGraph.Proofs.Attribute
import LiveGraph.Proofs.Attribute.Plain
import LiveGraph.Proofs.Graph.Ownership
import LiveGraph.Proofs.Graph.Tenancy
import LiveGraph.Proofs.Animation
import LiveGraph.Proofs.Animation.LifeCycle
import LiveGraph.Proofs.Stage
import LiveGraph.Proofs.Pulse
import LiveGraph.Proofs.Pulse.Highlight
import LiveGraph.Proofs.Pool
import LiveGraph.Proofs.Graph.Atomicity
import LiveGraph.Proofs.Graph.Removal
import LiveGraph.Proofs.Emitter.Route
import LiveGraph.Proofs.Emitter.Growth
import LiveGraph.Proofs.Emitter.Delivery
import LiveGraph.Proofs.Layout.Relaxation
import LiveGraph.Proofs.Layout.Thread
import LiveGraph.Proofs.Layout.Course
import LiveGraph.Proofs.Layout.Sequence
import LiveGraph.Proofs.Layout.Exposure
import LiveGraph.Proofs.Content
import LiveGraph.Proofs.Replica.Patch
import LiveGraph.Proofs.Replica.Malformed
import LiveGraph.Proofs.Console
import LiveGraph.Proofs.Store.Interruption
import LiveGraph.Proofs.Json.Grammar
import LiveGraph.Proofs.Json.Reader
import LiveGraph.Proofs.Config
import LiveGraph.Proofs.Graph.Parts
import LiveGraph.Proofs.Graph.Capacity
import LiveGraph.Proofs.Graph.Random
import LiveGraph.Proofs.Lock.Abort
