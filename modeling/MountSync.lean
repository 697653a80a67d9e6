import MountSync.Checksum
import MountSync.Record
import MountSync.Conflict
import MountSync.Text.Hex
import MountSync.Text.Printable
import MountSync.Text.Quoted
import MountSync.Failure
import MountSync.Text.Utf8
import MountSync.Frame.Basic
import MountSync.Frame.Word
import MountSync.Frame.Writer
import MountSync.Frame.Reader
import MountSync.Table
import MountSync.Time
import MountSync.Lock
import MountSync.Feed
import MountSync.Scenario.Lock
import MountSync.Scenario.Feed
import MountSync.FileTree.Basic
import MountSync.FileTree.Lookup
import MountSync.Mount.Name
import MountSync.Mount.Basic
import MountSync.Mount.Lookup
import MountSync.Mount.Listing
import MountSync.Mount.Change
import MountSync.Config
import MountSync.Watch.Path
import MountSync.Watch.Settle
import MountSync.Watch.Debounce
import MountSync.Scenario.Machine
import MountSync.Scenario.Mount
import MountSync.Endpoint.Basic
import MountSync.Endpoint.Store
import MountSync.Endpoint.Delete
import MountSync.Endpoint.Fetch
import MountSync.Endpoint.Query
import MountSync.Endpoint.Traffic
import MountSync.Scenario.Endpoint
import MountSync.Server.Message
import MountSync.Server.Basic
import MountSync.Client.Peer
import MountSync.Client.Reply
import MountSync.Client.Basic
import MountSync.Sync.Report
import MountSync.Sync.Pass
import MountSync.Sync.Loop
import MountSync.Scenario.Client
import MountSync.Scenario.Cluster
import MountSync.Proofs.Lock
import MountSync.Proofs.Traffic.Stride
import MountSync.Proofs.Traffic.Step
import MountSync.Proofs.Traffic.Run
import MountSync.Proofs.Traffic.Ownership
import MountSync.Proofs.Mount
import MountSync.Proofs.Traffic.Protection
import MountSync.Proofs.Traffic.Orderly
import MountSync.Proofs.Traffic.Failure
import MountSync.Proofs.Traffic.Replacement
import MountSync.Proofs.Traffic.OpenFile
import MountSync.Proofs.Traffic.Delivery
import MountSync.Proofs.Checksum
import MountSync.Proofs.Frame.RoundTrip
import MountSync.Proofs.Mount.Change
import MountSync.Proofs.Endpoint.Store
import MountSync.Proofs.Endpoint.Fetch
import MountSync.Proofs.Endpoint.Turn
import MountSync.Proofs.Server.Answer
import MountSync.Proofs.Client.Passing
import MountSync.Proofs.Mount.Listing
import MountSync.Proofs.Cluster.Shared
import MountSync.Proofs.Cluster.Transfer
import MountSync.Proofs.Cluster.Calm
import MountSync.Proofs.Cluster.RoundTrip
import MountSync.Proofs.Sync.Pass
import MountSync.Proofs.Cluster.Mirror
import MountSync.Proofs.Endpoint.Manifest
import MountSync.Proofs.Cluster.Entry
import MountSync.Proofs.Cluster.Round
import MountSync.Proofs.Cluster.Settled
import MountSync.Proofs.Cluster.Rivals
import MountSync.Proofs.Cluster.Update
import MountSync.Proofs.Endpoint.Alone
import MountSync.Proofs.Endpoint.Disposal
import MountSync.Proofs.Server.Late
import MountSync.Proofs.Traffic.Sent
import MountSync.Proofs.Server.Shape
import MountSync.Proofs.Server.Kind
import MountSync.Proofs.Client.Understood
import MountSync.Proofs.Cluster.Understood
import MountSync.Proofs.Sync.Loop
import MountSync.Proofs.Endpoint.Refusal
import MountSync.Proofs.Server.Unlocked
import MountSync.Proofs.Client.Exhausted
import MountSync.Proofs.Cluster.Unlocked
import MountSync.Proofs.Lock.History
import MountSync.Proofs.Endpoint.Tidy
import MountSync.Proofs.Cluster.Removal
import MountSync.Proofs.Endpoint.Confined
import MountSync.Proofs.Endpoint.Twin
import MountSync.Proofs.Endpoint.Restamped
import MountSync.Proofs.Endpoint.Apart
import MountSync.Proofs.Endpoint.Ending
import MountSync.Proofs.Endpoint.Account
import MountSync.Proofs.Endpoint.Whole
import MountSync.Proofs.Endpoint.Cutting
import MountSync.Proofs.Server.Stream
import MountSync.Proofs.Client.Whole
import MountSync.Proofs.Endpoint.Removal
import MountSync.Proofs.Conflict
import MountSync.Proofs.Endpoint.Streamed
import MountSync.Proofs.Cluster.Planned
import MountSync.Proofs.Sync.Bookings
import MountSync.Proofs.Text
import MountSync.Proofs.Mount.Enumeration
import MountSync.Proofs.Feed
import MountSync.Proofs.Watch.Debounce
import MountSync.Proofs.Frame.Locality
import MountSync.Proofs.Lock.Balance
import MountSync.Proofs.Endpoint.Checksum
