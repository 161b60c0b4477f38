import SnapshotEndpoint.Binary64
import SnapshotEndpoint.Binary64.Decimal
import SnapshotEndpoint.Binary64.Shortest
import SnapshotEndpoint.Command.Line
import SnapshotEndpoint.Command.Query
import SnapshotEndpoint.Command.Similarity
import SnapshotEndpoint.Command.Url
import SnapshotEndpoint.Command.Usage
import SnapshotEndpoint.Config
import SnapshotEndpoint.Config.Load
import SnapshotEndpoint.Config.Overrides
import SnapshotEndpoint.Config.Report
import SnapshotEndpoint.Config.Schema
import SnapshotEndpoint.Config.Violation
import SnapshotEndpoint.Http.Listing
import SnapshotEndpoint.Http.Provider
import SnapshotEndpoint.Http.RouteTable
import SnapshotEndpoint.Http.Router
import SnapshotEndpoint.Http.Session
import SnapshotEndpoint.Http.Status
import SnapshotEndpoint.Http.Uri
import SnapshotEndpoint.Json
import SnapshotEndpoint.Json.Decode
import SnapshotEndpoint.Json.Numeral
import SnapshotEndpoint.Json.Tree
import SnapshotEndpoint.Main
import SnapshotEndpoint.Proofs.Backoff.Delays
import SnapshotEndpoint.Proofs.Backoff.Growth
import SnapshotEndpoint.Proofs.Binary64.Order
import SnapshotEndpoint.Proofs.Binary64.Rounding
import SnapshotEndpoint.Proofs.Config.Accepted
import SnapshotEndpoint.Proofs.Config.Loaded
import SnapshotEndpoint.Proofs.Http.Addressing
import SnapshotEndpoint.Proofs.Http.Answers
import SnapshotEndpoint.Proofs.Http.Confinement
import SnapshotEndpoint.Proofs.Http.Mounting
import SnapshotEndpoint.Proofs.Http.Publication
import SnapshotEndpoint.Proofs.Http.Registration
import SnapshotEndpoint.Proofs.Http.Runs
import SnapshotEndpoint.Proofs.Http.Tallies
import SnapshotEndpoint.Proofs.Json.Compact
import SnapshotEndpoint.Proofs.Json.Fitting
import SnapshotEndpoint.Proofs.Json.Quoted
import SnapshotEndpoint.Proofs.Json.Spelling
import SnapshotEndpoint.Proofs.Restart.Accounting
import SnapshotEndpoint.Proofs.Restart.Attempts
import SnapshotEndpoint.Proofs.Restart.Binding
import SnapshotEndpoint.Proofs.Restart.Panic
import SnapshotEndpoint.Proofs.Restart.Schedule
import SnapshotEndpoint.Proofs.Retry.Endings
import SnapshotEndpoint.Proofs.Retry.Interruption
import SnapshotEndpoint.Proofs.Retry.Pacing
import SnapshotEndpoint.Proofs.Retry.Promptness
import SnapshotEndpoint.Proofs.Retry.Rounds
import SnapshotEndpoint.Service.Backoff
import SnapshotEndpoint.Service.Duration
import SnapshotEndpoint.Service.Endpoint
import SnapshotEndpoint.Service.Event
import SnapshotEndpoint.Service.Listener
import SnapshotEndpoint.Service.LogFilter
import SnapshotEndpoint.Service.LogLine
import SnapshotEndpoint.Service.Metrics
import SnapshotEndpoint.Service.Program
import SnapshotEndpoint.Service.Restart
import SnapshotEndpoint.Service.Retry
import SnapshotEndpoint.Service.Server
import SnapshotEndpoint.Service.Shutdown
import SnapshotEndpoint.Snapshot.Inventory
import SnapshotEndpoint.Snapshot.Pods
import SnapshotEndpoint.Snapshot.Settings
import SnapshotEndpoint.Snapshot.SharedCell
import SnapshotEndpoint.Snapshot.Wire
import SnapshotEndpoint.SocketAddress
import SnapshotEndpoint.SortedMap
import SnapshotEndpoint.Text.Blank
import SnapshotEndpoint.Text.Printable
import SnapshotEndpoint.Text.Quoted
import SnapshotEndpoint.Toml.Document
import SnapshotEndpoint.Toml.Quotation
import SnapshotEndpoint.Toml.Scalar
import SnapshotEndpoint.Toml.Statement
import SnapshotEndpoint.Toml.Value
import SnapshotEndpoint.Word
import SnapshotEndpoint.Proofs.Backoff.Settings
import SnapshotEndpoint.Proofs.Except
import SnapshotEndpoint.Proofs.Json.Reading
import SnapshotEndpoint.Proofs.Snapshot.RoundTrip
import SnapshotEndpoint.Proofs.Json.Grammar
import SnapshotEndpoint.Proofs.Json.Rewriting
import SnapshotEndpoint.Proofs.Snapshot.Presentation
import SnapshotEndpoint.Proofs.Toml.Keys
import SnapshotEndpoint.Proofs.Config.Described
import SnapshotEndpoint.Proofs.Config.Loading
import SnapshotEndpoint.Proofs.Shutdown.Delivery
import SnapshotEndpoint.Service.Reception
import SnapshotEndpoint.Proofs.Listener.Permits
import SnapshotEndpoint.Proofs.Listener.GivenUp
import SnapshotEndpoint.Proofs.Listener.Serving
import SnapshotEndpoint.Snapshot.CellHeap
import SnapshotEndpoint.Proofs.Snapshot.CellMemory
import SnapshotEndpoint.Proofs.Snapshot.Sharing
import SnapshotEndpoint.Proofs.Json.Indented
import SnapshotEndpoint.Proofs.Json.Arranged
import SnapshotEndpoint.Proofs.Command.Showing
import SnapshotEndpoint.Proofs.Text.Blank
import SnapshotEndpoint.Proofs.Config.Overriding
import SnapshotEndpoint.Proofs.SortedMap
import SnapshotEndpoint.Proofs.Snapshot.Counting
import SnapshotEndpoint.Proofs.Backoff.Histories
import SnapshotEndpoint.Proofs.Backoff.Jitter
import SnapshotEndpoint.Proofs.Binary64.Whole
import SnapshotEndpoint.Proofs.Backoff.Powers
import SnapshotEndpoint.Proofs.Backoff.Independence
import SnapshotEndpoint.Proofs.Text.ByteOrder
import SnapshotEndpoint.Proofs.Text.Digits
import SnapshotEndpoint.Proofs.Snapshot.Items
import SnapshotEndpoint.Proofs.Snapshot.Resolving
import SnapshotEndpoint.Proofs.Snapshot.Declared
import SnapshotEndpoint.Proofs.Snapshot.Rendering
import SnapshotEndpoint.Proofs.Address.Spelling
import SnapshotEndpoint.Proofs.Address.Reading
import SnapshotEndpoint.Proofs.Address.Canonical
import SnapshotEndpoint.Proofs.Address.Agreement
