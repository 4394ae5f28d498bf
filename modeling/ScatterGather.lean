import ScatterGather.Weight
import ScatterGather.Text.Digit
import ScatterGather.Number.Binary64
import ScatterGather.Number.Shortest
import ScatterGather.Number.Fixed
import ScatterGather.Text.Visible
import ScatterGather.Text.Quoted
import ScatterGather.Datum
import ScatterGather.Json.Lexeme
import ScatterGather.Datum.Document
import ScatterGather.Error
import ScatterGather.Context
import ScatterGather.Toml.Lexeme
import ScatterGather.Toml.Scalar
import ScatterGather.Toml.Table
import ScatterGather.Toml.Document
import ScatterGather.Options
import ScatterGather.Options.Document
import ScatterGather.Connection
import ScatterGather.Route
import ScatterGather.Grouping.Packing
import ScatterGather.Grouping
import ScatterGather.Grouping.Checked
import ScatterGather.Cursor
import ScatterGather.QueryResult
import ScatterGather.Merge
import ScatterGather.Event
import ScatterGather.Metrics
import ScatterGather.Registry
import ScatterGather.Registry.Sweep
import ScatterGather.Pool
import ScatterGather.Pool.Routine
import ScatterGather.Schedule
import ScatterGather.Engine
import ScatterGather.Engine.Gated
import ScatterGather.Backend
import ScatterGather.World
import ScatterGather.UnitRun
import ScatterGather.Session
import ScatterGather.Inspect
import ScatterGather.Proofs.Run
import ScatterGather.Proofs.Engine.History
import ScatterGather.Proofs.Engine.Turn
import ScatterGather.Proofs.Pool.Jobs
import ScatterGather.Proofs.Engine.Share
import ScatterGather.Proofs.Engine.Lane
import ScatterGather.Proofs.Engine.Gathering
import ScatterGather.Proofs.Engine.Scatter
import ScatterGather.Proofs.Engine.Ledger
import ScatterGather.Proofs.Pool.Progress
import ScatterGather.Proofs.Engine.Progress
import ScatterGather.Proofs.Engine.Service
import ScatterGather.Proofs.Engine.Answer
import ScatterGather.Proofs.Session.Merging
import ScatterGather.Proofs.Engine.Returns
import ScatterGather.Proofs.Grouping.Building
import ScatterGather.Proofs.Engine.Effects
import ScatterGather.Proofs.Session.Cursors
import ScatterGather.Proofs.Reading
import ScatterGather.Proofs.Session.Units
import ScatterGather.Proofs.Session.Tending
import ScatterGather.Proofs.Session.Steps
import ScatterGather.Proofs.Session.Sound
import ScatterGather.Proofs.Session.Waiting
import ScatterGather.Proofs.Session.Answering
import ScatterGather.Proofs.Session.Query
import ScatterGather.Proofs.Engine.Missing
import ScatterGather.Proofs.Engine.Rest
import ScatterGather.Proofs.Engine.Abort
import ScatterGather.Proofs.Session.Capping
import ScatterGather.Proofs.Engine.Order
import ScatterGather.Proofs.Grouping.Connecting
import ScatterGather.Proofs.Session.Journal
import ScatterGather.Proofs.Session.Tracking
import ScatterGather.Proofs.Engine.Alone
import ScatterGather.Proofs.Session.Alone
import ScatterGather.Proofs.Engine.Holding
import ScatterGather.Proofs.Session.Releasing
import ScatterGather.Proofs.Session.Exclusion
import ScatterGather.Proofs.Session.Flight
import ScatterGather.Proofs.Registry.Cleanup
import ScatterGather.Proofs.Grouping.Asking
import ScatterGather.Proofs.Session.Refusing
import ScatterGather.Proofs.Session.Sweeping
import ScatterGather.Proofs.Grouping.Sequence
import ScatterGather.Proofs.Session.Failing
import ScatterGather.Proofs.Session.Sharing
import ScatterGather.Proofs.Pool.Tickets
import ScatterGather.Proofs.Pool.Draining
import ScatterGather.Proofs.Registry.Precedence
import ScatterGather.Proofs.Session.Precedence
import ScatterGather.Proofs.Session.Announcing
import ScatterGather.Proofs.Session.Metering
import ScatterGather.Proofs.Session.Receipts
import ScatterGather.Proofs.Session.Accounting
import ScatterGather.Proofs.Pool.Lag
import ScatterGather.Proofs.Grouping.Transcript
import ScatterGather.Proofs.Grouping.Arranging
import ScatterGather.Proofs.Session.Blaming
import ScatterGather.Proofs.Engine.Misplaced
import ScatterGather.Proofs.Registry.Closing
import ScatterGather.Proofs.Buffering
import ScatterGather.Proofs.Registry.Ordering
import ScatterGather.Proofs.Session.Succession
import ScatterGather.Proofs.Session.Viewing
import ScatterGather.Proofs.Consuming
import ScatterGather.Proofs.Session.Totalling
import ScatterGather.Proofs.Session.Headroom
import ScatterGather.Proofs.Decimal
import ScatterGather.Proofs.Grouping.Balancing
