import SyncCascade.Broker.Call
import SyncCascade.Broker.LaneState
import SyncCascade.Broker.Memory
import SyncCascade.Broker.Rehearsal
import SyncCascade.Chunk
import SyncCascade.Clock
import SyncCascade.Closure
import SyncCascade.Config
import SyncCascade.ConfigJson
import SyncCascade.Console
import SyncCascade.Failure
import SyncCascade.Hex
import SyncCascade.Http.Body
import SyncCascade.Http.Handler
import SyncCascade.Http.MediaType
import SyncCascade.Http.Message
import SyncCascade.Http.Percent
import SyncCascade.Http.Route
import SyncCascade.Identifier
import SyncCascade.Job
import SyncCascade.JobJson
import SyncCascade.Journal
import SyncCascade.Json
import SyncCascade.Json.Decoder
import SyncCascade.Json.Magnitude
import SyncCascade.Json.Node
import SyncCascade.Json.Writer
import SyncCascade.Main
import SyncCascade.Metrics
import SyncCascade.Neighbours
import SyncCascade.Numeral
import SyncCascade.Postgres.Client
import SyncCascade.Postgres.Playback
import SyncCascade.Postgres.Record
import SyncCascade.Postgres.Schema
import SyncCascade.Postgres.Statement
import SyncCascade.Postgres.Value
import SyncCascade.Proofs.Broker.Conservation
import SyncCascade.Proofs.Broker.History
import SyncCascade.Proofs.Broker.Lane
import SyncCascade.Proofs.Table
import SyncCascade.Queue
import SyncCascade.Redis.Client
import SyncCascade.Redis.Playback
import SyncCascade.Redis.Reply
import SyncCascade.Redis.Script
import SyncCascade.Rerun
import SyncCascade.Row
import SyncCascade.RowJson
import SyncCascade.Service
import SyncCascade.Settings
import SyncCascade.Sha256
import SyncCascade.SocketAddress
import SyncCascade.Status
import SyncCascade.Store.Call
import SyncCascade.Store.Database
import SyncCascade.Store.Rehearsal
import SyncCascade.Store.Session
import SyncCascade.Store.Storage
import SyncCascade.Table
import SyncCascade.Timespan
import SyncCascade.Timestamp
import SyncCascade.Timestamp.Rfc3339
import SyncCascade.Transaction
import SyncCascade.Uuid
import SyncCascade.Word
import SyncCascade.Worker
import SyncCascade.Worker.Crew
import SyncCascade.World
import SyncCascade.Proofs.Action
import SyncCascade.Proofs.Closure
import SyncCascade.Proofs.Mirror
import SyncCascade.Proofs.Store.Audit
import SyncCascade.Proofs.Transaction
import SyncCascade.Proofs.SyncHistory
import SyncCascade.Proofs.Broker.Publish
import SyncCascade.Proofs.Identifier
import SyncCascade.Proofs.Store.Session
import SyncCascade.Proofs.Cascade.Step
import SyncCascade.Proofs.Store.Readiness
import SyncCascade.Proofs.Cascade.Coverage
import SyncCascade.Proofs.Store.Progress
import SyncCascade.Proofs.Store.Outcome
import SyncCascade.Proofs.Batch
import SyncCascade.Proofs.Cascade.OrderIndependence
import SyncCascade.Proofs.Broker.Tokens
import SyncCascade.Proofs.Broker.Contention
import SyncCascade.Proofs.Rerun.Trimming
import SyncCascade.Proofs.Store.Keys
import SyncCascade.Proofs.Rerun.Attempt
import SyncCascade.Proofs.Rerun.Classification
import SyncCascade.Proofs.Rerun.Effect
import SyncCascade.Proofs.Broker.Exchanges
import SyncCascade.Proofs.Engine
import SyncCascade.Proofs.Redelivery
import SyncCascade.Proofs.Transaction.Attempts
import SyncCascade.Proofs.Transaction.Work
import SyncCascade.Proofs.Reachable
import SyncCascade.Proofs.Store.Completion
import SyncCascade.Proofs.Completion
import SyncCascade.Proofs.Rerun.FollowUp
import SyncCascade.Proofs.Rerun.Counting
import SyncCascade.Proofs.Rerun.Pairing
import SyncCascade.Proofs.Store.References
import SyncCascade.Proofs.Rerun.Resolution
import SyncCascade.Proofs.Trace
import SyncCascade.Proofs.Store.Rows
import SyncCascade.Proofs.Store.Integrity
import SyncCascade.Proofs.Store.Ledger
import SyncCascade.Proofs.Rerun.Chains
import SyncCascade.Proofs.Rerun.Lineage
import SyncCascade.Proofs.Rerun.Calls
import SyncCascade.Proofs.Rerun.Order
import SyncCascade.Proofs.Rerun.Reopening
import SyncCascade.Proofs.Rerun.Archiving
import SyncCascade.Proofs.Broker.Budget
import SyncCascade.Proofs.Http.ClientErrors
import SyncCascade.Proofs.Json.Number
import SyncCascade.Proofs.Json.Text
import SyncCascade.Proofs.Payload
import SyncCascade.Proofs.Worker.Settling
import SyncCascade.Proofs.Worker.Life
import SyncCascade.Proofs.Broker.Pending
import SyncCascade.Proofs.Cascade.Changesets
import SyncCascade.Proofs.Store.Disturbed
import SyncCascade.Proofs.Store.Undated
import SyncCascade.Proofs.Delivery
import SyncCascade.Proofs.Transaction.Retrying
import SyncCascade.Proofs.Worker.Turn
import SyncCascade.Proofs.Cascade.Forwarding
import SyncCascade.Proofs.Cascade.Draining
import SyncCascade.Proofs.Store.Batching
import SyncCascade.Proofs.Cascade.Batching
import SyncCascade.Proofs.Metrics
import SyncCascade.Proofs.Broker.Talks
import SyncCascade.Proofs.Broker.Offers
import SyncCascade.Proofs.Broker.Waiting
import SyncCascade.Proofs.Broker.Resubmission
import SyncCascade.Proofs.Broker.Coalescing
import SyncCascade.Proofs.ByteOrder
import SyncCascade.Proofs.Partition
import SyncCascade.Proofs.Broker.ClaimOrder
import SyncCascade.Proofs.Broker.Stalling
import SyncCascade.Proofs.Histogram
import SyncCascade.Proofs.Worker.Runs
import SyncCascade.Proofs.Worker.Accounts
import SyncCascade.Proofs.Store.Edits
import SyncCascade.Proofs.Store.Insertion
import SyncCascade.Proofs.Store.UnitOfWork
import SyncCascade.Proofs.Spelling
import SyncCascade.Proofs.Members
import SyncCascade.Proofs.Http.Spelling
import SyncCascade.Proofs.Handling
import SyncCascade.Proofs.Postgres.Layout
import SyncCascade.Proofs.Store.Scans
import SyncCascade.Proofs.Encoding
import SyncCascade.Proofs.Redis.Deadline
import SyncCascade.Proofs.Redis.Survival
