import Vannak.Foundation.Bytes
import Vannak.Foundation.OrderedMap
import Vannak.Foundation.Codec
import Vannak.Foundation.Run
import Vannak.Foundation.Sweep
import Vannak.Foundation.Limited
import Vannak.Foundation.Decimal
import Vannak.Foundation.Joined
import Vannak.Foundation.Leading
import Vannak.Identity
import Vannak.Storage.Segment
import Vannak.Storage.Reading
import Vannak.Storage.Format
import Vannak.Storage.FailedAppend
import Vannak.Ingest.Event
import Vannak.Ingest.Codec
import Vannak.Ingest.Journal
import Vannak.Data
import Vannak.Provenance
import Vannak.Ipto.Payload
import Vannak.Ipto.Outbox
import Vannak.Ipto.Ledger
import Vannak.Ipto.Durable
import Vannak.Cluster.Placement
import Vannak.Cluster.Control
import Vannak.Cluster.Invariant
import Vannak.Cluster.Leases
import Vannak.Cluster.Fallback
import Vannak.Cluster.Snapshot
import Vannak.Cluster.Restore
import Vannak.Cluster.Replica
import Vannak.Daemon.PlacementChange
import Vannak.Process.Timestamp
import Vannak.Process.Instance
import Vannak.Process.HotIndex
import Vannak.Process.Chronology
import Vannak.Process.Duplicates
import Vannak.Process.Queries
import Vannak.Runtime.Sitas
import Vannak.Service.ProcessEvents
import Vannak.Service.Restart
import Vannak.Service.LocalIndex
import Vannak.Service.DurableAppends
import Vannak.Service.CrashRecovery
import Vannak.Service.Capture
import Vannak.Ipto.Checkpoint
import Vannak.Ipto.CheckpointRecovery
import Vannak.Ipto.Draining
import Vannak.Ipto.Rebalance
import Vannak.Ipto.RepoWriter
import Vannak.Service.Delivery
import Vannak.Daemon.BackgroundWriter
import Vannak.Daemon.CommittedCheckpoints
import Vannak.Daemon.StrandedWrites
import Vannak.Daemon.Rebalance
import Vannak.Daemon.RebalanceMonitor
import Vannak.Kafka.Durga
import Vannak.Kafka.Consumer
import Vannak.Kafka.Commits
import Vannak.Kafka.Revocation
import Vannak.Kafka.Backpressure
import Vannak.Runtime.ShardLocal
import Vannak.Runtime.Refinement
import Vannak.Runtime.Deduplication
import Vannak.Service.CaptureGate
import Vannak.Foundation.Attempts
import Vannak.Daemon.Bootstrap
import Vannak.Foundation.Json
import Vannak.Daemon.QueryWire
import Vannak.Daemon.PeerRequests
import Vannak.Foundation.History
import Vannak.Ipto.Queue
import Vannak.Ipto.OutboxHistory
import Vannak.Foundation.Trials
import Vannak.Ipto.TargetDrain
import Vannak.Foundation.Sorting
import Vannak.Foundation.Clockwise
import Vannak.Cluster.Resolution
import Vannak.Foundation.Records
import Vannak.Process.Reducer
import Vannak.Process.Scans
import Vannak.Process.Impact
import Vannak.Foundation.Earliest
import Vannak.Runtime.TimeRange
import Vannak.Runtime.Fanout
import Vannak.Foundation.Tally
import Vannak.Runtime.Totals
import Vannak.Runtime.BoundedIngest
import Vannak.Daemon.ClusterAnswers
import Vannak.Foundation.Slices
import Vannak.Daemon.MalformedAnswers
import Vannak.Foundation.Overflow
import Vannak.Process.CivilDays
import Vannak.Process.TimestampBounds
import Vannak.Process.EpochMillis
import Vannak.Foundation.Fnv
import Vannak.Storage.Corruption
import Vannak.Daemon.SegmentDiscovery
import Vannak.Foundation.Grouping
import Vannak.Service.ProvenanceScans
import Vannak.Process.CivilCalendar
import Vannak.Service.CorrelationKeys
import Vannak.Service.ReportedTargets
import Vannak.Foundation.Lines
import Vannak.Foundation.JsonFields
import Vannak.Daemon.Http
import Vannak.Service.VannakService
import Vannak.Daemon.QueryAnswers
import Vannak.Daemon.IngestRequests
import Vannak.Daemon.MetadataRequests
import Vannak.Daemon.Health
import Vannak.Daemon.Serving
import Vannak.Daemon.Answers
import Vannak.Daemon.PostedEvents
import Vannak.Daemon.PostedMetadata
import Vannak.Daemon.ClusterQueries
import Vannak.Cluster.RaftPlane
import Vannak.Runtime.MailboxWorkers
import Vannak.Runtime.MailboxRuns
import Vannak.Daemon.CommandLine
import Vannak.Ipto.RepositoryDelivery
