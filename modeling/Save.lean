import Save.Lib.Text
import Save.Lib.Kv
import Save.Lib.Cells
import Save.Lib.Run
import Save.Lib.Runs
import Save.Lib.Files
import Save.Lib.Durable
import Save.Lib.Delivery
import Save.Lib.Calls
import Save.Lib.Percent
import Save.Lib.Readers
import Save.Lib.Catchup
import Save.Common.Validation
import Save.Common.Cluster
import Save.Metadata.Records
import Save.Metadata.Store
import Save.Metadata.Multipart
import Save.Metadata.StateMachine
import Save.Metadata.Refinement
import Save.Metadata.Determinism
import Save.Metadata.Recovery
import Save.Metadata.Snapshot
import Save.Metadata.Cut
import Save.Metadata.Install
import Save.Metadata.Convergence
import Save.Metadata.LogStore
import Save.Metadata.LogState
import Save.Metadata.LogCrashes
import Save.Metadata.Locks
import Save.Metadata.LockManager
import Save.Metadata.Exclusion
import Save.Metadata.LockLeaks
import Save.Metadata.Uploads
import Save.Metadata.Catalog
import Save.Metadata.Rpc
import Save.Metadata.RaftCodec
import Save.Metadata.RaftCalls
import Save.Storage.Objects
import Save.Storage.Atomic
import Save.Storage.PowerFailure
import Save.Storage.ClusterManager
import Save.Storage.Probes
import Save.Storage.TempWrite
import Save.Api.Leader
import Save.Api.Listing
import Save.Api.Buckets
import Save.Api.Integrity
import Save.Api.Objects
import Save.Api.Records
import Save.Api.FailedWrites
import Save.Api.Serving
import Save.Api.NoPhantoms
import Save.Replication.Service
import Save.Replication.Redelivery
import Save.Replication.Coordinator
import Save.Replication.Quorum
import Save.Replication.Streaming
import Save.Replication.Reader
import Save.Replication.Deletes
import Save.Replication.Rollback
import Save.Replication.Interleaving
import Save.Replication.Isolation
import Save.Replication.Calls
import Save.Replication.Remote
import Save.Api.Cluster
import Save.Api.StrongReads
import Save.Api.Auth
import Save.Api.HeaderValues
import Save.Api.Multipart
import Save.Api.PartPaths
import Save.Api.Assembly
import Save.Api.Collector
import Save.Api.Failover
import Save.Api.Payload
import Save.Api.Forward
import Save.Api.Retry
import Save.Api.Routes
import Save.Api.FrontDoor
import Save.Api.Locking
import Save.Metadata.LockProgress
import Save.Api.Signing
import Save.Api.Scaling
import Save.Api.Names
import Save.Replication.Clients
import Save.Metadata.Framing
import Save.Api.Tracking
import Save.Api.Initialize
import Save.Api.Hashing
import Save.Api.HeaderValues
