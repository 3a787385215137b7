import Save.Replication.Redelivery

/-!
# The coordinator of replicated operations

`ReplicatedBackend` (`replicated_backend.rs`) and `ReplicationCoordinator`
(`replication/coordinator.rs`) over the participants of a cluster. A write streams
the local temp file to the selected nodes, counts the quorum over the acknowledged
prepares, renames the local file and tells the prepared nodes to commit; a read
takes the local file or any node's; a delete goes to the local node and then to all.
Every node is given the same data path, as paths are local to a node. What the
network, the clocks and the membership do to one operation is a value (`Faults`,
`ReadFaults`, `DeleteFaults`) that the functions read.
-/

namespace Save.Replication
set_option autoImplicit false
open Save.Text Save.Kv Save.Common Save.Files Save.Storage

variable [Sha256] {s : ObjectStorage}

structure QuorumConfig where
  replicationFactor : Nat
  writeQuorum : Nat
  readQuorum : Nat
  deriving DecidableEq, Repr

def QuorumConfig.withReplicationFactor (n : Nat) : QuorumConfig := ⟨n, n / 2 + 1, 1⟩

/-- What becomes of the one streamed prepare of a node. -/
inductive Delivery where
  | lost
  /-- It takes effect, but its answer does not arrive. -/
  | unanswered
  | answered
  deriving DecidableEq, Repr

/-- What one node and the connection to it do during a write. -/
structure Participant where
  healthy : Bool
  /-- The node is in the clients map when the prepares are sent. -/
  connected : Bool
  /-- The sizes of the reads, less one, that cut the streamed file into chunks. -/
  reads : List Nat
  prepare : Delivery
  preparedAt : Nat
  /-- The runs of the stale-prepare cleanup between the phases: time and maximal age. -/
  cleanups : List (Nat × Nat)
  /-- The node is in the clients map when the commits or aborts are sent. -/
  reachable : Bool
  /-- How often the commit is delivered. -/
  commits : Nat
  /-- The rename of the commit succeeds, if there is a file. -/
  renames : Bool
  /-- The abort arrives. -/
  aborts : Bool

/-- What happens during one replicated write. -/
structure Faults where
  requestId : Nat
  /-- The clients map when the replicas are selected, in its iteration order. -/
  clients : List Nat
  participants : Nat → Participant
  /-- The local rename succeeds, if there is a file. -/
  localRenames : Bool

/-- The data of a file as reads of these sizes return it. -/
def cut : List Nat → Bytes → List Bytes
  | [], data => if data = [] then [] else [data]
  | n :: ns, data => if data = [] then [] else data.take (n + 1) :: cut ns (data.drop (n + 1))

/-- The chunks of a streamed prepare: the key and the request number in the first chunk of
the file, the checksum in a marker behind the last. -/
def streamChunks (key : String) (requestId : Nat) (checksum : String) (pieces : List Bytes) :
    List PrepareChunk :=
  (match pieces with
    | [] => []
    | p :: ps => ⟨key, requestId, p, false, ""⟩ :: ps.map fun p => ⟨"", 0, p, false, ""⟩) ++
    [⟨"", 0, [], true, checksum⟩]

/-- `select_replica_nodes`. -/
def selectReplicaNodes (faults : Faults) (count : Nat) : List Nat :=
  (faults.clients.filter fun i => (faults.participants i).healthy).take (count - 1)

/-- `stream_prepare_object` of the client: the node's state and, for a node in the clients
map, the result. -/
def streamPrepare (e : Participant) (key : String) (requestId : Nat) (data : Bytes)
    (checksum : String) (svc : Service s) : Service s × Option (Except StorageError String) :=
  if e.connected then
    let run := streamPrepareObject svc e.preparedAt
      (streamChunks key requestId checksum (cut e.reads data))
    match e.prepare with
    | .lost => (svc, some (.error (.io "transport error")))
    | .unanswered => (run.1, some (.error (.io "transport error")))
    | .answered =>
      (run.1, some (if run.2.success then .ok run.2.tempId else .error (.io run.2.errorMessage)))
  else (svc, none)

/-- The temp id of an acknowledged prepare. -/
def acknowledged : Option (Except StorageError String) → Option String
  | some (.ok t) => some t
  | _ => none

def runCleanups (svc : Service s) (cleanups : List (Nat × Nat)) : Service s :=
  cleanups.foldl (fun svc run => (cleanupStalePrepares svc run.1 run.2).1) svc

/-- The commit of a prepared node, delivered as often as it is. -/
def commitPrepared (e : Participant) (t : String) (svc : Service s) : Service s :=
  if e.reachable then
    match e.commits with
    | 0 => svc
    | again + 1 => if e.renames then (commits svc t again).1 else (abortObject svc t).1
  else svc

def abortPrepared (e : Participant) (t : String) (svc : Service s) : Service s :=
  if e.reachable && e.aborts then (abortObject svc t).1 else svc

/-- The first phase: each node's state before the second, and the temp ids of the nodes
that acknowledged. -/
structure Prepared (s : ObjectStorage) where
  services : Nat → Service s
  tempIds : List (Nat × String)

def prepareAll (config : QuorumConfig) (faults : Faults) (key : String) (data : Bytes)
    (checksum : String) (services : Nat → Service s) : Prepared s :=
  let nodes := selectReplicaNodes faults config.replicationFactor
  let result := fun i =>
    streamPrepare (faults.participants i) key faults.requestId data checksum (services i)
  { services := fun i =>
      runCleanups (if i ∈ nodes then (result i).1 else services i) (faults.participants i).cleanups
    tempIds := nodes.filterMap fun i => (acknowledged (result i).2).map (Prod.mk i) }

/-- The services after the second phase: `f` on each prepared node. -/
def Prepared.finish (p : Prepared s) (f : Nat → String → Service s → Service s) :
    Nat → Service s :=
  fun i => match p.tempIds.lookup i with
    | none => p.services i
    | some t => f i t (p.services i)

/-- `commit_object` of the backend, for a local temp file of the key; the local node is
`localId`. -/
def commitReplicated (config : QuorumConfig) (localId : Nat) (faults : Faults) (key : String)
    (services : Nat → Service s) : (Nat → Service s) × Except StorageError Unit :=
  match (services localId).fs.read (s.tempOf key) with
  | none => (services, .error noSuchFile)
  | some data =>
    let prepared := prepareAll config faults key data (Sha256.digest data) services
    let aborted := prepared.finish fun i t svc => abortPrepared (faults.participants i) t svc
    let successCount := 1 + prepared.tempIds.length
    let here := prepared.services localId
    -- a temp object that is not committed removes its file
    let dropped := Function.update aborted localId { here with fs := here.fs.unlink (s.tempOf key) }
    if successCount < config.writeQuorum then
      (dropped, .error (.quorumNotAchieved successCount config.writeQuorum))
    else if !faults.localRenames then
      (dropped, .error (.io "rename failed"))
    else
      match here.fs.rename (s.tempOf key) (s.pathOf key) with
      | none => (dropped, .error noSuchFile)
      | some fs =>
        let committed := prepared.finish fun i t svc =>
          commitPrepared (faults.participants i) t svc
        (Function.update committed localId { here with fs }, .ok ())

/-- `put_object` of the backend. -/
def putReplicated (config : QuorumConfig) (localId : Nat) (faults : Faults) (key : String)
    (data : Bytes) (services : Nat → Service s) : (Nat → Service s) × Except StorageError Unit :=
  match s.createTempObject key with
  | .error e => (services, .error e)
  | .ok temp =>
    let here := services localId
    commitReplicated config localId faults key
      (Function.update services localId { here with fs := writeFile here.fs temp.tempPath data })

/-! ## Reads and deletes -/

/-- What a read meets on the other nodes. -/
structure ReadFaults where
  /-- The clients map, in its iteration order. -/
  clients : List Nat
  healthy : Nat → Bool
  /-- The read stream of the node opens and runs to its end. -/
  answers : Nat → Bool

/-- `read_from_replica`, after `attempts` successful reads. -/
def readFromReplica (required : Nat) (faults : ReadFaults) (services : Nat → Service s)
    (key : String) : List Nat → Nat → Option Bytes
  | [], _ => none
  | i :: clients, attempts =>
    if faults.healthy i && faults.answers i then
      match s.getObject (services i).fs key with
      | .ok bytes =>
        if required ≤ attempts + 1 then some bytes
        else readFromReplica required faults services key clients (attempts + 1)
      | .error _ => readFromReplica required faults services key clients attempts
    else readFromReplica required faults services key clients attempts

/-- `get_object` of the backend. -/
def getReplicated (config : QuorumConfig) (leader : Nat) (faults : ReadFaults)
    (services : Nat → Service s) (key : String) : Except StorageError Bytes :=
  match s.getObject (services leader).fs key with
  | .ok bytes => .ok bytes
  | .error (.notFound _) =>
    match readFromReplica config.readQuorum faults services key faults.clients 0 with
    | some bytes => .ok bytes
    | none => .error (.notFound key)
  | .error e => .error e

structure DeleteFaults where
  clients : List Nat
  /-- The delete reaches the node and its file can be removed. -/
  arrives : Nat → Bool
  /-- The local file can be removed, if there is one. -/
  localRemoves : Bool

/-- `delete_object` of the backend: the local file first, then every client. -/
def deleteReplicated (leader : Nat) (faults : DeleteFaults) (key : String)
    (services : Nat → Service s) : (Nat → Service s) × Except StorageError Unit :=
  match s.deleteObject (services leader).fs key with
  | .error e => (services, .error e)
  | .ok _ =>
    if !faults.localRemoves then (services, .error (.io "remove failed"))
    else
      (fun i =>
        if i = leader ∨ (i ∈ faults.clients ∧ faults.arrives i = true) then
          (deleteObject (services i) key).1
        else services i, .ok ())

end Save.Replication
