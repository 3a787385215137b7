import Save.Api.Records
import Save.Replication.Quorum

/-!
# Object handlers of a cluster

`put_object`, `delete_object` and `get_object` (`save-api`, `handlers/objects`) with the
replicated backend (`save-storage`, `replication/coordinator.rs`), on whichever node is
the leader. The records are the ones of the Raft state machine, one copy for the
cluster; each node has its own files and its own replication service. The write lock
serialises the requests of a key, so a request is one step; what the network, the disks
and Raft do to it is a value that the handler reads. Between requests a node may clean
up stale prepares or restart, and the messages of requests that have ended may take
effect: `prepare_all`, `commit_all` and `abort_all` send each from a task of its own,
which outlives a timeout and a dropped handler.
-/

namespace Save.Api
set_option autoImplicit false
open Save.Text Save.Kv Save.Common Save.Metadata Save.Files Save.Storage Save.Run Save.Replication

variable [Sha256]

structure Cluster (s : ObjectStorage) where
  db : Store Value
  services : Nat → Service s

/-- A cluster without records, over whatever files its nodes have. -/
def Cluster.fresh {s : ObjectStorage} (services : Nat → Service s) : Cluster s :=
  ⟨Store.empty, services⟩

variable {s : ObjectStorage}

/-! ## The handlers -/

/-- The records after Raft has applied a command at `now`, or lost it. -/
def Cluster.propose (c : Cluster s) (applied : Option DateTime) (command : Command) :
    Option (Store Value) :=
  match applied with
  | none => none
  | some now =>
    match applyCommand now c.db command with
    | .error _ => none
    | .ok ws => some (applyAll c.db ws)

/-- The checks of `put_object` before it stores anything. -/
def PutRequest.accepted (r : PutRequest) (db : Store Value) : Bool :=
  decide (ValidBucket r.bucket) && decide (ValidKey r.key) &&
    (r.cached || (getBucket db r.bucket).toBool)

def Cluster.putObject (config : QuorumConfig) (leader : Nat) (faults : Faults)
    (applied : Option DateTime) (r : PutRequest) (c : Cluster s) : Cluster s :=
  if !r.accepted c.db then c
  else
    let stored := putReplicated config leader faults r.storageKey r.body c.services
    match stored.2 with
    | .error _ => { c with services := stored.1 }
    | .ok () =>
      match c.propose applied (.putObjectMetadata (newMetadata r.bucket r.key r.body none r.now)) with
      | none => { c with services := stored.1 }
      | some db => ⟨db, stored.1⟩

def Cluster.deleteObject (leader : Nat) (faults : DeleteFaults) (applied : Option DateTime)
    (bucket key : String) (c : Cluster s) : Cluster s :=
  if !(decide (ValidBucket bucket) && decide (ValidKey key)) then c
  else
    match getObjectMetadata c.db bucket key with
    | .error _ => c
    | .ok _ =>
      match c.propose applied (.deleteObjectMetadata bucket key) with
      | none => c
      | some db => ⟨db, (deleteReplicated leader faults (storageKey bucket key) c.services).1⟩

/-- `get_object` on the leader. -/
def Cluster.getObject (config : QuorumConfig) (leader : Nat) (faults : ReadFaults) (env : ReadEnv)
    (c : Cluster s) (bucket key : String) : Except ApiError GetResponse :=
  getObjectFrom (getReplicated config leader faults c.services) env c.db bucket key

/-! ## Runs -/

inductive ClusterEvent where
  | put (leader : Nat) (faults : Faults) (applied : Option DateTime) (r : PutRequest)
  | delete (leader : Nat) (faults : DeleteFaults) (applied : Option DateTime) (bucket key : String)
  /-- A bucket or lock command. -/
  | command (applied : Option DateTime) (command : Command)
  | cleanup (i now maxAge : Nat)
  /-- A prepare of a write that has ended. -/
  | prepare (i now : Nat) (key : String) (requestId : Nat) (data : Bytes) (reads : List Nat)
  /-- A commit of a write that has ended; the rename succeeds, if there is a file. -/
  | commit (i : Nat) (t : String) (renames : Bool)
  /-- An abort of a write that has ended. -/
  | abort (i : Nat) (t : String)
  /-- A node restarts and forgets its prepares. -/
  | restart (i : Nat)

/-- The cluster with another service on one node. -/
def Cluster.setService (c : Cluster s) (i : Nat) (svc : Service s) : Cluster s :=
  { c with services := Function.update c.services i svc }

/-- The clients map of a node does not have the node itself; the key of a prepare has been checked by
the node that sent it. -/
def Cluster.step (config : QuorumConfig) (c : Cluster s) : ClusterEvent → Option (Cluster s)
  | .put leader faults applied r =>
    if leader ∈ faults.clients then none else some (c.putObject config leader faults applied r)
  | .delete leader faults applied bucket key =>
    if leader ∈ faults.clients then none
    else some (c.deleteObject leader faults applied bucket key)
  | .command applied command =>
    if isObjectCommand command then none
    else some { c with db := (c.propose applied command).getD c.db }
  | .cleanup i now maxAge => some (c.setService i (cleanupStalePrepares (c.services i) now maxAge).1)
  | .prepare i now key requestId data reads =>
    if ValidKey key then
      some (c.setService i (streamPrepareObject (c.services i) now
        (streamChunks key requestId (Sha256.digest data) (cut reads data))).1)
    else none
  | .commit i t renames =>
    some (c.setService i
      (if renames then (commitObject (c.services i) t).1 else (abortObject (c.services i) t).1))
  | .abort i t => some (c.setService i (abortObject (c.services i) t).1)
  | .restart i => some (c.setService i (.fresh s (c.services i).fs))

end Save.Api
