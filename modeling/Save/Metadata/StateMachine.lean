import Save.Metadata.Store

/-!
# The replicated state machine

`apply_command` (`raft/state_machine.rs`) and `Storage::apply_to_state_machine`
(`raft/storage.rs`): committed entries are applied one after the other, each command
writing its record as it goes, and `last_applied_log_id` is written once, after the
whole batch. A call is described by the writes it issues, in order, and what it
returns; the first entry that fails ends the call with the writes before it already
made.
-/

namespace Save.Metadata
set_option autoImplicit false
open Save.Kv Save.Common

/-- Metadata operations replicated through Raft. -/
inductive Command where
  | createBucket (bucket : Bucket)
  | deleteBucket (name : String)
  | putObjectMetadata (metadata : ObjectMetadata)
  | deleteObjectMetadata (bucket key : String)
  | acquireLock (bucket key : String) (lockType : LockType) (holder : LockHolder)
  | releaseLock (bucket key : String) (holder : LockHolder)
  deriving DecidableEq, Repr

/-- `StorageIOError::write` around the text of the error it wraps. -/
structure StorageIOError where
  msg : String
  deriving DecidableEq, Repr

def ioError (e : MetadataError) : StorageIOError := ⟨e.toString⟩

/-- The writes of one command, with the clock reading of the node that applies it. -/
def applyCommand (now : DateTime) (db : Store Value) :
    Command → Except StorageIOError (List (Write Value))
  | .createBucket bucket =>
    ((createBucket now db bucket.name).map Prod.snd).mapError ioError
  | .deleteBucket name => (deleteBucket name).mapError ioError
  | .putObjectMetadata metadata => (putObjectMetadata metadata).mapError ioError
  | .deleteObjectMetadata bucket key => (deleteObjectMetadata bucket key).mapError ioError
  | .acquireLock bucket key lockType holder =>
    ((acquireLock db bucket key lockType holder).map Prod.snd).mapError ioError
  | .releaseLock bucket key holder => (releaseLock db bucket key holder).mapError ioError

/-! ## Log entries -/

structure LeaderId where
  term : Nat
  nodeId : NodeId
  deriving DecidableEq, Repr

structure LogId where
  leaderId : LeaderId
  index : Nat
  deriving DecidableEq, Repr

/-- The number of indexes up to and including `last`; a log starts at index 0. -/
def position : Option LogId → Nat
  | none => 0
  | some id => id.index + 1

structure SaveNode where
  raftAddr : String
  httpAddr : String
  replicationAddr : String
  deriving DecidableEq, Repr

structure Membership where
  configs : List (List NodeId)
  nodes : List (NodeId × SaveNode)
  deriving DecidableEq, Repr

structure StoredMembership where
  logId : Option LogId
  membership : Membership
  deriving DecidableEq, Repr

/-- `StoredMembership::default()`. -/
def StoredMembership.default : StoredMembership := ⟨none, ⟨[], []⟩⟩

inductive EntryPayload where
  | blank
  | normal (cmd : Command)
  | membership (m : Membership)
  deriving DecidableEq, Repr

structure Entry where
  logId : LogId
  payload : EntryPayload
  deriving DecidableEq, Repr

/-- An entry as one node applies it: with the local clock reading of that moment. -/
structure Tick where
  entry : Entry
  now : DateTime
  deriving DecidableEq, Repr

/-! ## The database -/

structure SnapshotMeta where
  lastLogId : Option LogId
  lastMembership : StoredMembership
  snapshotId : String
  deriving DecidableEq, Repr

/-- A node's database: the default column family, the two `raft_state` records the
state machine writes, and the `raft_snapshot` family. -/
structure Db where
  default : Store Value
  lastApplied : Option LogId
  membership : Option StoredMembership
  snapshotMeta : Option SnapshotMeta
  snapshotData : Option (Store Value)

def Db.empty : Db := ⟨Store.empty, none, none, none, none⟩

/-- A single write of the state machine. -/
inductive DbWrite where
  | data (w : Write Value)
  | membership (m : StoredMembership)
  | lastApplied (id : LogId)
  deriving DecidableEq, Repr

def DbWrite.apply (db : Db) : DbWrite → Db
  | .data w => { db with default := w.apply db.default }
  | .membership m => { db with membership := some m }
  | .lastApplied id => { db with lastApplied := some id }

def Db.applyAll (db : Db) (ws : List DbWrite) : Db := ws.foldl DbWrite.apply db

@[simp] theorem Db.applyAll_nil (db : Db) : db.applyAll [] = db := rfl

theorem Db.applyAll_append (db : Db) (ws ws' : List DbWrite) :
    db.applyAll (ws ++ ws') = (db.applyAll ws).applyAll ws' := by
  simp [Db.applyAll, List.foldl_append]

/-- `Storage::last_applied_state`. -/
def Db.lastAppliedState (db : Db) : Option LogId × StoredMembership :=
  (db.lastApplied, db.membership.getD StoredMembership.default)

/-! ## Applying a batch -/

/-- The writes of one entry. -/
def entryWrites (db : Db) (t : Tick) : Except StorageIOError (List DbWrite) :=
  match t.entry.payload with
  | .blank => .ok []
  | .normal cmd => (applyCommand t.now db.default cmd).map (List.map .data)
  | .membership m => .ok [.membership ⟨some t.entry.logId, m⟩]

/-- The loop over the entries of a batch. -/
def applyLoop (db : Db) (last : Option LogId) :
    List Tick → List DbWrite × Except StorageIOError (Option LogId)
  | [] => ([], .ok last)
  | t :: ts =>
    match entryWrites db t with
    | .error e => ([], .error e)
    | .ok ws =>
      let rest := applyLoop (db.applyAll ws) (some t.entry.logId) ts
      (ws ++ rest.1, rest.2)

/-- `apply_to_state_machine`: its writes and its answer. -/
def applyToStateMachine (db : Db) (batch : List Tick) :
    List DbWrite × Except StorageIOError (List Unit) :=
  match applyLoop db none batch with
  | (ws, .error e) => (ws, .error e)
  | (ws, .ok none) => (ws, .ok (batch.map fun _ => ()))
  | (ws, .ok (some id)) => (ws ++ [.lastApplied id], .ok (batch.map fun _ => ()))

/-- The database after a call, successful or not. -/
def applyBatch (db : Db) (batch : List Tick) : Db := db.applyAll (applyToStateMachine db batch).1

/-- Batches one after the other; the first failing call stops the node. -/
def runBatches (db : Db) : List (List Tick) → Db × Except StorageIOError Unit
  | [] => (db, .ok ())
  | b :: bs =>
    match (applyToStateMachine db b).2 with
    | .error e => (applyBatch db b, .error e)
    | .ok _ => runBatches (applyBatch db b) bs

end Save.Metadata
