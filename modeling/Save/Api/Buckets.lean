import Save.Api.Leader
import Save.Metadata.Catalog

/-!
# Bucket and object handlers of a cluster

The handlers that create and delete buckets and that add and remove objects
(`handlers/bucket`, `handlers/objects`), on any node of a cluster over one log, a
check, a cache access or a proposal at a time. Each node applies the log at its own
pace and has its own bucket cache and upload records; whichever node leads, a
proposal may be committed late or be lost. A handler's check is kept with how much
of the log it had seen, and so is a cache entry with the check that filled it. The
object lock is the lock manager's: here a handler gets it at some point, and its
commands are entries of the log like any other.
-/

namespace Save.Api
set_option autoImplicit false
open Save.Text Save.Kv Save.Common Save.Metadata Save.Run

/-- A request that calls `validate_bucket_exists`. -/
inductive BucketRequest where
  | put (metadata : ObjectMetadata)
  | initiate (w : UploadName) (contentType : Option String)

def BucketRequest.bucket : BucketRequest → String
  | .put metadata => metadata.bucket
  | .initiate w _ => w.bucket

/-- A handler at its next step. -/
inductive Handler where
  /-- `create_bucket` before its look-up. -/
  | createBucket (name : String)
  | createBucketWrite (bucket : Bucket)
  /-- The write is answered; the bucket goes into the cache next. -/
  | createBucketCache (name : String) (seen : Nat)
  | deleteBucket (name : String)
  | deleteBucketList (name : String)
  | deleteBucketWrite (name : String) (seen : Nat)
  | deleteBucketForget (name : String)
  /-- An object request waits for its lock. -/
  | lock (op : ObjectOp)
  /-- `validate_bucket_exists`: the cache, then the record, then the cache entry. -/
  | validateCache (r : BucketRequest)
  | validateLook (r : BucketRequest)
  | validateInsert (r : BucketRequest) (seen : Nat)
  | initiateWrite (w : UploadName) (contentType : Option String)
  /-- `delete_object` and `complete_multipart` before their look-up. -/
  | objectLook (op : ObjectOp)
  /-- `seen` where the bucket was checked. -/
  | objectWrite (op : ObjectOp) (seen : Option Nat)
  | completeAbort (w : UploadName)

/-- A proposed command, with how much of the log the check behind it had seen. -/
structure BucketProposal where
  command : Command
  seen : Option Nat

structure BucketNode where
  db : Store Value
  applied : Nat
  /-- The unexpired entries, with how much of the log their check had seen. -/
  cache : String → Option Nat

structure BucketSystem where
  log : List Command
  /-- Proposed and neither committed nor lost. -/
  inFlight : List BucketProposal
  nodes : NodeId → BucketNode
  tasks : Nat → Option (NodeId × Handler)
  next : Nat

def BucketSystem.start : BucketSystem :=
  ⟨[], [], fun _ => ⟨Store.empty, 0, fun _ => none⟩, fun _ => none, 0⟩

/-- The handlers' first steps, for names that pass validation. -/
inductive BucketCall where
  | createBucket (name : String)
  | deleteBucket (name : String)
  | object (op : ObjectOp)
  | initiate (w : UploadName) (contentType : Option String)

def BucketCall.accepted : BucketCall → Bool
  | .createBucket name => decide (ValidBucket name)
  | .deleteBucket name => decide (ValidBucket name)
  | .object op => decide (ValidBucket op.bucket) && decide (ValidKey op.key)
  | .initiate w _ => decide (ValidBucket w.bucket) && decide (ValidKey w.key)

def BucketCall.handler : BucketCall → Handler
  | .createBucket name => .createBucket name
  | .deleteBucket name => .deleteBucket name
  | .object op => .lock op
  | .initiate w contentType => .validateCache (.initiate w contentType)

inductive BucketEvent where
  | call (node : NodeId) (call : BucketCall)
  /-- A task makes its next step on its own node. -/
  | go (i : Nat) (now : DateTime)
  | propose (i : Nat)
  /-- The write of a task is answered: its command is this entry of the log, applied here. -/
  | answered (i : Nat) (entry : Nat)
  /-- A task ends with an error, times out or is dropped. -/
  | fail (i : Nat)
  | commit (j : Nat)
  | lose (j : Nat)
  | apply (node : NodeId) (now : DateTime)
  /-- A command of the lock manager is committed. -/
  | lock (op : LockOp)
  /-- Another handler, or the collector, works on upload records. -/
  | upload (node : NodeId) (op : UploadOp)
  | expire (node : NodeId) (bucket : String)

def BucketSystem.setNode (sys : BucketSystem) (node : NodeId) (n : BucketNode) : BucketSystem :=
  { sys with nodes := Function.update sys.nodes node n }

def BucketNode.insert (n : BucketNode) (name : String) (seen : Nat) : BucketNode :=
  { n with cache := Function.update n.cache name (some seen) }

def BucketNode.remove (n : BucketNode) (name : String) : BucketNode :=
  { n with cache := Function.update n.cache name none }

/-- What a request does once its bucket is validated. -/
def BucketRequest.validated (seen : Nat) : BucketRequest → Handler
  | .put metadata => .objectWrite (.put metadata) (some seen)
  | .initiate w contentType => .initiateWrite w contentType

/-- The look-up of `delete_object` or of `complete_multipart`. -/
def BucketNode.finds (n : BucketNode) : ObjectOp → Bool
  | .delete bucket key => (getObjectMetadata n.db bucket key).toBool
  | .complete uploadId metadata =>
    match getMultipartUpload n.db metadata.bucket metadata.key uploadId with
    | .ok upload => !upload.parts.isEmpty
    | .error _ => false
  | _ => false

/-- The next local step of a handler: the node after it, and where the handler goes on;
`none` where it ends. -/
def Handler.go (n : BucketNode) (now : DateTime) : Handler → Option (BucketNode × Option Handler)
  | .createBucket name =>
    if (getBucket n.db name).toBool then some (n, none)
    else some (n, some (.createBucketWrite (Bucket.new now name)))
  | .createBucketCache name seen => some (n.insert name seen, none)
  | .deleteBucket name =>
    if (getBucket n.db name).toBool then some (n, some (.deleteBucketList name)) else some (n, none)
  | .deleteBucketList name =>
    match listObjects n.db name none with
    | .ok [] => some (n, some (.deleteBucketWrite name n.applied))
    | _ => some (n, none)
  | .deleteBucketForget name => some (n.remove name, none)
  | .lock (.put metadata) => some (n, some (.validateCache (.put metadata)))
  | .lock op => some (n, some (.objectLook op))
  | .validateCache r =>
    match n.cache r.bucket with
    | some seen => some (n, some (r.validated seen))
    | none => some (n, some (.validateLook r))
  | .validateLook r =>
    if (getBucket n.db r.bucket).toBool then some (n, some (.validateInsert r n.applied))
    else some (n, none)
  | .validateInsert r seen => some (n.insert r.bucket seen, some (r.validated seen))
  | .initiateWrite w contentType =>
    some ({ n with db := (UploadOp.initiate now w contentType).after n.db }, none)
  | .objectLook op =>
    if n.finds op then some (n, some (.objectWrite op none)) else some (n, none)
  | .completeAbort w => some ({ n with db := (UploadOp.abort w).after n.db }, none)
  | .createBucketWrite _ => none
  | .deleteBucketWrite _ _ => none
  | .objectWrite _ _ => none

/-- The command a handler is writing. -/
def Handler.proposal : Handler → Option BucketProposal
  | .createBucketWrite bucket => some ⟨.createBucket bucket, none⟩
  | .deleteBucketWrite name seen => some ⟨.deleteBucket name, some seen⟩
  | .objectWrite op seen => op.command.map fun command => ⟨command, seen⟩
  | _ => none

/-- How a handler goes on when its write, the log entry `entry`, is answered. -/
def Handler.answered (entry : Nat) : Handler → Option Handler
  | .createBucketWrite bucket => some (.createBucketCache bucket.name (entry + 1))
  | .deleteBucketWrite name _ => some (.deleteBucketForget name)
  | .objectWrite (.complete uploadId metadata) _ =>
    some (.completeAbort ⟨metadata.bucket, metadata.key, uploadId⟩)
  | _ => none

/-- A task goes on, or ends. -/
def BucketSystem.resume (sys : BucketSystem) (i : Nat) (node : NodeId) (h : Option Handler) :
    BucketSystem :=
  { sys with tasks := Function.update sys.tasks i (h.map fun h => (node, h)) }

def BucketSystem.step (sys : BucketSystem) : BucketEvent → Option BucketSystem
  | .call node call =>
    if call.accepted then
      some { sys with
        tasks := Function.update sys.tasks sys.next (some (node, call.handler))
        next := sys.next + 1 }
    else none
  | .go i now => do
    let (node, h) ← sys.tasks i
    let (n, h') ← h.go (sys.nodes node) now
    some ((sys.setNode node n).resume i node h')
  | .propose i => do
    let (_, h) ← sys.tasks i
    let proposal ← h.proposal
    some { sys with inFlight := sys.inFlight ++ [proposal] }
  | .answered i entry => do
    let (node, h) ← sys.tasks i
    let proposal ← h.proposal
    if entry < (sys.nodes node).applied ∧ sys.log[entry]? = some proposal.command then
      some (sys.resume i node (h.answered entry))
    else none
  | .fail i => do
    let (node, _) ← sys.tasks i
    some (sys.resume i node none)
  | .commit j => do
    let proposal ← sys.inFlight[j]?
    some { sys with
      log := sys.log ++ [proposal.command]
      inFlight := sys.inFlight.eraseIdx j }
  | .lose j => do
    let _ ← sys.inFlight[j]?
    some { sys with inFlight := sys.inFlight.eraseIdx j }
  | .apply node now => do
    let n := sys.nodes node
    let command ← sys.log[n.applied]?
    match applyCommand now n.db command with
    | .ok ws => some (sys.setNode node { n with db := applyAll n.db ws, applied := n.applied + 1 })
    | .error _ => none
  | .lock op => some { sys with log := sys.log ++ [op.command] }
  | .upload node op =>
    let n := sys.nodes node
    some (sys.setNode node { n with db := op.after n.db })
  | .expire node bucket => some (sys.setNode node ((sys.nodes node).remove bucket))

end Save.Api
