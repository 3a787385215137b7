import Save.Api.Records

/-!
# A node that serves many requests

The handlers of one node (`handlers/objects`, `handlers/multipart/complete.rs`) as
one machine. A request in progress is a `Work`; it holds the write lock of its key
from its start to its end. Object commands go through the Raft log in the order they
are proposed: a handler that stops leaves its command behind, and the command may
still be applied, or lost. A crash ends every request and keeps the files, the
database and the log.
-/

namespace Save.Api
set_option autoImplicit false
open Save.Text Save.Kv Save.Common Save.Metadata Save.Files Save.Storage Save.Run

variable [Sha256]

/-- A request that holds the lock of its key. -/
inductive Work where
  | put (r : PutRequest) (stage : PutStage)
  | complete (r : CompleteRequest) (stage : CompleteStage)
  | delete (bucket key : String) (stage : DeleteStage)

/-- The storage key, which is also what the lock is named after. -/
def Work.storageKey : Work → String
  | .put r _ => r.storageKey
  | .complete r _ => r.storageKey
  | .delete bucket key _ => Api.storageKey bucket key

/-- A request as a client sends it. -/
inductive Request where
  | put (r : PutRequest)
  | complete (r : CompleteRequest)
  | delete (bucket key : String)

/-- The request once it has its lock. -/
def Request.work : Request → Work
  | .put r => .put r .checking
  | .complete r => .complete r .looking
  | .delete bucket key => .delete bucket key .looking

/-- The checks a handler makes before it asks for the lock. -/
def Request.valid : Request → Bool
  | .put r => decide (ValidBucket r.bucket) && decide (ValidKey r.key)
  | .complete r => decide (ValidBucket r.bucket) && decide (ValidKey r.key)
  | .delete bucket key => decide (ValidBucket bucket) && decide (ValidKey key)

/-- The Raft command a handler waits for. -/
def Work.command : Work → Option Command
  | .put _ (.writing metadata) => some (.putObjectMetadata metadata)
  | .complete _ (.writing _ metadata) => some (.putObjectMetadata metadata)
  | .delete bucket key .writing => some (.deleteObjectMetadata bucket key)
  | _ => none

/-- The next operation of a handler that waits for no command. -/
def Work.advance (s : ObjectStorage) (node : Node) (n : Nat) (w : Work) : Option (Node × Work) :=
  if w.command.isSome then none
  else
    match w with
    | .put r stage => (putStep s r (node, stage) n).map fun next => (next.1, .put r next.2)
    | .complete r stage =>
      (completeStep s r (node, stage) n).map fun next => (next.1, .complete r next.2)
    | .delete bucket key stage =>
      (deleteStep s bucket key (node, stage)).map fun next => (next.1, .delete bucket key next.2)

/-- The handler after its command has been applied. -/
def Work.acknowledged : Work → Work
  | .put r (.writing _) => .put r .done
  | .complete r (.writing _ _) => .complete r .aborting
  | .delete bucket key .writing => .delete bucket key .removing
  | w => w

/-- What is left when the handler stops. -/
def Work.dropped (s : ObjectStorage) (node : Node) : Work → Node
  | .put _ stage => stage.dropped node
  | .complete r stage => stage.dropped s r node
  | .delete _ _ _ => node

/-- A proposed command and the request that waits for it. -/
structure Proposal where
  owner : Option Nat
  command : Command

structure Serving where
  node : Node
  /-- The requests in progress, by the number they were given. -/
  works : Nat → Option Work
  next : Nat
  /-- Commands in log order, not yet applied. -/
  log : List Proposal
  gc : GcStage

/-- A node that has just started. -/
def Serving.idle (node : Node) : Serving := ⟨node, fun _ => none, 0, [], .idle⟩

inductive NodeEvent where
  /-- A valid request gets its lock. -/
  | start (request : Request)
  | advance (i n : Nat)
  | propose (i : Nat)
  /-- A bucket or lock command of another request. -/
  | submit (command : Command)
  | apply (now : DateTime)
  | lose (j : Nat)
  /-- A handler fails or ends; its guards run and its lock is released. -/
  | stop (i : Nat)
  | crash
  | gc (event : GcEvent)

/-- The requests after a command of the owner has been applied. -/
def acknowledge (works : Nat → Option Work) : Option Nat → Nat → Option Work
  | none => works
  | some i => Function.update works i ((works i).map Work.acknowledged)

/-- Nobody holds the lock of the key. -/
def Serving.unlocked (sys : Serving) (key : String) : Bool :=
  (List.range sys.next).all fun i =>
    match sys.works i with
    | none => true
    | some w => w.storageKey != key

def Serving.step (s : ObjectStorage) (tempFileMaxAge : Nat) (sys : Serving) : NodeEvent → Option Serving
  | .start request =>
    if request.valid && sys.unlocked request.work.storageKey then
      some { sys with works := Function.update sys.works sys.next (some request.work)
                      next := sys.next + 1 }
    else none
  | .advance i n => do
    let w ← sys.works i
    let next ← w.advance s sys.node n
    return { sys with node := next.1, works := Function.update sys.works i (some next.2) }
  | .propose i => do
    let w ← sys.works i
    let command ← w.command
    return { sys with log := sys.log ++ [⟨some i, command⟩] }
  | .submit command =>
    if isObjectCommand command then none
    else some { sys with log := sys.log ++ [⟨none, command⟩] }
  | .apply now =>
    match sys.log with
    | [] => none
    | p :: log =>
      match applyCommand now sys.node.db p.command with
      | .error _ => none
      | .ok ws =>
        some { sys with
          node := { sys.node with db := applyAll sys.node.db ws }
          log
          works := acknowledge sys.works p.owner }
  | .lose j => some { sys with log := sys.log.eraseIdx j }
  | .stop i => do
    let w ← sys.works i
    return { sys with node := w.dropped s sys.node, works := Function.update sys.works i none }
  | .crash => some { sys with works := fun _ => none, gc := .idle }
  | .gc event =>
    (gcStep s tempFileMaxAge (sys.node, sys.gc) event).map fun next =>
      { sys with node := next.1, gc := next.2 }

end Save.Api
