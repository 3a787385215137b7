import Save.Api.NoPhantoms
import Save.Metadata.Exclusion

/-!
# Requests behind the lock manager

`Serving` starts a request when nobody holds the lock of its key. On a node that
lock is a guard of `DistributedLockManager` (`lock.rs`): the handler checks the
node's own table, has its acquisition in the same Raft log as the object commands,
reads the table again, and keeps the guard until it stops. `locking_requests`: what
these handlers do is a run of `Serving`, as long as holder ids are not used again.
-/

namespace Save.Api
set_option autoImplicit false
open Save.Text Save.Kv Save.Common Save.Metadata Save.Files Save.Storage Save.Run

/-- Bucket and key of the object a request writes. -/
def Work.object : Work → String × String
  | .put r _ => (r.bucket, r.key)
  | .complete r _ => (r.bucket, r.key)
  | .delete bucket key _ => (bucket, key)

/-- The lock command in a Raft command. -/
def lockOp : Command → Option LockOp
  | .acquireLock bucket key lockType holder => some (.acquire bucket key lockType holder)
  | .releaseLock bucket key holder => some (.release bucket key holder)
  | _ => none

/-- Whom a lock command is for. -/
def lockHolder : LockOp → LockHolder
  | .acquire _ _ _ holder => holder
  | .release _ _ holder => holder

structure Locking where
  serving : Serving
  /-- `lock_counter`. -/
  counter : Nat
  /-- The acquisitions under way, the guards and the releases of the node. -/
  tasks : Nat → Option LockTask
  nextTask : Nat
  /-- The guard a request keeps. -/
  guards : Nat → Option Nat
  /-- The lock commands the node has applied. -/
  applied : List LockOp

/-- A node that has just started, with the locks it finds. -/
def Locking.idle (node : Node) (history : List LockOp) : Locking :=
  ⟨.idle node, 0, fun _ => none, 0, fun _ => none, history⟩

inductive LockingEvent where
  | acquire (bucket key : String) (lockType : LockType)
  | check (i : Nat)
  | proposeLock (i : Nat)
  | verify (i : Nat)
  /-- A guard that no request keeps is dropped. -/
  | drop (i : Nat)
  /-- An acquisition times out or is cancelled, or a release ends. -/
  | abandon (i : Nat)
  /-- The handler has its guard and begins. -/
  | start (i : Nat) (request : Request)
  /-- Any other step of the node. -/
  | serve (event : NodeEvent)

def Locking.setStage (sys : Locking) (i : Nat) (t : LockTask) (stage : LockStage) : Locking :=
  { sys with tasks := Function.update sys.tasks i (some { t with stage }) }

/-- A proposal of `raft_node.acquire_lock` or `raft_node.release_lock`. -/
def Locking.push (sys : Locking) (op : LockOp) : Locking :=
  { sys with serving := { sys.serving with log := sys.serving.log ++ [⟨none, op.command⟩] } }

/-- No request keeps the guard. -/
def Locking.unused (sys : Locking) (i : Nat) : Bool :=
  (List.range sys.serving.next).all fun j => sys.guards j != some i

section
variable [Sha256]

/-- A step of the node itself. Lock commands in its name are proposed by its tasks only. -/
def Locking.serve (s : ObjectStorage) (tempFileMaxAge : Nat) (nodeId : NodeId) (sys : Locking)
    (event : NodeEvent) : Option Locking := do
  let serving ← sys.serving.step s tempFileMaxAge event
  match event with
  | .start _ => none
  | .submit command =>
    if (lockOp command).all fun op => (lockHolder op).nodeId != nodeId then some { sys with serving } else none
  | .apply _ =>
    some { sys with
      serving
      applied := sys.applied ++ (sys.serving.log.head?.bind fun p => lockOp p.command).toList }
  | .stop j =>
    -- the guard goes with the handler; its task releases the lock
    let i ← sys.guards j
    let t ← sys.tasks i
    some { sys.setStage i t .releasing with serving, guards := Function.update sys.guards j none }
  | .crash =>
    some { sys with serving, counter := 0, tasks := fun _ => none, guards := fun _ => none }
  | _ => some { sys with serving }

def Locking.step (s : ObjectStorage) (tempFileMaxAge : Nat) (nodeId : NodeId) (sys : Locking) :
    LockingEvent → Option Locking
  | .acquire bucket key lockType =>
    some { sys with
      counter := u64Succ sys.counter
      tasks := Function.update sys.tasks sys.nextTask
        (some ⟨nodeId, bucket, key, lockType, ⟨nodeId, sys.counter⟩, .checking⟩)
      nextTask := sys.nextTask + 1 }
  | .check i => do
    let t ← sys.tasks i
    if t.stage = .checking ∧ Metadata.canAcquireLocally sys.serving.node.db t = true then
      some (sys.setStage i t .writing)
    else none
  | .proposeLock i => do
    let t ← sys.tasks i
    match t.stage with
    | .writing => some (sys.push t.acquireOp)
    | .releasing => some (sys.push t.releaseOp)
    | _ => none
  | .verify i => do
    let t ← sys.tasks i
    if t.stage = .writing ∧ t.acquireOp ∈ sys.applied then
      if Metadata.acquiredLocally sys.serving.node.db t then some (sys.setStage i t .held)
      else some (sys.setStage i t .checking)
    else none
  | .drop i => do
    let t ← sys.tasks i
    if t.stage = .held ∧ sys.unused i = true then some (sys.setStage i t .releasing) else none
  | .abandon i => do
    let t ← sys.tasks i
    if t.stage = .held then none else some { sys with tasks := Function.update sys.tasks i none }
  | .start i request => do
    let t ← sys.tasks i
    if t.stage = .held ∧ t.lockType = .write ∧ (t.bucket, t.key) = request.work.object ∧
        request.valid = true ∧ sys.unused i = true then
      some { sys with
        serving := { sys.serving with
          works := Function.update sys.serving.works sys.serving.next (some request.work)
          next := sys.serving.next + 1 }
        guards := Function.update sys.guards sys.serving.next (some i) }
    else none
  | .serve event => sys.serve s tempFileMaxAge nodeId event

end

/-- The tasks of the node, with the commands applied and under way, as a lock system. -/
def Locking.locks (nodeId : NodeId) (sys : Locking) : LockSystem where
  log := sys.applied
  inFlight := sys.serving.log.filterMap fun p => lockOp p.command
  applied node := if node = nodeId then sys.applied.length else 0
  counter _ := sys.counter
  tasks := sys.tasks
  next := sys.nextTask

/-- The node's table holds the lock records that the commands leave. -/
def LocksOf (db : Store Value) (ops : List LockOp) : Prop :=
  ∀ bucket key, db.get (lockKey bucket key) = (lockRecord (lockKey bucket key) ops).map .lock

/-- An acquisition gets an id that an earlier one has left no traces of. -/
def FreshId (nodeId : NodeId) (sys : Locking) : LockingEvent → Prop
  | .acquire bucket key lockType => Unused (sys.locks nodeId) (.acquire nodeId bucket key lockType)
  | _ => True

/-- The request keeps a write guard of its object, the only guard of it on the node. -/
structure Locking.Holds (sys : Locking) (j : Nat) (w : Work) (i : Nat) (t : LockTask) : Prop where
  kept : sys.guards j = some i
  task : sys.tasks i = some t
  held : t.stage = .held
  write : t.lockType = .write
  object : (t.bucket, t.key) = w.object
  only : ∀ i' u, sys.tasks i' = some u → u.stage = .held → (u.bucket, u.key) = w.object → i' = i

/-! ## The invariant -/

structure Locking.Sound (nodeId : NodeId) (sys : Locking) : Prop where
  locks : (sys.locks nodeId).Sound
  own : ∀ i t, sys.tasks i = some t → t.node = nodeId ∧ t.holder.nodeId = nodeId ∧ i < sys.nextTask
  table : LocksOf sys.serving.node.db sys.applied
  works : ∀ j w, sys.serving.works j = some w → ∃ i t, sys.guards j = some i ∧
    sys.tasks i = some t ∧ t.stage = .held ∧ t.lockType = .write ∧
    (t.bucket, t.key) = w.object ∧ ValidBucket t.bucket
  alone : ∀ j j' i, sys.guards j = some i → sys.guards j' = some i → j = j'
  keeps : ∀ j i, sys.guards j = some i → j < sys.serving.next

/-! ## Lock records in the database -/

section Table

variable {db : Store Value} {ops : List LockOp}

@[simp]
theorem lockOp_command (op : LockOp) : lockOp op.command = some op := by
  cases op <;> rfl

theorem holder_of_names {k : String} {h : LockHolder} {op : LockOp} (names : op.Names k h) :
    lockHolder op = h := by
  cases op with
  | acquire b k l h => exact names.2
  | release b k h => exact names.2

theorem LocksOf.read (table : LocksOf db ops) (bucket key : String) :
    getLockState db bucket key = .ok (lockRecord (lockKey bucket key) ops) := by
  unfold getLockState
  rw [table bucket key]
  cases lockRecord (lockKey bucket key) ops <;> rfl

theorem LocksOf.holding (table : LocksOf db ops) {t : LockTask}
    (there : acquiredLocally db t = true) : Holding (lockRecord t.lock ops) t.holder := by
  unfold acquiredLocally at there
  rw [table.read] at there
  cases record : lockRecord (lockKey t.bucket t.key) ops with
  | none =>
    rw [record] at there
    cases there
  | some s =>
    rw [record] at there
    exact ⟨s, record, isHeldBy_iff.1 there⟩

/-- An applied command changes the lock records as it does in the table of commands. -/
theorem LocksOf.apply (table : LocksOf db ops) {now : DateTime} {command : Command}
    {ws : List (Write Value)} (call : applyCommand now db command = .ok ws) :
    LocksOf (applyAll db ws) (ops ++ (lockOp command).toList) := by
  obtain ⟨v, act, sets⟩ := applyCommand_sets call
  intro bucket key
  rw [lockRecord_append]
  -- a command that is no lock command writes a record of another kind
  have other (apart : command.cell ≠ lockKey bucket key) :
      (applyAll db ws).get (lockKey bucket key) = (lockRecord (lockKey bucket key) ops).map .lock := by
    rw [sets.2, if_neg apart]
    exact table bucket key
  cases command with
  | createBucket b => exact other (bucketKey_ne_lockKey _ _ _)
  | deleteBucket name => exact other (bucketKey_ne_lockKey _ _ _)
  | putObjectMetadata metadata => exact other (objectDbKey_ne_lockKey _ _ _ _)
  | deleteObjectMetadata b k => exact other (objectDbKey_ne_lockKey _ _ _ _)
  | acquireLock b k lockType holder =>
    simp only [cellAct, Command.cell] at act
    obtain ⟨s, -, rfl, stored⟩ := getLockState_act act
    exact Sets.get_on (f := fun s => some (acquired lockType holder s)) sets stored (table bucket key)
  | releaseLock b k holder =>
    simp only [cellAct, Command.cell] at act
    obtain ⟨s, -, rfl, stored⟩ := getLockState_act act
    exact sets.get_on stored (table bucket key)

theorem LocksOf.same {db' : Store Value} (table : LocksOf db ops)
    (same : ∀ bucket key, db'.get (lockKey bucket key) = db.get (lockKey bucket key)) :
    LocksOf db' ops := fun bucket key => (same bucket key).trans (table bucket key)

end Table

/-! ## Requests and lock records -/

section Request

variable [Sha256] {s : ObjectStorage} {node node' : Node} {w w' : Work} {n : Nat}

omit [Sha256] in
theorem Work.storageKey_eq (w : Work) : w.storageKey = Api.storageKey w.object.1 w.object.2 := by
  cases w <;> rfl

omit [Sha256] in
theorem Work.acknowledged_object (w : Work) : w.acknowledged.object = w.object := by
  cases w with
  | put r stage => cases stage <;> rfl
  | complete r stage => cases stage <;> rfl
  | delete bucket key stage => cases stage <;> rfl

theorem putStep_db {r : PutRequest} {stage stage' : PutStage} (waits : (Work.put r stage).command = none)
    (step : putStep s r (node, stage) n = some (node', stage')) : node'.db = node.db := by
  cases stage with
  | locking =>
    cases step
    rfl
  | checking =>
    simp only [putStep] at step
    split at step
    · cases step
      rfl
    · cases step
  | storing stage =>
    obtain ⟨-, next⟩ | ⟨fs, later, -, next⟩ := putStep_storing step <;> cases next <;> rfl
  | writing metadata => cases waits
  | done => cases step

theorem completeStep_locks {r : CompleteRequest} {stage stage' : CompleteStage}
    (waits : (Work.complete r stage).command = none)
    (step : completeStep s r (node, stage) n = some (node', stage')) (bucket key : String) :
    node'.db.get (lockKey bucket key) = node.db.get (lockKey bucket key) := by
  cases completeStep_cases step with
  | write upload call => cases waits
  | abort call =>
    have own := abortMultipartUpload_local call
    refine get_applyAll_of_ne fun w member => ?_
    exact ne_of_startsWith (by decide) (by decide) (own w member) (lockKey_startsWith bucket key)
  | _ => rfl

theorem deleteStep_db {bucket key : String} {stage stage' : DeleteStage}
    (waits : (Work.delete bucket key stage).command = none)
    (step : deleteStep s bucket key (node, stage) = some (node', stage')) : node'.db = node.db := by
  cases stage with
  | locking =>
    cases step
    rfl
  | looking =>
    simp only [deleteStep] at step
    split at step
    · cases step
    · cases step
      rfl
  | writing => cases waits
  | removing =>
    simp only [deleteStep] at step
    split at step
    · cases step
    · cases step
      rfl
  | done => cases step

/-- The operations of a request are on its own object and leave the lock records alone. -/
theorem Work.advance_locks (step : w.advance s node n = some (node', w')) :
    w'.object = w.object ∧
      ∀ bucket key, node'.db.get (lockKey bucket key) = node.db.get (lockKey bucket key) := by
  unfold Work.advance at step
  split at step
  · cases step
  · rename_i waits
    rw [Bool.not_eq_true, Option.isSome_eq_false_iff, Option.isNone_iff_eq_none] at waits
    cases w with
    | put r stage =>
      obtain ⟨next, taken, same⟩ := Option.map_eq_some_iff.1 step
      cases same
      refine ⟨rfl, fun bucket key => ?_⟩
      rw [putStep_db waits taken]
    | complete r stage =>
      obtain ⟨next, taken, same⟩ := Option.map_eq_some_iff.1 step
      cases same
      exact ⟨rfl, completeStep_locks waits taken⟩
    | delete bucket key stage =>
      obtain ⟨next, taken, same⟩ := Option.map_eq_some_iff.1 step
      cases same
      refine ⟨rfl, fun bucket key => ?_⟩
      rw [deleteStep_db waits taken]

omit [Sha256] in
/-- The command of a request is no lock command. -/
theorem lockOp_of_waits {command : Command} (waits : w.command = some command) :
    lockOp command = none := by
  cases w with
  | put r stage => cases stage <;> cases waits; rfl
  | complete r stage => cases stage <;> cases waits; rfl
  | delete bucket key stage => cases stage <;> cases waits; rfl

omit [Sha256] in
theorem gcStep_db {age : Nat} {stage stage' : GcStage} {event : GcEvent}
    (step : gcStep s age (node, stage) event = some (node', stage')) : node'.db = node.db := by
  cases gcStep_cases step <;> rfl

end Request

/-! ## Steps of the locks -/

/-- Commands that nobody waits for, or that are another node's, keep the invariant of the locks. -/
theorem sound_inFlight {locks : LockSystem} (sound : locks.Sound) {inFlight : List LockOp}
    (own : ∀ op ∈ inFlight, op ∈ locks.inFlight ∨
      ∀ i t, locks.tasks i = some t → ¬ op.Names t.lock t.holder) :
    LockSystem.Sound { locks with inFlight } := by
  refine ⟨sound.applied, fun i t there live => ?_, sound.held, sound.distinct⟩
  obtain ⟨p, owns⟩ := sound.owns i t there live
  refine ⟨p, owns.reached, owns.absent, owns.committed, fun op member names => ?_⟩
  rcases own op member with old | foreign
  · exact owns.proposed op old names
  · exact absurd names (foreign i t there)

theorem update_spec {α : Type} {f : Nat → Option α} {i j : Nat} {v : Option α} {u : α}
    (there : Function.update f i v j = some u) : (j = i ∧ v = some u) ∨ (j ≠ i ∧ f j = some u) := by
  by_cases same : j = i
  · subst same
    rw [Function.update_self] at there
    exact .inl ⟨rfl, there⟩
  · rw [Function.update_of_ne same] at there
    exact .inr ⟨same, there⟩

section Locks

variable {nodeId : NodeId} {sys : Locking}

theorem Locking.unused_spec (sound : sys.Sound nodeId) {i : Nat} (unused : sys.unused i = true) (j : Nat) :
    sys.guards j ≠ some i := by
  intro kept
  have := List.all_eq_true.1 unused j (List.mem_range.2 (sound.keeps j i kept))
  simp [kept] at this

/-- A task that no request relies on moves on. -/
theorem Locking.Sound.setStage (sound : sys.Sound nodeId) {i : Nat} {t : LockTask}
    (found : sys.tasks i = some t) {stage : LockStage} (active : stage ≠ .releasing → t.Active)
    (holding : stage = .held → Holding (lockRecord t.lock sys.applied) t.holder)
    (idle : ∀ j w, sys.serving.works j = some w → sys.guards j ≠ some i) :
    (sys.setStage i t stage).Sound nodeId := by
  have task := sound.own i t found
  refine { sound with locks := ?_, own := ?_, works := ?_ }
  · refine sound.locks.setStage found active fun held => ?_
    have all : (sys.locks nodeId).log.take ((sys.locks nodeId).applied t.node) = sys.applied := by
      rw [task.1]
      simp [Locking.locks]
    rw [all]
    exact holding held
  · intro j u there
    rcases update_spec there with ⟨rfl, same⟩ | ⟨-, there⟩
    · cases same
      exact task
    · exact sound.own j u there
  · intro j w there
    obtain ⟨k, u, kept, task, rest⟩ := sound.works j w there
    have other : k ≠ i := fun same => idle j w there (same ▸ kept)
    exact ⟨k, u, kept, (Function.update_of_ne other _ _).trans task, rest⟩

/-- The guard of a request is at no other stage. -/
theorem Locking.Sound.idle_of_stage (sound : sys.Sound nodeId) {i : Nat} {t : LockTask}
    (found : sys.tasks i = some t) (other : t.stage ≠ .held) :
    ∀ j w, sys.serving.works j = some w → sys.guards j ≠ some i := by
  intro j w there kept
  obtain ⟨k, u, kept', task, held, -⟩ := sound.works j w there
  rw [kept] at kept'
  cases kept'
  rw [found] at task
  cases task
  exact other held

theorem Locking.Sound.acquire (sound : sys.Sound nodeId) {bucket key : String} {lockType : LockType}
    (unused : Unused (sys.locks nodeId) (.acquire nodeId bucket key lockType)) :
    Locking.Sound nodeId { sys with
      counter := u64Succ sys.counter
      tasks := Function.update sys.tasks sys.nextTask
        (some ⟨nodeId, bucket, key, lockType, ⟨nodeId, sys.counter⟩, .checking⟩)
      nextTask := sys.nextTask + 1 } := by
  refine { sound with locks := sound.locks.acquire unused, own := ?_, works := ?_ }
  · intro j u there
    rcases update_spec there with ⟨rfl, same⟩ | ⟨-, there⟩
    · cases same
      exact ⟨rfl, rfl, Nat.lt_succ_self _⟩
    · obtain ⟨node, holder, below⟩ := sound.own j u there
      exact ⟨node, holder, Nat.lt_succ_of_lt below⟩
  · intro j w there
    obtain ⟨k, u, kept, task, rest⟩ := sound.works j w there
    have below := (sound.own k u task).2.2
    exact ⟨k, u, kept, (Function.update_of_ne (by omega) _ _).trans task, rest⟩

theorem Locking.Sound.push (sound : sys.Sound nodeId) {i : Nat} {t : LockTask}
    (found : sys.tasks i = some t) {op : LockOp}
    (named : ∀ k h, op.Names k h → t.lock = k ∧ t.holder = h)
    (own : t.Active → op.Acquires t.lock t.lockType t.holder) : (sys.push op).Sound nodeId := by
  have behind : (sys.push op).locks nodeId =
      { sys.locks nodeId with inFlight := (sys.locks nodeId).inFlight ++ [op] } := by
    simp [Locking.locks, Locking.push]
  refine { sound with locks := ?_ }
  rw [behind]
  exact sound.locks.propose found named own

theorem Locking.Sound.abandon (sound : sys.Sound nodeId) {i : Nat} {t : LockTask}
    (found : sys.tasks i = some t) (other : t.stage ≠ .held) :
    Locking.Sound nodeId { sys with tasks := Function.update sys.tasks i none } := by
  have fewer : ∀ j u, Function.update sys.tasks i none j = some u → sys.tasks j = some u := by
    intro j u there
    rcases update_spec there with ⟨-, never⟩ | ⟨-, there⟩
    · cases never
    · exact there
  refine { sound with locks := sound.locks.fewer fewer, own := ?_, works := ?_ }
  · exact fun j u there => sound.own j u (fewer j u there)
  · intro j w there
    obtain ⟨k, u, kept, task, rest⟩ := sound.works j w there
    have apart : k ≠ i := fun same => sound.idle_of_stage found other j w there (same ▸ kept)
    exact ⟨k, u, kept, (Function.update_of_ne apart _ _).trans task, rest⟩

end Locks

/-! ## Steps of the requests -/

section Serve

variable {nodeId : NodeId} {sys : Locking}

/-- What a step of the node does to its locks and its requests. -/
inductive ServeMove (nodeId : NodeId) (sys : Locking) : NodeEvent → Locking → Prop where
  /-- Lock records are left alone, requests stay with their guards, and no command is proposed in the
  name of a task. -/
  | quiet {event : NodeEvent} {serving : Serving}
    (table : ∀ bucket key, serving.node.db.get (lockKey bucket key) =
      sys.serving.node.db.get (lockKey bucket key))
    (works : ∀ j w, serving.works j = some w →
      ∃ v, sys.serving.works j = some v ∧ v.object = w.object)
    (next : serving.next = sys.serving.next)
    (log : ∀ p ∈ serving.log, p ∈ sys.serving.log ∨
      ∀ op, lockOp p.command = some op → (lockHolder op).nodeId ≠ nodeId) :
    ServeMove nodeId sys event { sys with serving }
  | apply {now : DateTime} {p : Proposal} {log : List Proposal} {ws : List (Write Value)}
    (first : sys.serving.log = p :: log)
    (call : applyCommand now sys.serving.node.db p.command = .ok ws) :
    ServeMove nodeId sys (.apply now) { sys with
      serving := { sys.serving with
        node := { sys.serving.node with db := applyAll sys.serving.node.db ws }
        log
        works := acknowledge sys.serving.works p.owner }
      applied := sys.applied ++ (lockOp p.command).toList }
  | stop {j i : Nat} {t : LockTask} {node : Node}
    (table : ∀ bucket key, node.db.get (lockKey bucket key) =
      sys.serving.node.db.get (lockKey bucket key))
    (kept : sys.guards j = some i) (found : sys.tasks i = some t) :
    ServeMove nodeId sys (.stop j) { sys.setStage i t .releasing with
      serving := { sys.serving with node, works := Function.update sys.serving.works j none }
      guards := Function.update sys.guards j none }
  | crash {serving : Serving} (node : serving.node = sys.serving.node) (log : serving.log = sys.serving.log)
    (works : ∀ j, serving.works j = none) :
    ServeMove nodeId sys .crash
      { sys with serving, counter := 0, tasks := fun _ => none, guards := fun _ => none }

theorem Locking.Sound.quiet (sound : sys.Sound nodeId) {serving : Serving}
    (table : ∀ bucket key, serving.node.db.get (lockKey bucket key) =
      sys.serving.node.db.get (lockKey bucket key))
    (works : ∀ j w, serving.works j = some w →
      ∃ v, sys.serving.works j = some v ∧ v.object = w.object)
    (next : serving.next = sys.serving.next)
    (log : ∀ p ∈ serving.log, p ∈ sys.serving.log ∨
      ∀ op, lockOp p.command = some op → (lockHolder op).nodeId ≠ nodeId) :
    Locking.Sound nodeId { sys with serving } where
  locks := by
    refine sound_inFlight sound.locks fun op member => ?_
    obtain ⟨p, there, same⟩ := List.mem_filterMap.1 member
    rcases log p there with old | foreign
    · exact .inl (List.mem_filterMap.2 ⟨p, old, same⟩)
    · right
      intro i t task names
      refine foreign op same ?_
      rw [← (sound.own i t task).2.1, holder_of_names names]
  own := sound.own
  table := sound.table.same table
  works j w there := by
    obtain ⟨v, before, object⟩ := works j w there
    rw [← object]
    exact sound.works j v before
  alone := sound.alone
  keeps j i kept := next ▸ sound.keeps j i kept

/-- The node applies the first command of its log. -/
theorem Locking.Sound.apply (sound : sys.Sound nodeId) {now : DateTime} {p : Proposal}
    {log : List Proposal} {ws : List (Write Value)} (first : sys.serving.log = p :: log)
    (call : applyCommand now sys.serving.node.db p.command = .ok ws) :
    Locking.Sound nodeId { sys with
      serving := { sys.serving with
        node := { sys.serving.node with db := applyAll sys.serving.node.db ws }
        log
        works := acknowledge sys.serving.works p.owner }
      applied := sys.applied ++ (lockOp p.command).toList } where
  locks := by
    have inFlight : (sys.locks nodeId).inFlight =
        (lockOp p.command).toList ++ log.filterMap fun p => lockOp p.command := by
      simp only [Locking.locks, first, List.filterMap_cons]
      cases lockOp p.command <;> rfl
    cases lock : lockOp p.command with
    | none =>
      rw [lock] at inFlight
      simp only [Option.toList_none, List.append_nil, Locking.locks]
      exact sound_inFlight sound.locks fun op member => .inl (by rw [inFlight]; exact member)
    | some op =>
      -- a lock command is committed and applied here in one step
      rw [lock] at inFlight
      have found : (sys.locks nodeId).inFlight[0]? = some op := by rw [inFlight]; rfl
      have applied := @LockSystem.Sound.apply _ (sound.locks.commit found) nodeId (by simp [Locking.locks])
      have rest : (sys.locks nodeId).inFlight.eraseIdx 0 = log.filterMap fun p => lockOp p.command := by
        rw [inFlight]
        rfl
      have count : Function.update (sys.locks nodeId).applied nodeId ((sys.locks nodeId).applied nodeId + 1) =
          fun node => if node = nodeId then (sys.applied ++ [op]).length else 0 := by
        funext node
        by_cases same : node = nodeId
        · subst same
          simp [Locking.locks]
        · simp [Locking.locks, same]
      simp only [rest, count] at applied
      exact applied
  own := sound.own
  table := sound.table.apply call
  works j w there := by
    rcases acknowledge_cases there with before | ⟨-, v, before, rfl⟩
    · exact sound.works j w before
    · rw [Work.acknowledged_object]
      exact sound.works j v before
  alone := sound.alone
  keeps := sound.keeps

/-- A request stops and its guard is dropped. -/
theorem Locking.Sound.stop (sound : sys.Sound nodeId) {j i : Nat} {t : LockTask} {node : Node}
    (table : ∀ bucket key, node.db.get (lockKey bucket key) =
      sys.serving.node.db.get (lockKey bucket key))
    (kept : sys.guards j = some i) (found : sys.tasks i = some t) :
    Locking.Sound nodeId { sys.setStage i t .releasing with
      serving := { sys.serving with node, works := Function.update sys.serving.works j none }
      guards := Function.update sys.guards j none } := by
  have fewer : ∀ k, k ≠ j → Function.update sys.guards j none k = sys.guards k :=
    fun k other => Function.update_of_ne other _ _
  have without : Locking.Sound nodeId { sys with
      serving := { sys.serving with node, works := Function.update sys.serving.works j none }
      guards := Function.update sys.guards j none } := by
    refine { sound with table := sound.table.same table, works := ?_, alone := ?_, keeps := ?_ }
    · intro k w there
      rcases update_spec there with ⟨-, never⟩ | ⟨other, there⟩
      · cases never
      · obtain ⟨i', u, kept', rest⟩ := sound.works k w there
        exact ⟨i', u, (fewer k other).trans kept', rest⟩
    · intro k k' i' one two
      rcases update_spec one with ⟨-, never⟩ | ⟨-, one⟩
      · cases never
      · rcases update_spec two with ⟨-, never⟩ | ⟨-, two⟩
        · cases never
        · exact sound.alone k k' i' one two
    · intro k i' one
      rcases update_spec one with ⟨-, never⟩ | ⟨-, one⟩
      · cases never
      · exact sound.keeps k i' one
  refine without.setStage found (fun never => absurd rfl never) (fun never => by cases never) ?_
  intro k w there same
  rcases update_spec same with ⟨-, never⟩ | ⟨other, same⟩
  · cases never
  · exact other (sound.alone k j i same kept)

/-- The handler that has the guard begins. -/
theorem Locking.Sound.start (sound : sys.Sound nodeId) {i : Nat} {t : LockTask} {w : Work}
    (found : sys.tasks i = some t) (held : t.stage = .held) (write : t.lockType = .write)
    (object : (t.bucket, t.key) = w.object) (valid : ValidBucket t.bucket)
    (unused : sys.unused i = true) :
    Locking.Sound nodeId { sys with
      serving := { sys.serving with
        works := Function.update sys.serving.works sys.serving.next (some w)
        next := sys.serving.next + 1 }
      guards := Function.update sys.guards sys.serving.next (some i) } := by
  refine { sound with works := ?_, alone := ?_, keeps := ?_ }
  · intro k v there
    rcases update_spec there with ⟨rfl, same⟩ | ⟨other, there⟩
    · cases same
      exact ⟨i, t, Function.update_self .., found, held, write, object, valid⟩
    · obtain ⟨i', u, kept, rest⟩ := sound.works k v there
      exact ⟨i', u, (Function.update_of_ne other _ _).trans kept, rest⟩
  · intro k k' i' one two
    rcases update_spec one with ⟨rfl, same⟩ | ⟨-, one⟩
    · cases same
      rcases update_spec two with ⟨rfl, -⟩ | ⟨-, two⟩
      · rfl
      · exact absurd two (unused_spec sound unused k')
    · rcases update_spec two with ⟨rfl, same⟩ | ⟨-, two⟩
      · cases same
        exact absurd one (unused_spec sound unused k)
      · exact sound.alone k k' i' one two
  · intro k i' one
    rcases update_spec one with ⟨rfl, -⟩ | ⟨-, one⟩
    · exact Nat.lt_succ_self _
    · exact Nat.lt_succ_of_lt (sound.keeps k i' one)

/-- A request keeps the only guard of its object. -/
theorem Locking.Sound.holds (sound : sys.Sound nodeId) {j : Nat} {w : Work}
    (there : sys.serving.works j = some w) : ∃ i t, sys.Holds j w i t := by
  obtain ⟨i, t, kept, task, held, write, object, -⟩ := sound.works j w there
  refine ⟨i, t, kept, task, held, write, object, fun i' u task' held' object' => ?_⟩
  have same : (u.bucket, u.key) = (t.bucket, t.key) := object'.trans object.symm
  obtain ⟨bucket, key⟩ := Prod.mk.inj same
  exact (sound.locks.exclusive i i' t u task task' held held' write bucket.symm key.symm).symm

/-- Whoever has a write guard that no request keeps finds its key unlocked in `Serving`. -/
theorem Locking.Sound.unlocked (sound : sys.Sound nodeId) {i : Nat} {t : LockTask}
    (found : sys.tasks i = some t) (held : t.stage = .held) (valid : ValidBucket t.bucket)
    (unused : sys.unused i = true) :
    sys.serving.unlocked (storageKey t.bucket t.key) = true := by
  rw [Serving.unlocked, List.all_eq_true]
  intro j _
  cases there : sys.serving.works j with
  | none => rfl
  | some w =>
    obtain ⟨i', u, kept, task, held', write, object, valid'⟩ := sound.works j w there
    have apart : w.storageKey ≠ storageKey t.bucket t.key := by
      rw [w.storageKey_eq, ← object]
      intro same
      -- bucket names have no slash, so the two are guards of one object
      obtain ⟨bucket, key⟩ := sep_inj valid'.no_slash valid.no_slash same
      have one := sound.locks.exclusive i' i u t task found held' held write bucket key
      exact unused_spec sound unused j (one ▸ kept)
    simpa using apart

theorem Locking.idle_sound {node : Node} {history : List LockOp} (table : LocksOf node.db history) :
    (Locking.idle node history).Sound nodeId where
  locks := {
    applied := fun node => by
      simp only [Locking.locks, Locking.idle]
      split <;> omega
    owns := fun i t there => by cases there
    held := fun i t there => by cases there
    distinct := fun i j t u there => by cases there }
  own i t there := by cases there
  table := table
  works j w there := by cases there
  alone j j' i there := by cases there
  keeps j i there := by cases there

end Serve

/-! ## Between restarts -/

section Fresh

variable {nodeId : NodeId} {sys : Locking}

theorem mem_of_holding {k : String} {h : LockHolder} {ops : List LockOp} {r : Option LockState}
    (held : Holding (ops.foldl (fun r op => op.on k r) r) h) :
    Holding r h ∨ ∃ op ∈ ops, lockHolder op = h := by
  induction ops generalizing r with
  | nil => exact .inl held
  | cons op ops ih =>
    rcases ih held with first | ⟨op', later, same⟩
    · rcases holding_on.1 first with before | ⟨l, acquires⟩
      · exact .inl before
      · refine .inr ⟨op, List.mem_cons_self, ?_⟩
        cases op with
        | acquire b k' l' h' => exact acquires.2.2
        | release b k' h' => exact acquires.elim
    · exact .inr ⟨op', List.mem_cons_of_mem _ later, same⟩

/-- The ids in the node's name, of tasks and of commands, are below its counter. -/
structure Locking.Numbered (nodeId : NodeId) (sys : Locking) : Prop where
  tasks : ∀ i t, sys.tasks i = some t → t.holder.lockId < sys.counter
  log : ∀ p ∈ sys.serving.log, ∀ op, lockOp p.command = some op →
    (lockHolder op).nodeId = nodeId → (lockHolder op).lockId < sys.counter
  applied : ∀ op ∈ sys.applied, (lockHolder op).nodeId = nodeId → (lockHolder op).lockId < sys.counter

theorem Locking.Numbered.fresh (numbered : sys.Numbered nodeId) (bucket key : String)
    (lockType : LockType) : FreshId nodeId sys (.acquire bucket key lockType) := by
  have applied : ∀ op ∈ sys.applied, lockHolder op ≠ ⟨nodeId, sys.counter⟩ := by
    intro op member same
    have below := numbered.applied op member (by rw [same])
    rw [same] at below
    exact lt_irrefl _ below
  refine ⟨fun i t there _ same => ?_, fun op member names => ?_, ?_⟩
  · have below := numbered.tasks i t there
    rw [same] at below
    exact lt_irrefl _ below
  · have same := holder_of_names names
    rcases List.mem_append.1 member with sent | later
    · obtain ⟨p, there, lock⟩ := List.mem_filterMap.1 sent
      have below := numbered.log p there op lock (by rw [same])
      rw [same] at below
      exact lt_irrefl _ below
    · exact applied op (List.mem_of_mem_drop later) same
  · rintro ⟨r, read, there⟩
    rw [LockSystem.table, lockTable_read] at read
    have held : Holding (lockRecord (lockKey bucket key) ((sys.locks nodeId).log.take
        ((sys.locks nodeId).applied nodeId))) ⟨nodeId, sys.counter⟩ := ⟨r, Except.ok.inj read, there⟩
    rcases mem_of_holding held with ⟨r', never, -⟩ | ⟨op, member, same⟩
    · cases never
    · exact applied op (List.mem_of_mem_take member) same

/-- The ids stay below a counter that has not gone back. -/
theorem Locking.Numbered.raise (numbered : sys.Numbered nodeId) {sys' : Locking}
    (counter : sys.counter ≤ sys'.counter)
    (tasks : ∀ i t, sys'.tasks i = some t → t.holder.lockId < sys'.counter ∨
      ∃ u, sys.tasks i = some u ∧ u.holder = t.holder)
    (log : ∀ p ∈ sys'.serving.log, p ∈ sys.serving.log ∨ ∀ op, lockOp p.command = some op →
      (lockHolder op).nodeId = nodeId → (lockHolder op).lockId < sys'.counter)
    (applied : ∀ op ∈ sys'.applied, op ∈ sys.applied ∨
      ∃ p ∈ sys.serving.log, lockOp p.command = some op) : sys'.Numbered nodeId where
  tasks i t there := by
    rcases tasks i t there with below | ⟨u, before, same⟩
    · exact below
    · have below := numbered.tasks i u before
      rw [same] at below
      exact below.trans_le counter
  log p member op lock own := by
    rcases log p member with before | below
    · exact (numbered.log p before op lock own).trans_le counter
    · exact below op lock own
  applied op member own := by
    rcases applied op member with before | ⟨p, sent, lock⟩
    · exact (numbered.applied op before own).trans_le counter
    · exact (numbered.log p sent op lock own).trans_le counter

theorem Locking.Numbered.setStage (numbered : sys.Numbered nodeId) {i : Nat} {t : LockTask}
    (found : sys.tasks i = some t) (stage : LockStage) : (sys.setStage i t stage).Numbered nodeId := by
  refine numbered.raise le_rfl (fun j u there => ?_) (fun p member => .inl member) fun op member => .inl member
  rcases update_spec there with ⟨rfl, same⟩ | ⟨-, there⟩
  · cases same
    exact .inr ⟨t, found, rfl⟩
  · exact .inr ⟨u, there, rfl⟩

/-- A task proposes a command in its own name. -/
theorem Locking.Numbered.push (numbered : sys.Numbered nodeId) {i : Nat} {t : LockTask}
    (found : sys.tasks i = some t) {op : LockOp} (own : lockHolder op = t.holder) :
    (sys.push op).Numbered nodeId := by
  refine numbered.raise le_rfl (fun j u there => .inr ⟨u, there, rfl⟩) (fun p member => ?_)
    fun op member => .inl member
  rcases List.mem_append.1 member with old | new
  · exact .inl old
  · right
    intro op' lock _
    rw [List.mem_singleton.1 new] at lock
    cases (lockOp_command op).symm.trans lock
    rw [own]
    exact numbered.tasks i t found

end Fresh

/-! ## Runs -/

section Runs

variable [Sha256] {s : ObjectStorage} {age : Nat} {nodeId : NodeId} {sys sys' : Locking}

omit [Sha256] in
/-- A valid request is for a valid bucket. -/
theorem validBucket_of_valid {request : Request} (valid : request.valid = true) :
    ValidBucket request.work.object.1 := by
  cases request with
  | put r =>
    simp only [Request.valid, Bool.and_eq_true, decide_eq_true_eq] at valid
    exact valid.1
  | complete r =>
    simp only [Request.valid, Bool.and_eq_true, decide_eq_true_eq] at valid
    exact valid.1
  | delete bucket key =>
    simp only [Request.valid, Bool.and_eq_true, decide_eq_true_eq] at valid
    exact valid.1

/-- Requests start under a guard only. -/
theorem Locking.ne_start_of_serve {event : NodeEvent} (step : sys.serve s age nodeId event = some sys')
    (r : Request) : event ≠ .start r := by
  rintro rfl
  obtain ⟨serving, -, step⟩ := Option.bind_eq_some_iff.1 step
  cases step

/-- A step of the node is a step of `Serving`, and does to the locks what `ServeMove` says. -/
theorem Locking.serve_cases {event : NodeEvent} (step : sys.serve s age nodeId event = some sys') :
    ServeMove nodeId sys event sys' ∧ sys.serving.step s age event = some sys'.serving := by
  obtain ⟨serving, moved, step⟩ := Option.bind_eq_some_iff.1 step
  cases event with
  | start r => cases step
  | advance j n =>
    cases step
    refine ⟨?_, moved⟩
    obtain ⟨w, found, moved⟩ := Option.bind_eq_some_iff.1 moved
    obtain ⟨next, taken, same⟩ := Option.bind_eq_some_iff.1 moved
    cases same
    obtain ⟨object, table⟩ := Work.advance_locks taken
    refine .quiet table (fun k v there => ?_) rfl fun p member => .inl member
    rcases update_spec there with ⟨rfl, same⟩ | ⟨-, there⟩
    · cases same
      exact ⟨w, found, object.symm⟩
    · exact ⟨v, there, rfl⟩
  | propose j =>
    cases step
    refine ⟨?_, moved⟩
    obtain ⟨w, found, moved⟩ := Option.bind_eq_some_iff.1 moved
    obtain ⟨command, waits, same⟩ := Option.bind_eq_some_iff.1 moved
    cases same
    refine .quiet (fun _ _ => rfl) (fun k v there => ⟨v, there, rfl⟩) rfl fun p member => ?_
    rcases List.mem_append.1 member with old | new
    · exact .inl old
    · rw [List.mem_singleton.1 new]
      exact .inr fun op lock => absurd lock (by simp [lockOp_of_waits waits])
  | submit command =>
    simp only at step
    split at step
    · rename_i foreign
      cases step
      refine ⟨?_, moved⟩
      simp only [Serving.step] at moved
      split at moved
      · cases moved
      · cases moved
        refine .quiet (fun _ _ => rfl) (fun k v there => ⟨v, there, rfl⟩) rfl fun p member => ?_
        rcases List.mem_append.1 member with old | new
        · exact .inl old
        · rw [List.mem_singleton.1 new]
          refine .inr fun op lock => ?_
          have lock : lockOp command = some op := lock
          rw [lock] at foreign
          simpa using foreign
    · cases step
  | apply now =>
    cases step
    refine ⟨?_, moved⟩
    simp only [Serving.step] at moved
    split at moved
    · cases moved
    · rename_i p log first
      split at moved
      · cases moved
      · rename_i ws call
        cases moved
        simp only [first, List.head?_cons, Option.bind_some]
        exact .apply first call
  | lose j =>
    cases step
    refine ⟨?_, moved⟩
    cases moved
    exact .quiet (fun _ _ => rfl) (fun k v there => ⟨v, there, rfl⟩) rfl fun p member =>
      .inl (List.mem_of_mem_eraseIdx member)
  | stop j =>
    obtain ⟨i, kept, step⟩ := Option.bind_eq_some_iff.1 step
    obtain ⟨t, found, step⟩ := Option.bind_eq_some_iff.1 step
    cases step
    refine ⟨?_, moved⟩
    obtain ⟨w, there, same⟩ := Option.bind_eq_some_iff.1 moved
    cases same
    exact .stop (fun _ _ => by rw [Work.dropped_db]) kept found
  | crash =>
    cases step
    refine ⟨?_, moved⟩
    cases moved
    exact .crash rfl rfl fun _ => rfl
  | gc event =>
    cases step
    refine ⟨?_, moved⟩
    obtain ⟨next, taken, same⟩ := Option.map_eq_some_iff.1 moved
    cases same
    refine .quiet (fun _ _ => ?_) (fun k v there => ⟨v, there, rfl⟩) rfl fun p member => .inl member
    exact congrArg (Store.get · _) (gcStep_db taken)

omit [Sha256] in
theorem Locking.Sound.serve (sound : sys.Sound nodeId) {event : NodeEvent}
    (move : ServeMove nodeId sys event sys') : sys'.Sound nodeId := by
  cases move with
  | quiet table works next log => exact sound.quiet table works next log
  | apply first call => exact sound.apply first call
  | stop table kept found => exact sound.stop table kept found
  | crash node log works =>
    refine ⟨?_, nofun, ?_, fun j w there => ?_, nofun, nofun⟩
    · have locks : LockSystem.Sound { sys.locks nodeId with
          tasks := fun _ => none
          counter := fun _ => 0 } := sound.locks.fewer nofun
      simpa only [Locking.locks, log] using locks
    · rw [node]
      exact sound.table
    · rw [works j] at there
      cases there

/-- A step changes nothing of `Serving` or is a step of it. -/
theorem Locking.Sound.step (sound : sys.Sound nodeId) {event : LockingEvent}
    (fresh : FreshId nodeId sys event) (step : sys.step s age nodeId event = some sys') :
    sys'.Sound nodeId ∧ (sys'.serving = sys.serving ∨
      ∃ e, sys.serving.step s age e = some sys'.serving ∧ ∀ r, e = .start r → ∃ i, event = .start i r) := by
  cases event with
  | acquire bucket key lockType =>
    cases step
    exact ⟨sound.acquire fresh, .inl rfl⟩
  | check i =>
    obtain ⟨t, found, step⟩ := Option.bind_eq_some_iff.1 step
    split at step
    · rename_i checks
      cases step
      have other : t.stage ≠ .held := by simp [checks.1]
      refine ⟨sound.setStage found (fun _ => ?_) ?_ (sound.idle_of_stage found other), .inl rfl⟩
      · simp [LockTask.Active, checks.1]
      · intro never
        cases never
    · cases step
  | proposeLock i =>
    obtain ⟨t, found, step⟩ := Option.bind_eq_some_iff.1 step
    have submits (op : LockOp) : sys.serving.step s age (.submit op.command) = some (sys.push op).serving := by
      cases op <;> rfl
    split at step
    · cases step
      refine ⟨sound.push found ?_ fun _ => ⟨rfl, rfl, rfl⟩, .inr ⟨_, submits _, by simp⟩⟩
      rintro k h ⟨lock, holder⟩
      exact ⟨lock, holder⟩
    · rename_i stage
      cases step
      refine ⟨sound.push found ?_ fun live => absurd stage live, .inr ⟨_, submits _, by simp⟩⟩
      rintro k h ⟨lock, holder⟩
      exact ⟨lock, holder⟩
    · cases step
  | verify i =>
    obtain ⟨t, found, step⟩ := Option.bind_eq_some_iff.1 step
    split at step
    · rename_i checks
      have other : t.stage ≠ .held := by simp [checks.1]
      have active : t.Active := by simp [LockTask.Active, checks.1]
      split at step
      · rename_i acquired
        cases step
        refine ⟨sound.setStage found (fun _ => active) (fun _ => ?_) (sound.idle_of_stage found other), .inl rfl⟩
        exact sound.table.holding acquired
      · cases step
        refine ⟨sound.setStage found (fun _ => active) ?_ (sound.idle_of_stage found other), .inl rfl⟩
        intro never
        cases never
    · cases step
  | drop i =>
    obtain ⟨t, found, step⟩ := Option.bind_eq_some_iff.1 step
    split at step
    · rename_i checks
      cases step
      refine ⟨sound.setStage found (fun never => absurd rfl never) ?_ fun j _ _ => ?_, .inl rfl⟩
      · intro never
        cases never
      · exact unused_spec sound checks.2 j
    · cases step
  | abandon i =>
    obtain ⟨t, found, step⟩ := Option.bind_eq_some_iff.1 step
    split at step
    · cases step
    · rename_i other
      cases step
      exact ⟨sound.abandon found other, .inl rfl⟩
  | start i request =>
    obtain ⟨t, found, step⟩ := Option.bind_eq_some_iff.1 step
    split at step
    · rename_i checks
      cases step
      obtain ⟨held, write, object, valid, unused⟩ := checks
      have bucket : ValidBucket t.bucket := by
        rw [show t.bucket = request.work.object.1 by rw [← object]]
        exact validBucket_of_valid valid
      refine ⟨sound.start found held write object bucket unused, .inr ⟨.start request, ?_, ?_⟩⟩
      · have free := sound.unlocked found held bucket unused
        have key : request.work.storageKey = storageKey t.bucket t.key := by
          rw [Work.storageKey_eq, ← object]
        rw [← key] at free
        simp [Serving.step, valid, free]
      · rintro r ⟨⟩
        exact ⟨i, rfl⟩
    · cases step
  | serve event =>
    obtain ⟨move, moved⟩ := serve_cases step
    exact ⟨sound.serve move, .inr ⟨event, moved, fun r same => absurd same (ne_start_of_serve step r)⟩⟩

/-- A run of the node is a run of `Serving` with the same requests. -/
theorem Locking.Sound.run {events : List LockingEvent} (sound : sys.Sound nodeId)
    (fresh : Along (Locking.step s age nodeId) (FreshId nodeId) sys events)
    (ran : exec (Locking.step s age nodeId) sys events = some sys') :
    sys'.Sound nodeId ∧ ∃ es, exec (Serving.step s age) sys.serving es = some sys'.serving ∧
      ∀ r, .start r ∈ es → ∃ i, .start i r ∈ events := by
  induction events generalizing sys with
  | nil =>
    cases ran
    exact ⟨sound, [], rfl, nofun⟩
  | cons event events ih =>
    obtain ⟨mid, step, rest⟩ := exec_cons.1 ran
    obtain ⟨here, later⟩ := fresh
    obtain ⟨after, moved⟩ := sound.step here step
    obtain ⟨final, es, run, starts⟩ := ih after (later mid step) rest
    refine ⟨final, ?_⟩
    have old (r : Request) (member : NodeEvent.start r ∈ es) : ∃ i, .start i r ∈ event :: events := by
      obtain ⟨i, there⟩ := starts r member
      exact ⟨i, List.mem_cons_of_mem _ there⟩
    rcases moved with same | ⟨e, moved, start⟩
    · exact ⟨es, same ▸ run, old⟩
    · refine ⟨e :: es, exec_cons.2 ⟨_, moved, run⟩, fun r member => ?_⟩
      rcases List.mem_cons.1 member with rfl | member
      · obtain ⟨i, rfl⟩ := start r rfl
        exact ⟨i, List.mem_cons_self⟩
      · exact old r member

omit [Sha256] in
def LockingEvent.acquires : LockingEvent → Bool
  | .acquire _ _ _ => true
  | _ => false

/-- A step that is no crash counts its acquisition and keeps ids below the counter. -/
theorem Locking.Numbered.step (numbered : sys.Numbered nodeId) {event : LockingEvent}
    (up : event ≠ .serve .crash) (few : sys.counter + 1 < u64Size ∨ event.acquires = false)
    (step : sys.step s age nodeId event = some sys') :
    sys'.Numbered nodeId ∧ sys'.counter = sys.counter + if event.acquires = true then 1 else 0 := by
  cases event with
  | acquire bucket key lockType =>
    cases step
    have count : u64Succ sys.counter = sys.counter + 1 :=
      Nat.mod_eq_of_lt (few.resolve_right (by simp [LockingEvent.acquires]))
    refine ⟨numbered.raise ?_ (fun j u there => ?_) (fun p member => .inl member)
      (fun op member => .inl member), ?_⟩
    · simp only [count]
      omega
    · rcases update_spec there with ⟨-, same⟩ | ⟨-, there⟩
      · cases same
        exact .inl (by simp only [count]; omega)
      · exact .inr ⟨u, there, rfl⟩
    · simp [count, LockingEvent.acquires]
  | check i =>
    obtain ⟨t, found, step⟩ := Option.bind_eq_some_iff.1 step
    split at step
    · cases step
      exact ⟨numbered.setStage found _, rfl⟩
    · cases step
  | proposeLock i =>
    obtain ⟨t, found, step⟩ := Option.bind_eq_some_iff.1 step
    split at step
    · cases step
      exact ⟨numbered.push found rfl, rfl⟩
    · cases step
      exact ⟨numbered.push found rfl, rfl⟩
    · cases step
  | verify i =>
    obtain ⟨t, found, step⟩ := Option.bind_eq_some_iff.1 step
    split at step
    · split at step
      · cases step
        exact ⟨numbered.setStage found _, rfl⟩
      · cases step
        exact ⟨numbered.setStage found _, rfl⟩
    · cases step
  | drop i =>
    obtain ⟨t, found, step⟩ := Option.bind_eq_some_iff.1 step
    split at step
    · cases step
      exact ⟨numbered.setStage found _, rfl⟩
    · cases step
  | abandon i =>
    obtain ⟨t, found, step⟩ := Option.bind_eq_some_iff.1 step
    split at step
    · cases step
    · cases step
      refine ⟨numbered.raise le_rfl (fun j u there => ?_) (fun p member => .inl member)
        (fun op member => .inl member), rfl⟩
      rcases update_spec there with ⟨-, never⟩ | ⟨-, there⟩
      · cases never
      · exact .inr ⟨u, there, rfl⟩
  | start i request =>
    obtain ⟨t, found, step⟩ := Option.bind_eq_some_iff.1 step
    split at step
    · cases step
      exact ⟨⟨numbered.tasks, numbered.log, numbered.applied⟩, rfl⟩
    · cases step
  | serve event =>
    obtain ⟨move, -⟩ := serve_cases step
    cases move with
    | quiet table works next log =>
      refine ⟨numbered.raise le_rfl (fun j u there => .inr ⟨u, there, rfl⟩) (fun p member => ?_)
        (fun op member => .inl member), rfl⟩
      rcases log p member with old | foreign
      · exact .inl old
      · exact .inr fun op lock own => absurd own (foreign op lock)
    | apply first call =>
      refine ⟨numbered.raise le_rfl (fun j u there => .inr ⟨u, there, rfl⟩) (fun p member => ?_)
        (fun op member => ?_), rfl⟩
      · rw [first]
        exact .inl (List.mem_cons_of_mem _ member)
      · rcases List.mem_append.1 member with old | new
        · exact .inl old
        · rw [first]
          exact .inr ⟨_, List.mem_cons_self, Option.mem_toList.1 new⟩
    | stop table kept found =>
      have moved := numbered.setStage found .releasing
      exact ⟨⟨moved.tasks, moved.log, moved.applied⟩, rfl⟩
    | crash node log works => exact absurd rfl up

/-- In a run without a crash, of fewer acquisitions than there are ids left, every id is fresh. -/
theorem Locking.Numbered.run {events : List LockingEvent} (numbered : sys.Numbered nodeId)
    (up : .serve .crash ∉ events)
    (few : sys.counter + events.countP LockingEvent.acquires < u64Size) :
    Along (Locking.step s age nodeId) (FreshId nodeId) sys events := by
  induction events generalizing sys with
  | nil => trivial
  | cons event events ih =>
    rw [List.mem_cons, not_or] at up
    rw [List.countP_cons] at few
    refine ⟨?_, fun sys' step => ?_⟩
    · cases event with
      | acquire bucket key lockType => exact numbered.fresh bucket key lockType
      | _ => trivial
    · have room : sys.counter + 1 < u64Size ∨ event.acquires = false := by
        cases acquires : event.acquires with
        | true => exact .inl (by simp only [acquires, if_true] at few; omega)
        | false => exact .inr rfl
      obtain ⟨after, counter⟩ := numbered.step (Ne.symm up.1) room step
      exact ih after up.2 (by omega)

/-- **Requests behind the lock manager.** From any node, with the locks it finds, if no
acquisition gets an id that an earlier one has left traces of: the handlers run as `Serving` says,
every request in progress keeps the only guard of its object, and object records keep their files. -/
theorem locking_requests (s : ObjectStorage) (age : Nat) (nodeId : NodeId) (node : Node)
    (history : List LockOp) (table : LocksOf node.db history) (events : List LockingEvent)
    (fresh : Along (Locking.step s age nodeId) (FreshId nodeId) (Locking.idle node history) events)
    {sys : Locking}
    (ran : exec (Locking.step s age nodeId) (Locking.idle node history) events = some sys) :
    (∃ es, exec (Serving.step s age) (Serving.idle node) es = some sys.serving ∧
      ∀ r, .start r ∈ es → ∃ i, .start i r ∈ events) ∧
    (∀ j w, sys.serving.works j = some w → ∃ i t, sys.Holds j w i t) ∧
    ∀ keys, Distinct keys → ServerIds s.basePath node.db →
      (∀ key v, node.db.get (recordKey key) = some v → key ∈ keys) →
      (∀ i r, .start i r ∈ events → r.work.storageKey ∈ keys) →
      NoPhantoms s node → NoPhantoms s sys.serving.node := by
  obtain ⟨sound, es, run, starts⟩ := (Locking.idle_sound table).run fresh ran
  refine ⟨⟨es, run, starts⟩, fun j w there => sound.holds there, ?_⟩
  intro keys distinct ids known within start
  have initial : (Serving.idle node).Sound s keys :=
    Serving.idle_sound ids fun key v there => ⟨known key v there, Fs.hasFile_iff_read.2 (start key v there)⟩
  have inside : ∀ e ∈ es, Within keys e := by
    intro e member
    cases e with
    | start r =>
      obtain ⟨i, there⟩ := starts r member
      exact within i r there
    | _ => trivial
  have kept : sys.serving.Sound s keys :=
    exec_invariant (fun _ _ _ sound here step => Serving.Sound.step distinct sound here step) initial
      (along_of_mem (fun e member _ => inside e member) _) run
  intro key v there
  exact Fs.hasFile_iff_read.1 (kept.records key v there).2

end Runs

/-- A write of `abc/k` behind its lock, to the end of the release. -/
def lockingEvents : List LockingEvent :=
  [.acquire "abc" "k" .write, .check 0, .proposeLock 0, .serve (.apply 8), .verify 0,
    .start 0 (.put ⟨"abc", "k", [1], true, 9⟩)] ++
    List.replicate 9 (.serve (.advance 0 0)) ++
    [.serve (.propose 0), .serve (.apply 10), .serve (.stop 0), .proposeLock 0, .serve (.apply 11), .abandon 0]

/-- The object is there, and its lock is free again. -/
theorem locking_requests_sample :
    letI : Sha256 := Sha256.sampled
    ∃ sys, exec (Locking.step sampleStorage 3600 1) (Locking.idle ⟨Store.empty, Fs.empty⟩ [])
        lockingEvents = some sys ∧
      (sys.serving.node.db.get (recordKey "abc/k")).isSome = true ∧
      (sys.serving.node.db.get (lockKey "abc" "k")).isNone = true ∧
      NoPhantoms sampleStorage sys.serving.node := by
  let _ : Sha256 := Sha256.sampled
  have seen : (exec (Locking.step sampleStorage 3600 1) (Locking.idle ⟨Store.empty, Fs.empty⟩ [])
      lockingEvents).map (fun sys => ((sys.serving.node.db.get (recordKey "abc/k")).isSome,
        (sys.serving.node.db.get (lockKey "abc" "k")).isNone)) = some (true, true) := by
    decide +kernel
  obtain ⟨sys, ran, same⟩ := Option.map_eq_some_iff.1 seen
  obtain ⟨recorded, released⟩ := Prod.mk.inj same
  have numbered : (Locking.idle ⟨Store.empty, Fs.empty⟩ []).Numbered 1 := by
    refine ⟨fun i t there => ?_, fun p member => ?_, fun op member => ?_⟩
    · cases there
    · cases member
    · cases member
  have fresh : Along (Locking.step sampleStorage 3600 1) (FreshId 1)
      (Locking.idle ⟨Store.empty, Fs.empty⟩ []) lockingEvents :=
    numbered.run (by simp [lockingEvents]) (by decide)
  obtain ⟨-, -, phantoms⟩ := locking_requests sampleStorage 3600 1 ⟨Store.empty, Fs.empty⟩ []
    (fun bucket key => by simp [lockRecord]) lockingEvents fresh ran
  refine ⟨sys, ran, recorded, released, phantoms {"abc/k"} ?_ ?_ ?_ ?_ ?_⟩
  · intro a ha b hb _
    cases ha
    cases hb
    rfl
  · constructor <;> intro k u there <;> simp at there
  · intro key v there
    simp at there
  · intro i r member
    simp only [lockingEvents, List.cons_append, List.mem_cons, List.mem_append, List.mem_replicate,
      List.nil_append, List.not_mem_nil, or_false] at member
    rcases member with h | h | h | h | h | h | ⟨-, h⟩ | h | h | h | h | h | h <;> cases h
    rfl
  · intro key v there
    simp at there

end Save.Api
