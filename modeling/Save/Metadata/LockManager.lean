import Save.Lib.Run
import Save.Metadata.Locks
import Save.Metadata.LogStore

/-!
# The distributed lock manager

`DistributedLockManager` (`lock.rs`) on any number of nodes over one replicated log
of lock commands. An acquisition takes a holder id from the node's counter, checks
the node's own table, proposes `AcquireLock`, and has its guard when the holder
shows in the node's table; a dropped guard leaves a task that proposes
`ReleaseLock`. Proposals may be committed late, in any order, or be lost; nodes
apply the log at their own pace; a crash takes the node's tasks and guards and its
counter with it.

`LockMove` lists what a step can do, with its guards, and the modules on exclusion,
on leaks and on progress prove their invariants by cases on it. The record of one
lock is a function of the log (`lockRecord`), whatever the commands on the others
do.
-/

namespace Save.Metadata
set_option autoImplicit false
open Save.Kv Save.Run

/-- Where an acquisition or a guard is. -/
inductive LockStage where
  | checking
  /-- `raft_node.acquire_lock` is under way. -/
  | writing
  /-- The guard is alive. -/
  | held
  /-- The guard is dropped; its task calls `raft_node.release_lock`. -/
  | releasing
  deriving DecidableEq, Repr

/-- A call of `acquire_lock_internal`, and then its guard. -/
structure LockTask where
  node : NodeId
  bucket : String
  key : String
  lockType : LockType
  holder : LockHolder
  stage : LockStage
  deriving DecidableEq, Repr

/-- The lock a task is for. -/
def LockTask.lock (t : LockTask) : String := lockKey t.bucket t.key

def LockTask.acquireOp (t : LockTask) : LockOp := .acquire t.bucket t.key t.lockType t.holder

def LockTask.releaseOp (t : LockTask) : LockOp := .release t.bucket t.key t.holder

structure LockSystem where
  /-- The committed lock commands. -/
  log : List LockOp
  /-- Proposed and neither committed nor lost. -/
  inFlight : List LockOp
  /-- How much of the log a node has applied. -/
  applied : NodeId → Nat
  /-- `lock_counter`. -/
  counter : NodeId → Nat
  tasks : Nat → Option LockTask
  next : Nat

def LockSystem.start : LockSystem := ⟨[], [], fun _ => 0, fun _ => 0, fun _ => none, 0⟩

/-- The table after the commands. -/
def lockTable (ops : List LockOp) : Store Value :=
  match applyLocks Store.empty ops with
  | .ok db => db
  | .error _ => Store.empty

/-- The lock table in a node's database. -/
def LockSystem.table (sys : LockSystem) (node : NodeId) : Store Value :=
  lockTable (sys.log.take (sys.applied node))

def canAcquireLocally (db : Store Value) (t : LockTask) : Bool :=
  match getLockState db t.bucket t.key with
  | .ok none => true
  | .ok (some s) => s.canAcquire t.lockType t.holder
  | .error _ => false

/-- The check after the write: the holder is in the record. -/
def acquiredLocally (db : Store Value) (t : LockTask) : Bool :=
  match getLockState db t.bucket t.key with
  | .ok (some s) => s.isHeldBy t.holder
  | _ => false

inductive LockEvent where
  | acquire (node : NodeId) (bucket key : String) (lockType : LockType)
  | check (i : Nat)
  /-- A proposal of `write_with_retry`, the first or a later one. -/
  | propose (i : Nat)
  /-- The write has returned: the command is applied here. -/
  | verify (i : Nat)
  | drop (i : Nat)
  /-- An acquisition times out, fails or is cancelled, or a release task ends. -/
  | stop (i : Nat)
  | commit (j : Nat)
  | lose (j : Nat)
  | apply (node : NodeId)
  | crash (node : NodeId)

def LockSystem.setStage (sys : LockSystem) (i : Nat) (t : LockTask) (stage : LockStage) : LockSystem :=
  { sys with tasks := Function.update sys.tasks i (some { t with stage }) }

def LockSystem.step (sys : LockSystem) : LockEvent → Option LockSystem
  | .acquire node bucket key lockType =>
    some { sys with
      counter := Function.update sys.counter node (u64Succ (sys.counter node))
      tasks := Function.update sys.tasks sys.next
        (some ⟨node, bucket, key, lockType, ⟨node, sys.counter node⟩, .checking⟩)
      next := sys.next + 1 }
  | .check i => do
    let t ← sys.tasks i
    if t.stage = .checking ∧ canAcquireLocally (sys.table t.node) t = true then
      some (sys.setStage i t .writing)
    else none
  | .propose i => do
    let t ← sys.tasks i
    match t.stage with
    | .writing => some { sys with inFlight := sys.inFlight ++ [t.acquireOp] }
    | .releasing => some { sys with inFlight := sys.inFlight ++ [t.releaseOp] }
    | _ => none
  | .verify i => do
    let t ← sys.tasks i
    if t.stage = .writing ∧ t.acquireOp ∈ sys.log.take (sys.applied t.node) then
      if acquiredLocally (sys.table t.node) t then some (sys.setStage i t .held)
      else some (sys.setStage i t .checking)
    else none
  | .drop i => do
    let t ← sys.tasks i
    if t.stage = .held then some (sys.setStage i t .releasing) else none
  | .stop i => do
    let t ← sys.tasks i
    if t.stage = .held then none else some { sys with tasks := Function.update sys.tasks i none }
  | .commit j => do
    let op ← sys.inFlight[j]?
    some { sys with log := sys.log ++ [op], inFlight := sys.inFlight.eraseIdx j }
  | .lose j => do
    let _ ← sys.inFlight[j]?
    some { sys with inFlight := sys.inFlight.eraseIdx j }
  | .apply node =>
    if sys.applied node < sys.log.length then
      some { sys with applied := Function.update sys.applied node (sys.applied node + 1) }
    else none
  | .crash node =>
    some { sys with
      counter := Function.update sys.counter node 0
      tasks := fun i => (sys.tasks i).filter fun t => t.node != node }

/-- What an event does. -/
inductive LockMove (sys : LockSystem) : LockEvent → LockSystem → Prop where
  | acquire (node : NodeId) (bucket key : String) (lockType : LockType) :
    LockMove sys (.acquire node bucket key lockType) { sys with
      counter := Function.update sys.counter node (u64Succ (sys.counter node))
      tasks := Function.update sys.tasks sys.next
        (some ⟨node, bucket, key, lockType, ⟨node, sys.counter node⟩, .checking⟩)
      next := sys.next + 1 }
  | check {i : Nat} {t : LockTask} (found : sys.tasks i = some t) (stage : t.stage = .checking) :
    LockMove sys (.check i) (sys.setStage i t .writing)
  | proposeAcquire {i : Nat} {t : LockTask} (found : sys.tasks i = some t)
    (stage : t.stage = .writing) :
    LockMove sys (.propose i) { sys with inFlight := sys.inFlight ++ [t.acquireOp] }
  | proposeRelease {i : Nat} {t : LockTask} (found : sys.tasks i = some t)
    (stage : t.stage = .releasing) :
    LockMove sys (.propose i) { sys with inFlight := sys.inFlight ++ [t.releaseOp] }
  | guard {i : Nat} {t : LockTask} (found : sys.tasks i = some t) (stage : t.stage = .writing)
    (there : acquiredLocally (sys.table t.node) t = true) :
    LockMove sys (.verify i) (sys.setStage i t .held)
  | retry {i : Nat} {t : LockTask} (found : sys.tasks i = some t) (stage : t.stage = .writing) :
    LockMove sys (.verify i) (sys.setStage i t .checking)
  | drop {i : Nat} {t : LockTask} (found : sys.tasks i = some t) :
    LockMove sys (.drop i) (sys.setStage i t .releasing)
  | stop {i : Nat} {t : LockTask} (found : sys.tasks i = some t) :
    LockMove sys (.stop i) { sys with tasks := Function.update sys.tasks i none }
  | commit {j : Nat} {op : LockOp} (found : sys.inFlight[j]? = some op) :
    LockMove sys (.commit j)
      { sys with log := sys.log ++ [op], inFlight := sys.inFlight.eraseIdx j }
  | lose (j : Nat) : LockMove sys (.lose j) { sys with inFlight := sys.inFlight.eraseIdx j }
  | apply {node : NodeId} (behind : sys.applied node < sys.log.length) :
    LockMove sys (.apply node)
      { sys with applied := Function.update sys.applied node (sys.applied node + 1) }
  | crash (node : NodeId) :
    LockMove sys (.crash node) { sys with
      counter := Function.update sys.counter node 0
      tasks := fun i => (sys.tasks i).filter fun t => t.node != node }

theorem LockSystem.step_cases {sys sys' : LockSystem} {event : LockEvent}
    (step : sys.step event = some sys') : LockMove sys event sys' := by
  cases event with
  | acquire node bucket key lockType =>
    cases step
    exact .acquire node bucket key lockType
  | check i =>
    obtain ⟨t, found, step⟩ := Option.bind_eq_some_iff.1 step
    split at step
    · rename_i checks
      cases step
      exact .check found checks.1
    · cases step
  | propose i =>
    obtain ⟨t, found, step⟩ := Option.bind_eq_some_iff.1 step
    split at step
    · rename_i stage
      cases step
      exact .proposeAcquire found stage
    · rename_i stage
      cases step
      exact .proposeRelease found stage
    · cases step
  | verify i =>
    obtain ⟨t, found, step⟩ := Option.bind_eq_some_iff.1 step
    split at step
    · rename_i checks
      split at step
      · rename_i there
        cases step
        exact .guard found checks.1 there
      · cases step
        exact .retry found checks.1
    · cases step
  | drop i =>
    obtain ⟨t, found, step⟩ := Option.bind_eq_some_iff.1 step
    split at step
    · cases step
      exact .drop found
    · cases step
  | stop i =>
    obtain ⟨t, found, step⟩ := Option.bind_eq_some_iff.1 step
    split at step
    · cases step
    · cases step
      exact .stop found
  | commit j =>
    obtain ⟨op, found, step⟩ := Option.bind_eq_some_iff.1 step
    cases step
    exact .commit found
  | lose j =>
    obtain ⟨op, -, step⟩ := Option.bind_eq_some_iff.1 step
    cases step
    exact .lose j
  | apply node =>
    simp only [LockSystem.step] at step
    split at step
    · rename_i behind
      cases step
      exact .apply behind
    · cases step
  | crash node =>
    cases step
    exact .crash node

theorem update_tasks {sys : LockSystem} {i j : Nat} {t' : Option LockTask} {u : LockTask}
    (there : Function.update sys.tasks i t' j = some u) :
    (j = i ∧ t' = some u) ∨ (j ≠ i ∧ sys.tasks j = some u) := by
  by_cases same : j = i
  · subst same
    rw [Function.update_self] at there
    exact .inl ⟨rfl, there⟩
  · rw [Function.update_of_ne same] at there
    exact .inr ⟨same, there⟩

/-- Tasks are numbered in the order they start. -/
def LockSystem.Numbered (sys : LockSystem) : Prop := ∀ i t, sys.tasks i = some t → i < sys.next

theorem LockSystem.Numbered.update {sys : LockSystem} (numbered : sys.Numbered) {i : Nat}
    {t : LockTask} (found : sys.tasks i = some t) (t' : Option LockTask) :
    LockSystem.Numbered { sys with tasks := Function.update sys.tasks i t' } := by
  intro j u there
  rcases update_tasks there with ⟨rfl, -⟩ | ⟨-, there⟩
  · exact numbered j t found
  · exact numbered j u there

theorem LockSystem.Numbered.step {sys sys' : LockSystem} (numbered : sys.Numbered)
    {event : LockEvent} (move : LockMove sys event sys') : sys'.Numbered := by
  cases move with
  | acquire node bucket key lockType =>
    intro j u there
    rcases update_tasks there with ⟨rfl, -⟩ | ⟨-, there⟩
    · exact Nat.lt_succ_self _
    · exact (numbered j u there).trans (Nat.lt_succ_self _)
  | check found => exact numbered.update found _
  | guard found => exact numbered.update found _
  | retry found => exact numbered.update found _
  | drop found => exact numbered.update found _
  | stop found => exact numbered.update found _
  | crash node => exact fun j u there => numbered j u (Option.filter_eq_some_iff.1 there).1
  | _ => exact numbered

/-! ## One lock over the log -/

/-- What a command does to the record under `k`. -/
def LockOp.on (k : String) (s : Option LockState) : LockOp → Option LockState
  | .acquire bucket key lockType holder =>
    if lockKey bucket key = k then some (acquired lockType holder s) else s
  | .release bucket key holder => if lockKey bucket key = k then released holder s else s

/-- The record under `k` after the commands. -/
def lockRecord (k : String) (ops : List LockOp) : Option LockState :=
  ops.foldl (fun s op => op.on k s) none

theorem lockRecord_append (k : String) (ops ops' : List LockOp) :
    lockRecord k (ops ++ ops') = ops'.foldl (fun s op => op.on k s) (lockRecord k ops) :=
  List.foldl_append

/-- A command that changes the record under `c` by `f`, as seen under any key. -/
theorem Sets.get_on {db : Store Value} {ws : List (Write Value)} {c k : String}
    {f : Option LockState → Option LockState} {s s' : Option LockState}
    (sets : Sets db ws c ((f s').map .lock)) (there : db.get c = s'.map .lock)
    (stored : db.get k = s.map .lock) :
    (applyAll db ws).get k = (if c = k then f s else s).map .lock := by
  rw [sets.2]
  split
  · rename_i same
    rw [same, stored] at there
    have injective : Function.Injective (Option.map Value.lock) :=
      Option.map_injective fun _ _ same => by cases same; rfl
    rw [injective there]
  · exact stored

theorem applyLocks_get {db db' : Store Value} (table : LockTable db) {ops : List LockOp}
    (ran : applyLocks db ops = .ok db') {k : String} {s : Option LockState}
    (stored : db.get k = s.map .lock) :
    db'.get k = (ops.foldl (fun s op => op.on k s) s).map .lock := by
  induction ops generalizing db s with
  | nil =>
    cases ran
    exact stored
  | cons op ops ih =>
    cases op with
    | acquire bucket key lockType holder =>
      obtain ⟨s', ws, -, call, sets, there, after⟩ := table.acquire bucket key lockType holder
      have applied : applyCommand 0 db (LockOp.acquire bucket key lockType holder).command = .ok ws := by
        simp [LockOp.command, applyCommand, call, Except.map, Except.mapError]
      simp only [applyLocks, applied] at ran
      exact ih after ran (Sets.get_on (f := fun s => some (acquired lockType holder s)) sets there stored)
    | release bucket key holder =>
      obtain ⟨s', ws, -, call, sets, there, after⟩ := table.release bucket key holder
      have applied : applyCommand 0 db (LockOp.release bucket key holder).command = .ok ws := by
        simp [LockOp.command, applyCommand, call, Except.mapError]
      simp only [applyLocks, applied] at ran
      exact ih after ran (sets.get_on there stored)

theorem lockTable_get (ops : List LockOp) (k : String) :
    (lockTable ops).get k = (lockRecord k ops).map .lock := by
  obtain ⟨db, ran, -⟩ := LockTable.empty.run ops
  rw [lockTable, ran]
  exact applyLocks_get LockTable.empty ran (s := none) (by simp)

theorem lockTable_read (ops : List LockOp) (bucket key : String) :
    getLockState (lockTable ops) bucket key = .ok (lockRecord (lockKey bucket key) ops) := by
  unfold getLockState
  rw [lockTable_get]
  cases lockRecord (lockKey bucket key) ops <;> rfl

theorem lockRecord_valid {ops : List LockOp} {k : String} {s : LockState}
    (record : lockRecord k ops = some s) : s.Valid := by
  obtain ⟨db, ran, table⟩ := LockTable.empty.run ops
  have stored : db.get k = (lockRecord k ops).map .lock :=
    applyLocks_get LockTable.empty ran (s := none) (by simp)
  rw [record] at stored
  obtain ⟨s', same, valid⟩ := table k _ stored
  cases same
  exact valid

/-! ## Holders -/

/-- The holder is in the record. -/
def Holding (s : Option LockState) (holder : LockHolder) : Prop :=
  ∃ s', s = some s' ∧ holder ∈ s'.holders

/-- A command on the lock `k` with this holder. -/
def LockOp.Names (k : String) (holder : LockHolder) : LockOp → Prop
  | .acquire bucket key _ h => lockKey bucket key = k ∧ h = holder
  | .release bucket key h => lockKey bucket key = k ∧ h = holder

/-- An acquisition of the lock `k` with this type and holder. -/
def LockOp.Acquires (k : String) (lockType : LockType) (holder : LockHolder) : LockOp → Prop
  | .acquire bucket key l h => lockKey bucket key = k ∧ l = lockType ∧ h = holder
  | .release _ _ _ => False

/-- A release of the lock `k` by this holder. -/
def LockOp.Releases (k : String) (holder : LockHolder) : LockOp → Prop
  | .acquire _ _ _ _ => False
  | .release bucket key h => lockKey bucket key = k ∧ h = holder

theorem released_holding {holder h : LockHolder} {s : Option LockState} :
    Holding (released holder s) h ↔ Holding s h ∧ h ≠ holder := by
  cases s with
  | none => simp [Holding, released]
  | some s =>
    simp only [Holding, released_some, Option.some.injEq, exists_eq_left']
    split
    · rename_i all
      constructor
      · rintro ⟨s', left, -⟩
        cases left
      · rintro ⟨there, other⟩
        exact absurd (all h there) other
    · simp

/-- The holders after a command: an acquisition adds its own at most, a release removes
its own. -/
theorem holding_on {k : String} {s : Option LockState} {op : LockOp} {h : LockHolder} :
    (Holding (op.on k s) h → Holding s h ∨ ∃ l, op.Acquires k l h) ∧
      (Holding s h → ¬ op.Releases k h → Holding (op.on k s) h) ∧
      (op.Releases k h → ¬ Holding (op.on k s) h) := by
  cases op with
  | acquire bucket key lockType holder =>
    simp only [LockOp.on, LockOp.Acquires, LockOp.Releases]
    refine ⟨?_, ?_, fun never => never.elim⟩
    · split
      · rename_i same
        rintro ⟨s', new, there⟩
        cases new
        rcases mem_acquired.1 there with ⟨s', rfl, old⟩ | ⟨rfl, -⟩
        · exact .inl ⟨s', rfl, old⟩
        · exact .inr ⟨lockType, same, rfl, rfl⟩
      · exact .inl
    · rintro ⟨s', rfl, there⟩ -
      split
      · exact ⟨_, rfl, mem_acquired.2 (.inl ⟨s', rfl, there⟩)⟩
      · exact ⟨s', rfl, there⟩
  | release bucket key holder =>
    simp only [LockOp.on, LockOp.Acquires, LockOp.Releases]
    refine ⟨?_, ?_, ?_⟩
    · split
      · intro after
        exact .inl (released_holding.1 after).1
      · exact .inl
    · intro before other
      split
      · rename_i same
        refine released_holding.2 ⟨before, fun own => other ⟨same, own.symm⟩⟩
      · exact before
    · rintro ⟨same, rfl⟩
      rw [if_pos same]
      exact fun after => (released_holding.1 after).2 rfl

/-- A holder stays through commands that do not release it. -/
theorem holding_foldl {k : String} {h : LockHolder} {ops : List LockOp} {s : Option LockState}
    (before : Holding s h) (kept : ∀ op ∈ ops, ¬ op.Releases k h) :
    Holding (ops.foldl (fun s op => op.on k s) s) h := by
  induction ops generalizing s with
  | nil => exact before
  | cons op ops ih =>
    refine ih (holding_on.2.1 before (kept op List.mem_cons_self)) ?_
    exact fun op' member => kept op' (List.mem_cons_of_mem _ member)

/-- A writer's record is a write record, as far as the writer is in it. -/
def WritesAlone (lockType : LockType) (h : LockHolder) (s : Option LockState) : Prop :=
  ∀ s', s = some s' → h ∈ s'.holders → lockType = .write → s'.lockType = .write

theorem writesAlone_on {k : String} {lockType : LockType} {h : LockHolder} {s : Option LockState}
    (before : WritesAlone lockType h s) {op : LockOp}
    (own : op.Names k h → op.Acquires k lockType h) : WritesAlone lockType h (op.on k s) := by
  cases op with
  | acquire bucket key l holder =>
    simp only [LockOp.on]
    split
    · rename_i same
      rintro s' ⟨⟩ there exclusive
      by_cases mine : holder = h
      · obtain ⟨-, rfl, -⟩ := own ⟨same, mine⟩
        subst mine exclusive
        cases s with
        | none => rfl
        | some s =>
          -- a writer joins no record: it is in it already or stays out
          have granted := acquired_granted.1 there
          simp only [acquired]
          split
          · rename_i held
            exact before s rfl (isHeldBy_iff.1 held) rfl
          · rename_i other
            have refused : s.canAcquire .write holder = false := by
              have free : s.holders.any (· == holder) = false := Bool.eq_false_iff.2 other
              cases kind : s.lockType <;> simp [LockState.canAcquire, free, kind]
            rw [show grants .write holder (some s) = s.canAcquire .write holder from rfl, refused]
              at granted
            cases granted
      · rcases mem_acquired.1 there with ⟨s, rfl, old⟩ | ⟨rfl, -⟩
        · have kind := before s rfl old exclusive
          simp only [acquired]
          split
          · exact kind
          · split
            · exact kind
            · exact kind
        · exact absurd rfl mine
    · exact before
  | release bucket key holder =>
    simp only [LockOp.on]
    split
    · intro s' left there exclusive
      cases s with
      | none => cases left
      | some s =>
        have old : Holding (some s) h := (released_holding.1 ⟨s', left, there⟩).1
        obtain ⟨s₀, same, old⟩ := old
        cases same
        have kind := before s rfl old exclusive
        rw [released_some] at left
        split at left
        · cases left
        · cases left
          exact kind
    · exact before

theorem writesAlone_foldl {k : String} {lockType : LockType} {h : LockHolder} {ops : List LockOp}
    {s : Option LockState} (before : WritesAlone lockType h s)
    (own : ∀ op ∈ ops, op.Names k h → op.Acquires k lockType h) :
    WritesAlone lockType h (ops.foldl (fun s op => op.on k s) s) := by
  induction ops generalizing s with
  | nil => exact before
  | cons op ops ih =>
    refine ih (writesAlone_on before (own op List.mem_cons_self)) ?_
    exact fun op' member => own op' (List.mem_cons_of_mem _ member)

end Save.Metadata
