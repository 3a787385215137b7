import Save.Metadata.Recovery
import Save.Metadata.Multipart
import Save.Lib.Run

/-!
# Handlers on the leader

The requests that put commands into the Raft log, as they run on the leader (the
modules of `handlers`, and `write_with_retry` of `raft/node.rs`): a handler reads
the applied state, then proposes, and between the two (and between a proposal and
its application) any other handler may act. A task is a handler at one of its
awaits; `propose` may be taken again for the same task, as `write_with_retry`
proposes again. A request whose names do not pass validation is answered at once and
is not a task.

`committed_apply` is about every run in which a `CreateBucket` is proposed only
while the log, after what the handler's look-up has seen, does not create the
bucket: then every entry of the log applies, on every replica, in any batches.
-/

namespace Save.Api
set_option autoImplicit false
open Save.Text Save.Kv Save.Common Save.Metadata Save.Cells Save.Run

/-- What an object request does under its lock. -/
inductive ObjectOp where
  | put (metadata : ObjectMetadata)
  | delete (bucket key : String)
  | complete (uploadId : String) (metadata : ObjectMetadata)
  | get (bucket key : String)
  deriving DecidableEq, Repr

def ObjectOp.bucket : ObjectOp → String
  | .put metadata => metadata.bucket
  | .delete bucket _ => bucket
  | .complete _ metadata => metadata.bucket
  | .get bucket _ => bucket

def ObjectOp.key : ObjectOp → String
  | .put metadata => metadata.key
  | .delete _ key => key
  | .complete _ metadata => metadata.key
  | .get _ key => key

def ObjectOp.lockType : ObjectOp → LockType
  | .get _ _ => .read
  | _ => .write

/-- The command the handler submits; a read submits none. -/
def ObjectOp.command : ObjectOp → Option Command
  | .put metadata => some (.putObjectMetadata metadata)
  | .delete bucket key => some (.deleteObjectMetadata bucket key)
  | .complete _ metadata => some (.putObjectMetadata metadata)
  | .get _ _ => none

/-- A running handler, at the await it is in. -/
inductive Task where
  /-- `create_bucket` before its look-up. -/
  | createBucket (name : String)
  /-- `create_bucket` in its Raft write; its look-up saw the first `seen` log entries. -/
  | createBucketWrite (bucket : Bucket) (seen : Nat)
  | deleteBucket (name : String)
  | deleteBucketList (name : String)
  | deleteBucketWrite (name : String)
  /-- The loop of `acquire_lock_internal`. -/
  | lock (op : ObjectOp) (holder : LockHolder)
  /-- The lock is held; the handler's own look-up comes next. -/
  | locked (op : ObjectOp) (holder : LockHolder)
  | objectWrite (op : ObjectOp) (holder : LockHolder)
  /-- The guard is dropped: `release_lock` is being written. -/
  | release (bucket key : String) (holder : LockHolder)
  deriving DecidableEq, Repr

/-- The leader: its applied database, the committed log, how much of it is applied, the
unexpired bucket cache, and the handlers in flight. -/
structure Leader where
  leaderId : LeaderId
  db : Db
  log : List Entry
  applied : Nat
  bucketCache : List String
  tasks : List Task

def Leader.init (leaderId : LeaderId) : Leader := ⟨leaderId, Db.empty, [], 0, [], []⟩

inductive Event where
  | createBucket (name : String)
  | deleteBucket (name : String)
  | object (op : ObjectOp) (holder : LockHolder)
  /-- Task `i` makes the look-up it is at, with this clock reading. -/
  | look (i : Nat) (now : DateTime)
  /-- Task `i` proposes the command it is at. -/
  | propose (i : Nat)
  /-- Task `i` sees its write answered. -/
  | answered (i : Nat)
  /-- Task `i` ends with an error, times out or is dropped. -/
  | fail (i : Nat)
  /-- The next log entry is applied. -/
  | apply (now : DateTime)
  /-- An entry of Raft's own. -/
  | raft (payload : EntryPayload)
  /-- A write of the multipart functions. -/
  | multipart (w : Write Value)
  /-- A cache entry expires. -/
  | expire (name : String)
  deriving DecidableEq, Repr

def Leader.append (s : Leader) (payload : EntryPayload) : Leader :=
  { s with log := s.log ++ [⟨⟨s.leaderId, s.log.length + 1⟩, payload⟩] }

def Leader.setTask (s : Leader) (i : Nat) (t : Task) : Leader := { s with tasks := s.tasks.set i t }

def Leader.endTask (s : Leader) (i : Nat) : Leader := { s with tasks := s.tasks.eraseIdx i }

def canAcquireLocally (db : Store Value) (bucket key : String) (lockType : LockType)
    (holder : LockHolder) : Bool :=
  match getLockState db bucket key with
  | .error _ => false
  | .ok none => true
  | .ok (some state) => state.canAcquire lockType holder

/-- The end of `try_acquire_lock`: the applied state names the holder. -/
def heldLocally (db : Store Value) (bucket key : String) (holder : LockHolder) : Bool :=
  match getLockState db bucket key with
  | .ok (some state) => state.isHeldBy holder
  | _ => false

/-- What the handler of an object request checks once it has the lock. -/
def ObjectOp.check (s : Leader) : ObjectOp → Bool
  | .put metadata => s.bucketCache.contains metadata.bucket ||
      (getBucket s.db.default metadata.bucket).toBool
  | .delete bucket key => (getObjectMetadata s.db.default bucket key).toBool
  | .complete uploadId metadata =>
    match getMultipartUpload s.db.default metadata.bucket metadata.key uploadId with
    | .ok upload => !upload.parts.isEmpty
    | .error _ => false
  | .get _ _ => true

/-- The look-up a task is at. -/
def Leader.look (s : Leader) (i : Nat) (now : DateTime) : Task → Option Leader
  | .createBucket name =>
    if (getBucket s.db.default name).toBool then some (s.endTask i)
    else some (s.setTask i (.createBucketWrite (Bucket.new now name) s.applied))
  | .deleteBucket name =>
    if (getBucket s.db.default name).toBool then some (s.setTask i (.deleteBucketList name))
    else some (s.endTask i)
  | .deleteBucketList name =>
    match listObjects s.db.default name none with
    | .ok [] => some (s.setTask i (.deleteBucketWrite name))
    | _ => some (s.endTask i)
  | .lock op holder =>
    if heldLocally s.db.default op.bucket op.key holder then some (s.setTask i (.locked op holder))
    else none
  | .locked op holder =>
    if op.check s then some (s.setTask i (.objectWrite op holder))
    else some (s.setTask i (.release op.bucket op.key holder))
  | _ => none

/-- The command a task may propose now. -/
def Leader.proposal (s : Leader) : Task → Option Command
  | .createBucketWrite bucket _ => some (.createBucket bucket)
  | .deleteBucketWrite name => some (.deleteBucket name)
  | .lock op holder =>
    if canAcquireLocally s.db.default op.bucket op.key op.lockType holder then
      some (.acquireLock op.bucket op.key op.lockType holder)
    else none
  | .objectWrite op _ => op.command
  | .release bucket key holder => some (.releaseLock bucket key holder)
  | _ => none

/-- How a task goes on when its write is answered. -/
def Leader.answered (s : Leader) (i : Nat) : Task → Option Leader
  | .createBucketWrite bucket _ =>
    some { s.endTask i with bucketCache := bucket.name :: s.bucketCache }
  | .deleteBucketWrite name =>
    some { s.endTask i with bucketCache := s.bucketCache.filter (· != name) }
  | .objectWrite op holder => some (s.setTask i (.release op.bucket op.key holder))
  | .release _ _ _ => some (s.endTask i)
  | _ => none

/-- An error ends a task; one that may hold its lock releases it. -/
def Leader.fail (s : Leader) (i : Nat) : Task → Leader
  | .locked op holder => s.setTask i (.release op.bucket op.key holder)
  | .objectWrite op holder => s.setTask i (.release op.bucket op.key holder)
  | _ => s.endTask i

def Leader.step (s : Leader) : Event → Option Leader
  | .createBucket name =>
    if ValidBucket name then some { s with tasks := s.tasks ++ [.createBucket name] } else none
  | .deleteBucket name =>
    if ValidBucket name then some { s with tasks := s.tasks ++ [.deleteBucket name] } else none
  | .object op holder =>
    if ValidBucket op.bucket ∧ ValidKey op.key then
      some { s with tasks := s.tasks ++ [.lock op holder] }
    else none
  | .look i now => s.tasks[i]?.bind (s.look i now)
  | .propose i => (s.tasks[i]?.bind s.proposal).map fun cmd => s.append (.normal cmd)
  | .answered i => s.tasks[i]?.bind (s.answered i)
  | .fail i => s.tasks[i]?.map (s.fail i)
  | .apply now =>
    match s.log[s.applied]? with
    | none => none
    | some entry =>
      match entryWrites s.db ⟨entry, now⟩ with
      | .error _ => none
      | .ok ws => some { s with db := s.db.applyAll ws, applied := s.applied + 1 }
  | .raft payload =>
    match payload with
    | .normal _ => none
    | _ => some (s.append payload)
  | .multipart w =>
    if startsWith w.key multipartPrefix then
      some { s with db := { s.db with default := w.apply s.db.default } }
    else none
  | .expire name => some { s with bucketCache := s.bucketCache.filter (· != name) }

/-! ## The log and the buckets it creates -/

/-- The last entry of the log that creates or deletes the bucket. -/
def lastBucketEntry (name : String) (log : List Entry) : Option Entry :=
  (log.filter fun e => e.touchesBucket name).getLast?

/-- The log ends with the bucket created: the last command on it is a `CreateBucket`. -/
def created (name : String) (log : List Entry) : Bool :=
  (lastBucketEntry name log).any fun e => e.createsBucket name

/-- A `CreateBucket` is proposed only when the log, after the entries the handler's
look-up has seen, does not end with the bucket created. -/
def Unraced (s : Leader) : Event → Prop
  | .propose i => ∀ bucket seen, s.tasks[i]? = some (.createBucketWrite bucket seen) →
      created bucket.name (s.log.drop seen) = false
  | _ => True

theorem lastBucketEntry_append (name : String) (log log' : List Entry) :
    lastBucketEntry name (log ++ log') =
      (lastBucketEntry name log').or (lastBucketEntry name log) := by
  simp [lastBucketEntry, List.filter_append, List.getLast?_append]

/-- Neither seen nor created since: not created. -/
theorem created_of_seen {name : String} {log : List Entry} {seen : Nat}
    (before : created name (log.take seen) = false) (since : created name (log.drop seen) = false) :
    created name log = false := by
  rw [← List.take_append_drop seen log]
  unfold created at *
  rw [lastBucketEntry_append]
  cases last : lastBucketEntry name (log.drop seen) with
  | none => exact before
  | some e =>
    rw [last] at since
    exact since

/-- The log as ticks at time 0: no entry's success depends on the time. -/
def untimed (log : List Entry) : List Tick := log.map fun e => ⟨e, 0⟩

theorem untimed_entries (log : List Entry) : (untimed log).map Tick.entry = log := by
  simp [untimed, Function.comp_def]

theorem untimed_append (log log' : List Entry) :
    untimed (log ++ log') = untimed log ++ untimed log' := by
  simp [untimed]

/-- A bucket record where the bucket is present, nothing where it is not. -/
def Records (present : Bool) (v : Option Value) : Prop :=
  match present with
  | true => ∃ b, v = some (.bucket b)
  | false => v = none

/-- After a log that applies, a bucket has a record exactly when the log creates it. -/
theorem bucket_of_run {ts : List Tick} {t : State String Value}
    (ran : machine.run ts Db.empty.default.get = some t) (name : String) :
    Records (created name (ts.map Tick.entry)) (t (bucketKey name)) := by
  have value := runCell_bucketKey (machine.run_eq_some_iff.1 ran (bucketKey name))
  have entries := lastTouch_map name ts
  change _ = lastBucketEntry name (ts.map Tick.entry) at entries
  unfold created
  rw [← entries]
  cases last : lastTouch name ts with
  | none =>
    rw [last] at value
    simpa [Records, Db.empty] using value
  | some tick =>
    rw [last] at value
    by_cases creates : tick.entry.createsBucket name = true
    · have found : t (bucketKey name) = some (.bucket ⟨name, tick.now⟩) := by
        simpa [bucketAfter, creates] using value
      simp only [Option.map_some, Option.any_some, creates]
      exact ⟨_, found⟩
    · have absent : t (bucketKey name) = none := by
        simpa [bucketAfter, creates] using value
      simpa [Records, creates] using absent

/-! ## The invariant -/

def Task.Inv (log : List Entry) : Task → Prop
  | .createBucket name => ValidBucket name
  | .createBucketWrite bucket seen =>
    ValidBucket bucket.name ∧ seen ≤ log.length ∧ created bucket.name (log.take seen) = false
  | .deleteBucket name => ValidBucket name
  | .deleteBucketList name => ValidBucket name
  | .deleteBucketWrite name => ValidBucket name
  | .lock op _ => ValidKey op.key
  | .locked op _ => ValidKey op.key
  | .objectWrite op _ => ValidKey op.key
  | .release _ _ _ => True

/-- What every state keeps: the whole log applies, the applied database has the buckets
of the applied part of the log, and every handler has made its checks. -/
structure Leader.Inv (s : Leader) : Prop where
  applies : ∃ t, machine.run (untimed s.log) Db.empty.default.get = some t
  applied_le : s.applied ≤ s.log.length
  buckets : ∀ name,
    Records (created name (s.log.take s.applied)) (s.db.default.get (bucketKey name))
  tasks : ∀ task ∈ s.tasks, task.Inv s.log

theorem Leader.init_inv (leaderId : LeaderId) : (Leader.init leaderId).Inv := by
  refine ⟨⟨_, rfl⟩, le_rfl, fun name => ?_, fun task member => ?_⟩
  · simp [Leader.init, Records, created, lastBucketEntry, Db.empty]
  · simp [Leader.init] at member

theorem Task.Inv.append {task : Task} {log : List Entry} (inv : task.Inv log) (e : Entry) :
    task.Inv (log ++ [e]) := by
  cases task with
  | createBucketWrite bucket seen =>
    obtain ⟨valid, le, absent⟩ := inv
    refine ⟨valid, by simp; omega, ?_⟩
    rw [List.take_append_of_le_length le]
    exact absent
  | _ => exact inv

/-- The look-up of `create_bucket` fails exactly when the bucket has no record. -/
theorem Leader.Inv.getBucket {s : Leader} (inv : s.Inv) {name : String} (valid : ValidBucket name) :
    (Metadata.getBucket s.db.default name).toBool = created name (s.log.take s.applied) := by
  have bucket := inv.buckets name
  cases present : created name (s.log.take s.applied) with
  | true =>
    rw [present] at bucket
    obtain ⟨b, stored⟩ := bucket
    simp [Metadata.getBucket, checkBucketName_ok.2 valid, stored, bind, Except.bind, pure, Except.pure,
      Except.toBool]
  | false =>
    rw [present] at bucket
    have absent : s.db.default.get (bucketKey name) = none := bucket
    simp [Metadata.getBucket, checkBucketName_ok.2 valid, absent, bind, Except.bind, Except.toBool]

/-- A command whose handler's checks still hold after the whole log. -/
def Checked (log : List Entry) : Command → Prop
  | .createBucket bucket => ValidBucket bucket.name ∧ created bucket.name log = false
  | .deleteBucket name => ValidBucket name
  | .putObjectMetadata metadata => ValidKey metadata.key
  | .deleteObjectMetadata _ key => ValidKey key
  | .acquireLock _ _ _ _ => True
  | .releaseLock _ _ _ => True

theorem lockAct_isSome {f : Option LockState → Option LockState} (s : Option LockState) :
    ∃ v, lockAct f (s.map .lock) = some v := by
  cases s <;> exact ⟨_, rfl⟩

/-- A checked command applies after the log. -/
theorem step_of_checked {log : List Entry} {t : State String Value}
    (ran : machine.run (untimed log) Db.empty.default.get = some t) {cmd : Command}
    (checked : Checked log cmd) (id : LogId) (now : DateTime) :
    ∃ t', machine.step t ⟨⟨id, .normal cmd⟩, now⟩ = some t' := by
  have decode : LocksDecode t := locksDecode_empty.run ran
  suffices accepted : ∃ v, cellAct now cmd (t cmd.cell) = some v by
    obtain ⟨v, act⟩ := accepted
    have step := machine.step_of_some (s := t) (c := ⟨⟨id, .normal cmd⟩, now⟩) (k := cmd.cell) rfl
    exact ⟨_, step.trans (congrArg (Option.map _) act)⟩
  cases cmd with
  | createBucket bucket =>
    obtain ⟨valid, absent⟩ := checked
    have record := bucket_of_run ran bucket.name
    rw [untimed_entries, absent] at record
    exact ⟨_, if_pos ⟨valid, record⟩⟩
  | deleteBucket name => exact ⟨_, if_pos checked⟩
  | putObjectMetadata metadata => exact ⟨_, if_pos checked⟩
  | deleteObjectMetadata bucket key => exact ⟨_, if_pos checked⟩
  | acquireLock bucket key lockType holder =>
    obtain ⟨s, stored, -⟩ := decode bucket key
    simp only [cellAct, Command.cell, stored]
    exact lockAct_isSome s
  | releaseLock bucket key holder =>
    obtain ⟨s, stored, -⟩ := decode bucket key
    simp only [cellAct, Command.cell, stored]
    exact lockAct_isSome s

/-! ## Steps keep the invariant -/

section Steps

variable {s : Leader} (inv : s.Inv)
include inv

theorem Leader.Inv.append {payload : EntryPayload}
    (checked : ∀ cmd, payload = .normal cmd → Checked s.log cmd) : (s.append payload).Inv := by
  refine ⟨?_, ?_, ?_, ?_⟩
  · obtain ⟨t, ran⟩ := inv.applies
    obtain ⟨t', step⟩ : ∃ t', machine.step t
        ⟨⟨⟨s.leaderId, s.log.length + 1⟩, payload⟩, 0⟩ = some t' := by
      cases payload with
      | blank => exact ⟨t, rfl⟩
      | membership m => exact ⟨t, rfl⟩
      | normal cmd => exact step_of_checked ran (checked cmd rfl) _ _
    refine ⟨t', ?_⟩
    simp only [Leader.append, untimed_append, Machine.run_append, ran, Option.bind_some]
    simp only [untimed, List.map_cons, List.map_nil, Machine.run, step, Option.bind_some]
  · have le := inv.applied_le
    simp only [Leader.append, List.length_append, List.length_singleton]
    omega
  · intro name
    simp only [Leader.append]
    rw [List.take_append_of_le_length inv.applied_le]
    exact inv.buckets name
  · intro task member
    exact (inv.tasks task member).append _

/-- A task that goes on, with its invariant. -/
theorem Leader.Inv.setTask {i : Nat} {task : Task} (ok : task.Inv s.log) :
    (s.setTask i task).Inv := by
  refine ⟨inv.applies, inv.applied_le, inv.buckets, fun task' member => ?_⟩
  rcases List.mem_or_eq_of_mem_set member with old | rfl
  · exact inv.tasks task' old
  · exact ok

theorem Leader.Inv.endTask (i : Nat) : (s.endTask i).Inv :=
  ⟨inv.applies, inv.applied_le, inv.buckets, fun task member =>
    inv.tasks task (List.mem_of_mem_eraseIdx member)⟩

/-- A new task, with its invariant. -/
theorem Leader.Inv.addTask {task : Task} (ok : task.Inv s.log) :
    Leader.Inv { s with tasks := s.tasks ++ [task] } := by
  refine ⟨inv.applies, inv.applied_le, inv.buckets, fun task' member => ?_⟩
  rcases List.mem_append.1 member with old | new
  · exact inv.tasks task' old
  · rw [List.mem_singleton.1 new]
    exact ok

theorem Leader.Inv.cache (cache : List String) : Leader.Inv { s with bucketCache := cache } :=
  ⟨inv.applies, inv.applied_le, inv.buckets, inv.tasks⟩

/-- An update of records outside the buckets' namespace. -/
theorem Leader.Inv.multipart {w : Write Value} (out : startsWith w.key multipartPrefix = true) :
    Leader.Inv { s with db := { s.db with default := w.apply s.db.default } } := by
  refine ⟨inv.applies, inv.applied_le, fun name => ?_, inv.tasks⟩
  have apart : w.key ≠ bucketKey name :=
    ne_of_startsWith (by decide) (by decide) out (bucketKey_startsWith name)
  have same : (w.apply s.db.default).get (bucketKey name) = s.db.default.get (bucketKey name) := by
    rw [get_apply, if_neg apart]
  simp only [same]
  exact inv.buckets name

/-- Applying the next entry of the log. -/
theorem Leader.Inv.apply {entry : Entry} {now : DateTime} {ws : List DbWrite}
    (next : s.log[s.applied]? = some entry) (call : entryWrites s.db ⟨entry, now⟩ = .ok ws) :
    Leader.Inv { s with db := s.db.applyAll ws, applied := s.applied + 1 } := by
  have step := step_of_entryWrites call
  obtain ⟨bound, -⟩ := List.getElem?_eq_some_iff.1 next
  refine ⟨inv.applies, bound, fun name => ?_, inv.tasks⟩
  have cell : machine.runCell (bucketKey name) [⟨entry, now⟩] (s.db.default.get (bucketKey name)) =
      some ((s.db.applyAll ws).default.get (bucketKey name)) :=
    machine.run_eq_some_iff.1 (by simp only [Machine.run, step, Option.bind_some]) (bucketKey name)
  have value := runCell_bucketKey cell
  have before := inv.buckets name
  have log : s.log.take (s.applied + 1) = s.log.take s.applied ++ [entry] := by
    rw [List.take_add_one, next]
    rfl
  unfold created at *
  rw [log, lastBucketEntry_append]
  by_cases touch : entry.touchesBucket name = true
  · have last : lastTouch name [⟨entry, now⟩] = some ⟨entry, now⟩ := by simp [lastTouch, touch]
    have last' : lastBucketEntry name [entry] = some entry := by simp [lastBucketEntry, touch]
    rw [last] at value
    rw [last']
    by_cases creates : entry.createsBucket name = true
    · simp only [Option.some_or, Option.any_some, creates]
      exact ⟨_, by simpa [bucketAfter, creates] using value⟩
    · simpa [Records, bucketAfter, creates] using value
  · have last : lastTouch name [⟨entry, now⟩] = none := by simp [lastTouch, touch]
    have last' : lastBucketEntry name [entry] = none := by simp [lastBucketEntry, touch]
    rw [last] at value
    rw [last', Option.none_or, value]
    exact before

/-- A look-up leaves a task with its checks made. -/
theorem Leader.Inv.look {i : Nat} {now : DateTime} {task : Task} {s' : Leader} (ok : task.Inv s.log)
    (step : s.look i now task = some s') : s'.Inv := by
  cases task with
  | createBucket name =>
    simp only [Leader.look] at step
    split at step
    · cases step
      exact inv.endTask i
    · rename_i missing
      cases step
      have absent : created name (s.log.take s.applied) = false := by
        rw [← inv.getBucket ok]
        simpa using missing
      exact inv.setTask ⟨ok, inv.applied_le, absent⟩
  | deleteBucket name =>
    simp only [Leader.look] at step
    split at step
    · cases step
      exact inv.setTask ok
    · cases step
      exact inv.endTask i
  | deleteBucketList name =>
    simp only [Leader.look] at step
    split at step
    · cases step
      exact inv.setTask ok
    · cases step
      exact inv.endTask i
  | lock op holder =>
    simp only [Leader.look] at step
    split at step
    · cases step
      exact inv.setTask ok
    · cases step
  | locked op holder =>
    simp only [Leader.look] at step
    split at step
    · cases step
      exact inv.setTask ok
    · cases step
      exact inv.setTask trivial
  | createBucketWrite bucket seen => cases step
  | deleteBucketWrite name => cases step
  | objectWrite op holder => cases step
  | release bucket key holder => cases step

omit inv in
/-- Every proposal is checked: a creation, by the condition on the run. -/
theorem Leader.proposal_checked {task : Task} {cmd : Command} (ok : task.Inv s.log)
    (unraced : ∀ bucket seen, task = .createBucketWrite bucket seen →
      created bucket.name (s.log.drop seen) = false)
    (proposal : s.proposal task = some cmd) : Checked s.log cmd := by
  cases task with
  | createBucketWrite bucket seen =>
    cases proposal
    obtain ⟨valid, -, absent⟩ := ok
    exact ⟨valid, created_of_seen absent (unraced bucket seen rfl)⟩
  | deleteBucketWrite name =>
    cases proposal
    exact ok
  | lock op holder =>
    simp only [Leader.proposal] at proposal
    split at proposal
    · cases proposal
      trivial
    · cases proposal
  | objectWrite op holder =>
    cases op <;> cases proposal <;> exact ok
  | release bucket key holder =>
    cases proposal
    trivial
  | createBucket name => cases proposal
  | deleteBucket name => cases proposal
  | deleteBucketList name => cases proposal
  | locked op holder => cases proposal

theorem Leader.Inv.answered {i : Nat} {task : Task} {s' : Leader}
    (step : s.answered i task = some s') : s'.Inv := by
  cases task with
  | createBucketWrite bucket seen => cases step; exact (inv.endTask i).cache _
  | deleteBucketWrite name => cases step; exact (inv.endTask i).cache _
  | objectWrite op holder => cases step; exact inv.setTask trivial
  | release bucket key holder => cases step; exact inv.endTask i
  | _ => cases step

theorem Leader.Inv.fail (i : Nat) (task : Task) : (s.fail i task).Inv := by
  cases task with
  | locked op holder => exact inv.setTask trivial
  | objectWrite op holder => exact inv.setTask trivial
  | _ => exact inv.endTask i

theorem Leader.Inv.step {e : Event} {s' : Leader} (unraced : Unraced s e)
    (step : s.step e = some s') : s'.Inv := by
  cases e with
  | createBucket name =>
    simp only [Leader.step] at step
    split at step
    · rename_i valid
      cases step
      exact inv.addTask valid
    · cases step
  | deleteBucket name =>
    simp only [Leader.step] at step
    split at step
    · rename_i valid
      cases step
      exact inv.addTask valid
    · cases step
  | object op holder =>
    simp only [Leader.step] at step
    split at step
    · rename_i valid
      cases step
      exact inv.addTask valid.2
    · cases step
  | look i now =>
    obtain ⟨task, found, look⟩ := Option.bind_eq_some_iff.1 step
    exact inv.look (inv.tasks task (List.mem_of_getElem? found)) look
  | propose i =>
    obtain ⟨cmd, proposal, rfl⟩ := Option.map_eq_some_iff.1 step
    obtain ⟨task, found, proposal⟩ := Option.bind_eq_some_iff.1 proposal
    refine inv.append fun cmd' same => ?_
    cases same
    refine Leader.proposal_checked (inv.tasks task (List.mem_of_getElem? found)) ?_ proposal
    intro bucket seen same
    exact unraced bucket seen (same ▸ found)
  | answered i =>
    obtain ⟨task, -, answered⟩ := Option.bind_eq_some_iff.1 step
    exact inv.answered answered
  | fail i =>
    obtain ⟨task, -, rfl⟩ := Option.map_eq_some_iff.1 step
    exact inv.fail i task
  | apply now =>
    simp only [Leader.step] at step
    split at step
    · cases step
    · rename_i entry next
      split at step
      · cases step
      · rename_i ws call
        cases step
        exact inv.apply next call
  | raft payload =>
    simp only [Leader.step] at step
    split at step
    · cases step
    · rename_i own
      cases step
      exact inv.append fun cmd same => absurd same (own cmd)
  | multipart w =>
    simp only [Leader.step] at step
    split at step
    · rename_i out
      cases step
      exact inv.multipart out
    · cases step
  | expire name =>
    cases step
    exact inv.cache _

end Steps

/-- **Committed commands apply.** In every run whose `CreateBucket` proposals are not
raced by another creation, the log reached applies without error on every replica, at
any times and in any batches. -/
theorem committed_apply (leaderId : LeaderId) (events : List Event) {s : Leader}
    (ran : exec Leader.step (Leader.init leaderId) events = some s)
    (unraced : Along Leader.step Unraced (Leader.init leaderId) events)
    {batches : List (List Tick)} (log : batches.flatten.map Tick.entry = s.log) :
    ∃ db, runBatches Db.empty batches = (db, .ok ()) := by
  have inv : s.Inv := exec_invariant (fun s e s' inv here step => inv.step here step)
    (Leader.init_inv leaderId) unraced ran
  obtain ⟨t, applies⟩ := inv.applies
  have pairs : List.Forall₂ SameEntry (untimed s.log) batches.flatten :=
    forall₂_sameEntry.2 (by rw [untimed_entries, log])
  obtain ⟨t', ran', -⟩ := (run_iff_cells pairs).2 fun k =>
    ⟨_, machine.run_eq_some_iff.1 applies k, rfl⟩
  obtain ⟨db, run, -⟩ := runBatches_ok ran'
  exact ⟨db, run⟩

/-- One `create_bucket`, alone. -/
theorem committed_apply_one_creation :
    ∃ db, runBatches Db.empty
      [[⟨⟨⟨⟨1, 1⟩, 1⟩, .normal (.createBucket ⟨"abc", 7⟩)⟩, 9⟩]] = (db, .ok ()) := by
  refine committed_apply ⟨1, 1⟩ [.createBucket "abc", .look 0 7, .propose 0] rfl ?_ rfl
  refine ⟨trivial, fun s' step => ?_⟩
  obtain rfl := Option.some.inj step
  refine ⟨trivial, fun s' step => ?_⟩
  obtain rfl := Option.some.inj step
  refine ⟨fun bucket seen task => ?_, fun s' _ => trivial⟩
  cases task
  rfl

/-- Two `create_bucket` requests for one name, both past their look-up before either
proposes: the second entry of the log cannot be applied. -/
theorem create_bucket_race :
    ∃ (events : List Event) (s : Leader) (batches : List (List Tick)),
      exec Leader.step (Leader.init ⟨1, 1⟩) events = some s ∧
        batches.flatten.map Tick.entry = s.log ∧
        ¬ ∃ db, runBatches Db.empty batches = (db, .ok ()) := by
  refine ⟨[.createBucket "abc", .createBucket "abc", .look 0 7, .look 1 8, .propose 0, .propose 1],
    _, [[⟨⟨⟨⟨1, 1⟩, 1⟩, .normal (.createBucket ⟨"abc", 7⟩)⟩, 9⟩],
      [⟨⟨⟨⟨1, 1⟩, 2⟩, .normal (.createBucket ⟨"abc", 8⟩)⟩, 9⟩]], rfl, rfl, ?_⟩
  rintro ⟨db, run⟩
  have answer := congrArg Prod.snd run
  have fails : (runBatches Db.empty [[⟨⟨⟨⟨1, 1⟩, 1⟩, .normal (.createBucket ⟨"abc", 7⟩)⟩, 9⟩],
      [⟨⟨⟨⟨1, 1⟩, 2⟩, .normal (.createBucket ⟨"abc", 8⟩)⟩, 9⟩]]).2 =
        .error ⟨"Bucket already exists: abc"⟩ := rfl
  rw [fails] at answer
  cases answer

end Save.Api
