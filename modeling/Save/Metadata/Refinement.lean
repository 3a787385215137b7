import Save.Metadata.StateMachine
import Save.Lib.Cells

/-!
# The state machine as independent records

The purpose of the state machine (`raft/state_machine.rs`), record by record: a
command changes the one record its key names, as a function of that record, the
command and (for a new bucket) the clock. `machine` says this in the terms of
`Save.Lib.Cells`, and `runBatches_default` and `run_of_runBatches` connect it to the
writes the code issues: whatever the batching, the default column family a run of
batches leaves is the state in which the cell machine stops.
-/

namespace Save.Metadata
set_option autoImplicit false
open Save.Kv Save.Common Save.Cells

/-- The key of the record a command touches. -/
def Command.cell : Command → String
  | .createBucket bucket => bucketKey bucket.name
  | .deleteBucket name => bucketKey name
  | .putObjectMetadata metadata => objectDbKey metadata.bucket metadata.key
  | .deleteObjectMetadata bucket key => objectDbKey bucket key
  | .acquireLock bucket key _ _ => lockKey bucket key
  | .releaseLock bucket key _ => lockKey bucket key

/-- A change of a lock record; anything else stored there does not decode. -/
def lockAct (f : Option LockState → Option LockState) : Option Value → Option (Option Value)
  | none => some ((f none).map .lock)
  | some (.lock s) => some ((f (some s)).map .lock)
  | some _ => none

/-- What a command does to its record. -/
def cellAct (now : DateTime) : Command → Option Value → Option (Option Value)
  | .createBucket bucket, v =>
    if ValidBucket bucket.name ∧ v = none then some (some (.bucket (Bucket.new now bucket.name)))
    else none
  | .deleteBucket name, _ => if ValidBucket name then some none else none
  | .putObjectMetadata metadata, _ =>
    if ValidKey metadata.key then some (some (.object metadata)) else none
  | .deleteObjectMetadata _ key, _ => if ValidKey key then some none else none
  | .acquireLock _ _ lockType holder, v => lockAct (fun s => some (acquired lockType holder s)) v
  | .releaseLock _ _ holder, v => lockAct (released holder) v

def Tick.cell (t : Tick) : Option String :=
  match t.entry.payload with
  | .normal cmd => some cmd.cell
  | _ => none

def Tick.act (t : Tick) (v : Option Value) : Option (Option Value) :=
  match t.entry.payload with
  | .normal cmd => cellAct t.now cmd v
  | _ => some v

/-- The state machine as a machine of records. -/
def machine : Machine Tick String Value := ⟨Tick.cell, Tick.act⟩

/-! ## One command -/

section Command

variable {now : DateTime} {db : Store Value}

/-- The writes `ws` leave `v` at `k` and change nothing else. -/
def Sets (db : Store Value) (ws : List (Write Value)) (k : String) (v : Option Value) : Prop :=
  ws.length ≤ 1 ∧ ∀ a, (applyAll db ws).get a = if k = a then v else db.get a

theorem Sets.put (k : String) (v : Value) : Sets db [.put k v] k (some v) :=
  ⟨le_rfl, fun a => get_put db k a v⟩

theorem Sets.delete (k : String) : Sets db [.delete k] k none :=
  ⟨le_rfl, fun a => get_delete db k a⟩

theorem Sets.none {k : String} {v : Option Value} (same : db.get k = v) : Sets db [] k v := by
  refine ⟨Nat.zero_le _, fun a => ?_⟩
  by_cases h : k = a
  · subst h; simp [same]
  · simp [h]

theorem checkBucketName_error {name : String} (invalid : ¬ ValidBucket name) :
    ∃ e, checkBucketName name = .error e := by
  cases check : checkBucketName name with
  | error e => exact ⟨e, rfl⟩
  | ok u => exact absurd (checkBucketName_ok.1 check) invalid

theorem checkObjectKey_error {key : String} (invalid : ¬ ValidKey key) :
    ∃ e, checkObjectKey key = .error e := by
  cases check : checkObjectKey key with
  | error e => exact ⟨e, rfl⟩
  | ok u => exact absurd (checkObjectKey_ok.1 check) invalid

/-- A change of a lock record by `f`, as the lock functions make it. -/
theorem getLockState_act {f : Option LockState → Option LockState} {bucket key : String}
    {v : Option Value} (act : lockAct f (db.get (lockKey bucket key)) = some v) :
    ∃ s, getLockState db bucket key = .ok s ∧ v = (f s).map .lock ∧
      db.get (lockKey bucket key) = s.map .lock := by
  unfold getLockState
  cases stored : db.get (lockKey bucket key) with
  | none => rw [stored] at act; cases act; exact ⟨none, rfl, rfl, rfl⟩
  | some value =>
    rw [stored] at act
    cases value with
    | lock s => cases act; exact ⟨some s, rfl, rfl, rfl⟩
    | bucket _ | object _ | upload _ | part _ => cases act

theorem getLockState_stuck {f : Option LockState → Option LockState} {bucket key : String}
    (act : lockAct f (db.get (lockKey bucket key)) = none) :
    getLockState db bucket key = .error .decode := by
  unfold getLockState
  cases stored : db.get (lockKey bucket key) with
  | none => rw [stored] at act; cases act
  | some value =>
    rw [stored] at act
    cases value with
    | lock s => cases act
    | bucket _ | object _ | upload _ | part _ => rfl

theorem acquireLock_sets {bucket key : String} (lockType : LockType) (holder : LockHolder)
    {s : Option LockState} (read : getLockState db bucket key = .ok s)
    (stored : db.get (lockKey bucket key) = s.map .lock) :
    ∃ granted ws, acquireLock db bucket key lockType holder = .ok (granted, ws) ∧
      Sets db ws (lockKey bucket key) (some (.lock (acquired lockType holder s))) := by
  unfold acquireLock
  rw [read]
  cases s with
  | none => exact ⟨true, _, rfl, .put _ _⟩
  | some s =>
    simp only [bind, Except.bind, acquired, pure, Except.pure]
    split
    · exact ⟨true, _, rfl, .none stored⟩
    · split
      · exact ⟨false, _, rfl, .none stored⟩
      · exact ⟨true, _, rfl, .put _ _⟩

theorem releaseLock_sets {bucket key : String} (holder : LockHolder) {s : Option LockState}
    (read : getLockState db bucket key = .ok s)
    (stored : db.get (lockKey bucket key) = s.map .lock) :
    ∃ ws, releaseLock db bucket key holder = .ok ws ∧
      Sets db ws (lockKey bucket key) ((released holder s).map .lock) := by
  unfold releaseLock
  rw [read]
  cases s with
  | none => exact ⟨_, rfl, .none stored⟩
  | some s =>
    simp only [bind, Except.bind, released, pure, Except.pure]
    split
    · exact ⟨_, rfl, .delete _⟩
    · exact ⟨_, rfl, .put _ _⟩

/-- A command its record accepts is applied with at most one write, to that record. -/
theorem applyCommand_ok {cmd : Command} {v : Option Value}
    (act : cellAct now cmd (db.get cmd.cell) = some v) :
    ∃ ws, applyCommand now db cmd = .ok ws ∧ Sets db ws cmd.cell v := by
  cases cmd with
  | createBucket bucket =>
    change cellAct now _ (db.get (bucketKey bucket.name)) = some v at act
    simp only [cellAct] at act
    split at act
    · rename_i accepted
      cases act
      refine ⟨[.put (bucketKey bucket.name) (.bucket (Bucket.new now bucket.name))], ?_, .put _ _⟩
      simp [applyCommand, createBucket, checkBucketName_ok.2 accepted.1, accepted.2, bind,
        Except.bind, pure, Except.pure, Except.map, Except.mapError]
    · cases act
  | deleteBucket name =>
    simp only [cellAct] at act
    split at act
    · rename_i valid
      cases act
      refine ⟨[.delete (bucketKey name)], ?_, .delete _⟩
      simp [applyCommand, deleteBucket, checkBucketName_ok.2 valid, bind, Except.bind, pure,
        Except.pure, Except.mapError]
    · cases act
  | putObjectMetadata metadata =>
    simp only [cellAct] at act
    split at act
    · rename_i valid
      cases act
      refine ⟨[.put (objectDbKey metadata.bucket metadata.key) (.object metadata)], ?_, .put _ _⟩
      simp [applyCommand, putObjectMetadata, prepareMetadataWrite, checkObjectKey_ok.2 valid, bind,
        Except.bind, pure, Except.pure, Except.mapError]
    · cases act
  | deleteObjectMetadata bucket key =>
    simp only [cellAct] at act
    split at act
    · rename_i valid
      cases act
      refine ⟨[.delete (objectDbKey bucket key)], ?_, .delete _⟩
      simp [applyCommand, deleteObjectMetadata, checkObjectKey_ok.2 valid, bind, Except.bind, pure,
        Except.pure, Except.mapError]
    · cases act
  | acquireLock bucket key lockType holder =>
    simp only [cellAct, Command.cell] at act
    obtain ⟨s, read, rfl, stored⟩ := getLockState_act act
    obtain ⟨granted, ws, call, sets⟩ := acquireLock_sets lockType holder read stored
    exact ⟨ws, by simp [applyCommand, call, Except.map, Except.mapError], sets⟩
  | releaseLock bucket key holder =>
    simp only [cellAct, Command.cell] at act
    obtain ⟨s, read, rfl, stored⟩ := getLockState_act act
    obtain ⟨ws, call, sets⟩ := releaseLock_sets holder read stored
    exact ⟨ws, by simp [applyCommand, call, Except.mapError], sets⟩

/-- A command its record refuses is an error. -/
theorem applyCommand_error {cmd : Command} (act : cellAct now cmd (db.get cmd.cell) = none) :
    ∃ e, applyCommand now db cmd = .error e := by
  cases cmd with
  | createBucket bucket =>
    change cellAct now _ (db.get (bucketKey bucket.name)) = none at act
    simp only [cellAct] at act
    by_cases valid : ValidBucket bucket.name
    · have present : (db.get (bucketKey bucket.name)).isSome = true := by
        by_contra absent
        rw [if_pos ⟨valid, by simpa using absent⟩] at act
        cases act
      exact ⟨_, by simp [applyCommand, createBucket, checkBucketName_ok.2 valid, present, bind,
        Except.bind, Except.map, Except.mapError]; rfl⟩
    · obtain ⟨e, check⟩ := checkBucketName_error valid
      exact ⟨_, by simp [applyCommand, createBucket, check, bind, Except.bind, Except.map,
        Except.mapError]; rfl⟩
  | deleteBucket name =>
    simp only [cellAct, ite_eq_right_iff, reduceCtorEq, imp_false] at act
    obtain ⟨e, check⟩ := checkBucketName_error act
    exact ⟨_, by simp [applyCommand, deleteBucket, check, bind, Except.bind, Except.mapError]; rfl⟩
  | putObjectMetadata metadata =>
    simp only [cellAct, ite_eq_right_iff, reduceCtorEq, imp_false] at act
    obtain ⟨e, check⟩ := checkObjectKey_error act
    exact ⟨_, by simp [applyCommand, putObjectMetadata, prepareMetadataWrite, check, bind,
      Except.bind, Except.mapError]; rfl⟩
  | deleteObjectMetadata bucket key =>
    simp only [cellAct, ite_eq_right_iff, reduceCtorEq, imp_false] at act
    obtain ⟨e, check⟩ := checkObjectKey_error act
    exact ⟨_, by simp [applyCommand, deleteObjectMetadata, check, bind, Except.bind,
      Except.mapError]; rfl⟩
  | acquireLock bucket key lockType holder =>
    simp only [cellAct, Command.cell] at act
    have read := getLockState_stuck act
    exact ⟨_, by simp [applyCommand, acquireLock, read, bind, Except.bind, Except.map,
      Except.mapError]; rfl⟩
  | releaseLock bucket key holder =>
    simp only [cellAct, Command.cell] at act
    have read := getLockState_stuck act
    exact ⟨_, by simp [applyCommand, releaseLock, read, bind, Except.bind, Except.mapError]; rfl⟩

/-- What an applied command has written. -/
theorem applyCommand_sets {cmd : Command} {ws : List (Write Value)}
    (call : applyCommand now db cmd = .ok ws) :
    ∃ v, cellAct now cmd (db.get cmd.cell) = some v ∧ Sets db ws cmd.cell v := by
  cases act : cellAct now cmd (db.get cmd.cell) with
  | none =>
    obtain ⟨e, failed⟩ := applyCommand_error act
    rw [failed] at call
    cases call
  | some v =>
    obtain ⟨ws', call', sets⟩ := applyCommand_ok act
    rw [call'] at call
    cases call
    exact ⟨v, rfl, sets⟩

end Command

/-! ## Entries and batches -/

/-- The stored membership after an entry. -/
def membershipAfter (members : Option StoredMembership) (t : Tick) : Option StoredMembership :=
  match t.entry.payload with
  | .membership m => some ⟨some t.entry.logId, m⟩
  | _ => members

/-- The last applied id after an entry. -/
def lastAppliedAfter (_last : Option LogId) (t : Tick) : Option LogId := some t.entry.logId

/-- A database with the given records, membership and last applied id. -/
structure Holds (db : Db) (records : State String Value) (members : Option StoredMembership)
    (last : Option LogId) : Prop where
  records : db.default.get = records
  membership : db.membership = members
  lastApplied : db.lastApplied = last

theorem foldl_lastApplied (ts : List Tick) (last : Option LogId) :
    ts.foldl lastAppliedAfter last = (ts.getLast?.map fun t => t.entry.logId).or last := by
  induction ts generalizing last with
  | nil => rfl
  | cons t ts ih =>
    rw [List.foldl_cons, ih, List.getLast?_cons]
    cases ts.getLast? <;> rfl

theorem applyAll_data (db : Db) (ws : List (Write Value)) :
    db.applyAll (ws.map .data) = { db with default := applyAll db.default ws } := by
  induction ws generalizing db with
  | nil => rfl
  | cons w ws ih => exact ih (DbWrite.apply db (.data w))

theorem entryWrites_ok {db : Db} {t : Tick} {s : State String Value}
    (step : machine.step db.default.get t = some s) :
    ∃ ws, entryWrites db t = .ok ws ∧ ws.length ≤ 1 ∧
      Holds (db.applyAll ws) s (membershipAfter db.membership t) db.lastApplied := by
  obtain ⟨⟨id, payload⟩, now⟩ := t
  cases payload with
  | blank => cases step; exact ⟨[], rfl, Nat.zero_le _, rfl, rfl, rfl⟩
  | membership m => cases step; exact ⟨[.membership ⟨some id, m⟩], rfl, le_rfl, rfl, rfl, rfl⟩
  | normal cmd =>
    rw [machine.step_of_some (k := cmd.cell) rfl] at step
    obtain ⟨v, act, rfl⟩ := Option.map_eq_some_iff.1 step
    obtain ⟨ws, call, short, sets⟩ := applyCommand_ok act
    refine ⟨ws.map .data, by simp [entryWrites, call, Except.map], by simpa using short, ?_⟩
    rw [applyAll_data]
    refine ⟨funext fun k => ?_, rfl, rfl⟩
    rw [sets k, Function.update_apply]
    simp only [eq_comm]

theorem entryWrites_error {db : Db} {t : Tick} (step : machine.step db.default.get t = none) :
    ∃ e, entryWrites db t = .error e := by
  obtain ⟨⟨id, payload⟩, now⟩ := t
  cases payload with
  | blank | membership m => cases step
  | normal cmd =>
    rw [machine.step_of_some (k := cmd.cell) rfl, Option.map_eq_none_iff] at step
    obtain ⟨e, call⟩ := applyCommand_error step
    exact ⟨e, by simp [entryWrites, call, Except.map]⟩

/-- The writes of an entry are a step of the machine of records. -/
theorem step_of_entryWrites {db : Db} {t : Tick} {ws : List DbWrite}
    (call : entryWrites db t = .ok ws) :
    machine.step db.default.get t = some (db.applyAll ws).default.get := by
  cases step : machine.step db.default.get t with
  | none =>
    obtain ⟨e, call'⟩ := entryWrites_error step
    rw [call] at call'
    cases call'
  | some s =>
    obtain ⟨ws', call', -, held⟩ := entryWrites_ok step
    rw [call] at call'
    cases call'
    rw [held.records]

theorem applyLoop_ok {ts : List Tick} {db : Db} {s : State String Value} (last : Option LogId)
    (ran : machine.run ts db.default.get = some s) :
    ∃ ws, applyLoop db last ts = (ws, .ok (ts.foldl lastAppliedAfter last)) ∧
      Holds (db.applyAll ws) s (ts.foldl membershipAfter db.membership) db.lastApplied := by
  induction ts generalizing db last with
  | nil => cases ran; exact ⟨[], rfl, rfl, rfl, rfl⟩
  | cons t ts ih =>
    obtain ⟨s', step, rest⟩ := Option.bind_eq_some_iff.1 ran
    obtain ⟨ws, call, -, held⟩ := entryWrites_ok step
    rw [← held.records] at rest
    obtain ⟨ws', loop, held'⟩ := ih (some t.entry.logId) rest
    refine ⟨ws ++ ws', by simp [applyLoop, call, loop, lastAppliedAfter], ?_⟩
    rw [Db.applyAll_append]
    rw [held.membership, held.lastApplied] at held'
    exact held'

theorem applyLoop_error {ts : List Tick} {db : Db} (last : Option LogId)
    (stuck : machine.run ts db.default.get = none) :
    ∃ ws e, applyLoop db last ts = (ws, .error e) ∧
      (db.applyAll ws).default.get = machine.final ts db.default.get := by
  induction ts generalizing db last with
  | nil => cases stuck
  | cons t ts ih =>
    cases step : machine.step db.default.get t with
    | none =>
      obtain ⟨e, call⟩ := entryWrites_error step
      exact ⟨[], e, by simp [applyLoop, call], by simp [Machine.final, step]⟩
    | some s' =>
      obtain ⟨ws, call, -, held⟩ := entryWrites_ok step
      simp only [Machine.run, step, Option.bind_some] at stuck
      rw [← held.records] at stuck
      obtain ⟨ws', e, loop, stop⟩ := ih (some t.entry.logId) stuck
      refine ⟨ws ++ ws', e, by simp [applyLoop, call, loop], ?_⟩
      simp only [Db.applyAll_append, stop, Machine.final, step, held.records]

/-- A batch whose entries all apply answers success and records its last entry. -/
theorem applyToStateMachine_ok {batch : List Tick} {db : Db} {s : State String Value}
    (ran : machine.run batch db.default.get = some s) :
    (applyToStateMachine db batch).2 = .ok (batch.map fun _ => ()) ∧
      Holds (applyBatch db batch) s (batch.foldl membershipAfter db.membership)
        (batch.foldl lastAppliedAfter db.lastApplied) := by
  obtain ⟨ws, loop, held⟩ := applyLoop_ok none ran
  unfold applyBatch applyToStateMachine
  rw [loop]
  cases batch with
  | nil => exact ⟨rfl, held⟩
  | cons t ts =>
    -- the loop has set `last_applied` to the last entry, whatever it was before
    rw [foldl_lastApplied, foldl_lastApplied, List.getLast?_cons]
    refine ⟨rfl, ?_⟩
    change Holds (db.applyAll (ws ++ [_])) _ _ _
    rw [Db.applyAll_append]
    exact ⟨held.records, held.membership, rfl⟩

/-- The writes of a batch are those of its loop and, last, `last_applied_log_id`. -/
theorem applyToStateMachine_writes {batch : List Tick} {db : Db} {s : State String Value}
    (ran : machine.run batch db.default.get = some s) :
    (applyToStateMachine db batch).1 = (applyLoop db none batch).1 ++
      (batch.getLast?.map fun t => DbWrite.lastApplied t.entry.logId).toList := by
  obtain ⟨ws, loop, -⟩ := applyLoop_ok none ran
  unfold applyToStateMachine
  rw [loop, foldl_lastApplied]
  cases batch.getLast? <;> simp

theorem applyToStateMachine_error {batch : List Tick} {db : Db}
    (stuck : machine.run batch db.default.get = none) :
    (∃ e, (applyToStateMachine db batch).2 = .error e) ∧
      (applyBatch db batch).default.get = machine.final batch db.default.get := by
  obtain ⟨ws, e, loop, stop⟩ := applyLoop_error none stuck
  unfold applyBatch applyToStateMachine
  rw [loop]
  exact ⟨⟨e, rfl⟩, stop⟩

/-- Batches whose entries all apply run to the end, whatever the batching. -/
theorem runBatches_ok {bs : List (List Tick)} {db : Db} {s : State String Value}
    (ran : machine.run bs.flatten db.default.get = some s) :
    ∃ db', runBatches db bs = (db', .ok ()) ∧
      Holds db' s (bs.flatten.foldl membershipAfter db.membership)
        (bs.flatten.foldl lastAppliedAfter db.lastApplied) := by
  induction bs generalizing db with
  | nil => cases ran; exact ⟨db, rfl, rfl, rfl, rfl⟩
  | cons b bs ih =>
    rw [List.flatten_cons, Machine.run_append] at ran
    obtain ⟨s', first, rest⟩ := Option.bind_eq_some_iff.1 ran
    obtain ⟨answer, held⟩ := applyToStateMachine_ok first
    rw [← held.records] at rest
    obtain ⟨db', run, held'⟩ := ih rest
    rw [held.membership, held.lastApplied] at held'
    refine ⟨db', by simp [runBatches, answer, run], ?_⟩
    simpa [List.foldl_append] using held'

theorem runBatches_error {bs : List (List Tick)} {db : Db}
    (stuck : machine.run bs.flatten db.default.get = none) :
    ∃ db' e, runBatches db bs = (db', .error e) ∧
      db'.default.get = machine.final bs.flatten db.default.get := by
  induction bs generalizing db with
  | nil => cases stuck
  | cons b bs ih =>
    rw [List.flatten_cons, Machine.run_append] at stuck
    cases first : machine.run b db.default.get with
    | none =>
      obtain ⟨⟨e, answer⟩, stop⟩ := applyToStateMachine_error first
      refine ⟨applyBatch db b, e, by simp [runBatches, answer], ?_⟩
      rw [List.flatten_cons, machine.final_append_of_stuck first, stop]
    | some s =>
      obtain ⟨answer, held⟩ := applyToStateMachine_ok first
      rw [first, Option.bind_some, ← held.records] at stuck
      obtain ⟨db', e, run, stop⟩ := ih stuck
      refine ⟨db', e, by simp [runBatches, answer, run], ?_⟩
      rw [List.flatten_cons, machine.final_append_of_run first, stop, held.records]

/-- **Refinement.** The default column family after any batches is the state in which
the machine of records stops. -/
theorem runBatches_default (db : Db) (bs : List (List Tick)) :
    (runBatches db bs).1.default.get = machine.final bs.flatten db.default.get := by
  cases ran : machine.run bs.flatten db.default.get with
  | none =>
    obtain ⟨db', e, run, stop⟩ := runBatches_error ran
    rw [run, stop]
  | some s =>
    obtain ⟨db', run, held⟩ := runBatches_ok ran
    rw [run, held.records, machine.final_of_run ran]

/-- A run of batches that succeeds is a run of the machine of records. -/
theorem run_of_runBatches {db db' : Db} {bs : List (List Tick)}
    (run : runBatches db bs = (db', .ok ())) :
    machine.run bs.flatten db.default.get = some db'.default.get := by
  cases ran : machine.run bs.flatten db.default.get with
  | none =>
    obtain ⟨db'', e, run', -⟩ := runBatches_error ran
    rw [run] at run'
    cases run'
  | some s =>
    obtain ⟨db'', run', held⟩ := runBatches_ok ran
    rw [run] at run'
    cases run'
    rw [held.records]

end Save.Metadata
