import Save.Metadata.Determinism

/-!
# Crash and replay

A batch is written record by record and `last_applied_log_id` only at its end,
so a node that crashes in between applies the executed entries a second time
when it restarts (`apply_to_state_machine` and `last_applied_state` in
`raft/storage.rs`, over the commands of `bucket.rs`, `object.rs` and `lock.rs`).

`replay_safe` says when that is harmless. Object records and the membership never
notice. A bucket must not be created both first and last among the executed
entries: its creation would find the bucket and fail, at every restart. The record
of a lock must be settled: it is as it was after some of the executed entries, and
those are acquisitions by its holders, acquisitions it refuses, or releases by
others. Otherwise an acquisition that was refused, or that has been released again,
is granted a second time.

The proof goes record by record: an entry acts on single cells, and replaying is
harmless when it is so for each of them (`replay_cells`).
-/

namespace Save.Metadata
set_option autoImplicit false
open Save.Kv Save.Common Save.Cells

/-- The database of a node that crashed after the first `j` writes of a batch. -/
def crashed (db : Db) (batch : List Tick) (j : Nat) : Db :=
  db.applyAll ((applyToStateMachine db batch).1.take j)

/-- The entries a restarted node applies: those above the stored last applied id. -/
def Db.toReplay (db : Db) (log : List Entry) : List Entry :=
  match db.lastApplied with
  | none => log
  | some id => log.filter fun e => id.index < e.logId.index

/-- The entries of a batch whose writes are all among the first `j`. -/
def executed (db : Db) (j : Nat) : List Tick → List Tick
  | [] => []
  | t :: ts =>
    match entryWrites db t with
    | .error _ => []
    | .ok ws => if ws.length ≤ j then t :: executed (db.applyAll ws) (j - ws.length) ts else []

/-- The entries of a batch that are not executed yet. -/
def unexecuted (db : Db) (j : Nat) (batch : List Tick) : List Tick :=
  batch.drop (executed db j batch).length

/-- Equal records, creation times aside, and equal `raft_state`. -/
structure SameState (db db' : Db) : Prop where
  records : ∀ k, SameButTime (db.default.get k) (db'.default.get k)
  membership : db.membership = db'.membership
  lastApplied : db.lastApplied = db'.lastApplied

/-! ## Lock records -/

/-- One entry's effect on the lock record stored under `k`. -/
def lockStep (k : String) (s : Option LockState) (t : Tick) : Option LockState :=
  match t.entry.payload with
  | .normal (.acquireLock bucket key lockType holder) =>
    if lockKey bucket key = k then some (acquired lockType holder s) else s
  | .normal (.releaseLock bucket key holder) =>
    if lockKey bucket key = k then released holder s else s
  | _ => s

def lockRun (k : String) (s : Option LockState) (ts : List Tick) : Option LockState :=
  ts.foldl (lockStep k) s

/-- The first entry that creates or deletes the bucket. -/
def firstTouch (name : String) (ts : List Tick) : Option Tick :=
  (ts.filter fun t => t.entry.touchesBucket name).head?

/-- An entry that the record `s` of a lock already reflects: an acquisition by one of its
holders or one that it refuses, a release by someone who does not hold it. Entries on
other records count as reflected. -/
def Tick.reflected (k : String) (s : Option LockState) (t : Tick) : Bool :=
  match t.entry.payload with
  | .normal (.acquireLock bucket key lockType holder) =>
    lockKey bucket key != k ||
      s.any fun state => state.isHeldBy holder || !state.canAcquire lockType holder
  | .normal (.releaseLock bucket key holder) =>
    lockKey bucket key != k || s.all fun state => !state.isHeldBy holder
  | _ => true

/-- No bucket is created both by the first and by the last of these entries on it. -/
def CreatedOnce (ts : List Tick) : Prop :=
  ∀ name t t', firstTouch name ts = some t → lastTouch name ts = some t' →
    ¬ (t.entry.createsBucket name = true ∧ t'.entry.createsBucket name = true)

/-- The entries `done` took a lock record from `before` to `crash`. After some of them,
possibly none or all, it already was what it is at the crash, and the crash record
reflects each of those. -/
def LockSettled (k : String) (before crash : Option LockState) (done : List Tick) : Prop :=
  ∃ first rest, done = first ++ rest ∧ lockRun k before first = crash ∧
    ∀ t ∈ first, t.reflected k crash = true

/-- Going over the entries `done` again takes effect where it should not: some lock
command changes the record, which is not the one it was first applied to. -/
def Repeated (k : String) (before crash : Option LockState) (done : List Tick) : Prop :=
  ∃ first t rest, done = first ++ t :: rest ∧
    lockRun k before first ≠ lockRun k crash first ∧
    lockStep k (lockRun k crash first) t ≠ lockRun k crash first

/-- Entries `done` may be applied again to the records `crash` that they made of `before`. -/
structure ReplaySafe (before crash : Store Value) (done : List Tick) : Prop where
  buckets : CreatedOnce done
  locks : ∀ bucket key s s', getLockState before bucket key = .ok s →
    getLockState crash bucket key = .ok s' → LockSettled (lockKey bucket key) s s' done

/-! ## One lock record, replayed -/

@[simp] theorem lockRun_nil (k : String) (s : Option LockState) : lockRun k s [] = s := rfl

@[simp] theorem lockRun_cons (k : String) (s : Option LockState) (t : Tick) (ts : List Tick) :
    lockRun k s (t :: ts) = lockRun k (lockStep k s t) ts := rfl

theorem lockRun_append (k : String) (s : Option LockState) (ts ts' : List Tick) :
    lockRun k s (ts ++ ts') = lockRun k (lockRun k s ts) ts' :=
  List.foldl_append

/-- A record that is stored has a holder. -/
def HasHolder (s : Option LockState) : Prop := ∀ state, s = some state → state.holders ≠ []

theorem HasHolder.lockStep {s : Option LockState} (held : HasHolder s) (k : String) (t : Tick) :
    HasHolder (lockStep k s t) := by
  unfold Metadata.lockStep
  split
  · rename_i bucket key lockType holder payload
    split
    · intro state h
      cases h
      cases s with
      | none => simp [acquired]
      | some state =>
        have some_holder := held state rfl
        simp only [acquired]
        split
        · exact some_holder
        · split <;> simp [some_holder]
    · exact held
  · split
    · intro state h
      cases s with
      | none => cases h
      | some before =>
        simp only [released] at h
        split at h
        · cases h
        · rename_i left
          cases h
          simpa using left
    · exact held
  · exact held

/-- Reflected entries are those that leave the record as it is. -/
theorem lockStep_eq_iff {k : String} {s : Option LockState} (held : HasHolder s) {t : Tick} :
    lockStep k s t = s ↔ t.reflected k s = true := by
  unfold lockStep Tick.reflected
  split
  · rename_i bucket key lockType holder payload
    by_cases same : lockKey bucket key = k
    · cases s with
      | none => simp [same, acquired]
      | some state =>
        by_cases own : state.isHeldBy holder = true
        · simp [same, acquired, own]
        · by_cases granted : state.canAcquire lockType holder = true
          · have longer : state.holders ++ [holder] ≠ state.holders := by simp
            have changed : { state with holders := state.holders ++ [holder] } ≠ state :=
              fun h => longer (congrArg LockState.holders h)
            simp [same, acquired, own, granted, changed]
          · simp [same, acquired, own, granted]
    · simp [same]
  · rename_i bucket key holder payload
    by_cases same : lockKey bucket key = k
    · cases s with
      | none => simp [same, released]
      | some state =>
        have some_holder := held state rfl
        by_cases own : state.isHeldBy holder = true
        · have shorter : state.holders.filter (· != holder) ≠ state.holders := by
            rw [Ne, List.filter_eq_self]
            intro others
            obtain ⟨h, member, same⟩ := List.any_eq_true.1 own
            simp [beq_iff_eq.1 same] at member
            simpa using others holder member
          have changed : released holder (some state) ≠ some state := by
            simp only [released]
            split
            · simp
            · exact fun h => shorter (congrArg LockState.holders (Option.some.inj h))
          simp [same, own, changed]
        · have others : state.holders.filter (· != holder) = state.holders := by
            rw [List.filter_eq_self]
            intro h member
            simp only [LockState.isHeldBy, List.any_eq_true, beq_iff_eq, not_exists, not_and] at own
            simpa using own h member
          simp [same, released, own, others, some_holder]
    · simp [same]
  · simp

theorem lockRun_reflected {k : String} {s : Option LockState} (held : HasHolder s) {ts : List Tick}
    (reflected : ∀ t ∈ ts, t.reflected k s = true) : lockRun k s ts = s := by
  induction ts with
  | nil => rfl
  | cons t ts ih =>
    have still := (lockStep_eq_iff held).2 (reflected t List.mem_cons_self)
    rw [lockRun_cons, still]
    exact ih fun t' member => reflected t' (List.mem_cons_of_mem _ member)

/-- The replay stays at the crash record until the first run was there too, and follows
the first run from then on. -/
theorem LockSettled.again {k : String} {before crash : Option LockState} {done : List Tick}
    (settled : LockSettled k before crash done) (held : HasHolder crash)
    (ran : lockRun k before done = crash) : lockRun k crash done = crash := by
  obtain ⟨first, rest, rfl, there, reflected⟩ := settled
  rw [lockRun_append, there] at ran
  rw [lockRun_append, lockRun_reflected held reflected, ran]

/-- A lock is settled exactly when the replay repeats no command on it. -/
theorem lockSettled_iff {k : String} {before crash : Option LockState} {done : List Tick}
    (held : HasHolder crash) (ran : lockRun k before done = crash) :
    LockSettled k before crash done ↔ ¬ Repeated k before crash done := by
  constructor
  · rintro ⟨settled, follows, rfl, there, reflected⟩ ⟨first, t, rest, split, apart, changes⟩
    rcases List.append_eq_append_iff.1 split with ⟨more, rfl, -⟩ | ⟨more, rfl, more_eq⟩
    · -- from the settled part on, the replay is in step with the first run
      apply apart
      rw [lockRun_append, lockRun_append, there, lockRun_reflected held reflected]
    · have still := lockRun_reflected held fun t' member =>
        reflected t' (List.mem_append_left _ member)
      rw [still] at apart changes
      cases more with
      | nil => exact apart (by simpa using there)
      | cons t' more =>
        obtain ⟨rfl, -⟩ := List.cons.inj more_eq
        exact changes ((lockStep_eq_iff held).2 (reflected t (by simp)))
  · intro once
    by_cases all : ∀ t ∈ done, t.reflected k crash = true
    · exact ⟨done, [], by simp, ran, all⟩
    -- the first command that the crash record does not reflect
    obtain ⟨t, found⟩ : ∃ t, done.find? (fun t => !t.reflected k crash) = some t := by
      rw [← Option.isSome_iff_exists, List.find?_isSome]
      simpa using all
    obtain ⟨changes, first, rest, split, reflected⟩ := List.find?_eq_some_iff_append.1 found
    have reflected : ∀ t ∈ first, t.reflected k crash = true := by simpa using reflected
    refine ⟨first, t :: rest, split, ?_, reflected⟩
    by_contra apart
    apply once
    refine ⟨first, t, rest, split, ?_⟩
    rw [lockRun_reflected held reflected, Ne, Ne, lockStep_eq_iff held]
    exact ⟨apart, by simpa using changes⟩

/-! ## One record, replayed -/

theorem act_lockKey {bucket key : String} {t : Tick} (s : Option LockState)
    (touch : machine.cell t = some (lockKey bucket key)) :
    machine.act t (s.map .lock) = some ((lockStep (lockKey bucket key) s t).map .lock) := by
  obtain ⟨⟨id, payload⟩, now⟩ := t
  cases payload with
  | blank | membership m => cases touch
  | normal cmd =>
    have cell : cmd.cell = lockKey bucket key := Option.some.inj touch
    cases cmd with
    | createBucket b => exact absurd cell (bucketKey_ne_lockKey _ _ _)
    | deleteBucket name => exact absurd cell (bucketKey_ne_lockKey _ _ _)
    | putObjectMetadata metadata => exact absurd cell (objectDbKey_ne_lockKey _ _ _ _)
    | deleteObjectMetadata b k => exact absurd cell (objectDbKey_ne_lockKey _ _ _ _)
    | acquireLock b k lockType holder =>
      simp only [Command.cell] at cell
      cases s <;> simp [machine, Tick.act, cellAct, lockAct, lockStep, cell]
    | releaseLock b k holder =>
      simp only [Command.cell] at cell
      cases s <;> simp [machine, Tick.act, cellAct, lockAct, lockStep, cell]

theorem lockStep_of_ne {bucket key : String} {t : Tick} (s : Option LockState)
    (touch : machine.cell t ≠ some (lockKey bucket key)) : lockStep (lockKey bucket key) s t = s := by
  obtain ⟨⟨id, payload⟩, now⟩ := t
  cases payload with
  | blank | membership m => rfl
  | normal cmd =>
    cases cmd with
    | createBucket b | deleteBucket name | putObjectMetadata m | deleteObjectMetadata b k => rfl
    | acquireLock b k lockType holder | releaseLock b k holder =>
      have other : lockKey b k ≠ lockKey bucket key := fun h => touch (congrArg some h)
      simp [lockStep, other]

/-- The record of a lock runs through the lock functions and never fails. -/
theorem runCell_lockKey (bucket key : String) (ts : List Tick) (s : Option LockState) :
    machine.runCell (lockKey bucket key) ts (s.map .lock) =
      some ((lockRun (lockKey bucket key) s ts).map .lock) := by
  induction ts generalizing s with
  | nil => rfl
  | cons t ts ih =>
    simp only [Machine.runCell, lockRun, List.foldl_cons]
    split
    · rename_i touch
      rw [act_lockKey s touch, Option.bind_some]
      exact ih _
    · rename_i touch
      rw [lockStep_of_ne s touch]
      exact ih s

/-- A creation needs an absent record; every other entry does not look at the record. -/
theorem act_bucketKey {name : String} {t : Tick} (touch : t.entry.touchesBucket name = true) :
    (t.entry.createsBucket name = true ∧ ∀ b, machine.act t (some b) = none) ∨
      (t.entry.createsBucket name = false ∧ ∀ v v', machine.act t v = machine.act t v') := by
  obtain ⟨bucket, payload, rfl⟩ | payload := Entry.touchesBucket_cases touch
  · refine .inl ⟨?_, fun b => ?_⟩
    · simp [Entry.createsBucket, payload]
    · simp [machine, Tick.act, payload, cellAct]
  · refine .inr ⟨?_, fun v v' => ?_⟩
    · rw [Entry.createsBucket, payload]
    · simp only [machine, Tick.act, payload, cellAct]

/-- Bucket records: running executed entries again changes nothing, unless the first
and the last of them create the bucket; then it fails. -/
theorem runCell_bucketKey_again {name : String} {ts : List Tick} {v w : Option Value}
    (ran : machine.runCell (bucketKey name) ts v = some w) :
    (∃ t t', firstTouch name ts = some t ∧ lastTouch name ts = some t' ∧
        t.entry.createsBucket name = true ∧ t'.entry.createsBucket name = true ∧
        machine.runCell (bucketKey name) ts w = none) ∨
      ((∀ t t', firstTouch name ts = some t → lastTouch name ts = some t' →
          ¬ (t.entry.createsBucket name = true ∧ t'.entry.createsBucket name = true)) ∧
        machine.runCell (bucketKey name) ts w = some w) := by
  have value := runCell_bucketKey ran
  rw [← Machine.runCell_touching, touching_bucketKey] at ran ⊢
  unfold firstTouch
  cases hits : ts.filter fun t => t.entry.touchesBucket name with
  | nil => exact .inr ⟨by simp, rfl⟩
  | cons t rest =>
    have touch : t.entry.touchesBucket name = true := by
      have member : t ∈ ts.filter fun t => t.entry.touchesBucket name := by simp [hits]
      exact (List.mem_filter.1 member).2
    obtain ⟨t', last⟩ : ∃ t', lastTouch name ts = some t' := by
      unfold lastTouch
      rw [hits]
      exact ⟨_, List.getLast?_cons⟩
    rw [last] at value ⊢
    rw [hits] at ran
    simp only [Machine.runCell, cell_eq_bucketKey.2 touch, if_true] at ran ⊢
    rcases act_bucketKey touch with ⟨creates, absent⟩ | ⟨deletes, constant⟩
    · cases v with
      | some b => rw [absent b] at ran; cases ran
      | none =>
        by_cases creates' : t'.entry.createsBucket name = true
        · refine .inl ⟨t, t', rfl, rfl, creates, creates', ?_⟩
          simp only [bucketAfter, creates', if_true] at value
          rw [value, absent, Option.bind_none]
        · refine .inr ⟨fun _ _ _ h both => creates' (Option.some.inj h ▸ both.2), ?_⟩
          simp only [bucketAfter, creates'] at value
          subst value
          exact ran
    · refine .inr ⟨fun _ _ h _ both => ?_, by rw [constant w v]; exact ran⟩
      rw [← Option.some.inj h, deletes] at both
      exact Bool.false_ne_true both.1

/-- Keys of neither buckets nor locks: only object commands touch them, and these do
not look at the record. -/
theorem runCell_object_again {k : String} (bucket : ∀ name, k ≠ bucketKey name)
    (lock : ∀ bucket key, k ≠ lockKey bucket key) {ts : List Tick} {v w : Option Value}
    (ran : machine.runCell k ts v = some w) : machine.runCell k ts w = some w := by
  refine machine.runCell_again (fun t _ touch v v' => ?_) ran
  obtain ⟨⟨id, payload⟩, now⟩ := t
  cases payload with
  | blank | membership m => cases touch
  | normal cmd =>
    have cell : cmd.cell = k := Option.some.inj touch
    cases cmd with
    | createBucket b => exact absurd cell.symm (bucket _)
    | deleteBucket name => exact absurd cell.symm (bucket _)
    | putObjectMetadata metadata | deleteObjectMetadata b key => rfl
    | acquireLock b key lockType holder => exact absurd cell.symm (lock _ _)
    | releaseLock b key holder => exact absurd cell.symm (lock _ _)

/-- Every stored lock record decodes, and someone holds the lock. -/
def LocksDecode (db : State String Value) : Prop :=
  ∀ bucket key, ∃ s : Option LockState, db (lockKey bucket key) = s.map .lock ∧ HasHolder s

theorem locksDecode_empty : LocksDecode Db.empty.default.get :=
  fun bucket key => ⟨none, by simp [Db.empty], by simp [HasHolder]⟩

theorem HasHolder.lockRun {s : Option LockState} (held : HasHolder s) (k : String) (ts : List Tick) :
    HasHolder (lockRun k s ts) := by
  induction ts generalizing s with
  | nil => exact held
  | cons t ts ih => exact ih (held.lockStep k t)

theorem LocksDecode.run {db db' : State String Value} (decode : LocksDecode db) {ts : List Tick}
    (ran : machine.run ts db = some db') : LocksDecode db' := by
  intro bucket key
  obtain ⟨s, stored, held⟩ := decode bucket key
  have cell := machine.run_eq_some_iff.1 ran (lockKey bucket key)
  rw [stored, runCell_lockKey] at cell
  exact ⟨_, (Option.some.inj cell).symm, held.lockRun _ _⟩

theorem getLockState_of_get {db : Store Value} {bucket key : String} {s : Option LockState}
    (stored : db.get (lockKey bucket key) = s.map .lock) : getLockState db bucket key = .ok s := by
  unfold getLockState
  rw [stored]
  cases s <;> rfl

/-- **Record by record.** From records that `done` and then `rest` were applied to,
replaying both ends in the same records when replaying is safe. -/
theorem replay_cells {before crash after : Store Value} (decode : LocksDecode before.get)
    {done rest : List Tick} (first : machine.run done before.get = some crash.get)
    (second : machine.run rest crash.get = some after.get) (safe : ReplaySafe before crash done) :
    ∀ k, machine.runCell k (done ++ rest) (crash.get k) = some (after.get k) := by
  intro k
  have cells := machine.run_eq_some_iff.1 first
  -- in every namespace, the executed entries leave the record as it is
  suffices still : machine.runCell k done (crash.get k) = some (crash.get k) by
    rw [Machine.runCell_append, still]
    exact machine.run_eq_some_iff.1 second k
  by_cases bucket : ∃ name, k = bucketKey name
  · obtain ⟨name, rfl⟩ := bucket
    rcases runCell_bucketKey_again (cells (bucketKey name)) with
      ⟨t, t', first, last, creates, creates', -⟩ | ⟨-, again⟩
    · exact absurd ⟨creates, creates'⟩ (safe.buckets name t t' first last)
    · exact again
  by_cases lock : ∃ bucket key, k = lockKey bucket key
  · obtain ⟨b, key, rfl⟩ := lock
    obtain ⟨s, stored, held⟩ := decode b key
    have cell := cells (lockKey b key)
    rw [stored, runCell_lockKey] at cell
    have there := (Option.some.inj cell).symm
    have settled := safe.locks b key s _ (getLockState_of_get stored) (getLockState_of_get there)
    rw [there, runCell_lockKey, settled.again (held.lockRun _ _) rfl]
  · exact runCell_object_again (fun name h => bucket ⟨name, h⟩) (fun b key h => lock ⟨b, key, h⟩)
      (cells k)

/-- Records that can be replayed at all have no bucket that is created twice. -/
theorem createdOnce_of_replay {before : State String Value} {crash : Store Value}
    {done rest : List Tick} (first : machine.run done before = some crash.get)
    (replayed : ∀ k, ∃ w, machine.runCell k (done ++ rest) (crash.get k) = some w) :
    CreatedOnce done := by
  intro name t t' touch last both
  obtain ⟨w, ran⟩ := replayed (bucketKey name)
  rw [Machine.runCell_append] at ran
  rcases runCell_bucketKey_again (machine.run_eq_some_iff.1 first (bucketKey name)) with
    ⟨_, _, _, _, _, _, fails⟩ | ⟨safe, -⟩
  · rw [fails, Option.bind_none] at ran
    cases ran
  · exact safe t t' touch last both

/-! ## The crash -/

/-- What is executed is a start of the batch. -/
theorem executed_append (db : Db) (j : Nat) (batch : List Tick) :
    executed db j batch ++ unexecuted db j batch = batch := by
  unfold unexecuted
  induction batch generalizing db j with
  | nil => rfl
  | cons t ts ih =>
    simp only [executed]
    cases entryWrites db t with
    | error e => rfl
    | ok ws =>
      dsimp only
      split
      · simpa using ih _ _
      · rfl

/-- The first `j` writes of the loop are the writes of the executed entries. -/
theorem applyLoop_take {ts : List Tick} {db : Db} {s : State String Value} (last : Option LogId)
    (ran : machine.run ts db.default.get = some s) (j : Nat) :
    ∃ s', machine.run (executed db j ts) db.default.get = some s' ∧
      Holds (db.applyAll ((applyLoop db last ts).1.take j)) s'
        ((executed db j ts).foldl membershipAfter db.membership) db.lastApplied := by
  induction ts generalizing db last j with
  | nil => exact ⟨_, rfl, by simp [applyLoop], by simp [applyLoop, executed], by simp [applyLoop]⟩
  | cons t ts ih =>
    obtain ⟨s', step, rest⟩ := Option.bind_eq_some_iff.1 ran
    obtain ⟨ws, call, short, held⟩ := entryWrites_ok step
    simp only [executed, applyLoop, call]
    split
    · rename_i enough
      rw [← held.records] at rest
      obtain ⟨s'', ran', held'⟩ := ih (some t.entry.logId) rest (j - ws.length)
      refine ⟨s'', by rw [Machine.run, step, Option.bind_some, ← held.records]; exact ran', ?_⟩
      rw [List.take_append, List.take_of_length_le enough, Db.applyAll_append]
      rw [held.membership, held.lastApplied] at held'
      exact held'
    · -- the one write of this entry is not made, so no write is
      have none_yet : j = 0 := by omega
      subst none_yet
      exact ⟨_, rfl, by simp, rfl, by simp⟩

/-- A crash before `last_applied_log_id` is written leaves the executed entries applied
and the last applied id as it was. -/
theorem crashed_before {batch : List Tick} {db : Db} {s : State String Value}
    (ran : machine.run batch db.default.get = some s) {j : Nat}
    (early : j < (applyToStateMachine db batch).1.length) :
    ∃ s', machine.run (executed db j batch) db.default.get = some s' ∧
      Holds (crashed db batch j) s' ((executed db j batch).foldl membershipAfter db.membership)
        db.lastApplied := by
  obtain ⟨s', ran', held⟩ := applyLoop_take none ran j
  refine ⟨s', ran', ?_⟩
  have writes := applyToStateMachine_writes ran
  rw [writes] at early
  have one : (batch.getLast?.map fun t => DbWrite.lastApplied t.entry.logId).toList.length ≤ 1 := by
    cases batch.getLast? <;> simp
  rw [List.length_append] at early
  unfold crashed
  rw [writes, List.take_append_of_le_length (by omega)]
  exact held

/-- A crash after the last write leaves the whole batch applied. -/
theorem crashed_after {batch : List Tick} {db : Db} {j : Nat}
    (late : (applyToStateMachine db batch).1.length ≤ j) : crashed db batch j = applyBatch db batch := by
  unfold crashed applyBatch
  rw [List.take_of_length_le late]

/-! ## The replay -/

/-- Entries after the last applied one are the ones to replay. -/
theorem toReplay_append {db : Db} {log₁ log₂ : List Entry}
    (ascending : (log₁ ++ log₂).Pairwise fun e e' => e.logId.index < e'.logId.index)
    (last : db.lastApplied = log₁.getLast?.map Entry.logId) :
    db.toReplay (log₁ ++ log₂) = log₂ := by
  unfold Db.toReplay
  obtain ⟨sorted, -, cross⟩ := List.pairwise_append.1 ascending
  rcases List.eq_nil_or_concat log₁ with rfl | ⟨init, e, rfl⟩
  · rw [last]
    rfl
  · rw [List.concat_eq_append] at *
    rw [List.getLast?_append] at last
    rw [last]
    simp only [List.getLast?_singleton, Option.some_or, Option.map_some]
    rw [List.filter_append, List.filter_eq_nil_iff.2, List.nil_append, List.filter_eq_self.2]
    · intro e' member
      simpa using cross e (by simp) e' member
    · intro e' member
      have before : e'.logId.index ≤ e.logId.index := by
        rcases List.mem_append.1 member with h | h
        · exact ((List.pairwise_append.1 sorted).2.2 e' h e (by simp)).le
        · rw [List.mem_singleton.1 h]
      simpa using before

/-- Runs over the same entries, at any times, in terms of the records they end in. -/
theorem run_iff_cells {ts ts' : List Tick} (pairs : List.Forall₂ SameEntry ts ts')
    {s z : State String Value} :
    (∃ t, machine.run ts' s = some t ∧ ∀ k, SameButTime (t k) (z k)) ↔
      ∀ k, ∃ w, machine.runCell k ts (s k) = some w ∧ SameButTime w (z k) := by
  have both : ∀ k, Both SameButTime (machine.runCell k ts (s k)) (machine.runCell k ts' (s k)) :=
    fun k => machine.runCell_both (fun t t' same => by rw [same.cell])
      (fun t t' same _ v v' values => same.act v v' values) pairs rfl
  constructor
  · rintro ⟨t, ran, same⟩ k
    have cell := machine.run_eq_some_iff.1 ran k
    have related := both k
    rw [cell] at related
    cases first : machine.runCell k ts (s k) with
    | none => rw [first] at related; exact related.elim
    | some w =>
      rw [first] at related
      exact ⟨w, rfl, Eq.trans related (same k)⟩
  · intro cells
    have cells' : ∀ k, ∃ w, machine.runCell k ts' (s k) = some w ∧ SameButTime w (z k) := by
      intro k
      obtain ⟨w, ran, same⟩ := cells k
      have related := both k
      rw [ran] at related
      cases second : machine.runCell k ts' (s k) with
      | none => rw [second] at related; exact related.elim
      | some w' =>
        rw [second] at related
        exact ⟨w', rfl, Eq.trans related.symm same⟩
    choose t ran same using cells'
    exact ⟨t, machine.run_eq_some_iff.2 ran, same⟩

theorem foldl_membership_entry {ts ts' : List Tick} (pairs : List.Forall₂ SameEntry ts ts')
    (members : Option StoredMembership) :
    ts.foldl membershipAfter members = ts'.foldl membershipAfter members := by
  induction pairs generalizing members with
  | nil => rfl
  | cons same _ ih =>
    simp only [List.foldl_cons, membershipAfter, show _ = _ from same]
    exact ih _

theorem foldl_lastApplied_entry {ts ts' : List Tick} (pairs : List.Forall₂ SameEntry ts ts')
    (last : Option LogId) :
    ts.foldl lastAppliedAfter last = ts'.foldl lastAppliedAfter last := by
  induction pairs generalizing last with
  | nil => rfl
  | cons same _ ih =>
    simp only [List.foldl_cons, lastAppliedAfter, show _ = _ from same]
    exact ih _

/-- Entries either leave the membership alone or set it, whatever it was. -/
theorem foldl_membership_constant (ts : List Tick) :
    (∀ m, ts.foldl membershipAfter m = m) ∨ ∃ c, ∀ m, ts.foldl membershipAfter m = c := by
  induction ts with
  | nil => exact .inl fun m => rfl
  | cons t ts ih =>
    rcases ih with still | ⟨c, set⟩
    · cases payload : t.entry.payload with
      | blank => exact .inl fun m => by simp [membershipAfter, payload, still]
      | normal cmd => exact .inl fun m => by simp [membershipAfter, payload, still]
      | membership members => exact .inr ⟨_, fun m => by simp [membershipAfter, payload, still]; rfl⟩
    · exact .inr ⟨c, fun m => set _⟩

theorem foldl_membership_again (ts : List Tick) (m : Option StoredMembership) :
    ts.foldl membershipAfter (ts.foldl membershipAfter m) = ts.foldl membershipAfter m := by
  rcases foldl_membership_constant ts with still | ⟨c, set⟩
  · rw [still, still]
  · rw [set, set]

/-- The outcome of a replay, in terms of the records. -/
theorem replay_iff_cells {db db' : Db} {replay : List (List Tick)} {ts : List Tick}
    (pairs : List.Forall₂ SameEntry ts replay.flatten)
    (membership : ts.foldl membershipAfter db.membership = db'.membership)
    (last : ts.foldl lastAppliedAfter db.lastApplied = db'.lastApplied) :
    (∃ r, runBatches db replay = (r, .ok ()) ∧ SameState r db') ↔
      ∀ k, ∃ w, machine.runCell k ts (db.default.get k) = some w ∧
        SameButTime w (db'.default.get k) := by
  rw [← run_iff_cells pairs]
  constructor
  · rintro ⟨r, run, same⟩
    exact ⟨r.default.get, run_of_runBatches run, same.records⟩
  · rintro ⟨t, ran, same⟩
    obtain ⟨r, run, held⟩ := runBatches_ok ran
    refine ⟨r, run, ?_, ?_, ?_⟩
    · rw [held.records]; exact same
    · rw [held.membership, ← foldl_membership_entry pairs, membership]
    · rw [held.lastApplied, ← foldl_lastApplied_entry pairs, last]

/-- **Crash replay.** After a crash within a batch, a restarted node that applies every
entry above its last applied id ends, without error, where the run without the crash
ends, if all the writes of the batch had been made or the executed entries are safe to
replay. Of the two halves of that, the buckets' is necessary, and where the locks' fails
the replay repeats a lock command. -/
theorem replay_safe (history later replay : List (List Tick)) (batch : List Tick) {db db' : Db}
    (reached : runBatches Db.empty history = (db, .ok ()))
    (finished : runBatches db (batch :: later) = (db', .ok ()))
    (ascending : ((history.flatten ++ batch ++ later.flatten).map Tick.entry).Pairwise
      fun e e' => e.logId.index < e'.logId.index)
    (j : Nat)
    (log : replay.flatten.map Tick.entry =
      (crashed db batch j).toReplay ((history.flatten ++ batch ++ later.flatten).map Tick.entry)) :
    ((applyToStateMachine db batch).1.length ≤ j ∨
        ReplaySafe db.default (crashed db batch j).default (executed db j batch) →
      ∃ r, runBatches (crashed db batch j) replay = (r, .ok ()) ∧ SameState r db') ∧
    ((∃ r, runBatches (crashed db batch j) replay = (r, .ok ()) ∧ SameState r db') →
      (applyToStateMachine db batch).1.length ≤ j ∨ CreatedOnce (executed db j batch)) ∧
    (j < (applyToStateMachine db batch).1.length →
      ∀ bucket key, ∃ s s', getLockState db.default bucket key = .ok s ∧
        getLockState (crashed db batch j).default bucket key = .ok s' ∧
        (LockSettled (lockKey bucket key) s s' (executed db j batch) ↔
          ¬ Repeated (lockKey bucket key) s s' (executed db j batch))) := by
  have ranHistory := run_of_runBatches reached
  have ran := run_of_runBatches finished
  obtain ⟨_, run, held⟩ := runBatches_ok ranHistory
  rw [reached] at run
  cases run
  obtain ⟨_, run, heldF⟩ := runBatches_ok ran
  rw [finished] at run
  cases run
  rw [List.flatten_cons] at ran heldF
  have last : db.lastApplied = history.flatten.getLast?.map fun t => t.entry.logId := by
    rw [held.lastApplied, foldl_lastApplied]
    exact Option.or_none
  obtain ⟨s, ranBatch, ranLater⟩ := Option.bind_eq_some_iff.1 (machine.run_append _ _ _ ▸ ran)
  by_cases late : (applyToStateMachine db batch).1.length ≤ j
  · simp only [late, true_or, forall_const, implies_true, Nat.not_lt.2 late, IsEmpty.forall_iff,
      and_true]
    have heldB := (applyToStateMachine_ok ranBatch).2
    rw [crashed_after late] at log ⊢
    rw [List.map_append, toReplay_append (List.map_append ▸ ascending)] at log
    · rw [List.foldl_append] at heldF
      refine (replay_iff_cells (forall₂_sameEntry.2 log.symm) ?_ ?_).2 fun k => ?_
      · rw [heldB.membership, heldF.membership]
      · rw [heldB.lastApplied, heldF.lastApplied, List.foldl_append]
      · rw [heldB.records]
        exact ⟨_, machine.run_eq_some_iff.1 ranLater k, rfl⟩
    · rw [heldB.lastApplied, held.lastApplied, ← List.foldl_append, foldl_lastApplied,
        List.getLast?_map]
      simp [Db.empty, Function.comp_def]
  · simp only [late, false_or]
    obtain ⟨s', ranDone, heldC⟩ := crashed_before ranBatch (Nat.lt_of_not_le late)
    have split : batch ++ later.flatten =
        executed db j batch ++ (unexecuted db j batch ++ later.flatten) := by
      rw [← List.append_assoc, executed_append]
    have decode : LocksDecode db.default.get := locksDecode_empty.run ranHistory
    rw [split, Machine.run_append, ranDone, Option.bind_some, ← heldC.records] at ran
    rw [← heldC.records] at ranDone
    have outcome : (∃ r, runBatches (crashed db batch j) replay = (r, .ok ()) ∧ SameState r db') ↔
        ∀ k, ∃ w, machine.runCell k (executed db j batch ++ (unexecuted db j batch ++ later.flatten))
          ((crashed db batch j).default.get k) = some w ∧ SameButTime w (db'.default.get k) := by
      rw [List.append_assoc, List.map_append, toReplay_append] at log
      · rw [split] at log heldF
        refine replay_iff_cells (forall₂_sameEntry.2 log.symm) ?_ ?_
        · rw [heldC.membership, heldF.membership]
          simp only [List.foldl_append, foldl_membership_again]
        · rw [heldC.lastApplied, heldF.lastApplied]
      · rwa [← List.map_append, ← List.append_assoc]
      · rw [heldC.lastApplied, last, List.getLast?_map, Option.map_map]
        rfl
    rw [outcome]
    refine ⟨fun safe k => ⟨_, replay_cells decode ranDone ran safe k, rfl⟩, fun replayed => ?_,
      fun _ bucket key => ?_⟩
    · refine @createdOnce_of_replay _ _ _ (unexecuted db j batch ++ later.flatten) ranDone fun k => ?_
      obtain ⟨w, ran, -⟩ := replayed k
      exact ⟨w, ran⟩
    · obtain ⟨s, stored, held⟩ := decode bucket key
      have cell := machine.run_eq_some_iff.1 ranDone (lockKey bucket key)
      rw [stored, runCell_lockKey] at cell
      exact ⟨s, _, getLockState_of_get stored, getLockState_of_get (Option.some.inj cell).symm,
        lockSettled_iff (held.lockRun _ _) rfl⟩

/-- A lock is taken, refused to another holder and released; a second lock stays taken;
a bucket is created. -/
def lockBatch (now : Nat) : List Tick :=
  [⟨⟨⟨⟨1, 1⟩, 1⟩, .normal (.acquireLock "abc" "k" .write ⟨1, 1⟩)⟩, now⟩,
   ⟨⟨⟨⟨1, 1⟩, 2⟩, .normal (.acquireLock "abc" "k" .write ⟨1, 2⟩)⟩, now⟩,
   ⟨⟨⟨⟨1, 1⟩, 3⟩, .normal (.releaseLock "abc" "k" ⟨1, 1⟩)⟩, now⟩,
   ⟨⟨⟨⟨1, 1⟩, 4⟩, .normal (.acquireLock "abc" "m" .read ⟨1, 3⟩)⟩, now⟩,
   ⟨⟨⟨⟨1, 1⟩, 5⟩, .normal (.createBucket ⟨"abc", 5⟩)⟩, now⟩]

/-- A crash after the first three writes, that is with all lock commands executed. -/
theorem replay_lockBatch :
    ∃ r, runBatches (crashed Db.empty (lockBatch 7) 3) [lockBatch 8] = (r, .ok ()) ∧
      SameState r (runBatches Db.empty [lockBatch 7]).1 := by
  refine (replay_safe [] [] [lockBatch 8] (lockBatch 7) rfl rfl (by simp [lockBatch]) 3 rfl).1
    (.inr ⟨?_, fun bucket key s s' read read' => ?_⟩)
  · rintro name t t' first - -
    cases first
  · have crash : (crashed Db.empty (lockBatch 7) 3).default =
        ((Db.empty.default.put (lockKey "abc" "k") (.lock ⟨.write, [⟨1, 1⟩]⟩)).delete
          (lockKey "abc" "k")).put (lockKey "abc" "m") (.lock ⟨.read, [⟨1, 3⟩]⟩) := rfl
    have absent : getLockState Db.empty.default bucket key = .ok none := by
      simp [getLockState, Db.empty]
    cases absent.symm.trans read
    by_cases same : lockKey "abc" "m" = lockKey bucket key
    · -- the lock that stays taken: its holder takes it again
      have taken : getLockState (crashed Db.empty (lockBatch 7) 3).default bucket key =
          .ok (some ⟨.read, [⟨1, 3⟩]⟩) := by
        simp [getLockState, crash, same]
      cases taken.symm.trans read'
      rw [← same]
      exact ⟨executed Db.empty 3 (lockBatch 7), [], rfl, rfl, by decide⟩
    · -- every other lock is free again, as it was before the batch
      have free : getLockState (crashed Db.empty (lockBatch 7) 3).default bucket key =
          .ok none := by
        rw [crash, put_delete]
        simp [getLockState, same, Db.empty]
      cases free.symm.trans read'
      exact ⟨[], executed Db.empty 3 (lockBatch 7), rfl, rfl, by simp⟩

/-- The creation of a bucket, written but not yet recorded as applied: the restarted
node cannot apply it. -/
theorem replay_recreates_bucket :
    ∃ (batch : List Tick) (db' : Db) (j : Nat) (replay : List (List Tick)),
      runBatches Db.empty [batch] = (db', .ok ()) ∧
        replay.flatten.map Tick.entry =
          (crashed Db.empty batch j).toReplay (batch.map Tick.entry) ∧
        ¬ ∃ r, runBatches (crashed Db.empty batch j) replay = (r, .ok ()) ∧ SameState r db' := by
  refine ⟨[⟨⟨⟨⟨1, 1⟩, 1⟩, .normal (.createBucket ⟨"abc", 5⟩)⟩, 7⟩], _, 1,
    [[⟨⟨⟨⟨1, 1⟩, 1⟩, .normal (.createBucket ⟨"abc", 5⟩)⟩, 8⟩]], rfl, rfl, ?_⟩
  rintro ⟨r, run, -⟩
  have answer := congrArg Prod.snd run
  have fails : (runBatches (crashed Db.empty
      [⟨⟨⟨⟨1, 1⟩, 1⟩, .normal (.createBucket ⟨"abc", 5⟩)⟩, 7⟩] 1)
      [[⟨⟨⟨⟨1, 1⟩, 1⟩, .normal (.createBucket ⟨"abc", 5⟩)⟩, 8⟩]]).2 =
        .error ⟨"Bucket already exists: abc"⟩ := rfl
  rw [fails] at answer
  cases answer

end Save.Metadata
