import Save.Metadata.Refinement

/-!
# The lock table

The lock commands of the state machine (`acquire_lock` and `release_lock` of
`lock.rs`), applied in any order from an empty table. A lock record always has
holders, each once, and a write lock has one. `lock_table` says this of every table
reached, together with what the next acquisition or release answers and does, and
that it leaves the locks of other objects alone.
-/

namespace Save.Metadata
set_option autoImplicit false
open Save.Text Save.Kv Save.Common

inductive LockOp where
  | acquire (bucket key : String) (lockType : LockType) (holder : LockHolder)
  | release (bucket key : String) (holder : LockHolder)
  deriving DecidableEq, Repr

def LockOp.command : LockOp → Command
  | .acquire bucket key lockType holder => .acquireLock bucket key lockType holder
  | .release bucket key holder => .releaseLock bucket key holder

/-- The lock commands applied one after the other. They do not read the clock. -/
def applyLocks (db : Store Value) : List LockOp → Except StorageIOError (Store Value)
  | [] => .ok db
  | op :: ops =>
    match applyCommand 0 db op.command with
    | .error e => .error e
    | .ok ws => applyLocks (applyAll db ws) ops

/-- What every lock record satisfies. -/
structure LockState.Valid (s : LockState) : Prop where
  held : s.holders ≠ []
  distinct : s.holders.Nodup
  single : s.lockType = .write → ∃ holder, s.holders = [holder]

/-- A table of valid lock records, and of nothing else. -/
def LockTable (db : Store Value) : Prop :=
  ∀ k v, db.get k = some v → ∃ s : LockState, v = .lock s ∧ s.Valid

/-- The holder is in the lock's record. -/
def HeldBy (db : Store Value) (bucket key : String) (holder : LockHolder) : Prop :=
  ∃ s, getLockState db bucket key = .ok (some s) ∧ holder ∈ s.holders

/-- The writes leave the table outside the lock's own key as it was, and so the lock of every
other object: a bucket name has no slash, so `bucket/key` is one object. -/
def LeavesOthers (db : Store Value) (bucket key : String) (ws : List (Write Value)) : Prop :=
  (∀ k, k ≠ lockKey bucket key → (applyAll db ws).get k = db.get k) ∧
    ∀ bucket' key', containsChar bucket '/' = false → ValidBucket bucket' →
      (bucket', key') ≠ (bucket, key) →
        getLockState (applyAll db ws) bucket' key' = getLockState db bucket' key'

/-- `acquire_lock` answers whether the holder has the lock, and does nothing when not. -/
def AcquireRight (db : Store Value) (bucket key : String) (lockType : LockType)
    (holder : LockHolder) : Prop :=
  ∃ granted ws, acquireLock db bucket key lockType holder = .ok (granted, ws) ∧
    (granted = true ↔ HeldBy (applyAll db ws) bucket key holder) ∧
    (granted = false → applyAll db ws = db) ∧ LeavesOthers db bucket key ws

/-- `release_lock` removes the holder, and the record with its last holder. -/
def ReleaseRight (db : Store Value) (bucket key : String) (holder : LockHolder) : Prop :=
  ∃ ws, releaseLock db bucket key holder = .ok ws ∧
    (getLockState db bucket key = .ok none → applyAll db ws = db) ∧
    (∀ s, getLockState db bucket key = .ok (some s) →
      getLockState (applyAll db ws) bucket key =
        if ∀ h ∈ s.holders, h = holder then .ok none
        else .ok (some { s with holders := s.holders.filter (· != holder) })) ∧
    LeavesOthers db bucket key ws

/-! ## One record -/

theorem isHeldBy_iff {s : LockState} {holder : LockHolder} :
    s.isHeldBy holder = true ↔ holder ∈ s.holders := by
  simp [LockState.isHeldBy]

/-- Whether an acquisition is granted on a record. -/
def grants (lockType : LockType) (holder : LockHolder) : Option LockState → Bool
  | none => true
  | some s => s.canAcquire lockType holder

theorem acquired_of_refused {lockType : LockType} {holder : LockHolder} {s : Option LockState}
    (refused : grants lockType holder s = false) : some (acquired lockType holder s) = s := by
  cases s with
  | none => cases refused
  | some s =>
    have refused : s.canAcquire lockType holder = false := refused
    by_cases held : s.isHeldBy holder = true
    · simp [acquired, held]
    · simp [acquired, held, refused]

/-- The holders after an acquisition: those before, and the new one if it is granted. -/
theorem mem_acquired {lockType : LockType} {holder h : LockHolder} {s : Option LockState} :
    h ∈ (acquired lockType holder s).holders ↔
      (∃ s', s = some s' ∧ h ∈ s'.holders) ∨ (h = holder ∧ grants lockType holder s = true) := by
  cases s with
  | none => simp [acquired, grants]
  | some s =>
    by_cases held : s.isHeldBy holder = true
    · have granted : s.canAcquire lockType holder = true := by
        simp only [LockState.isHeldBy] at held
        simp [LockState.canAcquire, held]
      simp only [acquired, held, if_true, grants, granted, Option.some.injEq, exists_eq_left', and_true]
      refine ⟨.inl, ?_⟩
      rintro (there | rfl)
      · exact there
      · exact isHeldBy_iff.1 held
    · by_cases granted : s.canAcquire lockType holder = true
      · simp [acquired, held, grants, granted]
      · simp [acquired, held, grants, granted]

theorem acquired_granted {lockType : LockType} {holder : LockHolder} {s : Option LockState} :
    holder ∈ (acquired lockType holder s).holders ↔ grants lockType holder s = true := by
  rw [mem_acquired]
  constructor
  · rintro (⟨s', rfl, there⟩ | ⟨-, granted⟩)
    · have held : s'.holders.any (· == holder) = true := isHeldBy_iff.2 there
      simp [grants, LockState.canAcquire, held]
    · exact granted
  · intro granted
    exact .inr ⟨rfl, granted⟩

theorem acquired_valid {lockType : LockType} {holder : LockHolder} {s : Option LockState}
    (valid : ∀ s', s = some s' → s'.Valid) : (acquired lockType holder s).Valid := by
  cases s with
  | none => exact ⟨by simp [acquired], by simp [acquired], fun _ => ⟨holder, rfl⟩⟩
  | some s =>
    have before := valid s rfl
    simp only [acquired]
    split
    · exact before
    · rename_i other
      split
      · exact before
      · rename_i granted
        have absent : holder ∉ s.holders := fun there => other (isHeldBy_iff.2 there)
        have shared : s.lockType = .read := by
          have free : s.holders.any (· == holder) = false := Bool.eq_false_iff.2 other
          cases kind : s.lockType with
          | read => rfl
          | write => simp [LockState.canAcquire, free, kind] at granted
        refine ⟨by simp, ?_, ?_⟩
        · refine List.nodup_append.2 ⟨before.distinct, by simp, ?_⟩
          intro a there b last same
          rw [List.mem_singleton] at last
          exact absent (last ▸ same ▸ there)
        · intro exclusive
          rw [shared] at exclusive
          cases exclusive

theorem released_some {holder : LockHolder} {s : LockState} :
    released holder (some s) =
      if ∀ h ∈ s.holders, h = holder then none
      else some { s with holders := s.holders.filter (· != holder) } := by
  have empty : (s.holders.filter (· != holder)).isEmpty = true ↔ ∀ h ∈ s.holders, h = holder := by
    simp [List.isEmpty_iff, List.filter_eq_nil_iff]
  simp only [released, empty]

theorem released_valid {holder : LockHolder} {s : LockState} (before : s.Valid) {s' : LockState}
    (left : released holder (some s) = some s') : s'.Valid := by
  rw [released_some] at left
  split at left
  · cases left
  · rename_i others
    cases left
    push Not at others
    obtain ⟨h, there, other⟩ := others
    refine ⟨List.ne_nil_of_mem (List.mem_filter.2 ⟨there, by simpa using other⟩),
      before.distinct.filter _, fun exclusive => ?_⟩
    obtain ⟨only, holders⟩ := before.single exclusive
    rw [holders] at there ⊢
    rw [List.mem_singleton] at there
    subst there
    exact ⟨h, by simp [other]⟩

/-! ## Tables -/

/-- In a table every lock is read as it is stored. -/
theorem LockTable.read {db : Store Value} (table : LockTable db) (bucket key : String) :
    ∃ s, getLockState db bucket key = .ok s ∧ db.get (lockKey bucket key) = s.map .lock ∧
      ∀ s', s = some s' → s'.Valid := by
  cases stored : db.get (lockKey bucket key) with
  | none =>
    refine ⟨none, ?_, rfl, ?_⟩
    · simp [getLockState, stored]
    · rintro s' ⟨⟩
  | some v =>
    obtain ⟨s, rfl, valid⟩ := table _ v stored
    refine ⟨some s, ?_, rfl, ?_⟩
    · simp [getLockState, stored]
    · rintro s' ⟨⟩
      exact valid

theorem getLockState_congr {db db' : Store Value} {bucket key : String}
    (same : db'.get (lockKey bucket key) = db.get (lockKey bucket key)) :
    getLockState db' bucket key = getLockState db bucket key := by
  simp only [getLockState, same]

theorem Sets.getLockState {db : Store Value} {ws : List (Write Value)} {bucket key : String}
    {s : Option LockState} (sets : Sets db ws (lockKey bucket key) (s.map .lock)) :
    getLockState (applyAll db ws) bucket key = .ok s := by
  unfold Metadata.getLockState
  rw [sets.2, if_pos rfl]
  cases s <;> rfl

theorem LockTable.sets {db : Store Value} (table : LockTable db) {ws : List (Write Value)}
    {k : String} {s : Option LockState} (sets : Sets db ws k (s.map .lock))
    (valid : ∀ s', s = some s' → s'.Valid) : LockTable (applyAll db ws) := by
  intro k' v stored
  rw [sets.2] at stored
  split at stored
  · obtain ⟨s', same, rfl⟩ := Option.map_eq_some_iff.1 stored
    exact ⟨s', rfl, valid s' same⟩
  · exact table k' v stored

theorem lockKey_inj {b b' k k' : String} (free : containsChar b '/' = false)
    (free' : containsChar b' '/' = false) (same : lockKey b k = lockKey b' k') : b = b' ∧ k = k' := by
  simp only [lockKey, String.append_assoc] at same
  have rest := append_right_inj same
  simp only [← String.append_assoc] at rest
  exact sep_inj free free' rest

theorem Sets.leavesOthers {db : Store Value} {ws : List (Write Value)} {bucket key : String}
    {v : Option Value} (sets : Sets db ws (lockKey bucket key) v) : LeavesOthers db bucket key ws := by
  have elsewhere : ∀ k, k ≠ lockKey bucket key → (applyAll db ws).get k = db.get k := by
    intro k other
    rw [sets.2, if_neg other.symm]
  refine ⟨elsewhere, fun bucket' key' free valid other => ?_⟩
  apply getLockState_congr
  apply elsewhere
  intro same
  obtain ⟨rfl, rfl⟩ := lockKey_inj free valid.no_slash same.symm
  exact other rfl

theorem Sets.unchanged {db : Store Value} {ws : List (Write Value)} {k : String}
    (sets : Sets db ws k (db.get k)) : applyAll db ws = db := by
  apply Store.ext
  intro a
  rw [sets.2]
  split
  · rename_i same
    rw [same]
  · rfl

/-- One acquisition: its answer, its write and the table after it. -/
theorem LockTable.acquire {db : Store Value} (table : LockTable db) (bucket key : String)
    (lockType : LockType) (holder : LockHolder) :
    ∃ s ws, getLockState db bucket key = .ok s ∧
      acquireLock db bucket key lockType holder = .ok (grants lockType holder s, ws) ∧
      Sets db ws (lockKey bucket key) (some (.lock (acquired lockType holder s))) ∧
      db.get (lockKey bucket key) = s.map .lock ∧ LockTable (applyAll db ws) := by
  obtain ⟨s, read, stored, valid⟩ := table.read bucket key
  obtain ⟨granted, ws, call, sets⟩ := acquireLock_sets lockType holder read stored
  have answer : granted = grants lockType holder s := by
    unfold acquireLock at call
    rw [read] at call
    cases s with
    | none =>
      cases call
      rfl
    | some s =>
      simp only [bind, Except.bind, pure, Except.pure] at call
      split at call
      · rename_i held
        cases call
        have held : s.holders.any (· == holder) = true := held
        simp [grants, LockState.canAcquire, held]
      · split at call
        · rename_i refused
          cases call
          simpa [grants] using refused.symm
        · rename_i allowed
          cases call
          simpa [grants] using allowed
  rw [answer] at call
  refine ⟨s, ws, read, call, sets, stored, ?_⟩
  refine table.sets (s := some (acquired lockType holder s)) sets ?_
  rintro s' ⟨⟩
  exact acquired_valid valid

/-- One release: its write and the table after it. -/
theorem LockTable.release {db : Store Value} (table : LockTable db) (bucket key : String)
    (holder : LockHolder) :
    ∃ s ws, getLockState db bucket key = .ok s ∧ releaseLock db bucket key holder = .ok ws ∧
      Sets db ws (lockKey bucket key) ((released holder s).map .lock) ∧
      db.get (lockKey bucket key) = s.map .lock ∧ LockTable (applyAll db ws) := by
  obtain ⟨s, read, stored, valid⟩ := table.read bucket key
  obtain ⟨ws, call, sets⟩ := releaseLock_sets holder read stored
  refine ⟨s, ws, read, call, sets, stored, table.sets sets ?_⟩
  intro s' left
  cases s with
  | none => cases left
  | some s => exact released_valid (valid s rfl) left

theorem LockTable.acquireRight {db : Store Value} (table : LockTable db) (bucket key : String)
    (lockType : LockType) (holder : LockHolder) : AcquireRight db bucket key lockType holder := by
  obtain ⟨s, ws, read, call, sets, -, -⟩ := table.acquire bucket key lockType holder
  have after : getLockState (applyAll db ws) bucket key = .ok (some (acquired lockType holder s)) :=
    Sets.getLockState (s := some (acquired lockType holder s)) sets
  refine ⟨_, ws, call, ?_, fun refused => ?_, sets.leavesOthers⟩
  · rw [← acquired_granted]
    constructor
    · intro there
      exact ⟨_, after, there⟩
    · rintro ⟨s', read', there⟩
      rw [after] at read'
      cases read'
      exact there
  · obtain ⟨s', read', stored, -⟩ := table.read bucket key
    rw [read] at read'
    cases read'
    have same : some (Value.lock (acquired lockType holder s)) = db.get (lockKey bucket key) :=
      (congrArg (Option.map Value.lock) (acquired_of_refused refused)).trans stored.symm
    rw [same] at sets
    exact sets.unchanged

theorem LockTable.releaseRight {db : Store Value} (table : LockTable db) (bucket key : String)
    (holder : LockHolder) : ReleaseRight db bucket key holder := by
  obtain ⟨s, ws, read, call, sets, stored, -⟩ := table.release bucket key holder
  refine ⟨ws, call, fun absent => ?_, fun s' there => ?_, sets.leavesOthers⟩
  · rw [read] at absent
    cases absent
    have same : (released holder none).map Value.lock = db.get (lockKey bucket key) := stored.symm
    rw [same] at sets
    exact sets.unchanged
  · rw [read] at there
    cases there
    rw [sets.getLockState, released_some]
    split <;> rfl

/-- Every command applies to a table and leaves a table. -/
theorem LockTable.apply {db : Store Value} (table : LockTable db) (op : LockOp) :
    ∃ ws, applyCommand 0 db op.command = .ok ws ∧ LockTable (applyAll db ws) := by
  cases op with
  | acquire bucket key lockType holder =>
    obtain ⟨s, ws, -, call, -, -, after⟩ := table.acquire bucket key lockType holder
    exact ⟨ws, by simp [LockOp.command, applyCommand, call, Except.map, Except.mapError], after⟩
  | release bucket key holder =>
    obtain ⟨s, ws, -, call, -, -, after⟩ := table.release bucket key holder
    exact ⟨ws, by simp [LockOp.command, applyCommand, call, Except.mapError], after⟩

theorem LockTable.run {db : Store Value} (table : LockTable db) (ops : List LockOp) :
    ∃ db', applyLocks db ops = .ok db' ∧ LockTable db' := by
  induction ops generalizing db with
  | nil => exact ⟨db, rfl, table⟩
  | cons op ops ih =>
    obtain ⟨ws, call, after⟩ := table.apply op
    obtain ⟨db', ran, final⟩ := ih after
    exact ⟨db', by simp [applyLocks, call, ran], final⟩

theorem LockTable.empty : LockTable (Store.empty : Store Value) := by
  intro k v stored
  simp at stored

/-- **The lock table.** Any lock commands apply to the empty table, and in the table they
leave every record is valid and every next command answers and acts as it should. -/
theorem lock_table (ops : List LockOp) :
    ∃ db, applyLocks Store.empty ops = .ok db ∧ LockTable db ∧
      (∀ bucket key lockType holder, AcquireRight db bucket key lockType holder) ∧
      ∀ bucket key holder, ReleaseRight db bucket key holder := by
  obtain ⟨db, ran, table⟩ := LockTable.empty.run ops
  exact ⟨db, ran, table, table.acquireRight, table.releaseRight⟩

end Save.Metadata
