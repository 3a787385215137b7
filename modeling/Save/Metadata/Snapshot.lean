import Save.Metadata.StateMachine

/-!
# Snapshots

`build_snapshot` (`raft/snapshot.rs`) archives a checkpoint of the database with the
applied state as its meta; `install_snapshot` wipes and copies the default column
family prefix by prefix, over the hand-kept list `DATA_PREFIXES` (`keys.rs`), and
then stores the meta. An archive is represented by what the installing node reads
from it, the default column family of the checkpoint. `install_iff` says exactly
when the target ends with the replicated state of the source.
-/

namespace Save.Metadata
set_option autoImplicit false
open Save.Text Save.Kv

structure Snapshot where
  info : SnapshotMeta
  archive : Store Value

/-- `build_snapshot`: the snapshot, and the database with it stored. -/
def buildSnapshot (timestampMillis : Int) (db : Db) : Snapshot × Db :=
  let (lastApplied, membership) := db.lastAppliedState
  let snapshotId :=
    toString ((lastApplied.map LogId.index).getD 0) ++ "-" ++ toString timestampMillis
  let info : SnapshotMeta := ⟨lastApplied, membership, snapshotId⟩
  (⟨info, db.default⟩, { db with snapshotMeta := some info, snapshotData := some db.default })

/-- The first loop of `restore_default_cf`: delete every key with a data prefix. -/
def wipe (target : Store Value) (prefixes : List String) : Store Value :=
  prefixes.foldl (fun db p => applyAll db (scanDeletes db p)) target

/-- The second loop: copy every key with a data prefix. -/
def copyFrom (source target : Store Value) (prefixes : List String) : Store Value :=
  prefixes.foldl (fun db p => applyAll db (scanPuts source p)) target

def restoreDefaultCf (target source : Store Value) : Store Value :=
  copyFrom source (wipe target dataPrefixes) dataPrefixes

def updateRaftStateFromSnapshot (db : Db) (info : SnapshotMeta) : Db :=
  let db := match info.lastLogId with
    | some id => { db with lastApplied := some id }
    | none => db
  { db with membership := some info.lastMembership }

def installSnapshot (db : Db) (info : SnapshotMeta) (archive : Store Value) : Db :=
  let db := { db with default := restoreDefaultCf db.default archive }
  let db := updateRaftStateFromSnapshot db info
  { db with snapshotMeta := some info, snapshotData := some archive }

/-! ## The two loops -/

/-- Some prefix of the list starts the key. -/
def covered (prefixes : List String) (k : String) : Bool := prefixes.any fun p => startsWith k p

theorem get_scanPuts (source db : Store Value) (p k : String) :
    (applyAll db (scanPuts source p)).get k =
      if startsWith k p then (source.get k).or (db.get k) else db.get k := by
  have outside : (startsWith k p = true → source.get k = none) →
      (applyAll db (scanPuts source p)).get k = db.get k := by
    intro absent
    refine get_applyAll_of_ne fun w member key => ?_
    obtain ⟨⟨k', v⟩, scanned, rfl⟩ := List.mem_map.1 member
    obtain rfl : k' = k := key
    obtain ⟨stored, hit⟩ := mem_scan.1 scanned
    rw [absent hit] at stored
    cases stored
  by_cases hit : startsWith k p = true
  · rw [if_pos hit]
    cases stored : source.get k with
    | none => rw [outside fun _ => stored]; rfl
    | some v =>
      refine get_applyAll_of_agree
        ⟨.put k v, List.mem_map.2 ⟨(k, v), mem_scan.2 ⟨stored, hit⟩, rfl⟩, rfl⟩ ?_
      intro w member key
      obtain ⟨⟨k', v'⟩, scanned, rfl⟩ := List.mem_map.1 member
      obtain rfl : k' = k := key
      rw [(mem_scan.1 scanned).1] at stored
      exact stored
  · rw [if_neg hit, outside fun h => absurd h hit]

theorem get_wipe (target : Store Value) (prefixes : List String) (k : String) :
    (wipe target prefixes).get k = if covered prefixes k then none else target.get k := by
  induction prefixes generalizing target with
  | nil => rfl
  | cons p ps ih =>
    simp only [wipe, List.foldl_cons] at ih ⊢
    rw [ih, get_scanDeletes]
    simp only [covered, List.any_cons, Bool.or_eq_true]
    by_cases hit : startsWith k p = true <;> simp [hit]

theorem get_copyFrom (source target : Store Value) (prefixes : List String) (k : String) :
    (copyFrom source target prefixes).get k =
      if covered prefixes k then (source.get k).or (target.get k) else target.get k := by
  induction prefixes generalizing target with
  | nil => rfl
  | cons p ps ih =>
    simp only [copyFrom, List.foldl_cons] at ih ⊢
    rw [ih, get_scanPuts]
    simp only [covered, List.any_cons, Bool.or_eq_true]
    by_cases hit : startsWith k p = true <;> cases source.get k <;> simp [hit]

/-- A restore replaces exactly the keys with a data prefix. -/
theorem get_restoreDefaultCf (target source : Store Value) (k : String) :
    (restoreDefaultCf target source).get k =
      if covered dataPrefixes k then source.get k else target.get k := by
  rw [restoreDefaultCf, get_copyFrom, get_wipe]
  split
  · exact Option.or_none
  · rfl

/-! ## Step by step -/

/-- What `restore_default_cf` has still to do. -/
inductive RestoreStep where
  /-- The iterator over the target's keys with a prefix is created. -/
  | wipe (p : String)
  /-- The iterator over the archive's records with a prefix is created. -/
  | copy (p : String)
  /-- A key that an iterator gives is deleted, or a record is put. -/
  | write (w : Write Value)
  deriving DecidableEq

/-- `restore_default_cf` before its first step. -/
def restoreSteps : List RestoreStep := dataPrefixes.map .wipe ++ dataPrefixes.map .copy

/-- The next step; an iterator gives the keys that are there when it is created. -/
def restoreStep (source db : Store Value) :
    List RestoreStep → Option (Store Value × List RestoreStep)
  | [] => none
  | .wipe p :: steps => some (db, (scanDeletes db p).map .write ++ steps)
  | .copy p :: steps => some (db, (scanPuts source p).map .write ++ steps)
  | .write w :: steps => some (w.apply db, steps)

/-- What a step comes to when nothing else is written meanwhile. -/
def RestoreStep.effect (source db : Store Value) : RestoreStep → Store Value
  | .wipe p => applyAll db (scanDeletes db p)
  | .copy p => applyAll db (scanPuts source p)
  | .write w => w.apply db

/-- The records that the steps end in. -/
def restored (source db : Store Value) (steps : List RestoreStep) : Store Value :=
  steps.foldl (RestoreStep.effect source) db

theorem restored_writes (source db : Store Value) (ws : List (Write Value)) (steps : List RestoreStep) :
    restored source db (ws.map .write ++ steps) = restored source (applyAll db ws) steps := by
  simp only [restored, List.foldl_append, List.foldl_map]
  rfl

theorem restored_restoreSteps (source db : Store Value) :
    restored source db restoreSteps = restoreDefaultCf db source := by
  simp only [restored, restoreSteps, List.foldl_append, List.foldl_map]
  rfl

/-- The steps lead to what was to come of them. -/
theorem restored_step {source db db' : Store Value} {steps steps' : List RestoreStep}
    (step : restoreStep source db steps = some (db', steps')) :
    restored source db' steps' = restored source db steps := by
  cases steps with
  | nil => cases step
  | cons first rest =>
    cases first with
    | wipe p =>
      cases step
      exact restored_writes source db _ rest
    | copy p =>
      cases step
      exact restored_writes source db _ rest
    | write w =>
      cases step
      rfl

/-- A key goes its own way through the steps. -/
theorem get_restored_congr {db db' : Store Value} {k : String} (same : db.get k = db'.get k)
    (source : Store Value) (steps : List RestoreStep) :
    (restored source db steps).get k = (restored source db' steps).get k := by
  induction steps generalizing db db' with
  | nil => exact same
  | cons first rest ih =>
    refine ih ?_
    cases first with
    | wipe p => simp only [RestoreStep.effect, get_scanDeletes, same]
    | copy p => simp only [RestoreStep.effect, get_scanPuts, same]
    | write w => simp only [RestoreStep.effect, get_apply, same]

/-! ## What an installation reproduces -/

/-- The keys of the replicated records. -/
def Replicated (k : String) : Prop :=
  startsWith k bucketPrefix = true ∨ startsWith k objectPrefix = true ∨ startsWith k lockPrefix = true

/-- A database with exactly the replicated records of `source` and the applied state of
the snapshot's meta. -/
structure Reproduces (db source : Db) (info : SnapshotMeta) : Prop where
  records : ∀ k, Replicated k → db.default.get k = source.default.get k
  lastApplied : db.lastApplied = info.lastLogId
  membership : db.membership = some info.lastMembership

theorem covered_of_lock {k : String} (lock : startsWith k lockPrefix = true) :
    covered dataPrefixes k = false := by
  by_contra h
  simp only [covered, dataPrefixes, List.any_cons, List.any_nil, Bool.or_false, Bool.not_eq_false,
    Bool.or_eq_true] at h
  rcases h with hit | hit | hit
  · exact ne_of_startsWith (by decide) (by decide) hit lock rfl
  · exact ne_of_startsWith (by decide) (by decide) hit lock rfl
  · exact ne_of_startsWith (by decide) (by decide) hit lock rfl

/-- **Installation, exactly.** The target reproduces the source if and only if the two
already hold the same lock records, and the source has applied something or the target
has not. -/
theorem install_iff (source target : Db) (timestampMillis : Int) :
    Reproduces
        (installSnapshot target (buildSnapshot timestampMillis source).1.info
          (buildSnapshot timestampMillis source).1.archive)
        source (buildSnapshot timestampMillis source).1.info ↔
      (∀ k, startsWith k lockPrefix = true → target.default.get k = source.default.get k) ∧
        (source.lastApplied.isSome ∨ target.lastApplied = none) := by
  have records : ∀ k, (installSnapshot target (buildSnapshot timestampMillis source).1.info
      (buildSnapshot timestampMillis source).1.archive).default.get k =
        if covered dataPrefixes k then source.default.get k else target.default.get k := by
    intro k
    rw [← get_restoreDefaultCf]
    simp only [installSnapshot, updateRaftStateFromSnapshot]
    split <;> rfl
  constructor
  · intro reproduced
    refine ⟨fun k lock => ?_, ?_⟩
    · rw [← reproduced.records k (.inr (.inr lock)), records, covered_of_lock lock]
      rfl
    · have last := reproduced.lastApplied
      simp only [installSnapshot, updateRaftStateFromSnapshot, buildSnapshot,
        Db.lastAppliedState] at last
      cases applied : source.lastApplied with
      | none => rw [applied] at last; exact .inr last
      | some id => exact .inl rfl
  · rintro ⟨locks, applied⟩
    refine ⟨fun k replicated => ?_, ?_, ?_⟩
    · rw [records]
      split
      · rfl
      · rename_i uncovered
        rcases replicated with hit | hit | hit
        · exact absurd (by simp [covered, dataPrefixes, hit]) uncovered
        · exact absurd (by simp [covered, dataPrefixes, hit]) uncovered
        · exact locks k hit
    · simp only [installSnapshot, updateRaftStateFromSnapshot, buildSnapshot, Db.lastAppliedState]
      cases last : source.lastApplied with
      | none => exact applied.resolve_left (by simp [last])
      | some id => rfl
    · simp only [installSnapshot, updateRaftStateFromSnapshot, buildSnapshot]

/-- The source holds a lock; the target, brought up to date by its snapshot, does not. -/
theorem install_loses_lock :
    ∃ (batches : List (List Tick)) (source : Db),
      runBatches Db.empty batches = (source, .ok ()) ∧
        ¬ Reproduces
          (installSnapshot Db.empty (buildSnapshot 0 source).1.info
            (buildSnapshot 0 source).1.archive)
          source (buildSnapshot 0 source).1.info := by
  refine ⟨[[⟨⟨⟨⟨1, 1⟩, 1⟩, .normal (.acquireLock "abc" "k" .write ⟨1, 0⟩)⟩, 0⟩]], _, rfl, ?_⟩
  intro reproduced
  have lock := reproduced.records (lockKey "abc" "k") (.inr (.inr (lockKey_startsWith _ _)))
  exact absurd lock (by decide)

end Save.Metadata
