import Save.Metadata.Snapshot

/-!
# Crashes while a snapshot is installed or built

`install_snapshot` (`raft/snapshot.rs`) writes the database key by key: the deletes
of the old records, the copies of the new ones, the position, the membership, and
the snapshot's meta and data, none of it in a batch. The node restarts from whatever
the crash left. `install_crash_iff` says for every prior database, snapshot and
crash point exactly when that is a state the stored position names, with a stored
snapshot that is all of one piece. A prior pair that an earlier crash has mixed
counts as a failure until the new meta replaces its own.
-/

namespace Save.Metadata
set_option autoImplicit false
open Save.Text Save.Kv

/-- A single write of `install_snapshot` or `build_snapshot`. -/
inductive SnapshotWrite where
  | state (w : DbWrite)
  | info (info : SnapshotMeta)
  | archive (archive : Store Value)

def SnapshotWrite.apply (db : Db) : SnapshotWrite → Db
  | .state w => w.apply db
  | .info m => { db with snapshotMeta := some m }
  | .archive a => { db with snapshotData := some a }

def Db.applySnapshot (db : Db) (ws : List SnapshotWrite) : Db := ws.foldl SnapshotWrite.apply db

/-- The deletes of `restore_default_cf`: each prefix is read after the ones before are gone. -/
def wipeWrites (target : Store Value) : List String → List (Write Value)
  | [] => []
  | p :: ps => scanDeletes target p ++ wipeWrites (applyAll target (scanDeletes target p)) ps

/-- The copies of `restore_default_cf`. -/
def copyWrites (source : Store Value) (prefixes : List String) : List (Write Value) :=
  prefixes.flatMap (scanPuts source)

def restoreWrites (target source : Store Value) : List (Write Value) :=
  wipeWrites target dataPrefixes ++ copyWrites source dataPrefixes

/-- The writes of `install_snapshot`, in order. -/
def installWrites (db : Db) (info : SnapshotMeta) (archive : Store Value) : List SnapshotWrite :=
  (restoreWrites db.default archive).map (fun w => .state (.data w)) ++
    (info.lastLogId.toList.map (fun id => .state (.lastApplied id)) ++
      [.state (.membership info.lastMembership), .info info, .archive archive])

/-- The database of a node that crashed after `n` writes of `install_snapshot`. -/
def installCrashed (db : Db) (info : SnapshotMeta) (archive : Store Value) (n : Nat) : Db :=
  db.applySnapshot ((installWrites db info archive).take n)

/-- The database of a node that crashed after `n` writes of `build_snapshot`. -/
def buildCrashed (timestampMillis : Int) (db : Db) (n : Nat) : Db :=
  let snapshot := (buildSnapshot timestampMillis db).1
  db.applySnapshot ([SnapshotWrite.info snapshot.info, .archive snapshot.archive].take n)

def getCurrentSnapshot (db : Db) : Option Snapshot :=
  match db.snapshotMeta, db.snapshotData with
  | some info, some archive => some ⟨info, archive⟩
  | _, _ => none

/-! ## The property and the condition -/

/-- The keys of bucket and object records. -/
def BucketOrObject (k : String) : Prop :=
  startsWith k bucketPrefix = true ∨ startsWith k objectPrefix = true

def SameRecords (s t : Store Value) : Prop := ∀ k, BucketOrObject k → s.get k = t.get k

/-- The records are those of the state the stored position names: the prior state or the
snapshot's. -/
def RecordsNamed (old : Db) (info : SnapshotMeta) (archive : Store Value) (db : Db) : Prop :=
  (db.lastApplied = old.lastApplied ∧ SameRecords db.default old.default) ∨
    (db.lastApplied = info.lastLogId ∧ SameRecords db.default archive)

/-- A stored meta and stored data are of one snapshot: of the new one, or of one made before. -/
def OneSnapshot (made : Snapshot → Prop) (info : SnapshotMeta) (archive : Store Value) (db : Db) : Prop :=
  ∀ s, getCurrentSnapshot db = some s → s = ⟨info, archive⟩ ∨ made s

/-- The bucket and object records, in the order they are deleted and copied in. -/
def objectRecords (s : Store Value) : List (String × Value) :=
  scan s bucketPrefix ++ scan s objectPrefix

/-- When a crash after `n` writes leaves records that the stored position names. -/
def RecordsSafe (old : Db) (info : SnapshotMeta) (archive : Store Value) (n : Nat) : Prop :=
  let deletes := (wipeWrites old.default dataPrefixes).length
  let copies := (copyWrites archive dataPrefixes).length
  let before := objectRecords old.default
  let after := objectRecords archive
  -- the new position is written
  (info.lastLogId.isSome ∧ deletes + copies < n) ∨
  -- nothing is deleted, or there was nothing to delete
  n = 0 ∨ (n ≤ deletes ∧ before = []) ∨
  -- the prior records are the ones copied so far
  (deletes < n ∧ after.take (n - deletes) = before) ∨
  -- both states have the same position, and the records left are the snapshot's
  (old.lastApplied = info.lastLogId ∧
    ((n ≤ deletes ∧ before.drop n = after) ∨ (deletes < n ∧ after.length ≤ n - deletes)))

/-- When a crash with so many writes left finds a meta and data of one snapshot. -/
def PairSafe (made : Snapshot → Prop) (old : Db) (info : SnapshotMeta) (archive : Store Value)
    (left : Nat) : Prop :=
  -- up to the put of the meta, the prior pair is there: an earlier crash may have mixed it
  (1 < left → OneSnapshot made info archive old) ∧
  -- then the new meta stands beside the prior data
  (left = 1 → ∀ data, old.snapshotData = some data → data = archive ∨ made ⟨info, data⟩)

/-! ## Lists of records -/

/-- `es` lists the bucket and object records of `s` in key order. -/
structure Lists (s : Store Value) (es : List (String × Value)) : Prop where
  keys : ∀ e ∈ es, BucketOrObject e.1
  sorted : es.Pairwise fun a b => a.1 < b.1
  stored : ∀ k v, BucketOrObject k → (s.get k = some v ↔ (k, v) ∈ es)

theorem bucket_lt_object {k k' : String} (bucket : startsWith k bucketPrefix = true)
    (object : startsWith k' objectPrefix = true) : k < k' := by
  obtain ⟨s, rfl⟩ := startsWith_iff_append.1 bucket
  obtain ⟨t, rfl⟩ := startsWith_iff_append.1 object
  rw [String.lt_iff_toList_lt]
  simp only [bucketPrefix, objectPrefix, String.toList_append]
  exact List.Lex.rel (by decide)

theorem objectRecords_lists (s : Store Value) : Lists s (objectRecords s) where
  keys e member := by
    rcases List.mem_append.1 member with member | member
    · exact .inl (mem_scan.1 member).2
    · exact .inr (mem_scan.1 member).2
  sorted := by
    refine List.pairwise_append.2 ⟨pairwise_scan _ _, pairwise_scan _ _, fun a first b second => ?_⟩
    exact bucket_lt_object (mem_scan.1 first).2 (mem_scan.1 second).2
  stored k v object := by
    simp only [objectRecords, List.mem_append, mem_scan]
    constructor
    · intro stored
      exact object.imp (fun hit => ⟨stored, hit⟩) fun hit => ⟨stored, hit⟩
    · rintro (⟨stored, -⟩ | ⟨stored, -⟩)
      · exact stored
      · exact stored

theorem Lists.sameRecords_iff {s t : Store Value} {es es' : List (String × Value)} (lists : Lists s es)
    (lists' : Lists t es') : SameRecords s t ↔ es = es' := by
  constructor
  · intro same
    refine eq_of_sorted Prod.fst lists.sorted lists'.sorted fun e => ?_
    obtain ⟨k, v⟩ := e
    constructor
    · intro member
      have object := lists.keys _ member
      rw [← lists'.stored k v object, ← same k object]
      exact (lists.stored k v object).2 member
    · intro member
      have object := lists'.keys _ member
      rw [← lists.stored k v object, same k object]
      exact (lists'.stored k v object).2 member
  · rintro rfl k object
    apply Option.ext
    intro v
    exact (lists.stored k v object).trans (lists'.stored k v object).symm

/-! ## The writes -/

theorem multipart_not_object {k : String} (hit : startsWith k multipartPrefix = true) :
    ¬ BucketOrObject k := by
  rintro (bucket | object)
  · exact ne_of_startsWith (by decide) (by decide) hit bucket rfl
  · exact ne_of_startsWith (by decide) (by decide) hit object rfl

theorem scan_after_deletes {s : Store Value} {p q : String} (apart : startsWith p q = false)
    (apart' : startsWith q p = false) : scan (applyAll s (scanDeletes s p)) q = scan s q := by
  refine scan_congr fun k hit => ?_
  have other : ¬ startsWith k p = true := fun hit' => ne_of_startsWith apart apart' hit' hit rfl
  rw [get_scanDeletes, if_neg other]

theorem wipeWrites_eq (s : Store Value) :
    wipeWrites s dataPrefixes =
      (objectRecords s ++ scan s multipartPrefix).map fun e => .delete e.1 := by
  have buckets := scan_after_deletes (s := s) (p := bucketPrefix) (q := objectPrefix) (by decide)
    (by decide)
  have objects := scan_after_deletes (s := applyAll s (scanDeletes s bucketPrefix))
    (p := objectPrefix) (q := multipartPrefix) (by decide) (by decide)
  have uploads := scan_after_deletes (s := s) (p := bucketPrefix) (q := multipartPrefix) (by decide)
    (by decide)
  simp only [wipeWrites, dataPrefixes, List.append_nil, objectRecords, List.map_append,
    List.append_assoc]
  simp only [scanDeletes] at buckets objects uploads ⊢
  rw [objects, buckets, uploads]

theorem copyWrites_eq (s : Store Value) :
    copyWrites s dataPrefixes =
      (objectRecords s ++ scan s multipartPrefix).map fun e => .put e.1 e.2 := by
  simp [copyWrites, dataPrefixes, objectRecords, scanPuts]

theorem get_deletes (s : Store Value) (es : List (String × Value)) (k : String) :
    (applyAll s (es.map fun e => .delete e.1)).get k =
      if k ∈ es.map Prod.fst then none else s.get k := by
  split
  · rename_i deleted
    obtain ⟨e, member, rfl⟩ := List.mem_map.1 deleted
    refine get_applyAll_of_agree ⟨.delete e.1, List.mem_map.2 ⟨e, member, rfl⟩, rfl⟩ ?_
    intro w deleted _
    obtain ⟨e', -, rfl⟩ := List.mem_map.1 deleted
    rfl
  · rename_i absent
    refine get_applyAll_of_ne fun w deleted same => absent ?_
    obtain ⟨e, member, rfl⟩ := List.mem_map.1 deleted
    exact List.mem_map.2 ⟨e, member, same⟩

theorem get_puts {es : List (String × Value)} {k : String}
    (unique : ∀ v v', (k, v) ∈ es → (k, v') ∈ es → v = v') {s : Store Value}
    (absent : s.get k = none) (v : Value) :
    (applyAll s (es.map fun e => .put e.1 e.2)).get k = some v ↔ (k, v) ∈ es := by
  by_cases there : ∃ v', (k, v') ∈ es
  · obtain ⟨v', member⟩ := there
    have read : (applyAll s (es.map fun e => .put e.1 e.2)).get k = some v' := by
      refine get_applyAll_of_agree ⟨.put k v', List.mem_map.2 ⟨_, member, rfl⟩, rfl⟩ ?_
      intro w written same
      obtain ⟨⟨k', u⟩, member', rfl⟩ := List.mem_map.1 written
      obtain rfl : k' = k := same
      exact congrArg some (unique _ _ member' member)
    rw [read]
    constructor
    · rintro ⟨⟩
      exact member
    · intro member'
      rw [unique _ _ member' member]
  · have read : (applyAll s (es.map fun e => .put e.1 e.2)).get k = none := by
      rw [get_applyAll_of_ne, absent]
      intro w written same
      obtain ⟨⟨k', u⟩, member, rfl⟩ := List.mem_map.1 written
      obtain rfl : k' = k := same
      exact there ⟨u, member⟩
    rw [read]
    constructor
    · rintro ⟨⟩
    · intro member
      exact absurd ⟨v, member⟩ there

/-! ## The records at a crash -/

/-- Object records come before the records of uploads, in both loops. -/
theorem mem_take_append {s : Store Value} {k : String} {v : Value} (object : BucketOrObject k)
    (n : Nat) :
    (k, v) ∈ (objectRecords s ++ scan s multipartPrefix).take n ↔ (k, v) ∈ (objectRecords s).take n := by
  rw [List.take_append, List.mem_append]
  constructor
  · rintro (member | upload)
    · exact member
    · exact absurd object (multipart_not_object (mem_scan.1 (List.mem_of_mem_take upload)).2)
  · exact .inl

/-- While deleting, the records not yet deleted are left. -/
theorem lists_wiped (s : Store Value) {n : Nat}
    (early : n ≤ (wipeWrites s dataPrefixes).length) (source : Store Value) :
    Lists (applyAll s ((restoreWrites s source).take n)) ((objectRecords s).drop n) := by
  have all := objectRecords_lists s
  refine ⟨fun e member => all.keys e (List.mem_of_mem_drop member), all.sorted.drop, fun k v object => ?_⟩
  rw [restoreWrites, List.take_append_of_le_length early, wipeWrites_eq, ← List.map_take, get_deletes]
  have whole := List.take_append_drop n (objectRecords s)
  constructor
  · intro read
    split at read
    · cases read
    · rename_i kept
      have member := (all.stored k v object).1 read
      rw [← whole] at member
      rcases List.mem_append.1 member with deleted | left
      · exact absurd (List.mem_map.2 ⟨_, (mem_take_append object n).2 deleted, rfl⟩) kept
      · exact left
  · intro left
    have kept : k ∉ ((objectRecords s ++ scan s multipartPrefix).take n).map Prod.fst := by
      intro deleted
      obtain ⟨⟨k', u⟩, member, rfl⟩ := List.mem_map.1 deleted
      have early := (mem_take_append object n).1 member
      have sorted := all.sorted
      rw [← whole] at sorted
      have less := (List.pairwise_append.1 sorted).2.2 (k', u) early (k', v) left
      exact lt_irrefl k' less
    rw [if_neg kept]
    exact (all.stored k v object).2 (List.mem_of_mem_drop left)

theorem applyAll_wipeWrites (s : Store Value) (prefixes : List String) :
    applyAll s (wipeWrites s prefixes) = wipe s prefixes := by
  induction prefixes generalizing s with
  | nil => rfl
  | cons p ps ih =>
    rw [wipeWrites, applyAll_append, ih]
    rfl

theorem applyAll_copyWrites (source target : Store Value) (prefixes : List String) :
    applyAll target (copyWrites source prefixes) = copyFrom source target prefixes := by
  induction prefixes generalizing target with
  | nil => rfl
  | cons p ps ih =>
    rw [copyWrites, List.flatMap_cons, applyAll_append]
    exact ih _

/-- All the writes together are `restore_default_cf`. -/
theorem applyAll_restoreWrites (target source : Store Value) :
    applyAll target (restoreWrites target source) = restoreDefaultCf target source := by
  rw [restoreWrites, applyAll_append, applyAll_wipeWrites, applyAll_copyWrites, restoreDefaultCf]

/-- After that, the records copied so far are there. -/
theorem lists_copied (s source : Store Value) {n : Nat}
    (late : (wipeWrites s dataPrefixes).length ≤ n) :
    Lists (applyAll s ((restoreWrites s source).take n))
      ((objectRecords source).take (n - (wipeWrites s dataPrefixes).length)) := by
  have all := objectRecords_lists source
  refine ⟨fun e member => all.keys e (List.mem_of_mem_take member), all.sorted.take,
    fun k v object => ?_⟩
  rw [restoreWrites, List.take_append, List.take_of_length_le late, applyAll_append, copyWrites_eq,
    ← List.map_take, ← mem_take_append object]
  have gone : (applyAll s (wipeWrites s dataPrefixes)).get k = none := by
    have wiped := (lists_wiped s le_rfl source).stored k
    rw [restoreWrites, List.take_append_of_le_length le_rfl, List.take_length] at wiped
    have nothing : (objectRecords s).drop (wipeWrites s dataPrefixes).length = [] := by
      rw [List.drop_eq_nil_iff, wipeWrites_eq, List.length_map, List.length_append]
      omega
    rw [nothing] at wiped
    cases read : (applyAll s (wipeWrites s dataPrefixes)).get k with
    | none => rfl
    | some v => exact absurd ((wiped v object).1 read) (by simp)
  refine get_puts (fun v v' first second => ?_) gone v
  have stored := (all.stored k v object).2 (List.mem_of_mem_take ((mem_take_append object _).1 first))
  have stored' := (all.stored k v' object).2 (List.mem_of_mem_take ((mem_take_append object _).1 second))
  exact Option.some.inj (stored.symm.trans stored')

/-- The records at a crash after `n` writes of the restore. -/
theorem lists_restored (s source : Store Value) (n : Nat) :
    Lists (applyAll s ((restoreWrites s source).take n))
      (if n ≤ (wipeWrites s dataPrefixes).length then (objectRecords s).drop n
        else (objectRecords source).take (n - (wipeWrites s dataPrefixes).length)) := by
  split
  · rename_i early
    exact lists_wiped s early source
  · rename_i late
    exact lists_copied s source (by omega)

/-! ## The database at a crash -/

theorem applySnapshot_append (db : Db) (ws ws' : List SnapshotWrite) :
    db.applySnapshot (ws ++ ws') = (db.applySnapshot ws).applySnapshot ws' :=
  List.foldl_append

theorem applySnapshot_data (db : Db) (ws : List (Write Value)) :
    db.applySnapshot (ws.map fun w => .state (.data w)) =
      { db with default := applyAll db.default ws } := by
  induction ws generalizing db with
  | nil => rfl
  | cons w ws ih => exact ih (DbWrite.apply db (.data w))

/-- What no write changes is the same after all of them. -/
theorem applySnapshot_same {α : Type} (f : Db → α) (db : Db) (ws : List SnapshotWrite)
    (same : ∀ w ∈ ws, ∀ db, f (w.apply db) = f db) : f (db.applySnapshot ws) = f db := by
  induction ws generalizing db with
  | nil => rfl
  | cons w ws ih =>
    have rest := ih (w.apply db) fun w' member => same w' (List.mem_cons_of_mem _ member)
    exact rest.trans (same w List.mem_cons_self db)

/-- The writes after the restore leave the records. -/
theorem applySnapshot_default (db : Db) (ws : List SnapshotWrite)
    (other : ∀ w ∈ ws, ∀ d, w ≠ .state (.data d)) : (db.applySnapshot ws).default = db.default := by
  refine applySnapshot_same Db.default db ws fun w member db => ?_
  cases w with
  | state w =>
    cases w with
    | data d => exact absurd rfl (other _ member d)
    | membership m => rfl
    | lastApplied id => rfl
  | info m => rfl
  | archive a => rfl

theorem installCrashed_default (old : Db) (info : SnapshotMeta) (archive : Store Value) (n : Nat) :
    (installCrashed old info archive n).default =
      applyAll old.default ((restoreWrites old.default archive).take n) := by
  rw [installCrashed, installWrites, List.take_append, applySnapshot_append, applySnapshot_default,
    ← List.map_take, applySnapshot_data]
  intro w member d same
  have there := List.mem_of_mem_take member
  subst same
  simp at there

/-- Only the write of the position changes it. -/
theorem applySnapshot_lastApplied (db : Db) (ws : List SnapshotWrite)
    (other : ∀ w ∈ ws, ∀ id, w ≠ .state (.lastApplied id)) :
    (db.applySnapshot ws).lastApplied = db.lastApplied := by
  refine applySnapshot_same Db.lastApplied db ws fun w member db => ?_
  cases w with
  | state w =>
    cases w with
    | data d => rfl
    | membership m => rfl
    | lastApplied id => exact absurd rfl (other _ member id)
  | info m => rfl
  | archive a => rfl

/-- The position is written right after the restore. -/
theorem installCrashed_lastApplied (old : Db) (info : SnapshotMeta) (archive : Store Value) (n : Nat) :
    (installCrashed old info archive n).lastApplied =
      if info.lastLogId.isSome ∧ (restoreWrites old.default archive).length < n then info.lastLogId
      else old.lastApplied := by
  rw [installCrashed, installWrites, List.take_append, applySnapshot_append, ← List.map_take,
    applySnapshot_data, List.length_map]
  cases last : info.lastLogId with
  | none =>
    rw [if_neg (by simp), applySnapshot_lastApplied]
    intro w member id same
    have there := List.mem_of_mem_take member
    subst same
    simp at there
  | some id =>
    by_cases early : n ≤ (restoreWrites old.default archive).length
    · rw [if_neg (by omega), Nat.sub_eq_zero_of_le early]
      rfl
    · obtain ⟨j, step⟩ : ∃ j, n - (restoreWrites old.default archive).length = j + 1 :=
        ⟨n - (restoreWrites old.default archive).length - 1, by omega⟩
      rw [if_pos ⟨rfl, by omega⟩, step]
      show (Db.applySnapshot (DbWrite.apply _ (.lastApplied id)) (List.take j [_, _, _])).lastApplied = _
      rw [applySnapshot_lastApplied]
      · rfl
      · intro w member id' same
        have there := List.mem_of_mem_take member
        subst same
        simp at there

theorem applySnapshot_stored (db : Db) (ws : List DbWrite) :
    (db.applySnapshot (ws.map SnapshotWrite.state)).snapshotMeta = db.snapshotMeta ∧
      (db.applySnapshot (ws.map SnapshotWrite.state)).snapshotData = db.snapshotData := by
  induction ws generalizing db with
  | nil => exact ⟨rfl, rfl⟩
  | cons w ws ih =>
    obtain ⟨info, data⟩ := ih (w.apply db)
    cases w with
    | data d => exact ⟨info, data⟩
    | membership m => exact ⟨info, data⟩
    | lastApplied id => exact ⟨info, data⟩

/-- The stored snapshot is the prior one, then the new meta with the prior data, then the
new one. -/
theorem stored_at (db : Db) (ws : List DbWrite) (info : SnapshotMeta) (archive : Store Value)
    (n : Nat) :
    getCurrentSnapshot
        (db.applySnapshot ((ws.map SnapshotWrite.state ++ [SnapshotWrite.info info, .archive archive]).take n)) =
      if n ≤ ws.length then getCurrentSnapshot db
      else if n = ws.length + 1 then db.snapshotData.map fun data => ⟨info, data⟩
      else some ⟨info, archive⟩ := by
  rw [List.take_append, applySnapshot_append, List.length_map, ← List.map_take]
  obtain ⟨oldInfo, oldData⟩ := applySnapshot_stored db (ws.take n)
  generalize db.applySnapshot ((ws.take n).map SnapshotWrite.state) = mid at oldInfo oldData
  by_cases early : n ≤ ws.length
  · rw [if_pos early, Nat.sub_eq_zero_of_le early]
    simp only [List.take_zero, Db.applySnapshot, List.foldl_nil, getCurrentSnapshot, oldInfo, oldData]
  · rw [if_neg early]
    by_cases middle : n = ws.length + 1
    · rw [if_pos middle, show n - ws.length = 1 by omega]
      simp only [List.take_succ_cons, List.take_zero, Db.applySnapshot, List.foldl_cons,
        List.foldl_nil, SnapshotWrite.apply, getCurrentSnapshot, oldData]
      cases db.snapshotData <;> rfl
    · rw [if_neg middle, List.take_of_length_le (by simp; omega)]
      rfl

theorem oneSnapshot_iff (made : Snapshot → Prop) (old db : Db) (ws : List DbWrite) (info : SnapshotMeta)
    (archive : Store Value) (n : Nat) (crash : db = old.applySnapshot
      ((ws.map SnapshotWrite.state ++ [SnapshotWrite.info info, .archive archive]).take n)) :
    OneSnapshot made info archive db ↔ PairSafe made old info archive (ws.length + 2 - n) := by
  have stored := stored_at old ws info archive n
  rw [← crash] at stored
  unfold PairSafe OneSnapshot
  rw [stored]
  by_cases early : n ≤ ws.length
  · rw [if_pos early]
    exact ⟨fun one => ⟨fun _ => one, fun last => by omega⟩, fun safe => safe.1 (by omega)⟩
  · rw [if_neg early]
    by_cases middle : n = ws.length + 1
    · rw [if_pos middle]
      constructor
      · refine fun one => ⟨fun more => by omega, fun _ data there => ?_⟩
        rw [there] at one
        refine (one ⟨info, data⟩ rfl).imp (fun same => ?_) id
        exact congrArg Snapshot.archive same
      · intro safe s there
        obtain ⟨data, stands, rfl⟩ := Option.map_eq_some_iff.1 there
        refine (safe.2 (by omega) data stands).imp (fun same => ?_) id
        rw [same]
    · rw [if_neg middle]
      refine ⟨fun _ => ⟨fun more => by omega, fun last => by omega⟩, fun _ s there => .inl ?_⟩
      exact (Option.some.inj there).symm

theorem installWrites_eq (db : Db) (info : SnapshotMeta) (archive : Store Value) :
    installWrites db info archive =
      ((restoreWrites db.default archive).map DbWrite.data ++
        (info.lastLogId.toList.map DbWrite.lastApplied ++ [DbWrite.membership info.lastMembership])).map
          SnapshotWrite.state ++ [SnapshotWrite.info info, .archive archive] := by
  simp [installWrites, Function.comp_def]

/-- All the writes together are `install_snapshot`. -/
theorem installCrashed_all (db : Db) (info : SnapshotMeta) (archive : Store Value) :
    installCrashed db info archive (installWrites db info archive).length =
      installSnapshot db info archive := by
  rw [installCrashed, List.take_length, installWrites, applySnapshot_append, applySnapshot_data,
    applyAll_restoreWrites, installSnapshot, updateRaftStateFromSnapshot]
  cases info.lastLogId <;> rfl

theorem recordsNamed_iff (old : Db) (info : SnapshotMeta) (archive : Store Value) (n : Nat) :
    RecordsNamed old info archive (installCrashed old info archive n) ↔
      RecordsSafe old info archive n := by
  have lists := lists_restored old.default archive n
  rw [← installCrashed_default old info] at lists
  have before := objectRecords_lists old.default
  have after := objectRecords_lists archive
  have fits : (objectRecords archive).length ≤ (copyWrites archive dataPrefixes).length := by
    rw [copyWrites_eq, List.length_map, List.length_append]
    omega
  have total : (restoreWrites old.default archive).length =
      (wipeWrites old.default dataPrefixes).length + (copyWrites archive dataPrefixes).length :=
    List.length_append
  unfold RecordsNamed RecordsSafe
  rw [lists.sameRecords_iff before, lists.sameRecords_iff after, installCrashed_lastApplied, total]
  by_cases written : info.lastLogId.isSome ∧
      (wipeWrites old.default dataPrefixes).length + (copyWrites archive dataPrefixes).length < n
  · simp only [if_pos written]
    rw [if_neg (by omega)]
    have copied := List.take_of_length_le (l := objectRecords archive)
      (i := n - (wipeWrites old.default dataPrefixes).length) (by omega)
    exact ⟨fun _ => .inl written, fun _ => .inr ⟨trivial, copied⟩⟩
  · simp only [if_neg written]
    by_cases early : n ≤ (wipeWrites old.default dataPrefixes).length
    · rw [if_pos early]
      have whole : (objectRecords old.default).drop n = objectRecords old.default ↔
          n = 0 ∨ objectRecords old.default = [] := by
        constructor
        · intro same
          have lengths := congrArg List.length same
          rw [List.length_drop] at lengths
          rw [← List.length_eq_zero_iff]
          omega
        · rintro (rfl | none_there)
          · rfl
          · rw [none_there, List.drop_nil]
      simp only [whole, written, early, false_or, true_and, not_lt.2 early, false_and, or_false]
      tauto
    · rw [if_neg early]
      have nonzero : n ≠ 0 := by omega
      simp only [List.take_eq_self_iff, written, early, not_le.1 early, nonzero, false_or, true_and,
        false_and]

/-- **Crashes, exactly.** For every prior database, snapshot and number of writes made, whatever
snapshots there were before. -/
theorem install_crash_iff (made : Snapshot → Prop) (old : Db) (info : SnapshotMeta)
    (archive : Store Value) (timestampMillis : Int) (n : Nat) :
    ((RecordsNamed old info archive (installCrashed old info archive n) ∧
        OneSnapshot made info archive (installCrashed old info archive n)) ↔
      (RecordsSafe old info archive n ∧
        PairSafe made old info archive ((installWrites old info archive).length - n))) ∧
    (OneSnapshot made (buildSnapshot timestampMillis old).1.info old.default
        (buildCrashed timestampMillis old n) ↔
      PairSafe made old (buildSnapshot timestampMillis old).1.info old.default (2 - n)) := by
  refine ⟨?_, ?_⟩
  · have stored := oneSnapshot_iff made old (installCrashed old info archive n) _ info archive n
      (by rw [installCrashed, installWrites_eq])
    have length := congrArg List.length (installWrites_eq old info archive)
    rw [List.length_append, List.length_map] at length
    rw [recordsNamed_iff, stored, length]
    rfl
  · exact oneSnapshot_iff made old _ [] _ _ n rfl

/-- Entries 1 and 2: the creations of two buckets. -/
def twoCreations : List Tick :=
  [⟨⟨⟨⟨1, 1⟩, 1⟩, .normal (.createBucket ⟨"abc", 5⟩)⟩, 7⟩,
    ⟨⟨⟨⟨1, 1⟩, 2⟩, .normal (.createBucket ⟨"xyz", 6⟩)⟩, 8⟩]

/-- A node that has applied entry 1 crashes after the first write of an installation: the
bucket of entry 1 is gone, and its position still says that the entry is applied. -/
theorem install_crash_loses_bucket :
    ∃ old source : Db, runBatches Db.empty [twoCreations.take 1] = (old, .ok ()) ∧
      runBatches Db.empty [twoCreations] = (source, .ok ()) ∧
      ¬ RecordsNamed old (buildSnapshot 0 source).1.info (buildSnapshot 0 source).1.archive
        (installCrashed old (buildSnapshot 0 source).1.info (buildSnapshot 0 source).1.archive 1) := by
  refine ⟨_, _, rfl, rfl, ?_⟩
  rintro (⟨-, records⟩ | ⟨position, -⟩)
  · have bucket := records (bucketKey "abc") (.inl (bucketKey_startsWith "abc"))
    exact absurd bucket (by decide)
  · exact absurd position (by decide)

end Save.Metadata
