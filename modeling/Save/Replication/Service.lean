import Save.Storage.Objects
import Save.Lib.Kv

/-!
# The participant of a replicated write

`ReplicationService` (`replication/service.rs`): a prepare writes the key's temp
file and remembers it under `request_id:key`, a commit renames the remembered temp
file into place, an abort or the cleanup of stale prepares drops it. Dropping a
remembered temp object removes its file, and all prepares of a key share one temp
file.

Here a request runs alone, from its arrival to its answer. Input and output
errors other than the ones the state explains (a rename without a file) are
not part of these functions.
-/

namespace Save.Replication
set_option autoImplicit false
open Save.Text Save.Kv Save.Common Save.Files Save.Storage

variable [Sha256]

/-- `PendingPrepare`, with its `created_at` in seconds. -/
structure Pending where
  temp : TempObject
  checksum : String
  createdAt : Nat
  deriving DecidableEq, Repr

/-- `format!("{}:{}", request_id, key)`. -/
def tempId (requestId : Nat) (key : String) : String := toString requestId ++ ":" ++ key

/-- The temp object of a key. -/
def tempObject (s : ObjectStorage) (key : String) : TempObject := ⟨s.tempOf key, s.pathOf key⟩

structure Service (s : ObjectStorage) where
  fs : Fs
  pending : Store Pending
  /-- What is remembered under an id is the temp object of the key in it. -/
  formed : ∀ t p, pending.get t = some p →
    ∃ requestId key, t = tempId requestId key ∧ p.temp = tempObject s key

variable {s : ObjectStorage}

/-- A service that has just started over the files. -/
def Service.fresh (s : ObjectStorage) (fs : Fs) : Service s where
  fs
  pending := Store.empty
  formed := by
    intro t p there
    rw [get_empty] at there
    cases there

def Service.empty (s : ObjectStorage) : Service s := .fresh s Fs.empty

/-- The service after `insert`, with the replaced entry dropped. -/
def Service.insert (svc : Service s) (requestId : Nat) (key : String) (p : Pending)
    (own : p.temp = tempObject s key) : Service s where
  fs := match svc.pending.get (tempId requestId key) with
    | none => svc.fs
    | some old => svc.fs.unlink old.temp.tempPath
  pending := svc.pending.put (tempId requestId key) p
  formed := by
    intro t p' there
    rw [get_put] at there
    split at there
    · rename_i same
      cases there
      exact ⟨requestId, key, same.symm, own⟩
    · exact svc.formed t p' there

/-- The service without the entry, with the files `fs`. -/
def Service.remove (svc : Service s) (t : String) (fs : Fs) : Service s where
  fs
  pending := svc.pending.delete t
  formed := by
    intro t' p there
    rw [get_delete] at there
    split at there
    · cases there
    · exact svc.formed t' p there

structure PrepareRequest where
  key : String
  data : Bytes
  checksum : String
  requestId : Nat
  deriving DecidableEq, Repr

structure PrepareChunk where
  key : String
  requestId : Nat
  chunk : Bytes
  isLast : Bool
  checksum : String
  deriving DecidableEq, Repr

structure PrepareResponse where
  success : Bool
  errorMessage : String
  tempId : String
  deriving DecidableEq, Repr

/-- The answer of the commit and abort calls. -/
structure Response where
  success : Bool
  errorMessage : String
  deriving DecidableEq, Repr

def PrepareResponse.failed (msg : String) : PrepareResponse := ⟨false, msg, ""⟩

def checksumMismatch (expected actual : String) : String :=
  "checksum mismatch: expected " ++ expected ++ ", got " ++ actual

/-- The files after `File::create` and the writes of all bytes. -/
def writeFile (fs : Fs) (p : Path) (data : Bytes) : Fs :=
  (fs.create p).2.write (fs.create p).1 0 data

/-- The written temp file is remembered under its id. -/
def Service.prepared (svc : Service s) (now : Nat) (key : String) (requestId : Nat) (data : Bytes)
    (checksum : String) : Service s × PrepareResponse :=
  let written : Service s := { svc with fs := writeFile svc.fs (s.tempOf key) data }
  (written.insert requestId key ⟨tempObject s key, checksum, now⟩ rfl,
    ⟨true, "", tempId requestId key⟩)

def prepareObject (svc : Service s) (now : Nat) (req : PrepareRequest) :
    Service s × PrepareResponse :=
  if req.checksum ≠ "" ∧ Sha256.digest req.data ≠ req.checksum then
    (svc, .failed (checksumMismatch req.checksum (Sha256.digest req.data)))
  else
    match s.createTempObject req.key with
    | .error e => (svc, .failed e.toString)
    | .ok _ => svc.prepared now req.key req.requestId req.data req.checksum

/-- The checksum of the last chunk that says it is the last and carries one. -/
def expectedChecksum (chunks : List PrepareChunk) : String :=
  chunks.foldl (fun expected chunk =>
    if chunk.isLast ∧ chunk.checksum ≠ "" then chunk.checksum else expected) ""

/-- A streamed prepare with the key and the number of its first chunk. -/
def streamPrepareData (svc : Service s) (now : Nat) (key : String) (requestId : Nat) (data : Bytes)
    (expected : String) : Service s × PrepareResponse :=
  if key = "" then (svc, .failed "missing key in first chunk")
  else
    match s.createTempObject key with
    | .error e => (svc, .failed ("failed to create temp object: " ++ e.toString))
    | .ok temp =>
      if expected ≠ "" ∧ Sha256.digest data ≠ expected then
        ({ svc with fs := (writeFile svc.fs temp.tempPath data).unlink temp.tempPath },
          .failed (checksumMismatch expected (Sha256.digest data)))
      else svc.prepared now key requestId data expected

def streamPrepareObject (svc : Service s) (now : Nat) (chunks : List PrepareChunk) :
    Service s × PrepareResponse :=
  match chunks with
  | [] => (svc, .failed "no chunks received")
  | first :: rest =>
    streamPrepareData svc now first.key first.requestId
      ((first :: rest).flatMap PrepareChunk.chunk) (expectedChecksum (first :: rest))

/-- The text of the error of a rename without a file. -/
def noSuchFile : StorageError := .io "No such file or directory (os error 2)"

def commitObject (svc : Service s) (t : String) : Service s × Response :=
  match svc.pending.get t with
  | none => (svc, ⟨false, "no pending prepare for temp_id: " ++ t⟩)
  | some p =>
    match svc.fs.rename p.temp.tempPath p.temp.finalPath with
    | some fs => (svc.remove t fs, ⟨true, ""⟩)
    | none => (svc.remove t (svc.fs.unlink p.temp.tempPath), ⟨false, noSuchFile.toString⟩)

def abortObject (svc : Service s) (t : String) : Service s × Response :=
  match svc.pending.get t with
  | none => (svc, ⟨true, ""⟩)
  | some p => (svc.remove t (svc.fs.unlink p.temp.tempPath), ⟨true, ""⟩)

/-- The ids of the entries at least `maxAge` seconds old. -/
def staleIds (svc : Service s) (now maxAge : Nat) : List String :=
  (svc.pending.entries.filter fun e => decide (maxAge ≤ now - e.2.createdAt)).map Prod.fst

/-- Every stale entry is dropped, as an abort drops it; the answer is their number. -/
def cleanupStalePrepares (svc : Service s) (now maxAge : Nat) : Service s × Nat :=
  ((staleIds svc now maxAge).foldl (fun svc t => (abortObject svc t).1) svc,
    (staleIds svc now maxAge).length)

structure DeleteResponse where
  success : Bool
  errorMessage : String
  wasPresent : Bool
  deriving DecidableEq, Repr

/-- A missing file is no error here. -/
def deleteObject (svc : Service s) (key : String) : Service s × DeleteResponse :=
  let wasPresent := (s.getObject svc.fs key).toBool
  match s.deleteObject svc.fs key with
  | .ok fs => ({ svc with fs }, ⟨true, "", wasPresent⟩)
  | .error (.notFound _) => (svc, ⟨true, "", false⟩)
  | .error e => (svc, ⟨false, e.toString, wasPresent⟩)

/-! ## What each request leaves -/

omit [Sha256] in
/-- An id determines its key. -/
theorem tempId_inj {r r' : Nat} {k k' : String} (same : tempId r k = tempId r' k') : k = k' := by
  have free : ∀ n : Nat, containsChar (toString n) ':' = false := by
    intro n
    by_contra h
    have member : ':' ∈ Nat.toDigits 10 n := by simpa [containsChar] using h
    exact absurd (Nat.isDigit_of_mem_toDigits (by decide) (by decide) member) (by decide)
  exact (sep_inj (free r) (free r') same).2

theorem Service.temp_eq (svc : Service s) {requestId : Nat} {key : String} {p : Pending}
    (there : svc.pending.get (tempId requestId key) = some p) : p.temp = tempObject s key := by
  obtain ⟨requestId', key', same, own⟩ := svc.formed _ p there
  rw [tempId_inj same]
  exact own

theorem createTempObject_ok {key : String} (valid : ValidKey key) :
    s.createTempObject key = .ok (tempObject s key) := by
  rw [ObjectStorage.createTempObject, objectId_eq_ok.2 ⟨valid, rfl⟩]
  rfl

omit [Sha256] in
theorem read_writeFile (fs : Fs) (p : Path) (data : Bytes) :
    (writeFile fs p data).read p = some data := by
  unfold writeFile Fs.read
  rw [Fs.inode_write, fs.inode_create, Option.map_some, Fs.data_write, fs.data_create]
  simp [writeAt]

omit [Sha256] in
theorem read_writeFile_of_ne (fs : Fs) {p q : Path} (apart : q ≠ p) (data : Bytes) :
    (writeFile fs p data).read q = fs.read q := by
  unfold writeFile
  rw [Fs.read_write_of_ne, fs.read_create_of_ne apart]
  intro found
  exact apart ((fs.create p).2.inj q p _ found (fs.inode_create p))

/-- A request that passes the checks of a prepare. -/
def Accepted (req : PrepareRequest) : Prop :=
  (req.checksum = "" ∨ Sha256.digest req.data = req.checksum) ∧ ValidKey req.key

/-- The answer and the table after an accepted prepare. The temp file holds the data,
unless an entry under the same id was replaced: dropping that one removed the file. -/
theorem prepareObject_accepted (svc : Service s) (now : Nat) {req : PrepareRequest}
    (accepted : Accepted req) :
    (prepareObject svc now req).2 = ⟨true, "", tempId req.requestId req.key⟩ ∧
    (prepareObject svc now req).1.pending = svc.pending.put (tempId req.requestId req.key)
      ⟨tempObject s req.key, req.checksum, now⟩ ∧
    (prepareObject svc now req).1.fs =
      match svc.pending.get (tempId req.requestId req.key) with
      | none => writeFile svc.fs (s.tempOf req.key) req.data
      | some _ => (writeFile svc.fs (s.tempOf req.key) req.data).unlink (s.tempOf req.key) := by
  have checked : ¬ (req.checksum ≠ "" ∧ Sha256.digest req.data ≠ req.checksum) := by
    rintro ⟨present, wrong⟩
    exact accepted.1.elim present wrong
  have call := createTempObject_ok (s := s) accepted.2
  unfold prepareObject
  rw [if_neg checked, call]
  refine ⟨rfl, rfl, ?_⟩
  simp only [Service.prepared, Service.insert]
  cases there : svc.pending.get (tempId req.requestId req.key) with
  | none => rfl
  | some old =>
    have own := svc.temp_eq there
    simp only [own]
    rfl

/-- The entry after an accepted prepare, whatever was there before. -/
theorem get_prepareObject (svc : Service s) (now : Nat) {req : PrepareRequest}
    (accepted : Accepted req) :
    (prepareObject svc now req).1.pending.get (tempId req.requestId req.key) =
      some ⟨tempObject s req.key, req.checksum, now⟩ := by
  rw [(prepareObject_accepted svc now accepted).2.1]
  simp

/-- A refused prepare changes nothing. -/
theorem prepareObject_refused (svc : Service s) (now : Nat) {req : PrepareRequest}
    (refused : ¬ Accepted req) : (prepareObject svc now req).1 = svc := by
  unfold prepareObject
  split
  · rfl
  · rename_i checked
    split
    · rfl
    · rename_i temp call
      exfalso
      apply refused
      refine ⟨?_, ?_⟩
      · by_cases empty : req.checksum = ""
        · exact .inl empty
        · exact .inr (by_contra fun wrong => checked ⟨empty, wrong⟩)
      · by_contra invalid
        obtain ⟨e, none⟩ := createTempObject_invalid s invalid
        rw [none] at call
        cases call

/-- A prepare leaves every object's file. -/
theorem read_prepareObject (svc : Service s) (now : Nat) (req : PrepareRequest) (key : String) :
    (prepareObject svc now req).1.fs.read (s.pathOf key) = svc.fs.read (s.pathOf key) := by
  have apart := (tempOf_ne_pathOf s req.key key).symm
  by_cases accepted : Accepted req
  · rw [(prepareObject_accepted svc now accepted).2.2]
    cases svc.pending.get (tempId req.requestId req.key) with
    | none => exact read_writeFile_of_ne _ apart _
    | some old =>
      show ((writeFile svc.fs (s.tempOf req.key) req.data).unlink (s.tempOf req.key)).read _ = _
      rw [Fs.read_unlink_of_ne _ apart, read_writeFile_of_ne _ apart]
  · rw [prepareObject_refused svc now accepted]

/-- An abort answers success, drops the entry and leaves every object's file. -/
theorem abortObject_spec (svc : Service s) (t : String) :
    (abortObject svc t).2 = ⟨true, ""⟩ ∧ (abortObject svc t).1.pending = svc.pending.delete t ∧
      ∀ key, (abortObject svc t).1.fs.read (s.pathOf key) = svc.fs.read (s.pathOf key) := by
  unfold abortObject
  cases there : svc.pending.get t with
  | none =>
    exact ⟨rfl, (delete_of_get_none there).symm, fun _ => rfl⟩
  | some p =>
    obtain ⟨requestId, key', -, own⟩ := svc.formed t p there
    refine ⟨rfl, rfl, fun key => ?_⟩
    show (svc.fs.unlink p.temp.tempPath).read (s.pathOf key) = _
    rw [own]
    exact svc.fs.read_unlink_of_ne (tempOf_ne_pathOf s key' key).symm

end Save.Replication
