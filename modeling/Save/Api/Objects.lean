import Save.Storage.Objects
import Save.Metadata.Multipart

/-!
# Object handlers of a node with the local backend

`put_object`, `delete_object` and `get_object` (`handlers/objects`),
`complete_multipart` (`handlers/multipart/complete.rs`) and the garbage collector
(`gc.rs`) over the node's database and files. A writing handler is a stage, one
constructor for each point at which it may fail or be dropped, with a step function
that makes its next operation and a function for what its guards clean up when it
stops there. The object's file and its record are written apart: the file by a
rename, the record by a Raft command.
-/

namespace Save.Api
set_option autoImplicit false
open Save.Text Save.Kv Save.Common Save.Metadata Save.Files Save.Storage

variable [Sha256]

def storageKey (bucket key : String) : String := bucket ++ "/" ++ key

/-- What requests of a node share: the default column family and the files. -/
structure Node where
  db : Store Value
  fs : Fs

/-! ## Reading -/

inductive ApiError where
  | bucketNotFound (bucket : String)
  | objectNotFound (bucket key : String)
  | invalidRequest (msg : String)
  | internal (msg : String)
  deriving DecidableEq, Repr

/-- What a read meets outside the node's records and files: its mode, and the outcomes of
the read lock and of the leadership check with the texts of their errors. -/
structure ReadEnv where
  strong : Bool
  lock : Except String Unit
  linearizable : Except String Unit

structure GetResponse where
  etag : String
  contentLength : String
  lastModified : DateTime
  contentType : String
  body : Bytes
  deriving DecidableEq, Repr

def getError (bucket key : String) : MetadataError → ApiError
  | .objectNotFound _ _ => .objectNotFound bucket key
  | .bucketNotFound _ => .objectNotFound bucket key
  | e => .internal ("Metadata error: " ++ e.toString)

/-- The handler over a backend's `get_object`. -/
def getObjectFrom (read : String → Except StorageError Bytes) (env : ReadEnv) (db : Store Value)
    (bucket key : String) : Except ApiError GetResponse := do
  (validateBucketName bucket).mapError fun e => .invalidRequest e.toString
  (validateObjectKey key).mapError fun e => .invalidRequest e.toString
  if env.strong then
    env.lock.mapError fun e => .internal ("Failed to acquire object lock: " ++ e)
  if env.strong then
    env.linearizable.mapError fun e => .internal ("Consistency check failed: " ++ e)
  let metadata ← (getObjectMetadata db bucket key).mapError (getError bucket key)
  let body ← (read (storageKey bucket key)).mapError fun e =>
    .internal ("Storage error: " ++ e.toString)
  return {
    etag := "\"" ++ metadata.etag ++ "\""
    contentLength := toString metadata.size
    lastModified := metadata.modifiedAt
    contentType := metadata.contentType.getD "application/octet-stream"
    body }

/-- The handler of a node with the local backend. -/
def getObject (s : ObjectStorage) (env : ReadEnv) (node : Node) (bucket key : String) :
    Except ApiError GetResponse :=
  getObjectFrom (s.getObject node.fs) env node.db bucket key

/-! ## `put_object` -/

structure PutRequest where
  bucket : String
  key : String
  body : Bytes
  /-- The bucket cache knows the bucket. -/
  cached : Bool
  now : DateTime

def PutRequest.storageKey (r : PutRequest) : String := Api.storageKey r.bucket r.key

/-- `ObjectMetadata::new` with the digest and size of the bytes that were read. -/
def newMetadata (bucket key : String) (bytes : Bytes) (contentType : Option String)
    (now : DateTime) : ObjectMetadata :=
  ⟨bucket, key, bytes.length, Sha256.digest bytes, contentType, now, now, []⟩

inductive PutStage where
  | locking
  | checking
  | storing (stage : Stage)
  /-- The storage commit has returned; the Raft write comes next. -/
  | writing (metadata : ObjectMetadata)
  | done
  deriving DecidableEq, Repr

/-- The next operation of `put_object`, when it succeeds. -/
def putStep (s : ObjectStorage) (r : PutRequest) : Node × PutStage → Nat → Option (Node × PutStage)
  | (node, .locking), _ => some (node, .checking)
  | (node, .checking), _ =>
    if r.cached || (getBucket node.db r.bucket).toBool then some (node, .storing .start) else none
  | (node, .storing .committed), _ =>
    some (node, .writing (newMetadata r.bucket r.key r.body none r.now))
  | (node, .storing stage), n =>
    (s.advance r.storageKey r.body n node.fs stage).map fun next =>
      ({ node with fs := next.1 }, .storing next.2)
  | (node, .writing metadata), _ =>
    match putObjectMetadata metadata with
    | .error _ => none
    | .ok ws => some ({ node with db := applyAll node.db ws }, .done)
  | (_, .done), _ => none

/-- Storing the body: the next operation of the storage, or the record after the last. -/
theorem putStep_storing {s : ObjectStorage} {r : PutRequest} {node : Node} {stage : Stage} {n : Nat}
    {next : Node × PutStage}
    (step : putStep s r (node, .storing stage) n = some next) :
    (stage = .committed ∧
      next = (node, .writing (newMetadata r.bucket r.key r.body none r.now))) ∨
    ∃ fs stage', s.advance r.storageKey r.body n node.fs stage = some (fs, stage') ∧
      next = ({ node with fs }, .storing stage') := by
  by_cases last : stage = .committed
  · subst last
    cases step
    exact .inl ⟨rfl, rfl⟩
  · have call : putStep s r (node, .storing stage) n =
        (s.advance r.storageKey r.body n node.fs stage).map fun next =>
          ({ node with fs := next.1 }, .storing next.2) := by
      cases stage <;> first | rfl | exact absurd rfl last
    rw [call] at step
    obtain ⟨⟨fs, stage'⟩, advanced, rfl⟩ := Option.map_eq_some_iff.1 step
    exact .inr ⟨fs, stage', advanced, rfl⟩

/-- What is left when `put_object` stops here. -/
def PutStage.dropped (node : Node) : PutStage → Node
  | .storing stage => { node with fs := stage.dropped node.fs }
  | _ => node

/-- The object's file has been replaced. -/
def PutStage.published : PutStage → Bool
  | .storing stage => stage.published
  | .writing _ => true
  | .done => true
  | _ => false

/-! ## `complete_multipart` -/

structure CompleteRequest where
  bucket : String
  key : String
  uploadId : String
  now : DateTime

def CompleteRequest.storageKey (r : CompleteRequest) : String := Api.storageKey r.bucket r.key

/-- `temp/complete-{upload_id}`. -/
def tempFinalPath (base : Path) (uploadId : String) : Path :=
  (base.join "temp").join ("complete-" ++ uploadId)

def partPath (base : Path) (uploadId : String) (partNumber : Nat) : Path :=
  (((base.join "temp").join "parts").join uploadId).join (toString partNumber)

/-- The parent of every part path. -/
def partsDir (base : Path) (uploadId : String) : Path := (partPath base uploadId 0).parent

omit [Sha256] in
theorem tempFinalPath_eq (base : Path) (uploadId : String) :
    tempFinalPath base uploadId = base ++ "temp" :: components ("complete-" ++ uploadId) := by
  have temp : Plain "temp" := by decide
  have relative : startsWith ("complete-" ++ uploadId) "/" = false := by
    by_contra h
    obtain ⟨t, list⟩ := startsWith_slash.1 (by simpa using h)
    simp at list
  rw [tempFinalPath, join_plain _ temp, join_relative _ relative]
  simp

theorem tempFinalPath_ne_pathOf (s : ObjectStorage) (uploadId key : String) :
    s.pathOf key ≠ tempFinalPath s.basePath uploadId := by
  rw [tempFinalPath_eq, pathOf_eq]
  simp

omit [Sha256] in
/-- No upload id makes the assembled file one of the parts. -/
theorem partPath_ne_tempFinalPath (base : Path) (uploadId : String) (partNumber : Nat) :
    partPath base uploadId partNumber ≠ tempFinalPath base uploadId := by
  have complete : Plain "complete-" := by decide
  intro same
  rw [tempFinalPath_eq] at same
  by_cases absolute : startsWith uploadId "/" = true
  · -- an absolute id leaves the base directory for the parts but not for the assembled file
    have parts : partPath base uploadId partNumber = components uploadId ++ [toString partNumber] := by
      rw [partPath, join_plain _ (plain_toString partNumber), Path.join, if_pos absolute]
    rw [parts, components_append_absolute complete absolute] at same
    have lengths := congrArg List.length same
    simp only [List.length_append, List.length_cons, List.length_nil] at lengths
    omega
  · have temp : Plain "temp" := by decide
    have inside : Plain "parts" := by decide
    have parts : partPath base uploadId partNumber =
        base ++ "temp" :: "parts" :: (components uploadId ++ [toString partNumber]) := by
      rw [partPath, join_plain _ (plain_toString partNumber),
        join_relative _ (by simpa using absolute), join_plain _ inside, join_plain _ temp]
      simp
    obtain ⟨c, rest, first⟩ := components_append complete (by decide) uploadId
    rw [parts, first] at same
    have := List.append_cancel_left same
    simp only [List.cons.injEq, true_and] at this
    have lists := congrArg String.toList this.1
    simp at lists

inductive CompleteStage where
  | locking
  | looking
  /-- The upload is found; the assembled file is created next. -/
  | creating (upload : MultipartUpload)
  /-- Copying parts into the open file `ino`: `acc` is copied and hashed, `part` is the
  open part with its read offset, `todo` are the parts to open. -/
  | assembling (upload : MultipartUpload) (ino : Nat) (acc : Bytes) (part : Option (Nat × Nat))
      (todo : List Nat)
  | flushing (upload : MultipartUpload) (acc : Bytes)
  /-- Storing the bytes `body` read from the assembled file. -/
  | storing (upload : MultipartUpload) (acc body : Bytes) (stage : Stage)
  | writing (upload : MultipartUpload) (metadata : ObjectMetadata)
  | aborting
  | removingParts
  | removingTemp
  | done

/-- The buffer of one read. -/
def bufferSize : Nat := 64 * 1024

/-- The next operation of `complete_multipart`, when it succeeds; `n + 1` bounds the
bytes of one read or write. -/
def completeStep (s : ObjectStorage) (r : CompleteRequest) :
    Node × CompleteStage → Nat → Option (Node × CompleteStage)
  | (node, .locking), _ => some (node, .looking)
  | (node, .looking), _ =>
    match getMultipartUpload node.db r.bucket r.key r.uploadId with
    | .error _ => none
    | .ok upload => if upload.parts.isEmpty then none else some (node, .creating upload)
  | (node, .creating upload), _ =>
    let opened := node.fs.create (tempFinalPath s.basePath r.uploadId)
    some ({ node with fs := opened.2 }, .assembling upload opened.1 [] none upload.parts.keys)
  | (node, .assembling upload _ acc none []), _ => some (node, .flushing upload acc)
  | (node, .assembling upload ino acc none (part :: todo)), _ =>
    (node.fs.inode (partPath s.basePath r.uploadId part)).map fun j =>
      (node, .assembling upload ino acc (some (j, 0)) todo)
  | (node, .assembling upload ino acc (some (j, offset)) todo), n =>
    let chunk := ((node.fs.data j).drop offset).take (min (n + 1) bufferSize)
    if chunk = [] then some (node, .assembling upload ino acc none todo)
    else some ({ node with fs := node.fs.write ino acc.length chunk },
      .assembling upload ino (acc ++ chunk) (some (j, offset + chunk.length)) todo)
  | (node, .flushing upload acc), _ =>
    (node.fs.read (tempFinalPath s.basePath r.uploadId)).map fun body =>
      (node, .storing upload acc body .start)
  | (node, .storing upload acc _ .committed), _ =>
    some (node, .writing upload (newMetadata r.bucket r.key acc upload.contentType r.now))
  | (node, .storing upload acc body stage), n =>
    (s.advance r.storageKey body n node.fs stage).map fun next =>
      ({ node with fs := next.1 }, .storing upload acc body next.2)
  | (node, .writing _ metadata), _ =>
    match putObjectMetadata metadata with
    | .error _ => none
    | .ok ws => some ({ node with db := applyAll node.db ws }, .aborting)
  | (node, .aborting), _ =>
    match abortMultipartUpload node.db r.bucket r.key r.uploadId with
    | .error _ => none
    | .ok ws => some ({ node with db := applyAll node.db ws }, .removingParts)
  | (node, .removingParts), _ =>
    some ({ node with fs := node.fs.removeDirAll (partsDir s.basePath r.uploadId) }, .removingTemp)
  | (node, .removingTemp), _ =>
    some ({ node with fs := node.fs.unlink (tempFinalPath s.basePath r.uploadId) }, .done)
  | (_, .done), _ => none

theorem completeStep_storing {s : ObjectStorage} {r : CompleteRequest} {node : Node}
    {upload : MultipartUpload} {acc body : Bytes} {stage : Stage} {n : Nat}
    {next : Node × CompleteStage}
    (step : completeStep s r (node, .storing upload acc body stage) n = some next) :
    (stage = .committed ∧
      next = (node, .writing upload (newMetadata r.bucket r.key acc upload.contentType r.now))) ∨
    ∃ fs stage', s.advance r.storageKey body n node.fs stage = some (fs, stage') ∧
      next = ({ node with fs }, .storing upload acc body stage') := by
  by_cases last : stage = .committed
  · subst last
    cases step
    exact .inl ⟨rfl, rfl⟩
  · have call : completeStep s r (node, .storing upload acc body stage) n =
        (s.advance r.storageKey body n node.fs stage).map fun next =>
          ({ node with fs := next.1 }, .storing upload acc body next.2) := by
      cases stage <;> first | rfl | exact absurd rfl last
    rw [call] at step
    obtain ⟨⟨fs, stage'⟩, advanced, rfl⟩ := Option.map_eq_some_iff.1 step
    exact .inr ⟨fs, stage', advanced, rfl⟩

/-- The operations of `complete_multipart`, with what each has found. -/
inductive Completes (s : ObjectStorage) (r : CompleteRequest) (n : Nat) (node : Node) :
    CompleteStage → Node → CompleteStage → Prop where
  | lock : Completes s r n node .locking node .looking
  | look {upload : MultipartUpload}
      (found : getMultipartUpload node.db r.bucket r.key r.uploadId = .ok upload) :
      Completes s r n node .looking node (.creating upload)
  | create (upload : MultipartUpload) :
      Completes s r n node (.creating upload)
        { node with fs := (node.fs.create (tempFinalPath s.basePath r.uploadId)).2 }
        (.assembling upload (node.fs.create (tempFinalPath s.basePath r.uploadId)).1 [] none
          upload.parts.keys)
  | openPart (upload : MultipartUpload) (ino : Nat) (acc : Bytes) {part j : Nat} (todo : List Nat)
      (found : node.fs.inode (partPath s.basePath r.uploadId part) = some j) :
      Completes s r n node (.assembling upload ino acc none (part :: todo)) node
        (.assembling upload ino acc (some (j, 0)) todo)
  | copy (upload : MultipartUpload) (ino : Nat) (acc : Bytes) (j offset : Nat) (todo : List Nat)
      {chunk : Bytes} (bytes : chunk = ((node.fs.data j).drop offset).take (min (n + 1) bufferSize)) :
      Completes s r n node (.assembling upload ino acc (some (j, offset)) todo)
        { node with fs := node.fs.write ino acc.length chunk }
        (.assembling upload ino (acc ++ chunk) (some (j, offset + chunk.length)) todo)
  | endPart (upload : MultipartUpload) (ino : Nat) (acc : Bytes) {j offset : Nat} (todo : List Nat)
      (ended : (node.fs.data j).drop offset = []) :
      Completes s r n node (.assembling upload ino acc (some (j, offset)) todo) node
        (.assembling upload ino acc none todo)
  | assembled (upload : MultipartUpload) (ino : Nat) (acc : Bytes) :
      Completes s r n node (.assembling upload ino acc none []) node (.flushing upload acc)
  | flush (upload : MultipartUpload) (acc : Bytes) {body : Bytes}
      (read : node.fs.read (tempFinalPath s.basePath r.uploadId) = some body) :
      Completes s r n node (.flushing upload acc) node (.storing upload acc body .start)
  | store (upload : MultipartUpload) (acc : Bytes) {body : Bytes} {stage stage' : Stage} {fs : Fs}
      (advanced : s.advance r.storageKey body n node.fs stage = some (fs, stage')) :
      Completes s r n node (.storing upload acc body stage) { node with fs }
        (.storing upload acc body stage')
  | stored (upload : MultipartUpload) (acc body : Bytes) :
      Completes s r n node (.storing upload acc body .committed) node
        (.writing upload (newMetadata r.bucket r.key acc upload.contentType r.now))
  | write (upload : MultipartUpload) {metadata : ObjectMetadata} {ws : List (Write Value)}
      (call : putObjectMetadata metadata = .ok ws) :
      Completes s r n node (.writing upload metadata) { node with db := applyAll node.db ws } .aborting
  | abort {ws : List (Write Value)}
      (call : abortMultipartUpload node.db r.bucket r.key r.uploadId = .ok ws) :
      Completes s r n node .aborting { node with db := applyAll node.db ws } .removingParts
  | removeParts :
      Completes s r n node .removingParts
        { node with fs := node.fs.removeDirAll (partsDir s.basePath r.uploadId) } .removingTemp
  | removeTemp :
      Completes s r n node .removingTemp
        { node with fs := node.fs.unlink (tempFinalPath s.basePath r.uploadId) } .done

theorem completeStep_assembling {s : ObjectStorage} {r : CompleteRequest} {node node' : Node}
    {upload : MultipartUpload} {ino : Nat} {acc : Bytes} {part : Option (Nat × Nat)}
    {todo : List Nat} {n : Nat} {stage : CompleteStage}
    (step : completeStep s r (node, .assembling upload ino acc part todo) n = some (node', stage)) :
    Completes s r n node (.assembling upload ino acc part todo) node' stage := by
  cases part with
  | none =>
    cases todo with
    | nil =>
      cases step
      exact .assembled upload ino acc
    | cons part todo =>
      obtain ⟨j, found, next⟩ := Option.map_eq_some_iff.1 step
      cases next
      exact .openPart upload ino acc todo found
  | some opened =>
    obtain ⟨j, offset⟩ := opened
    simp only [completeStep] at step
    split at step
    · rename_i empty
      cases step
      -- a read into a buffer that has room is empty at the end of the file only
      have room : min (n + 1) bufferSize ≠ 0 := by
        have : 0 < bufferSize := by decide
        omega
      exact .endPart upload ino acc todo ((List.take_eq_nil_iff.1 empty).resolve_left room)
    · cases step
      exact .copy upload ino acc j offset todo rfl

theorem completeStep_cases {s : ObjectStorage} {r : CompleteRequest} {node node' : Node}
    {stage stage' : CompleteStage} {n : Nat}
    (step : completeStep s r (node, stage) n = some (node', stage')) :
    Completes s r n node stage node' stage' := by
  cases stage with
  | locking =>
    cases step
    exact .lock
  | looking =>
    simp only [completeStep] at step
    split at step
    · cases step
    · rename_i upload found
      split at step
      · cases step
      · cases step
        exact .look found
  | creating upload =>
    cases step
    exact .create upload
  | assembling upload ino acc part todo => exact completeStep_assembling step
  | flushing upload acc =>
    obtain ⟨body, read, next⟩ := Option.map_eq_some_iff.1 step
    cases next
    exact .flush upload acc read
  | storing upload acc body stage =>
    obtain ⟨rfl, next⟩ | ⟨fs, later, advanced, next⟩ := completeStep_storing step
    · cases next
      exact .stored upload acc body
    · cases next
      exact .store upload acc advanced
  | writing upload metadata =>
    simp only [completeStep] at step
    split at step
    · cases step
    · rename_i ws call
      cases step
      exact .write upload call
  | aborting =>
    simp only [completeStep] at step
    split at step
    · cases step
    · rename_i ws call
      cases step
      exact .abort call
  | removingParts =>
    cases step
    exact .removeParts
  | removingTemp =>
    cases step
    exact .removeTemp
  | done => cases step

/-- `Drop` of an armed `MultipartCleanupGuard`. -/
def cleanup (s : ObjectStorage) (uploadId : String) (fs : Fs) : Fs :=
  (fs.unlink (tempFinalPath s.basePath uploadId)).removeDirAll (partsDir s.basePath uploadId)

/-- What is left when `complete_multipart` stops here. -/
def CompleteStage.dropped (s : ObjectStorage) (r : CompleteRequest) (node : Node) :
    CompleteStage → Node
  | .assembling _ _ _ _ _ => { node with fs := cleanup s r.uploadId node.fs }
  | .flushing _ _ => { node with fs := cleanup s r.uploadId node.fs }
  | .storing _ _ _ stage => { node with fs := cleanup s r.uploadId (stage.dropped node.fs) }
  | .writing _ _ => { node with fs := cleanup s r.uploadId node.fs }
  | .aborting => { node with fs := cleanup s r.uploadId node.fs }
  | _ => node

def CompleteStage.published : CompleteStage → Bool
  | .storing _ _ _ stage => stage.published
  | .writing _ _ => true
  | .aborting => true
  | .removingParts => true
  | .removingTemp => true
  | .done => true
  | _ => false

/-- The metadata command has been applied. -/
def CompleteStage.recorded : CompleteStage → Bool
  | .aborting => true
  | .removingParts => true
  | .removingTemp => true
  | .done => true
  | _ => false

/-! ## `delete_object` -/

inductive DeleteStage where
  | locking
  | looking
  /-- The Raft command that deletes the record comes next. -/
  | writing
  | removing
  | done
  deriving DecidableEq, Repr

/-- The next operation of `delete_object`, when it succeeds. -/
def deleteStep (s : ObjectStorage) (bucket key : String) :
    Node × DeleteStage → Option (Node × DeleteStage)
  | (node, .locking) => some (node, .looking)
  | (node, .looking) =>
    match getObjectMetadata node.db bucket key with
    | .error _ => none
    | .ok _ => some (node, .writing)
  | (node, .writing) =>
    match deleteObjectMetadata bucket key with
    | .error _ => none
    | .ok ws => some ({ node with db := applyAll node.db ws }, .removing)
  | (node, .removing) =>
    match s.deleteObject node.fs (storageKey bucket key) with
    | .error _ => none
    | .ok fs => some ({ node with fs }, .done)
  | (_, .done) => none

/-! ## `run_gc_cycle` -/

def tempDir (s : ObjectStorage) : Path := s.basePath.join "temp"

def getActiveUploadIds (db : Store Value) : Result (List String) :=
  (listAllMultipartUploads db).map (List.map MultipartUpload.uploadId)

/-- The file's directory is named after an active upload. -/
def shouldKeepFile (path : Path) (active : List String) : Bool :=
  match path.parent.getLast? with
  | some name => active.contains name
  | none => false

inductive GcStage where
  | idle
  | listing (active : List String)
  /-- The files still to look at, with their ages. -/
  | removing (active : List String) (files : List (Path × Nat))
  deriving DecidableEq, Repr

/-- What the collector finds outside the database: the files below the temp directory
with their ages, and whether a removal succeeds. -/
inductive GcEvent where
  | listed (files : List (Path × Nat))
  | next (removed : Bool)
  deriving DecidableEq, Repr

/-- The next operation of a cycle. -/
def gcStep (s : ObjectStorage) (tempFileMaxAge : Nat) :
    Node × GcStage → GcEvent → Option (Node × GcStage)
  | (node, .idle), .next _ =>
    match getActiveUploadIds node.db with
    | .error _ => none
    | .ok active => some (node, .listing active)
  | (node, .listing active), .listed files =>
    if files.all fun file => (tempDir s).isPrefixOf file.1 then
      some (node, .removing active files)
    else none
  | (node, .removing active ((path, age) :: files)), .next removed =>
    if age < tempFileMaxAge then some (node, .removing active files)
    else if shouldKeepFile path active then some (node, .removing active files)
    else some ({ node with fs := bif removed then node.fs.unlink path else node.fs },
      .removing active files)
  | (node, .removing _ []), .next _ => some (node, .idle)
  | _, _ => none

/-- The operations of a cycle. -/
inductive Collects (s : ObjectStorage) (node : Node) : GcStage → Node → GcStage → Prop where
  | begin {active : List String} (found : getActiveUploadIds node.db = .ok active) :
      Collects s node .idle node (.listing active)
  | list (active : List String) {files : List (Path × Nat)}
      (below : ∀ file ∈ files, tempDir s <+: file.1) :
      Collects s node (.listing active) node (.removing active files)
  | keep (active : List String) (file : Path × Nat) (files : List (Path × Nat)) :
      Collects s node (.removing active (file :: files)) node (.removing active files)
  | remove (active : List String) (file : Path × Nat) (files : List (Path × Nat)) :
      Collects s node (.removing active (file :: files)) { node with fs := node.fs.unlink file.1 }
        (.removing active files)
  | finish (active : List String) : Collects s node (.removing active []) node .idle

omit [Sha256] in
theorem gcStep_removing {s : ObjectStorage} {age : Nat} {node node' : Node} {active : List String}
    {file : Path × Nat} {files : List (Path × Nat)} {removed : Bool} {stage : GcStage}
    (step : gcStep s age (node, .removing active (file :: files)) (.next removed) =
      some (node', stage)) :
    Collects s node (.removing active (file :: files)) node' stage := by
  simp only [gcStep] at step
  split at step
  · cases step
    exact .keep active file files
  · split at step
    · cases step
      exact .keep active file files
    · cases removed with
      | true =>
        cases step
        exact .remove active file files
      | false =>
        cases step
        exact .keep active file files

omit [Sha256] in
theorem gcStep_cases {s : ObjectStorage} {age : Nat} {node node' : Node} {stage stage' : GcStage}
    {event : GcEvent} (step : gcStep s age (node, stage) event = some (node', stage')) :
    Collects s node stage node' stage' := by
  cases stage with
  | idle =>
    cases event with
    | listed files => cases step
    | next removed =>
      simp only [gcStep] at step
      split at step
      · cases step
      · rename_i active found
        cases step
        exact .begin found
  | listing active =>
    cases event with
    | next removed => cases step
    | listed files =>
      simp only [gcStep] at step
      split at step
      · rename_i below
        cases step
        refine .list active fun file member => ?_
        exact List.isPrefixOf_iff_prefix.1 (List.all_eq_true.1 below file member)
      · cases step
  | removing active files =>
    cases files with
    | nil =>
      cases event with
      | listed files' => cases step
      | next removed =>
        cases step
        exact .finish active
    | cons file files =>
      cases event with
      | listed files' => cases step
      | next removed => exact gcStep_removing step

end Save.Api
