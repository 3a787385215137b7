import Save.Api.Objects

/-!
# What a failed write leaves for readers

`put_object` (`handlers/objects/put.rs`) and `complete_multipart`
(`handlers/multipart/complete.rs`) replace the object's file first and write its
record afterwards. Stopped in between, they leave the new bytes under the
old record: a reader sees no difference exactly when there is no record that
leads it to the file, or when the file has not been replaced, or by the same
bytes.
-/

namespace Save.Api
set_option autoImplicit false
open Save.Text Save.Kv Save.Common Save.Metadata Save.Files Save.Storage Save.Run

variable [Sha256] {s : ObjectStorage}

/-- The content of an object's file. -/
def objectFile (s : ObjectStorage) (node : Node) (bucket key : String) : Option Bytes :=
  node.fs.read (s.pathOf (storageKey bucket key))

/-- A read of the key gets as far as the object's file. -/
def Readable (node : Node) (bucket key : String) : Prop :=
  (∃ metadata, getObjectMetadata node.db bucket key = .ok metadata) ∧
    ValidKey (storageKey bucket key)

/-! ## What `get_object` depends on -/

section Reading

variable {node node' : Node} {bucket key : String}

theorem getObject_of_file (db : node'.db = node.db)
    (file : ¬ Readable node bucket key ∨ objectFile s node' bucket key = objectFile s node bucket key)
    (env : ReadEnv) : getObject s env node' bucket key = getObject s env node bucket key := by
  unfold getObject getObjectFrom
  rw [db]
  cases found : getObjectMetadata node.db bucket key with
  | error e => rfl
  | ok metadata =>
    have same : s.getObject node'.fs (storageKey bucket key) =
        s.getObject node.fs (storageKey bucket key) := by
      by_cases valid : ValidKey (storageKey bucket key)
      · have read := file.resolve_left fun h => h ⟨⟨metadata, found⟩, valid⟩
        unfold objectFile at read
        rw [getObject_ok s _ valid, getObject_ok s _ valid, read]
      · exact getObject_invalid s _ _ valid
    rw [same]

/-- A read with no check in its way. -/
def ReadEnv.eventual : ReadEnv := ⟨false, .ok (), .ok ()⟩

theorem getObject_eventual (valid : ValidBucket bucket) (valid' : ValidKey key)
    {metadata : ObjectMetadata} (found : getObjectMetadata node.db bucket key = .ok metadata)
    (valid'' : ValidKey (storageKey bucket key)) :
    ((getObject s .eventual node bucket key).toOption.map GetResponse.body) =
      objectFile s node bucket key := by
  unfold getObject getObjectFrom objectFile
  rw [show validateBucketName bucket = .ok () from valid,
    show validateObjectKey key = .ok () from valid', found, getObject_ok s _ valid'']
  cases node.fs.read (s.pathOf (storageKey bucket key)) with
  | none => rfl
  | some bytes => rfl

/-- Over the same records, readers see a difference exactly when they get as far as the
file and it has changed. -/
theorem getObject_same_iff (valid : ValidBucket bucket) (valid' : ValidKey key)
    (db : node'.db = node.db) :
    (∀ env, getObject s env node' bucket key = getObject s env node bucket key) ↔
      ¬ Readable node bucket key ∨ objectFile s node' bucket key = objectFile s node bucket key := by
  constructor
  · intro same
    by_cases readable : Readable node bucket key
    · obtain ⟨⟨metadata, found⟩, valid''⟩ := readable
      right
      have found' : getObjectMetadata node'.db bucket key = .ok metadata := by rw [db, found]
      rw [← getObject_eventual valid valid' found valid'',
        ← getObject_eventual valid valid' found' valid'', same]
    · exact .inl readable
  · exact fun file env => getObject_of_file db file env

end Reading

/-! ## `put_object` -/

section Put

variable {r : PutRequest} {before node node' : Node} {stage stage' : PutStage} {n : Nat}

/-- What `put_object` has done to the node it started on. -/
def PutStage.Files (s : ObjectStorage) (r : PutRequest) (before node : Node) : PutStage → Prop
  | .storing stage => Stage.Progress s r.storageKey r.body before.fs node.fs stage
  | .writing _ => node.fs.read (s.pathOf r.storageKey) = some r.body
  | .done => True
  | _ => node.fs = before.fs

structure PutStage.Progress (s : ObjectStorage) (r : PutRequest) (before node : Node)
    (stage : PutStage) : Prop where
  db : stage ≠ .done → node.db = before.db
  files : stage.Files s r before node

theorem PutStage.Progress.step (progress : PutStage.Progress s r before node stage)
    (step : putStep s r (node, stage) n = some (node', stage')) :
    PutStage.Progress s r before node' stage' := by
  obtain ⟨db, files⟩ := progress
  cases stage with
  | locking =>
    cases step
    exact ⟨fun _ => db (by simp), files⟩
  | checking =>
    simp only [putStep] at step
    split at step
    · cases step
      have same : node.fs = before.fs := files
      refine ⟨fun _ => db (by simp), ?_⟩
      show Stage.Progress s r.storageKey r.body before.fs node.fs .start
      rw [same]
      exact Stage.Progress.start
    · cases step
  | storing stage =>
    have progress : Stage.Progress s r.storageKey r.body before.fs node.fs stage := files
    obtain ⟨rfl, next⟩ | ⟨fs, later, advanced, next⟩ := putStep_storing step
    · cases next
      exact ⟨fun _ => db (by simp), progress.object⟩
    · cases next
      exact ⟨fun _ => db (by simp), progress.advance advanced⟩
  | writing metadata =>
    simp only [putStep] at step
    split at step
    · cases step
    · cases step
      exact ⟨fun h => absurd rfl h, trivial⟩
  | done => cases step

theorem put_progress {ns : List Nat}
    (ran : exec (putStep s r) (before, .locking) ns = some (node, stage)) :
    PutStage.Progress s r before node stage := by
  have kept : ∀ (state : Node × PutStage) (n : Nat) (next : Node × PutStage),
      state.2.Progress s r before state.1 → putStep s r state n = some next →
      next.2.Progress s r before next.1 := fun _ _ _ progress step => progress.step step
  have start : PutStage.locking.Progress s r before before := ⟨fun _ => rfl, rfl⟩
  exact exec_invariant_always kept start ran

/-- The object's file when `put_object` stops before its record is written. -/
theorem PutStage.Progress.file (progress : PutStage.Progress s r before node stage)
    (unfinished : stage ≠ .done) :
    objectFile s (stage.dropped node) r.bucket r.key =
      bif stage.published then some r.body else objectFile s before r.bucket r.key := by
  have files := progress.files
  cases stage with
  | locking =>
    have same : node.fs = before.fs := files
    show node.fs.read _ = before.fs.read _
    rw [same]
  | checking =>
    have same : node.fs = before.fs := files
    show node.fs.read _ = before.fs.read _
    rw [same]
  | storing stage =>
    have progress : Stage.Progress s r.storageKey r.body before.fs node.fs stage := files
    exact (progress.dropped (tempOf_ne_pathOf s _ _).symm).trans progress.object
  | writing metadata => exact files
  | done => exact absurd rfl unfinished

omit [Sha256] in
theorem PutStage.dropped_db (node : Node) (stage : PutStage) : (stage.dropped node).db = node.db := by
  cases stage <;> rfl

end Put

/-! ## `complete_multipart` -/

/-- The content of part files, one after the other. -/
def partsContent (base : Path) (uploadId : String) (fs : Fs) : List Nat → Option Bytes
  | [] => some []
  | part :: todo => do
    let bytes ← fs.read (partPath base uploadId part)
    let rest ← partsContent base uploadId fs todo
    return bytes ++ rest

/-- The bytes a completion of the upload stores. -/
def uploadedBytes (s : ObjectStorage) (node : Node) (r : CompleteRequest) : Option Bytes :=
  match getMultipartUpload node.db r.bucket r.key r.uploadId with
  | .error _ => none
  | .ok upload => partsContent s.basePath r.uploadId node.fs upload.parts.keys

/-- What is left to read of the open part. -/
def unread (fs : Fs) : Option (Nat × Nat) → Bytes
  | none => []
  | some (j, offset) => (fs.data j).drop offset

/-- Part way through the loop over the parts: what is copied, what is left of the open part
and the parts to come make up the whole. -/
structure Assembling (s : ObjectStorage) (r : CompleteRequest) (before : Node) (fs : Fs) (ino : Nat)
    (acc : Bytes) (part : Option (Nat × Nat)) (todo : List Nat) : Prop where
  others : ∀ p, p ≠ tempFinalPath s.basePath r.uploadId → fs.read p = before.fs.read p
  named : fs.inode (tempFinalPath s.basePath r.uploadId) = some ino
  copied : fs.data ino = acc
  reading : ∀ j offset, part = some (j, offset) →
    ∃ p, p ≠ tempFinalPath s.basePath r.uploadId ∧ fs.inode p = some j
  content : uploadedBytes s before r =
    (partsContent s.basePath r.uploadId before.fs todo).map fun rest => acc ++ (unread fs part ++ rest)

section Assembling
omit [Sha256]

/-- What is left of a file after an offset is what is read next and what is left then. -/
theorem drop_eq_take_append (d : Bytes) (offset size : Nat) :
    d.drop offset = (d.drop offset).take size ++
      d.drop (offset + ((d.drop offset).take size).length) := by
  have whole := List.take_append_drop size (d.drop offset)
  nth_rewrite 1 [← whole]
  congr 1
  rw [List.drop_drop]
  by_cases short : size ≤ (d.drop offset).length
  · congr 1
    simp only [List.length_take]
    omega
  · simp only [List.length_drop] at short
    rw [List.drop_of_length_le, List.drop_of_length_le]
    · simp only [List.length_take, List.length_drop]
      omega
    · omega

variable {r : CompleteRequest} {before : Node} {fs : Fs} {ino n : Nat} {acc : Bytes}
  {todo : List Nat}

theorem Assembling.start {upload : MultipartUpload}
    (found : getMultipartUpload before.db r.bucket r.key r.uploadId = .ok upload) :
    Assembling s r before (before.fs.create (tempFinalPath s.basePath r.uploadId)).2
      (before.fs.create (tempFinalPath s.basePath r.uploadId)).1 [] none upload.parts.keys := by
  refine ⟨fun p apart => ?_, before.fs.inode_create _, before.fs.data_create _, by simp, ?_⟩
  · exact before.fs.read_create_of_ne apart
  · simp [uploadedBytes, found, unread]

theorem Assembling.open (here : Assembling s r before fs ino acc none (n :: todo)) {j : Nat}
    (found : fs.inode (partPath s.basePath r.uploadId n) = some j) :
    Assembling s r before fs ino acc (some (j, 0)) todo := by
  have apart := partPath_ne_tempFinalPath s.basePath r.uploadId n
  refine ⟨here.others, here.named, here.copied, ?_, ?_⟩
  · rintro j' offset ⟨rfl, rfl⟩
    exact ⟨_, apart, found⟩
  · have bytes : before.fs.read (partPath s.basePath r.uploadId n) = some (fs.data j) := by
      rw [← here.others _ apart, Fs.read, found, Option.map_some]
    rw [here.content, partsContent, bytes]
    cases partsContent s.basePath r.uploadId before.fs todo with
    | none => rfl
    | some rest => simp [unread]

theorem Assembling.next {j offset : Nat}
    (here : Assembling s r before fs ino acc (some (j, offset)) todo)
    (ended : (fs.data j).drop offset = []) : Assembling s r before fs ino acc none todo := by
  refine ⟨here.others, here.named, here.copied, by simp, ?_⟩
  rw [here.content]
  simp [unread, ended]

theorem Assembling.copy {j offset : Nat}
    (here : Assembling s r before fs ino acc (some (j, offset)) todo) (size : Nat) :
    let chunk := ((fs.data j).drop offset).take size
    Assembling s r before (fs.write ino acc.length chunk) ino (acc ++ chunk)
      (some (j, offset + chunk.length)) todo := by
  intro chunk
  obtain ⟨p, apart, open_⟩ := here.reading j offset rfl
  have other : ∀ q, q ≠ tempFinalPath s.basePath r.uploadId → fs.inode q ≠ some ino := by
    intro q hq found
    exact hq (fs.inj q _ ino found here.named)
  have kept : (fs.write ino acc.length chunk).data j = fs.data j := by
    have apart' : j ≠ ino := by
      rintro rfl
      exact other p apart open_
    simp [Fs.write, Function.update_of_ne apart']
  refine ⟨fun q hq => ?_, here.named, ?_, ?_, ?_⟩
  · rw [fs.read_write_of_ne (other q hq)]
    exact here.others q hq
  · have := here.copied
    rw [fs.data_write, this, writeAt_end]
  · rintro j' offset' ⟨rfl, rfl⟩
    exact ⟨p, apart, open_⟩
  · have split : (fs.data j).drop offset = chunk ++ (fs.data j).drop (offset + chunk.length) :=
      drop_eq_take_append (fs.data j) offset size
    rw [here.content]
    simp only [unread, kept]
    rw [split]
    simp

end Assembling

/-- The guard that removes the parts is there. -/
def CompleteStage.armed : CompleteStage → Bool
  | .assembling _ _ _ _ _ => true
  | .flushing _ _ => true
  | .storing _ _ _ _ => true
  | .writing _ _ => true
  | .aborting => true
  | _ => false

/-- The upload id names a directory above the object's file, and the guard removes it. -/
def CompleteStage.removesObject (s : ObjectStorage) (r : CompleteRequest) (stage : CompleteStage) :
    Bool :=
  stage.armed && (partsDir s.basePath r.uploadId).isPrefixOf (s.pathOf r.storageKey)

section Complete

variable {r : CompleteRequest} {before node node' : Node} {stage stage' : CompleteStage} {n : Nat}

/-- What `complete_multipart` has done to the files it started on. -/
def CompleteStage.Files (s : ObjectStorage) (r : CompleteRequest) (before : Node) (fs : Fs) :
    CompleteStage → Prop
  | .locking => fs = before.fs
  | .looking => fs = before.fs
  | .creating upload =>
      fs = before.fs ∧ getMultipartUpload before.db r.bucket r.key r.uploadId = .ok upload
  | .assembling _ ino acc part todo => Assembling s r before fs ino acc part todo
  | .flushing _ acc => fs.read (s.pathOf r.storageKey) = before.fs.read (s.pathOf r.storageKey) ∧
      fs.read (tempFinalPath s.basePath r.uploadId) = some acc ∧ uploadedBytes s before r = some acc
  | .storing _ _ body stage => uploadedBytes s before r = some body ∧
      ∃ start : Fs, start.read (s.pathOf r.storageKey) = before.fs.read (s.pathOf r.storageKey) ∧
        Stage.Progress s r.storageKey body start fs stage
  | .writing _ _ => fs.read (s.pathOf r.storageKey) = uploadedBytes s before r
  | _ => True

/-- All parts are copied: the assembled file holds the uploaded bytes. -/
theorem Assembling.done {ino : Nat} {acc : Bytes} {fs : Fs}
    (here : Assembling s r before fs ino acc none []) :
    fs.read (s.pathOf r.storageKey) = before.fs.read (s.pathOf r.storageKey) ∧
      fs.read (tempFinalPath s.basePath r.uploadId) = some acc ∧
      uploadedBytes s before r = some acc := by
  refine ⟨here.others _ (tempFinalPath_ne_pathOf s _ _), ?_, ?_⟩
  · rw [Fs.read, here.named, Option.map_some, here.copied]
  · rw [here.content]
    simp [partsContent, unread]

structure CompleteStage.Progress (s : ObjectStorage) (r : CompleteRequest) (before node : Node)
    (stage : CompleteStage) : Prop where
  db : stage.recorded = false → node.db = before.db
  files : stage.Files s r before node.fs

theorem CompleteStage.Progress.step (progress : CompleteStage.Progress s r before node stage)
    (step : completeStep s r (node, stage) n = some (node', stage')) :
    CompleteStage.Progress s r before node' stage' := by
  obtain ⟨db, files⟩ := progress
  cases completeStep_cases step with
  | lock => exact ⟨fun _ => db rfl, files⟩
  | look found =>
    rw [db rfl] at found
    exact ⟨fun _ => db rfl, files, found⟩
  | create upload =>
    obtain ⟨same, found⟩ := files
    refine ⟨fun _ => db rfl, ?_⟩
    rw [same]
    exact Assembling.start found
  | openPart upload ino acc todo found => exact ⟨fun _ => db rfl, Assembling.open files found⟩
  | copy upload ino acc j offset todo bytes =>
    subst bytes
    exact ⟨fun _ => db rfl, Assembling.copy files _⟩
  | endPart upload ino acc todo ended => exact ⟨fun _ => db rfl, Assembling.next files ended⟩
  | assembled upload ino acc => exact ⟨fun _ => db rfl, Assembling.done files⟩
  | flush upload acc read =>
    obtain ⟨object, assembled, uploaded⟩ := files
    have same : acc = _ := Option.some.inj (assembled.symm.trans read)
    subst same
    exact ⟨fun _ => db rfl, uploaded, node.fs, object, Stage.Progress.start⟩
  | store upload acc advanced =>
    obtain ⟨uploaded, start, object, progress⟩ := files
    exact ⟨fun _ => db rfl, uploaded, start, object, progress.advance advanced⟩
  | stored upload acc body =>
    obtain ⟨uploaded, start, object, progress⟩ := files
    exact ⟨fun _ => db rfl, progress.object.trans uploaded.symm⟩
  | write upload call => exact ⟨(fun early => by cases early), trivial⟩
  | abort call => exact ⟨(fun early => by cases early), trivial⟩
  | removeParts => exact ⟨(fun early => by cases early), trivial⟩
  | removeTemp => exact ⟨(fun early => by cases early), trivial⟩

theorem complete_progress {ns : List Nat}
    (ran : exec (completeStep s r) (before, .locking) ns = some (node, stage)) :
    CompleteStage.Progress s r before node stage := by
  have kept : ∀ (state : Node × CompleteStage) (n : Nat) (next : Node × CompleteStage),
      state.2.Progress s r before state.1 → completeStep s r state n = some next →
      next.2.Progress s r before next.1 := fun _ _ _ progress step => progress.step step
  have start : CompleteStage.locking.Progress s r before before := ⟨fun _ => rfl, rfl⟩
  exact exec_invariant_always kept start ran

theorem read_cleanup (s : ObjectStorage) (uploadId key : String) (fs : Fs) :
    (cleanup s uploadId fs).read (s.pathOf key) =
      bif (partsDir s.basePath uploadId).isPrefixOf (s.pathOf key) then none
      else fs.read (s.pathOf key) := by
  rw [cleanup, Fs.read_removeDirAll, Fs.read_unlink_of_ne _ (tempFinalPath_ne_pathOf s _ _)]

/-- The object's file when `complete_multipart` stops before its record is written. -/
theorem CompleteStage.Progress.file (progress : CompleteStage.Progress s r before node stage)
    (unrecorded : stage.recorded = false) :
    objectFile s (stage.dropped s r node) r.bucket r.key =
      bif stage.removesObject s r then none
      else bif stage.published then uploadedBytes s before r
      else objectFile s before r.bucket r.key := by
  have files := progress.files
  cases stage with
  | locking =>
    have same : node.fs = before.fs := files
    show node.fs.read _ = before.fs.read _
    rw [same]
  | looking =>
    have same : node.fs = before.fs := files
    show node.fs.read _ = before.fs.read _
    rw [same]
  | creating upload =>
    have same : node.fs = before.fs := files.1
    show node.fs.read _ = before.fs.read _
    rw [same]
  | assembling upload ino acc part todo =>
    have here : Assembling s r before node.fs ino acc part todo := files
    refine (read_cleanup s r.uploadId r.storageKey node.fs).trans ?_
    rw [here.others _ (tempFinalPath_ne_pathOf s _ _)]
    rfl
  | flushing upload acc =>
    refine (read_cleanup s r.uploadId r.storageKey node.fs).trans ?_
    rw [files.1]
    rfl
  | storing upload acc body stage =>
    obtain ⟨uploaded, start, object, progress⟩ := files
    refine (read_cleanup s r.uploadId r.storageKey (stage.dropped node.fs)).trans ?_
    rw [progress.dropped (tempOf_ne_pathOf s _ _).symm, progress.object, object, uploaded]
    rfl
  | writing upload metadata =>
    have written : node.fs.read (s.pathOf r.storageKey) = uploadedBytes s before r := files
    refine (read_cleanup s r.uploadId r.storageKey node.fs).trans ?_
    rw [written]
    rfl
  | aborting => cases unrecorded
  | removingParts => cases unrecorded
  | removingTemp => cases unrecorded
  | done => cases unrecorded

omit [Sha256] in
theorem CompleteStage.dropped_db (s : ObjectStorage) (r : CompleteRequest) (node : Node)
    (stage : CompleteStage) : (stage.dropped s r node).db = node.db := by
  cases stage <;> rfl

end Complete

/-- **Failed writes.** Stopped before its record is written, a request leaves readers of
its key what they had exactly when they do not get as far as the object's file, or the
file has not been replaced, or its bytes are the same. -/
theorem failed_write_unseen_iff (s : ObjectStorage) (before : Node) :
    (∀ (r : PutRequest) (ns : List Nat) (node : Node) (stage : PutStage),
      ValidBucket r.bucket → ValidKey r.key →
      exec (putStep s r) (before, .locking) ns = some (node, stage) → stage ≠ .done →
      ((∀ env, getObject s env (stage.dropped node) r.bucket r.key =
          getObject s env before r.bucket r.key) ↔
        ¬ Readable before r.bucket r.key ∨ stage.published = false ∨
          objectFile s before r.bucket r.key = some r.body)) ∧
    (∀ (r : CompleteRequest) (ns : List Nat) (node : Node) (stage : CompleteStage),
      ValidBucket r.bucket → ValidKey r.key →
      exec (completeStep s r) (before, .locking) ns = some (node, stage) →
      stage.recorded = false →
      ((∀ env, getObject s env (stage.dropped s r node) r.bucket r.key =
          getObject s env before r.bucket r.key) ↔
        ¬ Readable before r.bucket r.key ∨
          if stage.removesObject s r then objectFile s before r.bucket r.key = none
          else stage.published = false ∨
            objectFile s before r.bucket r.key = uploadedBytes s before r)) := by
  constructor
  · intro r ns node stage valid valid' ran unfinished
    have progress := put_progress ran
    have db : (stage.dropped node).db = before.db := by
      rw [PutStage.dropped_db, progress.db unfinished]
    rw [getObject_same_iff valid valid' db, progress.file unfinished]
    cases stage.published with
    | true => simp [eq_comm]
    | false => simp
  · intro r ns node stage valid valid' ran unrecorded
    have progress := complete_progress ran
    have db : (stage.dropped s r node).db = before.db := by
      rw [CompleteStage.dropped_db, progress.db unrecorded]
    rw [getObject_same_iff valid valid' db, progress.file unrecorded]
    cases stage.removesObject s r with
    | true => simp [eq_comm]
    | false =>
      cases stage.published with
      | true => simp [eq_comm]
      | false => simp

/-! ## Runs on one key -/

/-- A node that holds `abc/k` with the single byte 1. -/
def sampleNode : Node where
  db := (Store.empty.put (bucketKey "abc") (.bucket ⟨"abc", 0⟩)).put (objectDbKey "abc" "k")
    (.object (newMetadata "abc" "k" [1] none 0))
  fs := (Fs.empty.create (sampleStorage.pathOf "abc/k")).2.write 0 0 [1]

/-- A node with an upload of `abc/k` whose only part is the byte 2. -/
def sampleUpload : Node where
  db := (Store.empty.put (multipartDbKey "abc" "k" "u") (.upload ⟨"u", "abc", "k", 0, none⟩)).put
    (partKey "abc" "k" "u" 1) (.part ⟨1, Sha256.digest [2], 1⟩)
  fs := (Fs.empty.create (partPath sampleStorage.basePath "u" 1)).2.write 0 0 [2]

omit [Sha256] in
/-- An overwrite that stops before its rename, and a completion of a new object that
stops at its record, are not seen. -/
theorem failed_write_unseen_sample :
    letI : Sha256 := Sha256.sampled
    (∃ node stage,
      exec (putStep sampleStorage ⟨"abc", "k", [2], true, 9⟩) (sampleNode, .locking)
        (List.replicate 8 0) = some (node, stage) ∧ stage ≠ .done ∧
      ∀ env, getObject sampleStorage env (stage.dropped node) "abc" "k" =
        getObject sampleStorage env sampleNode "abc" "k") ∧
    (∃ node stage,
      exec (completeStep sampleStorage ⟨"abc", "k", "u", 9⟩) (sampleUpload, .locking)
        (List.replicate 16 0) = some (node, stage) ∧ stage.recorded = false ∧
      stage.published = true ∧
      ∀ env, getObject sampleStorage env (stage.dropped sampleStorage ⟨"abc", "k", "u", 9⟩ node)
          "abc" "k" =
        getObject sampleStorage env sampleUpload "abc" "k") := by
  let _ : Sha256 := Sha256.sampled
  constructor
  · have seen : (exec (putStep sampleStorage ⟨"abc", "k", [2], true, 9⟩) (sampleNode, .locking)
        (List.replicate 8 0)).map (fun next => (next.2.published, decide (next.2 = .done))) =
        some (false, false) := by decide +kernel
    obtain ⟨⟨node, stage⟩, ran, observed⟩ := Option.map_eq_some_iff.1 seen
    simp only [Prod.mk.injEq, decide_eq_false_iff_not] at observed
    refine ⟨node, stage, ran, observed.2, ?_⟩
    exact ((failed_write_unseen_iff sampleStorage sampleNode).1 _ _ node stage (by decide)
      (by decide) ran observed.2).2 (.inr (.inl observed.1))
  · have seen : (exec (completeStep sampleStorage ⟨"abc", "k", "u", 9⟩) (sampleUpload, .locking)
        (List.replicate 16 0)).map (fun next => (next.2.recorded, next.2.published)) =
        some (false, true) := by decide +kernel
    obtain ⟨⟨node, stage⟩, ran, observed⟩ := Option.map_eq_some_iff.1 seen
    simp only [Prod.mk.injEq] at observed
    refine ⟨node, stage, ran, observed.1, observed.2, ?_⟩
    refine ((failed_write_unseen_iff sampleStorage sampleUpload).2 _ _ node stage (by decide)
      (by decide) ran observed.1).2 (.inl ?_)
    rintro ⟨⟨metadata, found⟩, -⟩
    have missing : (getObjectMetadata sampleUpload.db "abc" "k").toBool = false := by decide +kernel
    rw [found] at missing
    cases missing

omit [Sha256] in
/-- The overwrite of an object whose record is not written answers the new bytes under the
old record. -/
theorem failed_put_changes_reads :
    ¬ ∀ [Sha256] (s : ObjectStorage) (before : Node) (r : PutRequest) (ns : List Nat) (node : Node)
      (stage : PutStage), ValidBucket r.bucket → ValidKey r.key →
      exec (putStep s r) (before, .locking) ns = some (node, stage) → stage ≠ .done →
      ∀ env, getObject s env (stage.dropped node) r.bucket r.key =
        getObject s env before r.bucket r.key := by
  intro claim
  let _ : Sha256 := Sha256.sampled
  have seen : (exec (putStep sampleStorage ⟨"abc", "k", [2], true, 9⟩) (sampleNode, .locking)
      (List.replicate 10 0)).map (fun next => (decide (next.2 = .done),
        (getObject sampleStorage .eventual (next.2.dropped next.1) "abc" "k").toOption.map
          GetResponse.body)) = some (false, some [2]) := by decide +kernel
  obtain ⟨⟨node, stage⟩, ran, observed⟩ := Option.map_eq_some_iff.1 seen
  simp only [Prod.mk.injEq, decide_eq_false_iff_not] at observed
  have same := claim sampleStorage sampleNode ⟨"abc", "k", [2], true, 9⟩ (List.replicate 10 0) node
    stage (by decide) (by decide) ran observed.1 .eventual
  have before : (getObject sampleStorage .eventual sampleNode "abc" "k").toOption.map
      GetResponse.body = some [1] := by decide +kernel
  rw [← same, observed.2] at before
  exact absurd before (by decide)

end Save.Api
