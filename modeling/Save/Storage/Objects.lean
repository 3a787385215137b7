import Save.Common.Validation
import Save.Lib.Files
import Save.Lib.Run

/-!
# Object files

`layout.rs` and `ObjectStorage`: an object lives in one file whose path depends
on its key only, and is written to one temp file, whose path depends on the key
only as well, and renamed into place. A write in progress is a `Stage`, one
constructor for each point at which the call can fail or be dropped; `advance`
makes the next file-system operation, `dropped` is what `Drop` of the
`TempObject` does.
-/

namespace Save.Storage
set_option autoImplicit false
open Save.Text Save.Common Save.Files

/-- A character of a lower-case hexadecimal digest. -/
def hexChar (c : Char) : Bool := ('0' ≤ c && c ≤ '9') || ('a' ≤ c && c ≤ 'f')

/-- The SHA-256 digest of the `sha2` crate, printed with `{:x}`: 64 hexadecimal digits. -/
class Sha256 where
  digest : Bytes → String
  length : ∀ b, (digest b).toList.length = 64
  hex : ∀ b, ∀ c ∈ (digest b).toList, hexChar c = true

/-- Some values of the digest, for runs on fixed inputs: of `abc/k`, `abc/l` and two bodies. -/
def Sha256.samples : List (Bytes × String) :=
  [([97, 98, 99, 47, 107], "a74642e4165c62ea85d1004f1f6b02c40b68017e16f6631ceefc306ee265e11b"),
   ([97, 98, 99, 47, 108], "f5ae744748a87e40082bf29394dc7a925adae5e02f881a337e8257af41d48087"),
   ([1], "4bf5122f344554c53bde2ebb8cd2b7e3d1600ad631c385a5d7cce23c7785459a"),
   ([2], "dbc1b4c900ffe48d575b5da5c638040125f65db0fe3e24494b76ea986457d986")]

def Sha256.sample (b : Bytes) : String :=
  (samples.lookup b).getD "e3b0c44298fc1c149afbf4c8996fb92427ae41e4649b934ca495991b7852b855"

/-- The form of a digest. -/
def isDigest (d : String) : Bool := d.toList.length == 64 && d.toList.all hexChar

theorem isDigest_iff (d : String) :
    isDigest d = true ↔ d.toList.length = 64 ∧ ∀ c ∈ d.toList, hexChar c = true := by
  rw [isDigest, Bool.and_eq_true, beq_iff_eq, List.all_eq_true]

/-- Every sample is a digest. -/
theorem Sha256.sample_form (b : Bytes) :
    (sample b).toList.length = 64 ∧ ∀ c ∈ (sample b).toList, hexChar c = true := by
  have listed : samples.all (fun e => isDigest e.2) = true := by decide +kernel
  have form : isDigest (sample b) = true := by
    unfold sample
    cases found : samples.lookup b with
    | none => decide +kernel
    | some d =>
      obtain ⟨e, member, rfl⟩ : ∃ e ∈ samples, e.2 = d := by
        obtain ⟨l₁, l₂, list, -⟩ := List.lookup_eq_some_iff.1 found
        exact ⟨(b, d), by simp [list], rfl⟩
      exact List.all_eq_true.1 listed e member
  exact (isDigest_iff _).1 form

/-- The digest as far as the samples go. -/
@[reducible] def Sha256.sampled : Sha256 :=
  ⟨sample, fun b => (sample_form b).1, fun b => (sample_form b).2⟩

def utf8 (s : String) : Bytes := s.toUTF8.data.toList

inductive StorageError where
  | io (msg : String)
  | notFound (key : String)
  | invalidKey (msg : String)
  | quorumNotAchieved (achieved required : Nat)
  deriving DecidableEq, Repr

def StorageError.toString : StorageError → String
  | .io msg => "IO error: " ++ msg
  | .notFound key => "Object not found: " ++ key
  | .invalidKey msg => "Invalid key: " ++ msg
  | .quorumNotAchieved achieved required =>
    "Quorum not achieved: " ++ Nat.repr achieved ++ " of " ++ Nat.repr required ++ " nodes"

/-- The part of `ObjectStorage` the operations read. -/
structure ObjectStorage where
  basePath : Path
  fsyncMode : String

/-- A storage for runs on fixed inputs. -/
def sampleStorage : ObjectStorage := ⟨["data"], "data_only"⟩

variable [Sha256]

/-! ## Layout -/

def objectId (key : String) : Except StorageError String := do
  (validateObjectKey key).mapError fun e => .invalidKey e.toString
  return Sha256.digest (utf8 key)

/-- `&id[..2]`. -/
def shard (id : String) : String := String.ofList (id.toList.take 2)

def ObjectStorage.objectPathFromId (s : ObjectStorage) (id : String) : Path :=
  ((s.basePath.join "objects").join (shard id)).join id

def ObjectStorage.tempPathFromId (s : ObjectStorage) (id : String) : Path :=
  (s.basePath.join "temp").join (id ++ ".tmp")

def ObjectStorage.objectPath (s : ObjectStorage) (key : String) : Except StorageError Path := do
  let id ← objectId key
  return s.objectPathFromId id

/-- The object path of a key that passes validation. -/
def ObjectStorage.pathOf (s : ObjectStorage) (key : String) : Path :=
  s.objectPathFromId (Sha256.digest (utf8 key))

/-- The temp path of a key that passes validation. -/
def ObjectStorage.tempOf (s : ObjectStorage) (key : String) : Path :=
  s.tempPathFromId (Sha256.digest (utf8 key))

omit [Sha256] in
theorem plain_of_hex {s : String} (nonempty : s.toList ≠ [])
    (hex : ∀ c ∈ s.toList, hexChar c = true) : Plain s := by
  refine ⟨fun slash => ?_, nonempty, fun dot => ?_⟩
  · have := hex '/' slash
    exact absurd this (by decide)
  · have := hex '.' (by simp [dot])
    exact absurd this (by decide)

theorem digest_ne_nil (b : Bytes) : (Sha256.digest b).toList ≠ [] := by
  intro empty
  have := Sha256.length b
  simp [empty] at this

theorem pathOf_eq (s : ObjectStorage) (key : String) :
    s.pathOf key = s.basePath ++
      ["objects", shard (Sha256.digest (utf8 key)), Sha256.digest (utf8 key)] := by
  have long := Sha256.length (utf8 key)
  have id : Plain (Sha256.digest (utf8 key)) :=
    plain_of_hex (digest_ne_nil _) (Sha256.hex (utf8 key))
  have start : Plain (shard (Sha256.digest (utf8 key))) := by
    refine plain_of_hex ?_ fun c member => ?_
    · intro empty
      have : ((Sha256.digest (utf8 key)).toList.take 2).length = 0 := by simpa [shard] using empty
      rw [List.length_take] at this
      omega
    · exact Sha256.hex (utf8 key) c (List.mem_of_mem_take (by simpa [shard] using member))
  have objects : Plain "objects" := by decide
  unfold ObjectStorage.pathOf ObjectStorage.objectPathFromId
  rw [join_plain _ objects, join_plain _ start, join_plain _ id]
  simp

theorem tempOf_eq (s : ObjectStorage) (key : String) :
    s.tempOf key = s.basePath ++ ["temp", Sha256.digest (utf8 key) ++ ".tmp"] := by
  have id : Plain (Sha256.digest (utf8 key) ++ ".tmp") := by
    refine ⟨fun slash => ?_, by simp, fun dot => ?_⟩
    · have member : '/' ∈ (Sha256.digest (utf8 key)).toList ++ ".tmp".toList := by simpa using slash
      rcases List.mem_append.1 member with h | h
      · exact absurd (Sha256.hex (utf8 key) '/' h) (by decide)
      · exact absurd h (by decide)
    · have := congrArg List.length dot
      simp at this
  have temp : Plain "temp" := by decide
  unfold ObjectStorage.tempOf ObjectStorage.tempPathFromId
  rw [join_plain _ temp, join_plain _ id]
  simp

/-- Temp files and object files are in different directories. -/
theorem tempOf_ne_pathOf (s : ObjectStorage) (key key' : String) : s.tempOf key ≠ s.pathOf key' := by
  rw [tempOf_eq, pathOf_eq]
  simp

/-- Keys with different digests have different object paths. -/
theorem pathOf_inj {s : ObjectStorage} {key key' : String} (same : s.pathOf key = s.pathOf key') :
    Sha256.digest (utf8 key) = Sha256.digest (utf8 key') := by
  rw [pathOf_eq, pathOf_eq] at same
  have := List.append_cancel_left same
  simp only [List.cons.injEq] at this
  exact this.2.2.1

/-- They have different temp paths as well. -/
theorem tempOf_inj {s : ObjectStorage} {key key' : String} (same : s.tempOf key = s.tempOf key') :
    Sha256.digest (utf8 key) = Sha256.digest (utf8 key') := by
  rw [tempOf_eq, tempOf_eq] at same
  have names := List.append_cancel_left same
  simp only [List.cons.injEq, and_true, true_and] at names
  have chars := congrArg String.toList names
  simp only [String.toList_append] at chars
  exact String.toList_injective (List.append_cancel_right chars)

/-- The id of a key that passes validation is its digest; other keys have none. -/
theorem objectId_eq_ok {key id : String} :
    objectId key = .ok id ↔ ValidKey key ∧ id = Sha256.digest (utf8 key) := by
  unfold objectId
  cases check : validateObjectKey key with
  | error e =>
    refine iff_of_false (fun ok => by cases ok) fun valid => ?_
    rw [ValidKey, check] at valid
    cases valid.1
  | ok u =>
    constructor
    · intro ok
      cases ok
      exact ⟨check, rfl⟩
    · rintro ⟨-, rfl⟩
      rfl

theorem objectId_invalid {key : String} (invalid : ¬ ValidKey key) : ∃ e, objectId key = .error e := by
  cases answer : objectId key with
  | error e => exact ⟨e, rfl⟩
  | ok id => exact absurd (objectId_eq_ok.1 answer).1 invalid

/-- Distinct keys have distinct files. -/
def Distinct (keys : Set String) : Prop := keys.InjOn fun key => Sha256.digest (utf8 key)

theorem Distinct.pathOf_ne {keys : Set String} (distinct : Distinct keys) (s : ObjectStorage)
    {key key' : String} (member : key ∈ keys) (member' : key' ∈ keys) (apart : key ≠ key') :
    s.pathOf key ≠ s.pathOf key' :=
  fun same => apart (distinct member member' (pathOf_inj same))

/-! ## A write in progress -/

structure TempObject where
  tempPath : Path
  finalPath : Path
  deriving DecidableEq, Repr

/-- `write_temp_object` and then `commit_object`, at the points where they may stop. -/
inductive Stage where
  | start
  /-- `create_temp_object` has returned. -/
  | handle (t : TempObject)
  /-- The temp file is open; `rest` is still to be copied. -/
  | copying (t : TempObject) (ino offset : Nat) (rest : Bytes)
  /-- All bytes are copied; flush and sync come next. -/
  | copied (t : TempObject)
  /-- `write_temp_object` has returned. -/
  | written (t : TempObject)
  /-- The object's directory is there; the rename comes next. -/
  | dirMade (t : TempObject)
  /-- Renamed; `fsync_dir` comes next. -/
  | renamed (t : TempObject)
  /-- `commit_object` has returned. -/
  | committed
  deriving DecidableEq, Repr

/-- `create_temp_object`. -/
def ObjectStorage.createTempObject (s : ObjectStorage) (key : String) :
    Except StorageError TempObject := do
  let id ← objectId key
  return ⟨s.tempPathFromId id, s.objectPathFromId id⟩

/-- The next operation, when it succeeds; `n + 1` bounds the bytes of one write. -/
def ObjectStorage.advance (s : ObjectStorage) (key : String) (body : Bytes) (n : Nat) (fs : Fs) :
    Stage → Option (Fs × Stage)
  | .start =>
    match s.createTempObject key with
    | .error _ => none
    | .ok t => some (fs, .handle t)
  | .handle t => some ((fs.create t.tempPath).2, .copying t (fs.create t.tempPath).1 0 body)
  | .copying t ino offset rest =>
    if rest = [] then some (fs, .copied t)
    else
      let chunk := rest.take (n + 1)
      some (fs.write ino offset chunk, .copying t ino (offset + chunk.length) (rest.drop (n + 1)))
  | .copied t => some (fs, .written t)
  | .written t => some (fs, .dirMade t)
  | .dirMade t =>
    (fs.rename t.tempPath t.finalPath).map fun fs' =>
      (fs', if s.fsyncMode = "full" then .renamed t else .committed)
  | .renamed _ => some (fs, .committed)
  | .committed => none

/-- What is left when the call stops here: `Drop` removes an uncommitted temp file. -/
def Stage.dropped (fs : Fs) : Stage → Fs
  | .start => fs
  | .handle t => fs.unlink t.tempPath
  | .copying t _ _ _ => fs.unlink t.tempPath
  | .copied t => fs.unlink t.tempPath
  | .written t => fs.unlink t.tempPath
  | .dirMade t => fs.unlink t.tempPath
  | .renamed t => fs.unlink t.tempPath
  | .committed => fs

/-- The rename has taken effect. -/
def Stage.published : Stage → Bool
  | .renamed _ => true
  | .committed => true
  | _ => false

def ObjectStorage.getObject (s : ObjectStorage) (fs : Fs) (key : String) :
    Except StorageError Bytes := do
  let path ← s.objectPath key
  match fs.read path with
  | some bytes => return bytes
  | none => .error (.notFound key)

/-- The file after `delete_object`, when there was one. -/
def ObjectStorage.deleteObject (s : ObjectStorage) (fs : Fs) (key : String) :
    Except StorageError Fs := do
  let path ← s.objectPath key
  match fs.read path with
  | some _ => return fs.unlink path
  | none => .error (.notFound key)

theorem objectPath_eq (s : ObjectStorage) {key : String} (valid : ValidKey key) :
    s.objectPath key = .ok (s.pathOf key) := by
  rw [ObjectStorage.objectPath, objectId_eq_ok.2 ⟨valid, rfl⟩]
  rfl

/-- Without a valid key no file is looked at. -/
theorem objectPath_invalid (s : ObjectStorage) {key : String} (invalid : ¬ ValidKey key) :
    ∃ e, s.objectPath key = .error e := by
  obtain ⟨e, refused⟩ := objectId_invalid invalid
  refine ⟨e, ?_⟩
  rw [ObjectStorage.objectPath, refused]
  rfl

theorem getObject_ok (s : ObjectStorage) (fs : Fs) {key : String} (valid : ValidKey key) :
    s.getObject fs key = match fs.read (s.pathOf key) with
      | some bytes => .ok bytes
      | none => .error (.notFound key) := by
  rw [ObjectStorage.getObject, objectPath_eq s valid]
  rfl

theorem getObject_invalid (s : ObjectStorage) (fs fs' : Fs) {key : String}
    (invalid : ¬ ValidKey key) : s.getObject fs key = s.getObject fs' key := by
  obtain ⟨e, call⟩ := objectPath_invalid s invalid
  rw [ObjectStorage.getObject, ObjectStorage.getObject, call]
  rfl

theorem deleteObject_eq {s : ObjectStorage} {fs fs' : Fs} {key : String}
    (call : s.deleteObject fs key = .ok fs') : fs' = fs.unlink (s.pathOf key) := by
  by_cases valid : ValidKey key
  · rw [ObjectStorage.deleteObject, objectPath_eq s valid] at call
    simp only [bind, Except.bind] at call
    split at call
    · cases call
      rfl
    · cases call
  · obtain ⟨e, failed⟩ := objectPath_invalid s valid
    rw [ObjectStorage.deleteObject, failed] at call
    cases call

/-! ## What one operation does -/

/-- The temp object the call holds. -/
def Stage.temp : Stage → Option TempObject
  | .start => none
  | .handle t => some t
  | .copying t _ _ _ => some t
  | .copied t => some t
  | .written t => some t
  | .dirMade t => some t
  | .renamed t => some t
  | .committed => none

omit [Sha256] in
theorem Stage.dropped_eq (fs : Fs) (stage : Stage) :
    stage.dropped fs = match stage.temp with
      | none => fs
      | some t => fs.unlink t.tempPath := by
  cases stage <;> rfl

theorem createTempObject_eq {s : ObjectStorage} {key : String} {t : TempObject}
    (call : s.createTempObject key = .ok t) : t = ⟨s.tempOf key, s.pathOf key⟩ := by
  unfold ObjectStorage.createTempObject at call
  cases answer : objectId key with
  | error e =>
    rw [answer] at call
    cases call
  | ok id =>
    obtain ⟨-, rfl⟩ := objectId_eq_ok.1 answer
    rw [answer] at call
    cases call
    rfl

/-- Without a valid key there is no temp object. -/
theorem createTempObject_invalid (s : ObjectStorage) {key : String} (invalid : ¬ ValidKey key) :
    ∃ e, s.createTempObject key = .error e := by
  obtain ⟨e, refused⟩ := objectId_invalid invalid
  refine ⟨e, ?_⟩
  rw [ObjectStorage.createTempObject, refused]
  rfl

/-- One operation of a write: the files and the stage before and after. -/
inductive Advances (s : ObjectStorage) (key : String) (body : Bytes) :
    Fs → Stage → Fs → Stage → Prop where
  | start (fs : Fs) : Advances s key body fs .start fs (.handle ⟨s.tempOf key, s.pathOf key⟩)
  | create (fs : Fs) (t : TempObject) : Advances s key body fs (.handle t) (fs.create t.tempPath).2
      (.copying t (fs.create t.tempPath).1 0 body)
  | write (fs : Fs) (t : TempObject) (ino offset : Nat) (chunk rest : Bytes) :
      Advances s key body fs (.copying t ino offset (chunk ++ rest)) (fs.write ino offset chunk)
        (.copying t ino (offset + chunk.length) rest)
  | copied (fs : Fs) (t : TempObject) (ino offset : Nat) :
      Advances s key body fs (.copying t ino offset []) fs (.copied t)
  | synced (fs : Fs) (t : TempObject) : Advances s key body fs (.copied t) fs (.written t)
  | dirMade (fs : Fs) (t : TempObject) : Advances s key body fs (.written t) fs (.dirMade t)
  | rename (fs : Fs) (t : TempObject) {fs' : Fs} {stage : Stage}
      (moved : fs.rename t.tempPath t.finalPath = some fs')
      (next : stage = .renamed t ∨ stage = .committed) :
      Advances s key body fs (.dirMade t) fs' stage
  | dirSynced (fs : Fs) (t : TempObject) : Advances s key body fs (.renamed t) fs .committed

theorem advance_cases {s : ObjectStorage} {key : String} {body : Bytes} {n : Nat} {fs fs' : Fs}
    {stage stage' : Stage} (step : s.advance key body n fs stage = some (fs', stage')) :
    Advances s key body fs stage fs' stage' := by
  cases stage with
  | start =>
    simp only [ObjectStorage.advance] at step
    split at step
    · cases step
    · rename_i t call
      cases step
      rw [createTempObject_eq call]
      exact .start fs
  | handle t =>
    cases step
    exact .create fs t
  | copying t ino offset rest =>
    simp only [ObjectStorage.advance] at step
    split at step
    · rename_i empty
      cases step
      rw [empty]
      exact .copied fs t ino offset
    · cases step
      have whole := List.take_append_drop (n + 1) rest
      nth_rewrite 1 [← whole]
      exact .write fs t ino offset _ _
  | copied t =>
    cases step
    exact .synced fs t
  | written t =>
    cases step
    exact .dirMade fs t
  | dirMade t =>
    obtain ⟨fs'', moved, same⟩ := Option.map_eq_some_iff.1 step
    cases same
    refine .rename fs t moved ?_
    split
    · exact .inl rfl
    · exact .inr rfl
  | renamed t =>
    cases step
    exact .dirSynced fs t
  | committed => cases step

/-! ## A write that has its temp file to itself -/

section Progress

variable {s : ObjectStorage} {key : String} {body : Bytes} {fs₀ fs fs' : Fs} {stage stage' : Stage}

/-- What the stage says about the temp file. -/
def Stage.Content (s : ObjectStorage) (key : String) (body : Bytes) (fs : Fs) : Stage → Prop
  | .start => True
  | .handle t => t = ⟨s.tempOf key, s.pathOf key⟩
  | .copying t ino offset rest => t = ⟨s.tempOf key, s.pathOf key⟩ ∧
      fs.inode (s.tempOf key) = some ino ∧ offset = (fs.data ino).length ∧
      fs.data ino ++ rest = body
  | .copied t => t = ⟨s.tempOf key, s.pathOf key⟩ ∧ fs.read (s.tempOf key) = some body
  | .written t => t = ⟨s.tempOf key, s.pathOf key⟩ ∧ fs.read (s.tempOf key) = some body
  | .dirMade t => t = ⟨s.tempOf key, s.pathOf key⟩ ∧ fs.read (s.tempOf key) = some body
  | .renamed t => t = ⟨s.tempOf key, s.pathOf key⟩
  | .committed => True

/-- From the files `fs₀` at its start, a write has changed only its temp file and, once
published, its object file. -/
structure Stage.Progress (s : ObjectStorage) (key : String) (body : Bytes) (fs₀ fs : Fs)
    (stage : Stage) : Prop where
  others : ∀ p, p ≠ s.tempOf key → p ≠ s.pathOf key → fs.read p = fs₀.read p
  object : fs.read (s.pathOf key) =
    bif stage.published then some body else fs₀.read (s.pathOf key)
  content : stage.Content s key body fs

theorem Stage.Progress.start : Stage.Progress s key body fs fs .start :=
  ⟨fun _ _ _ => rfl, rfl, trivial⟩

theorem Stage.Content.names (content : stage.Content s key body fs) {t : TempObject}
    (held : stage.temp = some t) : t = ⟨s.tempOf key, s.pathOf key⟩ := by
  cases stage with
  | start => cases held
  | handle t => cases held; exact content
  | copying t ino offset rest => cases held; exact content.1
  | copied t => cases held; exact content.1
  | written t => cases held; exact content.1
  | dirMade t => cases held; exact content.1
  | renamed t => cases held; exact content
  | committed => cases held

/-- A write touches its temp file and its object file only. -/
theorem Stage.Content.advance_sameAt (content : stage.Content s key body fs) {n : Nat}
    (step : s.advance key body n fs stage = some (fs', stage')) {p : Path}
    (temp : p ≠ s.tempOf key) (object : p ≠ s.pathOf key) : fs.SameAt fs' p := by
  cases advance_cases step with
  | start => exact .refl fs p
  | create t =>
    obtain rfl := content.names rfl
    exact fs.sameAt_create temp
  | write t ino offset chunk rest =>
    have named : fs.inode (s.tempOf key) = some ino := content.2.1
    exact fs.sameAt_write fun found => temp (fs.inj p _ ino found named)
  | copied t ino offset => exact .refl fs p
  | synced t => exact .refl fs p
  | dirMade t => exact .refl fs p
  | rename t moved next =>
    obtain rfl := content.names rfl
    exact Fs.sameAt_rename moved temp object
  | dirSynced t => exact .refl fs p

/-- What the next stage says. -/
theorem Stage.Content.advance (content : stage.Content s key body fs) {n : Nat}
    (step : s.advance key body n fs stage = some (fs', stage')) :
    stage'.Content s key body fs' := by
  cases advance_cases step with
  | start => rfl
  | create t =>
    obtain rfl := content.names rfl
    have empty := fs.data_create (s.tempOf key)
    refine ⟨rfl, fs.inode_create _, ?_, ?_⟩
    · simp only [empty, List.length_nil]
    · simp only [empty, List.nil_append]
  | write t ino offset chunk rest =>
    obtain ⟨names, named, at_end, bytes⟩ := content
    have data : (fs.write ino offset chunk).data ino = fs.data ino ++ chunk := by
      rw [fs.data_write, at_end, writeAt_end]
    refine ⟨names, named, ?_, ?_⟩
    · rw [data, List.length_append, at_end]
    · rw [data, List.append_assoc, bytes]
  | copied t ino offset =>
    obtain ⟨names, named, -, bytes⟩ := content
    refine ⟨names, ?_⟩
    rw [Fs.read, named, Option.map_some, ← bytes, List.append_nil]
  | synced t => exact content
  | dirMade t => exact content
  | rename t moved next =>
    obtain rfl | rfl := next
    · exact content.1
    · trivial
  | dirSynced t => trivial

/-- The object's file changes by the rename only, which publishes the body. -/
theorem Stage.Content.advance_object (content : stage.Content s key body fs) {n : Nat}
    (step : s.advance key body n fs stage = some (fs', stage')) :
    (stage'.published = stage.published ∧
      fs'.read (s.pathOf key) = fs.read (s.pathOf key)) ∨
    (stage'.published = true ∧ fs'.read (s.pathOf key) = some body) := by
  have apart : s.pathOf key ≠ s.tempOf key := (tempOf_ne_pathOf s key key).symm
  cases advance_cases step with
  | start => exact .inl ⟨rfl, rfl⟩
  | create t =>
    obtain rfl := content.names rfl
    exact .inl ⟨rfl, fs.read_create_of_ne apart⟩
  | write t ino offset chunk rest =>
    have named : fs.inode (s.tempOf key) = some ino := content.2.1
    exact .inl ⟨rfl, fs.read_write_of_ne fun found => apart (fs.inj _ _ ino found named)⟩
  | copied t ino offset => exact .inl ⟨rfl, rfl⟩
  | synced t => exact .inl ⟨rfl, rfl⟩
  | dirMade t => exact .inl ⟨rfl, rfl⟩
  | rename t moved next =>
    obtain ⟨rfl, temp⟩ := content
    have read : fs'.read (s.pathOf key) = some body := (Fs.read_rename moved).trans temp
    obtain rfl | rfl := next
    · exact .inr ⟨rfl, read⟩
    · exact .inr ⟨rfl, read⟩
  | dirSynced t => exact .inl ⟨rfl, rfl⟩

theorem Stage.Progress.advance (progress : Stage.Progress s key body fs₀ fs stage) {n : Nat}
    (step : s.advance key body n fs stage = some (fs', stage')) :
    Stage.Progress s key body fs₀ fs' stage' := by
  obtain ⟨others, object, content⟩ := progress
  refine ⟨fun p temp path => ?_, ?_, content.advance step⟩
  · rw [(content.advance_sameAt step temp path).read]
    exact others p temp path
  · obtain ⟨same, read⟩ | ⟨published, read⟩ := content.advance_object step
    · rw [read, same]
      exact object
    · rw [read, published]
      rfl

/-- What a stage says depends on the temp file only. -/
theorem Stage.Content.frame (content : stage.Content s key body fs)
    (same : fs.SameAt fs' (s.tempOf key)) : stage.Content s key body fs' := by
  cases stage with
  | start => trivial
  | handle t => exact content
  | copying t ino offset rest =>
    obtain ⟨names, named, at_end, bytes⟩ := content
    have data := same.data ino named
    exact ⟨names, same.inode.trans named, by rw [data, at_end], by rw [data, bytes]⟩
  | copied t => exact ⟨content.1, same.read.trans content.2⟩
  | written t => exact ⟨content.1, same.read.trans content.2⟩
  | dirMade t => exact ⟨content.1, same.read.trans content.2⟩
  | renamed t => exact content
  | committed => trivial

/-- A write that stops touches its temp file only. -/
theorem Stage.Content.dropped_sameAt (content : stage.Content s key body fs) {p : Path}
    (temp : p ≠ s.tempOf key) : fs.SameAt (stage.dropped fs) p := by
  rw [Stage.dropped_eq]
  split
  · exact .refl fs p
  · rename_i t held
    obtain rfl := content.names held
    exact fs.sameAt_unlink temp

/-- Stopping here leaves the object file as it is. -/
theorem Stage.Progress.dropped (progress : Stage.Progress s key body fs₀ fs stage) {p : Path}
    (apart : p ≠ s.tempOf key) : (stage.dropped fs).read p = fs.read p :=
  (progress.content.dropped_sameAt apart).read

end Progress

/-! ## A write among others

What is left of `Progress` when the temp file may be removed or written by others.
-/

/-- The stage works on the paths of its key and, once published, has made the object's file. -/
structure Stage.Sound (s : ObjectStorage) (key : String) (fs : Fs) (stage : Stage) : Prop where
  names : ∀ t, stage.temp = some t → t = ⟨s.tempOf key, s.pathOf key⟩
  file : stage.published = true → fs.HasFile (s.pathOf key)

section Sound

variable {s : ObjectStorage} {key : String} {body : Bytes} {fs fs' : Fs} {stage stage' : Stage}

theorem Stage.Sound.start : Stage.Sound s key fs .start := ⟨nofun, nofun⟩

/-- Files of other operations do not matter to it, as long as the object's file stays. -/
theorem Stage.Sound.mono (sound : Stage.Sound s key fs stage)
    (kept : fs.HasFile (s.pathOf key) → fs'.HasFile (s.pathOf key)) :
    Stage.Sound s key fs' stage :=
  ⟨sound.names, fun published => kept (sound.file published)⟩

theorem Stage.Sound.advance (sound : Stage.Sound s key fs stage) {n : Nat}
    (step : s.advance key body n fs stage = some (fs', stage')) :
    Stage.Sound s key fs' stage' ∧
      ∀ key', fs.HasFile (s.pathOf key') → fs'.HasFile (s.pathOf key') := by
  obtain ⟨names, file⟩ := sound
  cases advance_cases step with
  | start =>
    refine ⟨⟨?_, nofun⟩, fun _ there => there⟩
    rintro t ⟨rfl⟩
    rfl
  | create t => exact ⟨⟨names, nofun⟩, fun _ there => fs.hasFile_create _ there⟩
  | write t ino offset chunk rest =>
    exact ⟨⟨names, nofun⟩, fun _ there => fs.hasFile_write _ _ _ there⟩
  | copied t ino offset => exact ⟨⟨names, nofun⟩, fun _ there => there⟩
  | synced t => exact ⟨⟨names, nofun⟩, fun _ there => there⟩
  | dirMade t => exact ⟨⟨names, nofun⟩, fun _ there => there⟩
  | rename t moved next =>
    obtain rfl := names t rfl
    have made : fs'.HasFile (s.pathOf key) := Fs.hasFile_renamed moved
    refine ⟨?_, fun key' there => Fs.hasFile_rename moved (tempOf_ne_pathOf s key key').symm there⟩
    obtain rfl | rfl := next
    · exact ⟨names, fun _ => made⟩
    · exact ⟨nofun, fun _ => made⟩
  | dirSynced t => exact ⟨⟨nofun, fun _ => file rfl⟩, fun _ there => there⟩

theorem Stage.Sound.dropped (sound : Stage.Sound s key fs stage) {key' : String}
    (there : fs.HasFile (s.pathOf key')) : (stage.dropped fs).HasFile (s.pathOf key') := by
  rw [Stage.dropped_eq]
  split
  · exact there
  · rename_i t held
    rw [sound.names t held]
    exact fs.hasFile_unlink (tempOf_ne_pathOf s key key').symm there

end Sound

end Save.Storage
