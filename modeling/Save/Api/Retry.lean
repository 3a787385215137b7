import Save.Api.FailedWrites

/-!
# Completing an upload again

From the moment the assembled file is created a `MultipartCleanupGuard`
(`handlers/multipart/mod.rs`) is armed, and a call that stops before its last steps
removes the parts while the upload's record stays. `complete_retry_iff`: a call that
stops before the object's record is written leaves the upload as it was exactly when
the guard was not armed yet, or there were no parts to remove.
-/

namespace Save.Api
set_option autoImplicit false
open Save.Text Save.Kv Save.Common Save.Metadata Save.Files Save.Storage Save.Run

variable [Sha256]

/-- The upload is as it was `before`, and can be completed from here with the same result. -/
structure Retriable (s : ObjectStorage) (r : CompleteRequest) (upload : MultipartUpload)
    (before after : Node) : Prop where
  record : getMultipartUpload after.db r.bucket r.key r.uploadId = .ok upload
  parts : ∀ part ∈ upload.parts.keys, after.fs.read (partPath s.basePath r.uploadId part) =
    before.fs.read (partPath s.basePath r.uploadId part)
  again : ∀ ns finished, exec (completeStep s r) (before, .locking) ns = some (finished, .done) →
    ∃ ns' finished', exec (completeStep s r) (after, .locking) ns' = some (finished', .done) ∧
      finished'.db = finished.db ∧
      finished'.fs.read (s.pathOf r.storageKey) = finished.fs.read (s.pathOf r.storageKey)

section

variable {s : ObjectStorage} {r : CompleteRequest} {upload : MultipartUpload}
  {before node node' : Node} {stage stage' : CompleteStage} {n part : Nat} {todo : List Nat}

theorem Retriable.refl (recorded : getMultipartUpload before.db r.bucket r.key r.uploadId = .ok upload) :
    Retriable s r upload before before where
  record := recorded
  parts _ _ := rfl
  again ns finished ran := ⟨ns, finished, ran, rfl, rfl⟩

omit [Sha256] in
/-- The guard leaves no part of the upload. -/
theorem read_cleanup_part (s : ObjectStorage) (uploadId : String) (part : Nat) (fs : Fs) :
    (cleanup s uploadId fs).read (partPath s.basePath uploadId part) = none := by
  have inside : (partsDir s.basePath uploadId).isPrefixOf (partPath s.basePath uploadId part) = true := by
    rw [List.isPrefixOf_iff_prefix, partsDir, partPath, partPath, Path.parent,
      join_plain _ (plain_toString 0), join_plain _ (plain_toString part), List.dropLast_concat]
    exact List.prefix_append _ _
  rw [cleanup, Fs.read_removeDirAll, inside]
  rfl

/-- Before the guard is armed nothing has been done. -/
theorem CompleteStage.Progress.unarmed (progress : CompleteStage.Progress s r before node stage)
    (unrecorded : stage.recorded = false) (unarmed : stage.armed = false) :
    stage.dropped s r node = before := by
  have db := progress.db unrecorded
  have files := progress.files
  have same (fs : node.fs = before.fs) : node = before := by
    cases node
    cases before
    cases db
    cases fs
    rfl
  cases stage with
  | locking => exact same files
  | looking => exact same files
  | creating upload => exact same files.1
  | assembling upload ino acc part todo => cases unarmed
  | flushing upload acc => cases unarmed
  | storing upload acc body stage => cases unarmed
  | writing upload metadata => cases unarmed
  | aborting => cases unrecorded
  | removingParts => cases unrecorded
  | removingTemp => cases unrecorded
  | done => cases unrecorded

omit [Sha256] in
/-- Where the guard is armed, the parts are gone. -/
theorem CompleteStage.read_dropped_part (unrecorded : stage.recorded = false)
    (armed : stage.armed = true) (part : Nat) :
    (stage.dropped s r node).fs.read (partPath s.basePath r.uploadId part) = none := by
  cases stage with
  | locking => cases armed
  | looking => cases armed
  | creating upload => cases armed
  | assembling upload ino acc open' todo => exact read_cleanup_part s r.uploadId part _
  | flushing upload acc => exact read_cleanup_part s r.uploadId part _
  | storing upload acc body stage => exact read_cleanup_part s r.uploadId part _
  | writing upload metadata => exact read_cleanup_part s r.uploadId part _
  | aborting => cases unrecorded
  | removingParts => cases unrecorded
  | removingTemp => cases unrecorded
  | done => cases unrecorded

/-! ## An upload without its first part -/

/-- The call comes to the first part, which is not there, and no further. -/
def CompleteStage.Waits (r : CompleteRequest) (part : Nat) (todo : List Nat)
    (node : Node) : CompleteStage → Prop
  | .locking => ∃ upload, getMultipartUpload node.db r.bucket r.key r.uploadId = .ok upload ∧
      upload.parts.keys = part :: todo
  | .looking => ∃ upload, getMultipartUpload node.db r.bucket r.key r.uploadId = .ok upload ∧
      upload.parts.keys = part :: todo
  | .creating upload => upload.parts.keys = part :: todo
  | .assembling _ _ _ none waiting => waiting = part :: todo
  | _ => False

theorem CompleteStage.Waits.step (waits : stage.Waits r part todo node)
    (missing : node.fs.inode (partPath s.basePath r.uploadId part) = none)
    (step : completeStep s r (node, stage) n = some (node', stage')) :
    stage'.Waits r part todo node' ∧
      node'.fs.inode (partPath s.basePath r.uploadId part) = none := by
  cases completeStep_cases step with
  | lock => exact ⟨waits, missing⟩
  | look found =>
    obtain ⟨upload, recorded, keys⟩ := waits
    rw [recorded] at found
    cases found
    exact ⟨keys, missing⟩
  | create upload =>
    have keys : upload.parts.keys = part :: todo := waits
    refine ⟨keys, ?_⟩
    rw [Fs.inode_create_of_ne _ (partPath_ne_tempFinalPath _ _ _)]
    exact missing
  | openPart upload ino acc todo' found =>
    have same : _ :: todo' = part :: todo := waits
    obtain ⟨rfl, rfl⟩ := List.cons.inj same
    rw [missing] at found
    cases found
  | copy upload ino acc j offset todo' bytes => exact waits.elim
  | endPart upload ino acc todo' ended => exact waits.elim
  | assembled upload ino acc =>
    have same : [] = part :: todo := waits
    cases same
  | flush upload acc read => exact waits.elim
  | store upload acc advanced => exact waits.elim
  | stored upload acc body => exact waits.elim
  | write upload call => exact waits.elim
  | abort call => exact waits.elim
  | removeParts => exact waits.elim
  | removeTemp => exact waits.elim

/-- Without the file of its first part an upload is not completed. -/
theorem not_completed {ns : List Nat} {finished : Node}
    (recorded : getMultipartUpload before.db r.bucket r.key r.uploadId = .ok upload)
    (keys : upload.parts.keys = part :: todo)
    (missing : before.fs.read (partPath s.basePath r.uploadId part) = none)
    (ran : exec (completeStep s r) (before, .locking) ns = some (finished, .done)) : False := by
  have kept : ∀ (state : Node × CompleteStage) (n : Nat) (next : Node × CompleteStage),
      state.2.Waits r part todo state.1 ∧
        state.1.fs.inode (partPath s.basePath r.uploadId part) = none →
      completeStep s r state n = some next →
      next.2.Waits r part todo next.1 ∧
        next.1.fs.inode (partPath s.basePath r.uploadId part) = none :=
    fun _ _ _ here step => here.1.step here.2 step
  have start : CompleteStage.locking.Waits r part todo before := ⟨upload, recorded, keys⟩
  have absent : before.fs.inode (partPath s.basePath r.uploadId part) = none :=
    Option.map_eq_none_iff.1 missing
  have reached := exec_invariant_always kept ⟨start, absent⟩ ran
  exact reached.1

end

omit [Sha256] in
theorem sampleUpload_recorded :
    letI : Sha256 := Sha256.sampled
    ∃ upload, getMultipartUpload sampleUpload.db "abc" "k" "u" = .ok upload ∧
      upload.parts.isEmpty = false ∧ 1 ∈ upload.parts.keys := by
  let _ : Sha256 := Sha256.sampled
  have seen : (getMultipartUpload sampleUpload.db "abc" "k" "u").toOption.map
      (fun upload => (upload.parts.isEmpty, upload.parts.keys)) = some (false, [1]) := by
    decide +kernel
  cases found : getMultipartUpload sampleUpload.db "abc" "k" "u" with
  | error e =>
    rw [found] at seen
    cases seen
  | ok upload =>
    rw [found] at seen
    obtain ⟨some_part, keys⟩ := Prod.mk.inj (Option.some.inj seen)
    exact ⟨upload, rfl, some_part, by rw [keys]; exact List.mem_cons_self⟩

/-- **Retries.** A call that stops before the object's record is written leaves the upload to be
completed again exactly when it had not created its temporary file, or no part had a file. -/
theorem complete_retry_iff (s : ObjectStorage) (r : CompleteRequest) {upload : MultipartUpload}
    {before node : Node} {stage : CompleteStage} (ns : List Nat)
    (recorded : getMultipartUpload before.db r.bucket r.key r.uploadId = .ok upload)
    (some_part : upload.parts.isEmpty = false)
    (ran : exec (completeStep s r) (before, .locking) ns = some (node, stage))
    (unrecorded : stage.recorded = false) :
    Retriable s r upload before (stage.dropped s r node) ↔
      stage.armed = false ∨ ∀ part ∈ upload.parts.keys,
        before.fs.read (partPath s.basePath r.uploadId part) = none := by
  have progress := complete_progress ran
  constructor
  · intro retriable
    cases armed : stage.armed with
    | false => exact .inl rfl
    | true =>
      refine .inr fun part member => ?_
      rw [← retriable.parts part member]
      exact CompleteStage.read_dropped_part unrecorded armed part
  · intro holds
    cases armed : stage.armed with
    | false =>
      rw [progress.unarmed unrecorded armed]
      exact .refl recorded
    | true =>
      have missing := holds.resolve_left fun unarmed => by rw [armed] at unarmed; cases unarmed
      refine ⟨?_, fun part member => ?_, fun ns finished done => ?_⟩
      · rw [CompleteStage.dropped_db, progress.db unrecorded]
        exact recorded
      · rw [missing part member]
        exact CompleteStage.read_dropped_part unrecorded armed part
      · cases keys : upload.parts.keys with
        | nil =>
          rw [← Std.ExtTreeMap.isEmpty_keys, keys] at some_part
          cases some_part
        | cons part todo =>
          have first : part ∈ upload.parts.keys := by
            rw [keys]
            exact List.mem_cons_self
          exact (not_completed recorded keys (missing part first) done).elim

omit [Sha256] in
/-- A call that has only looked its upload up can be repeated. -/
theorem complete_retry_sample :
    letI : Sha256 := Sha256.sampled
    ∃ upload node stage,
      exec (completeStep sampleStorage ⟨"abc", "k", "u", 9⟩) (sampleUpload, .locking) [0, 0] =
        some (node, stage) ∧
      Retriable sampleStorage ⟨"abc", "k", "u", 9⟩ upload sampleUpload
        (stage.dropped sampleStorage ⟨"abc", "k", "u", 9⟩ node) := by
  let _ : Sha256 := Sha256.sampled
  obtain ⟨upload, recorded, some_part, -⟩ := sampleUpload_recorded
  have seen : (exec (completeStep sampleStorage ⟨"abc", "k", "u", 9⟩) (sampleUpload, .locking)
      [0, 0]).map (fun next => (next.2.recorded, next.2.armed)) = some (false, false) := by
    decide +kernel
  obtain ⟨⟨node, stage⟩, ran, observed⟩ := Option.map_eq_some_iff.1 seen
  simp only [Prod.mk.injEq] at observed
  exact ⟨upload, node, stage, ran, (complete_retry_iff sampleStorage _ [0, 0] recorded some_part ran
    observed.1).2 (.inl observed.2)⟩

omit [Sha256] in
/-- A call that stops with its temporary file created has removed the parts. -/
theorem stopped_complete_removes_parts :
    ¬ ∀ [Sha256] (s : ObjectStorage) (r : CompleteRequest) (upload : MultipartUpload)
      (before node : Node) (stage : CompleteStage) (ns : List Nat),
      getMultipartUpload before.db r.bucket r.key r.uploadId = .ok upload →
      upload.parts.isEmpty = false →
      exec (completeStep s r) (before, .locking) ns = some (node, stage) → stage.recorded = false →
      Retriable s r upload before (stage.dropped s r node) := by
  intro claim
  let _ : Sha256 := Sha256.sampled
  obtain ⟨upload, recorded, some_part, member⟩ := sampleUpload_recorded
  have seen : (exec (completeStep sampleStorage ⟨"abc", "k", "u", 9⟩) (sampleUpload, .locking)
      [0, 0, 0]).map (fun next => (next.2.recorded, next.2.armed)) = some (false, true) := by
    decide +kernel
  obtain ⟨⟨node, stage⟩, ran, observed⟩ := Option.map_eq_some_iff.1 seen
  simp only [Prod.mk.injEq] at observed
  have kept := (claim sampleStorage _ upload sampleUpload node stage [0, 0, 0] recorded some_part ran
    observed.1).parts 1 member
  rw [CompleteStage.read_dropped_part observed.1 observed.2] at kept
  have there : (sampleUpload.fs.read (partPath sampleStorage.basePath "u" 1)).isSome = true := by
    decide +kernel
  rw [← kept] at there
  cases there

end Save.Api
