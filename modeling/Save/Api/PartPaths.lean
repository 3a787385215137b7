import Save.Api.Multipart

/-!
# Where part files are kept

`part_path` (`handlers/multipart/mod.rs`) makes a directory name of the id that a
request brings, and the only check on the id is the lookup of `mpu:bucket:key:id`.
Keys may contain colons and slashes, so the joined string of one upload is also that
of other requests: the upload of key `k:x` with id `u` is found under key `k` and id
`x:u`, and `Path::join` starts anew at an id with a leading slash.
`part_path_own_iff`: in every run, for every request that is accepted, the parts are
kept in the directory of the id issued for the request's bucket and key exactly when
the id has no colon.
-/

namespace Save.Api
set_option autoImplicit false
open Save.Text Save.Kv Save.Common Save.Metadata Save.Files Save.Storage Save.Run

/-- The checks of `upload_part`, `complete_multipart` and `abort_multipart` on the names of a
request. -/
structure Accepted (db : Store Value) (w : UploadName) : Prop where
  bucket : ValidBucket w.bucket
  key : ValidKey w.key
  found : ∃ upload, getMultipartUpload db w.bucket w.key w.uploadId = .ok upload

/-- The parts are kept in one directory below the parts directory, named by the id that was
issued for the bucket and the key. -/
def OwnPartPath (base : Path) (issued : List UploadName) (w : UploadName) (n : Nat) : Prop :=
  ∃ id, partPath base w.uploadId n = base ++ ["temp", "parts", id, toString n] ∧ Plain id ∧
    ⟨w.bucket, w.key, id⟩ ∈ issued

/-! ## Paths -/

theorem partPath_plain (base : Path) {id : String} (plain : Plain id) (n : Nat) :
    partPath base id n = base ++ ["temp", "parts", id, toString n] := by
  have temp : Plain "temp" := by decide
  have parts : Plain "parts" := by decide
  rw [partPath, join_plain _ (plain_toString n), join_plain _ plain, join_plain _ parts,
    join_plain _ temp]
  simp

/-- The last directory of a part path ends with any end of the id that is one component. -/
theorem partPath_last (base : Path) {w v : String} (plain : Plain v) (free : '.' ∉ v.toList) (n : Nat) :
    ∃ first c, partPath base (w ++ v) n = first ++ [c ++ v, toString n] := by
  obtain ⟨first, c, last⟩ := components_append_last plain free w
  rw [partPath, join_plain _ (plain_toString n), Path.join]
  split
  · exact ⟨first, c, by simp [last]⟩
  · exact ⟨(base.join "temp").join "parts" ++ first, c, by simp [last]⟩

/-! ## Joined names -/

theorem dbKey_inj {w v : UploadName} (valid : ValidBucket w.bucket) (valid' : ValidBucket v.bucket)
    (same : w.dbKey = v.dbKey) :
    w.bucket = v.bucket ∧ w.key ++ ":" ++ w.uploadId = v.key ++ ":" ++ v.uploadId := by
  have joined : "mpu:" ++ (w.bucket ++ ":" ++ (w.key ++ ":" ++ w.uploadId)) =
      "mpu:" ++ (v.bucket ++ ":" ++ (v.key ++ ":" ++ v.uploadId)) := by
    simpa only [UploadName.dbKey, multipartDbKey, String.append_assoc] using same
  exact sep_inj valid.no_colon valid'.no_colon (append_right_inj joined)

theorem IsUuid.no_colon {id : String} (uuid : IsUuid id) : ':' ∉ id.toList :=
  uuid.no_char (by decide) (by decide)

/-- A request with the record of an upload names that upload, when its id has no colon. -/
theorem name_of_dbKey {w v : UploadName} (valid : ValidBucket w.bucket) (valid' : ValidBucket v.bucket)
    (uuid : IsUuid v.uploadId) (free : ':' ∉ w.uploadId.toList) (same : w.dbKey = v.dbKey) : w = v := by
  obtain ⟨bucket, rest⟩ := dbKey_inj valid valid' same
  have lists : w.key.toList ++ ':' :: w.uploadId.toList = v.key.toList ++ ':' :: v.uploadId.toList := by
    simpa using congrArg String.toList rest
  have ids : w.uploadId.toList = v.uploadId.toList := by
    have below := suffix_of_sep uuid.no_colon lists
    have above := suffix_of_sep free lists.symm
    exact (above.eq_of_length_le below.length_le)
  have keys : w.key.toList = v.key.toList := by
    rw [ids] at lists
    exact List.append_cancel_right lists
  obtain ⟨_, _, _⟩ := w
  obtain ⟨_, _, _⟩ := v
  rw [UploadName.mk.injEq]
  exact ⟨bucket, String.toList_inj.1 keys, String.toList_inj.1 ids⟩

/-- With a colon it ends with the id of that upload after a colon. -/
theorem uploadId_of_dbKey {w v : UploadName} (valid : ValidBucket w.bucket)
    (valid' : ValidBucket v.bucket) (uuid : IsUuid v.uploadId) (colon : ':' ∈ w.uploadId.toList)
    (same : w.dbKey = v.dbKey) : ∃ t, w.uploadId = t ++ (":" ++ v.uploadId) := by
  obtain ⟨-, rest⟩ := dbKey_inj valid valid' same
  have lists : w.key.toList ++ ':' :: w.uploadId.toList = v.key.toList ++ ':' :: v.uploadId.toList := by
    simpa using congrArg String.toList rest
  obtain ⟨t, whole⟩ := sep_suffix_of_sep uuid.no_colon colon lists
  refine ⟨String.ofList t, ?_⟩
  rw [← String.toList_inj, ← whole]
  simp

/-! ## Runs -/

/-- Every upload record is that of an upload that was initiated, with an id of the server. -/
structure MultipartNode.Issued (sys : MultipartNode) : Prop where
  valid : ∀ w ∈ sys.issued, ValidBucket w.bucket ∧ IsUuid w.uploadId
  records : ∀ k u, sys.node.db.get k = some (.upload u) → ∃ w ∈ sys.issued, k = w.dbKey

theorem MultipartNode.Issued.of_old {sys sys' : MultipartNode} (inv : sys.Issued)
    (same : sys'.issued = sys.issued)
    (old : ∀ k u, sys'.node.db.get k = some (.upload u) → sys.node.db.get k = some (.upload u)) :
    sys'.Issued := by
  refine ⟨by rw [same]; exact inv.valid, fun k u there => ?_⟩
  rw [same]
  exact inv.records k u (old k u there)

variable [Sha256] {s : ObjectStorage} {age : Nat}

theorem MultipartNode.Issued.step {sys sys' : MultipartNode} {e : MultipartEvent} (inv : sys.Issued)
    (step : sys.step s age e = some sys') : sys'.Issued := by
  cases MultipartNode.step_cases step with
  | @initiate now w contentType cached valid uuid fresh =>
    refine ⟨?_, fun k u there => ?_⟩
    · intro v member
      rcases List.mem_cons.1 member with rfl | older
      · exact ⟨valid.bucket, uuid⟩
      · exact inv.valid v older
    · simp only [get_put] at there
      split at there
      · rename_i same
        exact ⟨w, List.mem_cons_self, same.symm⟩
      · obtain ⟨v, member, key⟩ := inv.records k u there
        exact ⟨v, List.mem_cons_of_mem _ member, key⟩
  | request r => exact inv.of_old rfl fun _ _ there => there
  | advance at_i made => exact inv.of_old rfl (MultipartTask.advance_keeps made).old
  | @stop i task at_i =>
    refine inv.of_old rfl fun k u there => ?_
    rwa [MultipartTask.dropped_db] at there
  | gc made =>
    refine inv.of_old rfl fun k u there => ?_
    rwa [(gcStep_cases made).db] at there

theorem MultipartNode.issued_of_run {node : Node} (none : ∀ k u, node.db.get k ≠ some (.upload u))
    {events : List MultipartEvent} {sys : MultipartNode}
    (ran : exec (MultipartNode.step s age) (MultipartNode.start node) events = some sys) :
    sys.Issued := by
  refine exec_invariant_always (fun sys e sys' inv => inv.step) ⟨?_, fun k u there => ?_⟩ ran
  · intro w member
    cases member
  · exact absurd there (none k u)

/-- **Part paths.** A request that is accepted has its parts in the directory of the id that was
issued for its bucket and key exactly when it names the upload by an id without a colon. -/
theorem part_path_own_iff {node : Node} (none : ∀ k u, node.db.get k ≠ some (.upload u))
    {events : List MultipartEvent} {sys : MultipartNode}
    (ran : exec (MultipartNode.step s age) (MultipartNode.start node) events = some sys)
    {w : UploadName} (accepted : Accepted sys.node.db w) (n : Nat) :
    OwnPartPath s.basePath sys.issued w n ↔ containsChar w.uploadId ':' = false := by
  have inv := MultipartNode.issued_of_run none ran
  obtain ⟨upload, found⟩ := accepted.found
  obtain ⟨u, record⟩ := getMultipartUpload_record found
  obtain ⟨v, issued, key⟩ := inv.records _ u record
  obtain ⟨valid, uuid⟩ := inv.valid v issued
  rw [containsChar_eq_false]
  constructor
  · rintro ⟨id, path, -, own⟩ colon
    obtain ⟨t, whole⟩ := uploadId_of_dbKey accepted.bucket valid uuid colon key
    have plain : Plain (":" ++ v.uploadId) := by
      refine ⟨?_, by simp, ?_⟩
      · simpa using uuid.plain.1
      · simp
    have dotless : '.' ∉ (":" ++ v.uploadId).toList := by
      simpa using uuid.no_char (c := '.') (by decide) (by decide)
    obtain ⟨first, c, last⟩ := partPath_last s.basePath plain dotless n (w := t)
    -- the last directory is the issued id, which has no colon
    rw [whole, last] at path
    have same : c ++ (":" ++ v.uploadId) = id := by
      have ends : first ++ [c ++ (":" ++ v.uploadId), toString n] =
          (s.basePath ++ ["temp", "parts"]) ++ [id, toString n] := by
        simpa using path
      have pair := (List.append_inj' ends rfl).2
      simpa using pair
    have free := (inv.valid _ own).2.no_colon
    rw [← same] at free
    exact free (by simp)
  · intro free
    have same := name_of_dbKey accepted.bucket valid uuid free key
    rw [← same] at issued uuid
    exact ⟨w.uploadId, partPath_plain s.basePath uuid.plain n, uuid.plain, issued⟩

/-- An id as the server draws it. -/
def sampleUuid : String := "0b1c2d3e-4f50-4617-8a29-3b4c5d6e7f80"

/-- One upload, initiated for the key. -/
def sampleInitiate (key : String) : List MultipartEvent := [.initiate 9 ⟨"abc", key, sampleUuid⟩ none true]

omit [Sha256] in
theorem accepted_of_toBool {db : Store Value} {w : UploadName} (bucket : ValidBucket w.bucket)
    (key : ValidKey w.key) (found : (getMultipartUpload db w.bucket w.key w.uploadId).toBool = true) :
    Accepted db w := by
  refine ⟨bucket, key, ?_⟩
  cases call : getMultipartUpload db w.bucket w.key w.uploadId with
  | error e => simp [call, Except.toBool] at found
  | ok upload => exact ⟨upload, rfl⟩

omit [Sha256] in
theorem part_path_own_sample :
    letI : Sha256 := Sha256.sampled
    ∃ sys, exec (MultipartNode.step sampleStorage 3600) (MultipartNode.start ⟨Store.empty, Fs.empty⟩)
        (sampleInitiate "k") = some sys ∧
      OwnPartPath sampleStorage.basePath sys.issued ⟨"abc", "k", sampleUuid⟩ 1 := by
  let _ : Sha256 := Sha256.sampled
  have seen : (exec (MultipartNode.step sampleStorage 3600)
      (MultipartNode.start ⟨Store.empty, Fs.empty⟩) (sampleInitiate "k")).map
        (fun sys => (getMultipartUpload sys.node.db "abc" "k" sampleUuid).toBool) = some true := by
    decide +kernel
  obtain ⟨sys, ran, found⟩ := Option.map_eq_some_iff.1 seen
  have accepted : Accepted sys.node.db ⟨"abc", "k", sampleUuid⟩ :=
    accepted_of_toBool (by decide +kernel) (by decide +kernel) found
  refine ⟨sys, ran, (part_path_own_iff (fun k u there => ?_) ran accepted 1).2 (by decide +kernel)⟩
  simp at there

omit [Sha256] in
/-- The upload of `k:/x` is found under `k` with an absolute path for its id. -/
theorem part_path_escapes :
    ¬ ∀ [Sha256] (s : ObjectStorage) (age : Nat) (node : Node) (events : List MultipartEvent)
      (sys : MultipartNode) (w : UploadName) (n : Nat), (∀ k u, node.db.get k ≠ some (.upload u)) →
      exec (MultipartNode.step s age) (MultipartNode.start node) events = some sys →
      Accepted sys.node.db w → OwnPartPath s.basePath sys.issued w n := by
  intro claim
  let _ : Sha256 := Sha256.sampled
  have seen : (exec (MultipartNode.step sampleStorage 3600)
      (MultipartNode.start ⟨Store.empty, Fs.empty⟩) (sampleInitiate "k:/x")).map
        (fun sys => (getMultipartUpload sys.node.db "abc" "k" ("/x:" ++ sampleUuid)).toBool) =
          some true := by
    decide +kernel
  obtain ⟨sys, ran, found⟩ := Option.map_eq_some_iff.1 seen
  have accepted : Accepted sys.node.db ⟨"abc", "k", "/x:" ++ sampleUuid⟩ :=
    accepted_of_toBool (by decide +kernel) (by decide +kernel) found
  obtain ⟨id, path, -⟩ := claim sampleStorage 3600 ⟨Store.empty, Fs.empty⟩ _ sys _ 1
    (fun k u there => by simp at there) ran accepted
  have escaped : partPath sampleStorage.basePath ("/x:" ++ sampleUuid) 1 = ["x:" ++ sampleUuid, "1"] := by
    decide +kernel
  rw [escaped] at path
  have lengths := congrArg List.length path
  simp [sampleStorage] at lengths

end Save.Api
