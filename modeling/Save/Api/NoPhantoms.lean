import Save.Api.Serving

/-!
# No phantom objects

Every object record of a node has a file, in every state the node can reach by the
handlers of `handlers/objects` and `handlers/multipart` and by `gc.rs`: writes make
the file before the record, deletes remove the record before the file, and the lock
keeps the two apart. The proof is one invariant (`Sound`) over the records, the
commands under way and the requests in progress.

Two things it rests on are outside the source: the digest tells the keys in use
apart, and the ids of uploads are the ones the server issued (`ServerIds`),
which matters because the parts of an upload are removed as a directory named
after the id in the request.
-/

namespace Save.Api
set_option autoImplicit false
open Save.Text Save.Kv Save.Common Save.Metadata Save.Files Save.Storage Save.Run

variable [Sha256] {s : ObjectStorage}

/-! ## Upload ids -/

/-- The form of `Uuid::new_v4().to_string()`. -/
def IsUuid (id : String) : Prop :=
  id.toList.length = 36 ∧ (∀ c ∈ id.toList, hexChar c = true ∨ c = '-') ∧ '-' ∈ id.toList

/-- Every upload record is where `initiate_multipart` put it, under an id that is in no
name of the data path. -/
structure ServerIds (base : Path) (db : Store Value) : Prop where
  named : ∀ k u, db.get k = some (.upload u) → k = multipartDbKey u.bucket u.key u.uploadId
  uuid : ∀ k u, db.get k = some (.upload u) → IsUuid u.uploadId
  fresh : ∀ k u, db.get k = some (.upload u) → ∀ c ∈ base, endsWith c u.uploadId = false

omit [Sha256] in
theorem getMultipartUpload_record {db : Store Value} {bucket key uploadId : String}
    {upload : MultipartUpload} (call : getMultipartUpload db bucket key uploadId = .ok upload) :
    ∃ u, db.get (multipartDbKey bucket key uploadId) = some (.upload u) := by
  unfold getMultipartUpload at call
  cases check : checkObjectKey key with
  | error e => simp [check, bind, Except.bind] at call
  | ok v =>
    cases check' : validateUploadId uploadId with
    | error e => simp [check, check', bind, Except.bind] at call
    | ok v' =>
      simp only [check, check', bind, Except.bind] at call
      split at call
      · exact ⟨_, ‹_›⟩
      · cases call
      · cases call

section Uuid
omit [Sha256]

variable {id : String}

theorem IsUuid.plain (uuid : IsUuid id) : Plain id := by
  obtain ⟨long, chars, -⟩ := uuid
  refine ⟨fun slash => ?_, fun empty => ?_, fun dot => ?_⟩
  · rcases chars '/' slash with h | h
    · exact absurd h (by decide)
    · exact absurd h (by decide)
  · simp [empty] at long
  · simp [dot] at long

theorem IsUuid.no_char (uuid : IsUuid id) {c : Char} (other : hexChar c = false) (dash : c ≠ '-') :
    c ∉ id.toList := by
  intro member
  rcases uuid.2.1 c member with h | h
  · rw [other] at h
    cases h
  · exact dash h

/-- The id in a request that finds an upload ends with the id the server issued. -/
theorem ServerIds.suffix {base : Path} {db : Store Value} (ids : ServerIds base db)
    {bucket key uploadId : String} {u : MultipartMetadata}
    (found : db.get (multipartDbKey bucket key uploadId) = some (.upload u)) :
    ∃ w, uploadId = w ++ u.uploadId := by
  have uuid := ids.uuid _ u found
  have free : ':' ∉ u.uploadId.toList := uuid.no_char (by decide) (by decide)
  have lists := congrArg String.toList (ids.named _ u found)
  simp only [multipartDbKey, String.toList_append] at lists
  have same : ("mpu:".toList ++ bucket.toList ++ ":".toList ++ key.toList) ++
      ':' :: uploadId.toList =
      ("mpu:".toList ++ u.bucket.toList ++ ":".toList ++ u.key.toList) ++ ':' :: u.uploadId.toList := by
    simpa using lists
  obtain ⟨w, whole⟩ := suffix_of_sep free same
  refine ⟨String.ofList w, ?_⟩
  rw [← String.toList_inj, ← whole]
  simp

end Uuid

/-- No name on the way to an object file ends with an id of the server. -/
theorem not_endsWith_of_mem_pathOf {id : String} (uuid : IsUuid id)
    (fresh : ∀ c ∈ s.basePath, endsWith c id = false) {key c : String} (member : c ∈ s.pathOf key) :
    endsWith c id = false := by
  have hex := Sha256.hex (utf8 key)
  by_contra h
  have there : endsWith c id = true := by simpa using h
  have ends : id.toList <:+ c.toList := endsWith_iff.1 there
  have dash : '-' ∈ c.toList := ends.subset uuid.2.2
  have long : 36 ≤ c.toList.length := by
    have := ends.length_le
    rw [uuid.1] at this
    exact this
  rw [pathOf_eq, List.mem_append] at member
  rcases member with inBase | inTail
  · rw [fresh c inBase] at there
    cases there
  · simp only [List.mem_cons, List.not_mem_nil, or_false] at inTail
    rcases inTail with rfl | rfl | rfl
    · exact absurd long (by decide)
    · have := List.length_take_le 2 (Sha256.digest (utf8 key)).toList
      simp only [shard, String.toList_ofList] at long
      omega
    · exact absurd (hex '-' dash) (by decide)

/-- The directory that a completion removes holds no object file. -/
def Outside (s : ObjectStorage) (uploadId : String) : Prop :=
  ∀ key, ¬ partsDir s.basePath uploadId <+: s.pathOf key

theorem outside_of_found {db : Store Value} (ids : ServerIds s.basePath db)
    {bucket key uploadId : String} {upload : MultipartUpload}
    (call : getMultipartUpload db bucket key uploadId = .ok upload) : Outside s uploadId := by
  obtain ⟨u, found⟩ := getMultipartUpload_record call
  have uuid := ids.uuid _ u found
  have fresh := ids.fresh _ u found
  obtain ⟨w, rfl⟩ := ids.suffix found
  intro key' inside
  have dir : partsDir s.basePath (w ++ u.uploadId) =
      ((s.basePath.join "temp").join "parts").join (w ++ u.uploadId) := by
    rw [partsDir, Path.parent, partPath, join_plain _ (plain_toString 0), List.dropLast_concat]
  rw [dir] at inside
  by_cases absolute : startsWith (w ++ u.uploadId) "/" = true
  · rw [Path.join, if_pos absolute] at inside
    obtain ⟨first, c, last⟩ :=
      components_append_last uuid.plain (uuid.no_char (by decide) (by decide)) w
    have member : c ++ u.uploadId ∈ components (w ++ u.uploadId) := by simp [last]
    have := not_endsWith_of_mem_pathOf uuid fresh (inside.subset member)
    rw [endsWith_append] at this
    cases this
  · have temp : Plain "temp" := by decide
    have parts : Plain "parts" := by decide
    rw [join_relative _ (by simpa using absolute), join_plain _ parts, join_plain _ temp,
      pathOf_eq, List.append_assoc, List.append_assoc] at inside
    rw [List.prefix_append_right_inj] at inside
    simp at inside

/-! ## Uploads and commands -/

section Commands
omit [Sha256]

variable {now : DateTime} {db : Store Value} {command : Command} {ws : List (Write Value)}

/-- No command writes an upload record. -/
theorem upload_of_apply (call : applyCommand now db command = .ok ws) {k : String}
    {u : MultipartMetadata} (there : (applyAll db ws).get k = some (.upload u)) :
    db.get k = some (.upload u) := by
  obtain ⟨v, act, -, sets⟩ := applyCommand_sets call
  rw [sets] at there
  split at there
  · subst there
    cases command with
    | createBucket bucket => simp only [cellAct] at act; split at act <;> cases act
    | deleteBucket name => simp only [cellAct] at act; split at act <;> cases act
    | putObjectMetadata metadata => simp only [cellAct] at act; split at act <;> cases act
    | deleteObjectMetadata bucket key => simp only [cellAct] at act; split at act <;> cases act
    | acquireLock bucket key lockType holder =>
      simp only [cellAct, Command.cell] at act
      obtain ⟨s, -, same, -⟩ := getLockState_act act
      simp at same
    | releaseLock bucket key holder =>
      simp only [cellAct, Command.cell] at act
      obtain ⟨s, -, same, -⟩ := getLockState_act act
      cases left : released holder s <;> simp [left] at same
  · exact there

/-- `abort_multipart_upload` only deletes. -/
theorem upload_of_abort {bucket key uploadId : String}
    (call : abortMultipartUpload db bucket key uploadId = .ok ws) {k : String} {v : Value}
    (there : (applyAll db ws).get k = some v) : db.get k = some v := by
  have deletes := abortMultipartUpload_deletes call
  by_cases touched : ∃ w ∈ ws, w.key = k
  · rw [get_applyAll_of_agree touched fun w member _ => deletes w member] at there
    cases there
  · rw [get_applyAll_of_ne fun w member same => touched ⟨w, member, same⟩] at there
    exact there

theorem ServerIds.of_kept {base : Path} {db' : Store Value} (ids : ServerIds base db)
    (kept : ∀ k u, db'.get k = some (.upload u) → db.get k = some (.upload u)) :
    ServerIds base db' :=
  ⟨fun k u there => ids.named k u (kept k u there), fun k u there => ids.uuid k u (kept k u there),
    fun k u there => ids.fresh k u (kept k u there)⟩

end Commands

/-! ## One request -/

def PutStage.Sound (s : ObjectStorage) (r : PutRequest) (fs : Fs) : PutStage → Prop
  | .storing stage => stage.Sound s r.storageKey fs
  | .writing metadata => storageKey metadata.bucket metadata.key = r.storageKey ∧
      fs.HasFile (s.pathOf r.storageKey)
  | _ => True

def CompleteStage.Sound (s : ObjectStorage) (r : CompleteRequest) (fs : Fs) : CompleteStage → Prop
  | .locking => True
  | .looking => True
  | .storing _ _ _ stage => Outside s r.uploadId ∧ stage.Sound s r.storageKey fs
  | .writing _ metadata => Outside s r.uploadId ∧
      storageKey metadata.bucket metadata.key = r.storageKey ∧ fs.HasFile (s.pathOf r.storageKey)
  | _ => Outside s r.uploadId

/-- A request about to write its record has made the object's file. -/
def Work.Sound (s : ObjectStorage) (fs : Fs) : Work → Prop
  | .put r stage => stage.Sound s r fs
  | .complete r stage => stage.Sound s r fs
  | .delete _ _ _ => True

/-- The object a delete request is for. -/
def Work.deletes : Work → Option (String × String)
  | .delete bucket key _ => some (bucket, key)
  | _ => none

/-- A delete request that has removed the record. -/
def Work.removing : Work → Bool
  | .delete _ _ .removing => true
  | _ => false

/-- What one operation of a request does to the rest of the node. -/
structure Work.Effect (s : ObjectStorage) (node node' : Node) (w w' : Work) : Prop where
  sound : w'.Sound s node'.fs
  key : w'.storageKey = w.storageKey
  kind : w'.deletes = w.deletes
  settled : w'.removing = false
  records : ∀ key, node'.db.get (recordKey key) = node.db.get (recordKey key)
  ids : ServerIds s.basePath node'.db
  /-- Only a delete removes a file, of its own object. -/
  files : ∀ key, node.fs.HasFile (s.pathOf key) →
    node'.fs.HasFile (s.pathOf key) ∨ (w.removing = true ∧ s.pathOf key = s.pathOf w.storageKey)

section Request

variable {node node' : Node} {w w' : Work} {n : Nat}

/-- An operation that keeps the files of objects and the database. -/
theorem Work.Effect.kept {fs : Fs} (sound : w'.Sound s fs) (key : w'.storageKey = w.storageKey)
    (kind : w'.deletes = w.deletes) (settled : w'.removing = false)
    (ids : ServerIds s.basePath node.db)
    (files : ∀ key, node.fs.HasFile (s.pathOf key) → fs.HasFile (s.pathOf key)) :
    Work.Effect s node { node with fs } w w' :=
  ⟨sound, key, kind, settled, fun _ => rfl, ids, fun key there => .inl (files key there)⟩

/-- An operation that leaves the node as it is. -/
theorem Work.Effect.same (sound : w'.Sound s node.fs) (key : w'.storageKey = w.storageKey)
    (kind : w'.deletes = w.deletes) (settled : w'.removing = false)
    (ids : ServerIds s.basePath node.db) : Work.Effect s node node w w' :=
  .kept sound key kind settled ids fun _ there => there

theorem put_effect {r : PutRequest} {stage stage' : PutStage} (sound : stage.Sound s r node.fs)
    (ids : ServerIds s.basePath node.db) (waits : (Work.put r stage).command = none)
    (step : putStep s r (node, stage) n = some (node', stage')) :
    Work.Effect s node node' (.put r stage) (.put r stage') := by
  cases stage with
  | locking =>
    cases step
    exact .same trivial rfl rfl rfl ids
  | checking =>
    simp only [putStep] at step
    split at step
    · cases step
      exact .same Stage.Sound.start rfl rfl rfl ids
    · cases step
  | storing stage =>
    have sound : stage.Sound s r.storageKey node.fs := sound
    obtain ⟨rfl, next⟩ | ⟨fs, later, advanced, next⟩ := putStep_storing step
    · cases next
      exact .same ⟨rfl, sound.file rfl⟩ rfl rfl rfl ids
    · cases next
      obtain ⟨sound', kept⟩ := sound.advance advanced
      exact .kept sound' rfl rfl rfl ids kept
  | writing metadata => cases waits
  | done => cases step

theorem complete_effect {r : CompleteRequest} {stage stage' : CompleteStage}
    (sound : stage.Sound s r node.fs) (ids : ServerIds s.basePath node.db)
    (waits : (Work.complete r stage).command = none)
    (step : completeStep s r (node, stage) n = some (node', stage')) :
    Work.Effect s node node' (.complete r stage) (.complete r stage') := by
  cases completeStep_cases step with
  | lock => exact .same trivial rfl rfl rfl ids
  | look found => exact .same (outside_of_found ids found) rfl rfl rfl ids
  | create upload => exact .kept sound rfl rfl rfl ids fun _ => node.fs.hasFile_create _
  | openPart upload ino acc todo found => exact .same sound rfl rfl rfl ids
  | copy upload ino acc j offset todo bytes =>
    exact .kept sound rfl rfl rfl ids fun _ => node.fs.hasFile_write _ _ _
  | endPart upload ino acc todo ended => exact .same sound rfl rfl rfl ids
  | assembled upload ino acc => exact .same sound rfl rfl rfl ids
  | flush upload acc read => exact .same ⟨sound, Stage.Sound.start⟩ rfl rfl rfl ids
  | store upload acc advanced =>
    obtain ⟨outside, sound⟩ := sound
    obtain ⟨sound', kept⟩ := sound.advance advanced
    exact .kept ⟨outside, sound'⟩ rfl rfl rfl ids kept
  | stored upload acc body =>
    obtain ⟨outside, sound⟩ := sound
    exact .same ⟨outside, rfl, sound.file rfl⟩ rfl rfl rfl ids
  | write upload call => cases waits
  | abort call =>
    have own := abortMultipartUpload_local call
    refine ⟨sound, rfl, rfl, rfl, fun key => ?_, ?_, fun _ there => .inl there⟩
    · refine get_applyAll_of_ne fun w member => ?_
      exact ne_of_startsWith (by decide) (by decide) (own w member) (recordKey_startsWith key)
    · exact ids.of_kept fun k u there => upload_of_abort call there
  | removeParts =>
    have outside : Outside s r.uploadId := sound
    exact .kept sound rfl rfl rfl ids fun key => node.fs.hasFile_removeDirAll (outside key)
  | removeTemp =>
    exact .kept sound rfl rfl rfl ids fun key =>
      node.fs.hasFile_unlink (tempFinalPath_ne_pathOf s _ key)

theorem delete_effect {bucket key : String} {stage stage' : DeleteStage}
    (ids : ServerIds s.basePath node.db) (waits : (Work.delete bucket key stage).command = none)
    (step : deleteStep s bucket key (node, stage) = some (node', stage')) :
    Work.Effect s node node' (.delete bucket key stage) (.delete bucket key stage') := by
  cases stage with
  | locking =>
    cases step
    exact .same trivial rfl rfl rfl ids
  | looking =>
    simp only [deleteStep] at step
    split at step
    · cases step
    · cases step
      exact .same trivial rfl rfl rfl ids
  | writing => cases waits
  | removing =>
    simp only [deleteStep] at step
    split at step
    · cases step
    · rename_i fs call
      cases step
      refine ⟨trivial, rfl, rfl, rfl, fun _ => rfl, ids, fun key' there => ?_⟩
      by_cases same : s.pathOf key' = s.pathOf (storageKey bucket key)
      · exact .inr ⟨rfl, same⟩
      · rw [deleteObject_eq call]
        exact .inl (node.fs.hasFile_unlink same there)
  | done => cases step

theorem Work.Sound.advance (sound : w.Sound s node.fs) (ids : ServerIds s.basePath node.db)
    (step : w.advance s node n = some (node', w')) : Work.Effect s node node' w w' := by
  unfold Work.advance at step
  split at step
  · cases step
  · rename_i busy
    have waits : w.command = none := by simpa using busy
    cases w with
    | put r stage =>
      obtain ⟨next, taken, same⟩ := Option.map_eq_some_iff.1 step
      cases same
      exact put_effect sound ids waits taken
    | complete r stage =>
      obtain ⟨next, taken, same⟩ := Option.map_eq_some_iff.1 step
      cases same
      exact complete_effect sound ids waits taken
    | delete bucket key stage =>
      obtain ⟨next, taken, same⟩ := Option.map_eq_some_iff.1 step
      cases same
      exact delete_effect ids waits taken

/-- A request does not depend on the files of other objects. -/
theorem Work.Sound.mono {fs fs' : Fs} (sound : w.Sound s fs)
    (kept : fs.HasFile (s.pathOf w.storageKey) → fs'.HasFile (s.pathOf w.storageKey)) :
    w.Sound s fs' := by
  cases w with
  | put r stage =>
    cases stage with
    | storing stage => exact Stage.Sound.mono sound kept
    | writing metadata => exact ⟨sound.1, kept sound.2⟩
    | locking | checking | done => trivial
  | complete r stage =>
    cases stage with
    | storing upload acc body stage => exact ⟨sound.1, sound.2.mono kept⟩
    | writing upload metadata => exact ⟨sound.1, sound.2.1, kept sound.2.2⟩
    | locking | looking => trivial
    | creating | assembling | flushing | aborting | removingParts | removingTemp | done =>
      exact sound
  | delete bucket key stage => trivial

theorem hasFile_cleanup {fs : Fs} {uploadId key : String} (outside : Outside s uploadId)
    (there : fs.HasFile (s.pathOf key)) : (cleanup s uploadId fs).HasFile (s.pathOf key) :=
  Fs.hasFile_removeDirAll _ (outside key)
    (fs.hasFile_unlink (tempFinalPath_ne_pathOf s uploadId key) there)

/-- The guards of a request that stops leave every object's file. -/
theorem Work.Sound.dropped (sound : w.Sound s node.fs) {key : String}
    (there : node.fs.HasFile (s.pathOf key)) :
    (w.dropped s node).fs.HasFile (s.pathOf key) := by
  cases w with
  | put r stage =>
    cases stage with
    | storing stage => exact Stage.Sound.dropped sound there
    | locking | checking | writing | done => exact there
  | complete r stage =>
    cases stage with
    | storing upload acc body stage => exact hasFile_cleanup sound.1 (sound.2.dropped there)
    | writing upload metadata => exact hasFile_cleanup sound.1 there
    | assembling | flushing | aborting => exact hasFile_cleanup sound there
    | locking | looking | creating | removingParts | removingTemp | done => exact there
  | delete bucket key stage => exact there

omit [Sha256] in
theorem Work.dropped_db (s : ObjectStorage) (node : Node) (w : Work) :
    (w.dropped s node).db = node.db := by
  cases w with
  | put r stage => cases stage <;> rfl
  | complete r stage => cases stage <;> rfl
  | delete bucket key stage => rfl

/-- The command of a request that writes a record is for the request's own object. -/
theorem Work.Sound.command {fs : Fs} (sound : w.Sound s fs) {command : Command}
    (waits : w.command = some command) :
    (∃ metadata, command = .putObjectMetadata metadata ∧ w.deletes = none ∧
      Api.storageKey metadata.bucket metadata.key = w.storageKey ∧
      fs.HasFile (s.pathOf w.storageKey)) ∨
    (∃ bucket key, command = .deleteObjectMetadata bucket key ∧ w.deletes = some (bucket, key)) := by
  cases w with
  | put r stage =>
    cases stage with
    | writing metadata =>
      cases waits
      exact .inl ⟨metadata, rfl, rfl, sound.1, sound.2⟩
    | locking | checking | storing | done => cases waits
  | complete r stage =>
    cases stage with
    | writing upload metadata =>
      cases waits
      exact .inl ⟨metadata, rfl, rfl, sound.2.1, sound.2.2⟩
    | locking | looking | creating | assembling | flushing | storing | aborting | removingParts
    | removingTemp | done => cases waits
  | delete bucket key stage =>
    cases stage with
    | writing =>
      cases waits
      exact .inr ⟨bucket, key, rfl, rfl⟩
    | locking | looking | removing | done => cases waits

omit [Sha256] in
theorem Work.acknowledged_key (w : Work) : w.acknowledged.storageKey = w.storageKey := by
  cases w with
  | put r stage => cases stage <;> rfl
  | complete r stage => cases stage <;> rfl
  | delete bucket key stage => cases stage <;> rfl

omit [Sha256] in
theorem Work.acknowledged_deletes (w : Work) : w.acknowledged.deletes = w.deletes := by
  cases w with
  | put r stage => cases stage <;> rfl
  | complete r stage => cases stage <;> rfl
  | delete bucket key stage => cases stage <;> rfl

theorem Work.Sound.acknowledged {fs : Fs} (sound : w.Sound s fs) : w.acknowledged.Sound s fs := by
  cases w with
  | put r stage =>
    cases stage with
    | writing metadata => trivial
    | locking | checking | storing | done => exact sound
  | complete r stage =>
    cases stage with
    | writing upload metadata => exact sound.1
    | locking | looking | creating | assembling | flushing | storing | aborting | removingParts
    | removingTemp | done => exact sound
  | delete bucket key stage => cases stage <;> trivial

end Request

/-! ## Requests and the log -/

/-- One request a key, and no record written behind a delete of a request in progress. -/
structure Ordered (works : Nat → Option Work) (next : Nat) (log : List Proposal) : Prop where
  numbered : ∀ i w, works i = some w → i < next
  alone : ∀ i j w w', works i = some w → works j = some w' → w.storageKey = w'.storageKey → i = j
  owned : ∀ p ∈ log, ∀ i, p.owner = some i → i < next ∧ ∀ w, works i = some w →
    ∀ bucket key, w.deletes = some (bucket, key) → p.command = .deleteObjectMetadata bucket key
  order : log.Pairwise fun p q => ∀ i w, p.owner = some i → works i = some w →
    w.deletes.isSome = true → ¬ Puts q.command w.storageKey

section Ordered
omit [Sha256]

variable {works works' : Nat → Option Work} {next : Nat} {log log' : List Proposal}

/-- A request after one of them has been set. -/
theorem update_cases {i j : Nat} {w v : Work}
    (there : Function.update works i (some w) j = some v) :
    (j = i ∧ w = v) ∨ (j ≠ i ∧ works j = some v) := by
  by_cases same : j = i
  · subst same
    rw [Function.update_self] at there
    exact .inl ⟨rfl, Option.some.inj there⟩
  · rw [Function.update_of_ne same] at there
    exact .inr ⟨same, there⟩

/-- Requests move on or end. -/
def SameWorks (works works' : Nat → Option Work) : Prop :=
  ∀ i w', works' i = some w' →
    ∃ w, works i = some w ∧ w'.storageKey = w.storageKey ∧ w'.deletes = w.deletes

theorem SameWorks.update {i : Nat} {w w' : Work} (found : works i = some w)
    (key : w'.storageKey = w.storageKey) (kind : w'.deletes = w.deletes) :
    SameWorks works (Function.update works i (some w')) := by
  intro j w'' there
  rcases update_cases there with ⟨rfl, rfl⟩ | ⟨-, there⟩
  · exact ⟨w, found, key, kind⟩
  · exact ⟨w'', there, rfl, rfl⟩

theorem acknowledge_cases {owner : Option Nat} {j : Nat} {v : Work}
    (there : acknowledge works owner j = some v) :
    works j = some v ∨ (owner = some j ∧ ∃ w, works j = some w ∧ v = w.acknowledged) := by
  cases owner with
  | none => exact .inl there
  | some i =>
    by_cases same : j = i
    · subst same
      rw [acknowledge, Function.update_self] at there
      obtain ⟨w, found, rfl⟩ := Option.map_eq_some_iff.1 there
      exact .inr ⟨rfl, w, found, rfl⟩
    · rw [acknowledge, Function.update_of_ne same] at there
      exact .inl there

theorem SameWorks.acknowledge (works : Nat → Option Work) (owner : Option Nat) :
    SameWorks works (acknowledge works owner) := by
  intro j v there
  rcases acknowledge_cases there with there | ⟨-, w, found, rfl⟩
  · exact ⟨v, there, rfl, rfl⟩
  · exact ⟨w, found, w.acknowledged_key, w.acknowledged_deletes⟩

theorem Ordered.of_same (ordered : Ordered works next log) (same : SameWorks works works') :
    Ordered works' next log := by
  refine ⟨fun i w' there => ?_, fun i j w₁ w₂ first second key => ?_, fun p member i owner => ?_, ?_⟩
  · obtain ⟨w, there, -⟩ := same i w' there
    exact ordered.numbered i w there
  · obtain ⟨v₁, first, key₁, -⟩ := same i w₁ first
    obtain ⟨v₂, second, key₂, -⟩ := same j w₂ second
    exact ordered.alone i j v₁ v₂ first second (by rw [← key₁, ← key₂, key])
  · obtain ⟨old, command⟩ := ordered.owned p member i owner
    refine ⟨old, fun w' there bucket key deletes => ?_⟩
    obtain ⟨w, there, -, kind⟩ := same i w' there
    exact command w there bucket key (by rw [← kind, deletes])
  · refine ordered.order.imp fun {p q} before i w' owner there deletes => ?_
    obtain ⟨w, there, key, kind⟩ := same i w' there
    rw [key]
    exact before i w owner there (by rw [← kind, deletes])

theorem Ordered.sublist (ordered : Ordered works next log) (part : log'.Sublist log) :
    Ordered works next log' :=
  ⟨ordered.numbered, ordered.alone, fun p member => ordered.owned p (part.subset member),
    ordered.order.sublist part⟩

theorem Ordered.start (ordered : Ordered works next log) {w : Work}
    (unlocked : ∀ i w', works i = some w' → w'.storageKey ≠ w.storageKey) :
    Ordered (Function.update works next (some w)) (next + 1) log := by
  have old : ∀ i, i < next → Function.update works next (some w) i = works i := by
    intro i below
    exact Function.update_of_ne (by omega) _ _
  refine ⟨fun i w' there => ?_, fun i j w₁ w₂ first second key => ?_, fun p member i owner => ?_, ?_⟩
  · rcases update_cases there with ⟨rfl, -⟩ | ⟨-, there⟩
    · omega
    · have := ordered.numbered i w' there
      omega
  · rcases update_cases first with ⟨rfl, rfl⟩ | ⟨-, older⟩
    · rcases update_cases second with ⟨rfl, -⟩ | ⟨-, older'⟩
      · rfl
      · exact absurd key.symm (unlocked j w₂ older')
    · rcases update_cases second with ⟨rfl, rfl⟩ | ⟨-, older'⟩
      · exact absurd key (unlocked i w₁ older)
      · exact ordered.alone i j w₁ w₂ older older' key
  · obtain ⟨below, command⟩ := ordered.owned p member i owner
    refine ⟨by omega, fun w' there => ?_⟩
    rw [old i below] at there
    exact command w' there
  · refine ordered.order.imp_of_mem fun {p q} first _ before i w' owner there => ?_
    rw [old i (ordered.owned p first i owner).1] at there
    exact before i w' owner there

/-- A new proposal at the end of the log. -/
theorem Ordered.append (ordered : Ordered works next log) {p : Proposal}
    (owned : ∀ i, p.owner = some i → i < next ∧ ∀ w, works i = some w →
      ∀ bucket key, w.deletes = some (bucket, key) → p.command = .deleteObjectMetadata bucket key)
    (last : ∀ i w, works i = some w → w.deletes.isSome = true → ¬ Puts p.command w.storageKey) :
    Ordered works next (log ++ [p]) := by
  refine ⟨ordered.numbered, ordered.alone, fun q member => ?_, ?_⟩
  · rcases List.mem_append.1 member with member | member
    · exact ordered.owned q member
    · rw [List.mem_singleton.1 member]
      exact owned
  · refine List.pairwise_append.2 ⟨ordered.order, List.pairwise_singleton _ _, ?_⟩
    intro q _ r member i w _ there deletes
    rw [List.mem_singleton.1 member]
    exact last i w there deletes

end Ordered

/-! ## The invariant -/

structure Serving.Sound (s : ObjectStorage) (keys : Set String) (sys : Serving) : Prop where
  ids : ServerIds s.basePath sys.node.db
  records : ∀ key v, sys.node.db.get (recordKey key) = some v →
    key ∈ keys ∧ sys.node.fs.HasFile (s.pathOf key)
  log : ∀ p ∈ sys.log, ∀ key, Puts p.command key →
    key ∈ keys ∧ sys.node.fs.HasFile (s.pathOf key)
  works : ∀ i w, sys.works i = some w → w.storageKey ∈ keys ∧ w.Sound s sys.node.fs
  /-- A file about to be removed has no record and none under way. -/
  removing : ∀ i w, sys.works i = some w → w.removing = true →
    sys.node.db.get (recordKey w.storageKey) = none ∧
      ∀ p ∈ sys.log, ¬ Puts p.command w.storageKey
  ordered : Ordered sys.works sys.next sys.log
  gc : ∀ active files, sys.gc = .removing active files → ∀ f ∈ files, tempDir s <+: f.1

section Steps

variable {keys : Set String} {sys sys' : Serving} {age : Nat}

omit [Sha256] in
theorem unlocked_iff {sys : Serving} {key : String} (unlocked : sys.unlocked key = true)
    (numbered : ∀ i w, sys.works i = some w → i < sys.next) :
    ∀ i w, sys.works i = some w → w.storageKey ≠ key := by
  intro i w there
  have := List.all_eq_true.1 unlocked i (List.mem_range.2 (numbered i w there))
  rw [there] at this
  simpa using this

omit [Sha256] in
theorem Work.deletes_of_removing {w : Work} (removing : w.removing = true) :
    w.deletes.isSome = true := by
  cases w with
  | delete bucket key stage => rfl
  | put r stage => cases removing
  | complete r stage => cases removing

theorem Serving.Sound.start (sound : sys.Sound s keys) {request : Request}
    (within : request.work.storageKey ∈ keys) (unlocked : sys.unlocked request.work.storageKey = true) :
    Serving.Sound s keys { sys with
      works := Function.update sys.works sys.next (some request.work), next := sys.next + 1 } := by
  have free := unlocked_iff unlocked sound.ordered.numbered
  have initial : request.work.Sound s sys.node.fs ∧ request.work.removing = false := by
    cases request <;> exact ⟨trivial, rfl⟩
  refine { sound with works := ?_, removing := ?_, ordered := sound.ordered.start free }
  · intro i w there
    rcases update_cases there with ⟨-, rfl⟩ | ⟨-, there⟩
    · exact ⟨within, initial.1⟩
    · exact sound.works i w there
  · intro i w there removing
    rcases update_cases there with ⟨-, rfl⟩ | ⟨-, there⟩
    · rw [initial.2] at removing
      cases removing
    · exact sound.removing i w there removing

theorem Serving.Sound.advance (sound : sys.Sound s keys) (distinct : Distinct keys) {i n : Nat}
    {w w' : Work} {node' : Node} (found : sys.works i = some w)
    (step : w.advance s sys.node n = some (node', w')) :
    Serving.Sound s keys { sys with
      node := node', works := Function.update sys.works i (some w') } := by
  obtain ⟨within, here⟩ := sound.works i w found
  have effect := here.advance sound.ids step
  -- a file that goes is the file of a delete that has removed its record
  have files : ∀ key ∈ keys, sys.node.fs.HasFile (s.pathOf key) →
      node'.fs.HasFile (s.pathOf key) ∨ (w.removing = true ∧ key = w.storageKey) := by
    intro key member there
    rcases effect.files key there with kept | ⟨removing, same⟩
    · exact .inl kept
    · exact .inr ⟨removing, distinct member within (pathOf_inj same)⟩
  refine ⟨effect.ids, fun key v there => ?_, fun p member key puts => ?_, fun j v there => ?_,
    fun j v there removing => ?_, ?_, sound.gc⟩
  · rw [effect.records] at there
    obtain ⟨member, file⟩ := sound.records key v there
    refine ⟨member, (files key member file).resolve_right ?_⟩
    rintro ⟨removing, rfl⟩
    rw [(sound.removing i w found removing).1] at there
    cases there
  · obtain ⟨member', file⟩ := sound.log p member key puts
    refine ⟨member', (files key member' file).resolve_right ?_⟩
    rintro ⟨removing, rfl⟩
    exact (sound.removing i w found removing).2 p member puts
  · rcases update_cases there with ⟨-, rfl⟩ | ⟨same, there⟩
    · rw [effect.key]
      exact ⟨within, effect.sound⟩
    · obtain ⟨member, ok⟩ := sound.works j v there
      refine ⟨member, ok.mono fun file => (files _ member file).resolve_right ?_⟩
      rintro ⟨-, key⟩
      exact same (sound.ordered.alone j i v w there found key)
  · rcases update_cases there with ⟨-, rfl⟩ | ⟨-, there⟩
    · rw [effect.settled] at removing
      cases removing
    · rw [effect.records]
      exact sound.removing j v there removing
  · exact sound.ordered.of_same (SameWorks.update found effect.key effect.kind)

/-- A record proposed by a request in progress is not the object of a delete in progress. -/
theorem Serving.Sound.not_puts (sound : sys.Sound s keys) {i j : Nat} {w v : Work}
    {command : Command} (found : sys.works i = some w) (waits : w.command = some command)
    (there : sys.works j = some v) (deletes : v.deletes.isSome = true) :
    ¬ Puts command v.storageKey := by
  rintro ⟨metadata, rfl, key⟩
  rcases (sound.works i w found).2.command waits with ⟨m, same, kind, own, -⟩ | ⟨b, k, same, -⟩
  · cases same
    have := sound.ordered.alone i j w v found there (own.symm.trans key)
    subst this
    rw [found] at there
    cases there
    rw [kind] at deletes
    cases deletes
  · cases same

theorem Serving.Sound.propose (sound : sys.Sound s keys) {i : Nat} {w : Work} {command : Command}
    (found : sys.works i = some w) (waits : w.command = some command) :
    Serving.Sound s keys { sys with log := sys.log ++ [⟨some i, command⟩] } := by
  obtain ⟨within, here⟩ := sound.works i w found
  refine { sound with log := ?_, removing := ?_, ordered := ?_ }
  · intro p member key puts
    rcases List.mem_append.1 member with member | member
    · exact sound.log p member key puts
    · cases List.mem_singleton.1 member
      obtain ⟨metadata, rfl, rfl⟩ := puts
      rcases here.command waits with ⟨m, same, -, own, file⟩ | ⟨b, k, same, -⟩
      · cases same
        rw [own]
        exact ⟨within, file⟩
      · cases same
  · intro j v there removing
    obtain ⟨absent, quiet⟩ := sound.removing j v there removing
    refine ⟨absent, fun p member => ?_⟩
    rcases List.mem_append.1 member with member | member
    · exact quiet p member
    · cases List.mem_singleton.1 member
      exact sound.not_puts found waits there (Work.deletes_of_removing removing)
  · refine sound.ordered.append ?_ fun j v there deletes => sound.not_puts found waits there deletes
    rintro j ⟨rfl⟩
    refine ⟨sound.ordered.numbered i w found, fun v there bucket key deletes => ?_⟩
    rw [found] at there
    cases there
    rcases here.command waits with ⟨m, -, kind, -⟩ | ⟨b, k, rfl, kind⟩
    · rw [kind] at deletes
      cases deletes
    · rw [kind] at deletes
      cases deletes
      rfl

omit [Sha256] in
theorem Work.removing_of_acknowledged {w : Work} (removing : w.acknowledged.removing = true) :
    w.removing = true ∨ ∃ bucket key, w.deletes = some (bucket, key) ∧
      w.storageKey = Api.storageKey bucket key := by
  cases w with
  | put r stage => cases stage <;> cases removing
  | complete r stage => cases stage <;> cases removing
  | delete bucket key stage => exact .inr ⟨bucket, key, rfl, rfl⟩

theorem Serving.Sound.submit (sound : sys.Sound s keys) {command : Command}
    (other : isObjectCommand command = false) :
    Serving.Sound s keys { sys with log := sys.log ++ [⟨none, command⟩] } := by
  have no_put : ∀ key, ¬ Puts command key := by
    rintro key ⟨metadata, rfl, -⟩
    cases other
  refine { sound with log := ?_, removing := ?_, ordered := ?_ }
  · intro p member key puts
    rcases List.mem_append.1 member with member | member
    · exact sound.log p member key puts
    · cases List.mem_singleton.1 member
      exact absurd puts (no_put key)
  · intro i w there removing
    obtain ⟨absent, silent⟩ := sound.removing i w there removing
    refine ⟨absent, fun p member => ?_⟩
    rcases List.mem_append.1 member with member | member
    · exact silent p member
    · cases List.mem_singleton.1 member
      exact no_put _
  · exact sound.ordered.append nofun fun _ _ _ _ => no_put _

/-- The first command applied, a delete that is removing its file still has no record. -/
theorem Serving.Sound.quiet (sound : sys.Sound s keys) {now : DateTime} {p : Proposal}
    {log : List Proposal} {ws : List (Write Value)} (first : sys.log = p :: log)
    (call : applyCommand now sys.node.db p.command = .ok ws) {j : Nat} {w : Work}
    (there : sys.works j = some w) (removing : w.removing = true) :
    (applyAll sys.node.db ws).get (recordKey w.storageKey) = none ∧
      ∀ q ∈ log, ¬ Puts q.command w.storageKey := by
  obtain ⟨absent, silent⟩ := sound.removing j w there removing
  rw [first, List.forall_mem_cons] at silent
  refine ⟨?_, silent.2⟩
  cases after : (applyAll sys.node.db ws).get (recordKey w.storageKey) with
  | none => rfl
  | some v =>
    rcases puts_of_apply call after with puts | before
    · exact absurd puts silent.1
    · rw [absent] at before
      cases before

theorem Serving.Sound.apply (sound : sys.Sound s keys) {now : DateTime} {p : Proposal}
    {log : List Proposal} {ws : List (Write Value)} (first : sys.log = p :: log)
    (call : applyCommand now sys.node.db p.command = .ok ws) :
    Serving.Sound s keys { sys with
      node := { sys.node with db := applyAll sys.node.db ws }
      log
      works := acknowledge sys.works p.owner } := by
  have later : ∀ q ∈ log, q ∈ sys.log := fun q member => by
    rw [first]
    exact List.mem_cons_of_mem _ member
  have here : p ∈ sys.log := by
    rw [first]
    exact List.mem_cons_self
  have order := sound.ordered.order
  rw [first, List.pairwise_cons] at order
  refine ⟨sound.ids.of_kept fun k u there => upload_of_apply call there, fun key v there => ?_,
    fun q member => sound.log q (later q member), fun j v there => ?_,
    fun j v there removing => ?_, ?_, sound.gc⟩
  · rcases puts_of_apply call there with puts | before
    · exact sound.log p here key puts
    · exact sound.records key v before
  · rcases acknowledge_cases there with there | ⟨-, w, found, rfl⟩
    · exact sound.works j v there
    · obtain ⟨within, ok⟩ := sound.works j w found
      rw [w.acknowledged_key]
      exact ⟨within, ok.acknowledged⟩
  · rcases acknowledge_cases there with there | ⟨owner, w, found, rfl⟩
    · exact sound.quiet first call there removing
    · rw [w.acknowledged_key]
      rcases Work.removing_of_acknowledged removing with before | ⟨bucket, key, deletes, own⟩
      · exact sound.quiet first call found before
      · -- its own delete has just been applied: no record, and none proposed behind it
        have command := (sound.ordered.owned p here j owner).2 w found bucket key deletes
        rw [command] at call
        refine ⟨?_, fun q member => order.1 q member j w owner found (by rw [deletes]; rfl)⟩
        rw [own]
        exact no_record_of_apply call
  · have rest : log.Sublist sys.log := by
      rw [first]
      exact List.sublist_cons_self p log
    exact (sound.ordered.sublist rest).of_same (SameWorks.acknowledge sys.works p.owner)

/-- Ending or dropping requests, losing commands, and operations that leave every object's
file and every record. -/
theorem Serving.Sound.frame (sound : sys.Sound s keys) {node' : Node}
    {works' : Nat → Option Work} {log' : List Proposal} {gc' : GcStage}
    (db : node'.db = sys.node.db)
    (files : ∀ key, sys.node.fs.HasFile (s.pathOf key) → node'.fs.HasFile (s.pathOf key))
    (works : ∀ i w, works' i = some w → sys.works i = some w) (log : log'.Sublist sys.log)
    (gc : ∀ active files, gc' = .removing active files → ∀ f ∈ files, tempDir s <+: f.1) :
    Serving.Sound s keys { sys with node := node', works := works', log := log', gc := gc' } := by
  refine ⟨?_, fun key v there => ?_, fun p member key puts => ?_, fun i w there => ?_,
    fun i w there removing => ?_, ?_, gc⟩
  · show ServerIds s.basePath node'.db
    rw [db]
    exact sound.ids
  · have before : sys.node.db.get (recordKey key) = some v := by rw [← db]; exact there
    obtain ⟨within, file⟩ := sound.records key v before
    exact ⟨within, files key file⟩
  · obtain ⟨within, file⟩ := sound.log p (log.subset member) key puts
    exact ⟨within, files key file⟩
  · obtain ⟨within, ok⟩ := sound.works i w (works i w there)
    exact ⟨within, ok.mono (files w.storageKey)⟩
  · obtain ⟨absent, silent⟩ := sound.removing i w (works i w there) removing
    refine ⟨?_, fun p member => silent p (log.subset member)⟩
    show node'.db.get (recordKey w.storageKey) = none
    rw [db, absent]
  · exact (sound.ordered.sublist log).of_same fun i w there => ⟨w, works i w there, rfl, rfl⟩

/-- A file below the temp directory is no object's. -/
theorem pathOf_ne_of_temp {p : Path} (inside : tempDir s <+: p) (key : String) : s.pathOf key ≠ p := by
  have temp : Plain "temp" := by decide
  rintro rfl
  rw [tempDir, join_plain _ temp, pathOf_eq, List.prefix_append_right_inj] at inside
  simp at inside

theorem gc_frame {node node' : Node} {stage stage' : GcStage} {event : GcEvent}
    (inside : ∀ active files, stage = .removing active files → ∀ f ∈ files, tempDir s <+: f.1)
    (step : gcStep s age (node, stage) event = some (node', stage')) :
    node'.db = node.db ∧
      (∀ key, node.fs.HasFile (s.pathOf key) → node'.fs.HasFile (s.pathOf key)) ∧
      ∀ active files, stage' = .removing active files → ∀ f ∈ files, tempDir s <+: f.1 := by
  cases gcStep_cases step with
  | begin found =>
    refine ⟨rfl, fun _ there => there, ?_⟩
    rintro active' files' ⟨⟩
  | list active below =>
    refine ⟨rfl, fun _ there => there, ?_⟩
    rintro active' files' ⟨rfl, rfl⟩
    exact below
  | keep active file files =>
    refine ⟨rfl, fun _ there => there, ?_⟩
    rintro active' files' ⟨rfl, rfl⟩ f member
    exact inside active (file :: files) rfl f (List.mem_cons_of_mem _ member)
  | remove active file files =>
    have apart := pathOf_ne_of_temp (inside active (file :: files) rfl file List.mem_cons_self)
    refine ⟨rfl, fun key there => node.fs.hasFile_unlink (apart key) there, ?_⟩
    rintro active' files' ⟨rfl, rfl⟩ f member
    exact inside active (file :: files) rfl f (List.mem_cons_of_mem _ member)
  | finish active =>
    refine ⟨rfl, fun _ there => there, ?_⟩
    rintro active' files' ⟨⟩

/-- A request stops: its guards leave every object's file, and it is gone. -/
theorem Serving.Sound.stop (sound : sys.Sound s keys) {i : Nat} {w : Work}
    (found : sys.works i = some w) :
    Serving.Sound s keys { sys with
      node := w.dropped s sys.node
      works := Function.update sys.works i none } := by
  have ok := (sound.works i w found).2
  refine sound.frame (w.dropped_db s sys.node) (fun _ there => ok.dropped there)
    (fun j v there => ?_) (List.Sublist.refl _) sound.gc
  by_cases same : j = i
  · subst same
    rw [Function.update_self] at there
    cases there
  · rw [Function.update_of_ne same] at there
    exact there

/-- The keys of requests are among those in use. -/
def Within (keys : Set String) : NodeEvent → Prop
  | .start request => request.work.storageKey ∈ keys
  | _ => True

theorem Serving.Sound.step (distinct : Distinct keys) (sound : sys.Sound s keys) {event : NodeEvent}
    (within : Within keys event) (step : sys.step s age event = some sys') : sys'.Sound s keys := by
  cases event with
  | start request =>
    simp only [Serving.step] at step
    split at step
    · rename_i checks
      cases step
      simp only [Bool.and_eq_true] at checks
      exact sound.start within checks.2
    · cases step
  | advance i n =>
    obtain ⟨w, found, step⟩ := Option.bind_eq_some_iff.1 step
    obtain ⟨next, advanced, same⟩ := Option.bind_eq_some_iff.1 step
    cases same
    exact sound.advance distinct found advanced
  | propose i =>
    obtain ⟨w, found, step⟩ := Option.bind_eq_some_iff.1 step
    obtain ⟨command, waits, same⟩ := Option.bind_eq_some_iff.1 step
    cases same
    exact sound.propose found waits
  | submit command =>
    simp only [Serving.step] at step
    split at step
    · cases step
    · rename_i other
      cases step
      exact sound.submit (by simpa using other)
  | apply now =>
    simp only [Serving.step] at step
    split at step
    · cases step
    · rename_i p log first
      split at step
      · cases step
      · rename_i ws call
        cases step
        exact sound.apply first call
  | lose j =>
    cases step
    exact sound.frame rfl (fun _ there => there) (fun _ _ there => there)
      (List.eraseIdx_sublist _ _) sound.gc
  | stop i =>
    obtain ⟨w, found, same⟩ := Option.bind_eq_some_iff.1 step
    cases same
    exact sound.stop found
  | crash =>
    cases step
    exact sound.frame rfl (fun _ there => there) nofun (List.Sublist.refl _) nofun
  | gc event =>
    obtain ⟨next, taken, same⟩ := Option.map_eq_some_iff.1 step
    cases same
    obtain ⟨db, files, gc⟩ := gc_frame sound.gc taken
    exact sound.frame db files (fun _ _ there => there) (List.Sublist.refl _) gc

end Steps

/-- Every object record has a file. -/
def NoPhantoms (s : ObjectStorage) (node : Node) : Prop :=
  ∀ key v, node.db.get (recordKey key) = some v →
    ∃ bytes, node.fs.read (s.pathOf key) = some bytes

theorem Serving.idle_sound {keys : Set String} {node : Node} (ids : ServerIds s.basePath node.db)
    (files : ∀ key v, node.db.get (recordKey key) = some v →
      key ∈ keys ∧ node.fs.HasFile (s.pathOf key)) : (Serving.idle node).Sound s keys where
  ids := ids
  records := files
  log p member := by cases member
  works i w there := by cases there
  removing i w there := by cases there
  ordered := {
    numbered := fun i w there => by cases there
    alone := fun i j w w' there => by cases there
    owned := fun p member => by cases member
    order := List.Pairwise.nil }
  gc active files same := by cases same

/-- **No phantom objects.** Whatever the requests, their interleaving, their failures and
the crashes, every object record of the node has a file. -/
theorem no_phantom_objects (s : ObjectStorage) (tempFileMaxAge : Nat) (keys : Set String)
    (distinct : Distinct keys) (node : Node) (ids : ServerIds s.basePath node.db)
    (known : ∀ key v, node.db.get (recordKey key) = some v → key ∈ keys)
    (start : NoPhantoms s node) (events : List NodeEvent) (within : ∀ e ∈ events, Within keys e)
    {sys : Serving}
    (ran : exec (Serving.step s tempFileMaxAge) (Serving.idle node) events = some sys) :
    NoPhantoms s sys.node := by
  have files : ∀ key v, node.db.get (recordKey key) = some v →
      key ∈ keys ∧ node.fs.HasFile (s.pathOf key) :=
    fun key v there => ⟨known key v there, Fs.hasFile_iff_read.2 (start key v there)⟩
  have initial : (Serving.idle node).Sound s keys := Serving.idle_sound ids files
  have sound : sys.Sound s keys :=
    exec_invariant (fun _ _ _ sound here step => Serving.Sound.step distinct sound here step) initial
      (along_of_mem (fun e member _ => within e member) _) ran
  intro key v there
  exact Fs.hasFile_iff_read.1 (sound.records key v there).2

/-- A write of `abc/k` whose record is applied, and a crash during a write of `abc/l`. -/
def sampleEvents : List NodeEvent :=
  .start (.put ⟨"abc", "k", [1], true, 9⟩) :: List.replicate 9 (.advance 0 0) ++
    [.propose 0, .start (.put ⟨"abc", "l", [2], true, 9⟩), .advance 1 0, .apply 10, .crash]

omit [Sha256] in
theorem no_phantom_objects_sample :
    letI : Sha256 := Sha256.sampled
    ∃ sys, exec (Serving.step sampleStorage 3600) (Serving.idle ⟨Store.empty, Fs.empty⟩)
        sampleEvents = some sys ∧
      (sys.node.db.get (recordKey "abc/k")).isSome = true ∧ NoPhantoms sampleStorage sys.node := by
  let _ : Sha256 := Sha256.sampled
  have seen : (exec (Serving.step sampleStorage 3600) (Serving.idle ⟨Store.empty, Fs.empty⟩)
      sampleEvents).map (fun sys => (sys.node.db.get (recordKey "abc/k")).isSome) = some true := by
    decide +kernel
  obtain ⟨sys, ran, recorded⟩ := Option.map_eq_some_iff.1 seen
  have distinct : Distinct {"abc/k", "abc/l"} := by
    intro a ha b hb same
    rcases ha with rfl | rfl <;> rcases hb with rfl | rfl
    · rfl
    · exact absurd same (by decide +kernel)
    · exact absurd same (by decide +kernel)
    · rfl
  have ids : ServerIds sampleStorage.basePath (Store.empty : Store Value) := by
    constructor <;> intro k u there <;> simp at there
  refine ⟨sys, ran, recorded, no_phantom_objects sampleStorage 3600 {"abc/k", "abc/l"} distinct
    ⟨Store.empty, Fs.empty⟩ ids ?_ ?_ sampleEvents ?_ ran⟩
  · intro key v there
    simp at there
  · intro key v there
    simp at there
  · intro e member
    simp only [sampleEvents, List.cons_append, List.mem_cons, List.mem_append, List.mem_replicate,
      List.not_mem_nil, or_false] at member
    rcases member with rfl | ⟨-, rfl⟩ | rfl | rfl | rfl | rfl | rfl
    · exact .inl rfl
    · trivial
    · trivial
    · exact .inr rfl
    · trivial
    · trivial
    · trivial

end Save.Api
