import Save.Metadata.Uploads
import Save.Api.NoPhantoms

/-!
# Multipart handlers and the collector on one node

`initiate_multipart`, `upload_part`, `complete_multipart`, `abort_multipart` and
`run_gc_cycle` (`handlers/multipart`, `gc.rs`) over the database and the files of
one node, as a machine in which any number of requests are in progress and a request
may stop at any point. An upload is known to the handlers by the key of its record,
a joined string, and to the file system by its id alone: `part_path` names a
directory after the id that the request brings. `MultipartTask.advance_keeps` says
once what an operation does with the upload records.
-/

namespace Save.Api
set_option autoImplicit false
open Save.Text Save.Kv Save.Common Save.Metadata Save.Files Save.Storage Save.Run

variable [Sha256]

/-! ## `upload_part` -/

structure PartRequest where
  bucket : String
  key : String
  uploadId : String
  partNumber : Nat
  body : Bytes

def PartRequest.name (r : PartRequest) : UploadName := ⟨r.bucket, r.key, r.uploadId⟩

inductive PartStage where
  | looking
  | creating
  /-- Receiving into the open file `ino`: `acc` is hashed and written. -/
  | receiving (ino : Nat) (acc : Bytes)
  /-- The body has ended and the file is flushed. -/
  | recording (acc : Bytes)
  /-- Answered, with the etag. -/
  | done (etag : String)
  deriving DecidableEq, Repr

def maxPartSize : Nat := 5 * 1024 * 1024 * 1024

/-- The buffer of one read of the body. -/
def partBufferSize : Nat := 8192

/-- The checks `upload_part` makes before it looks the upload up. -/
def PartRequest.Valid (r : PartRequest) : Prop :=
  ValidBucket r.bucket ∧ ValidKey r.key ∧ 1 ≤ r.partNumber ∧ r.partNumber ≤ 10000

instance (r : PartRequest) : Decidable r.Valid :=
  inferInstanceAs (Decidable (_ ∧ _ ∧ _ ∧ _))

/-- The next operation of `upload_part`, when it succeeds; `n + 1` bounds the bytes of one read. -/
def uploadPartStep (s : ObjectStorage) (r : PartRequest) :
    Node × PartStage → Nat → Option (Node × PartStage)
  | (node, .looking), _ =>
    if r.Valid then
      match getMultipartUpload node.db r.bucket r.key r.uploadId with
      | .error _ => none
      | .ok _ => some (node, .creating)
    else none
  | (node, .creating), _ =>
    let opened := node.fs.create (partPath s.basePath r.uploadId r.partNumber)
    some ({ node with fs := opened.2 }, .receiving opened.1 [])
  | (node, .receiving ino acc), n =>
    let chunk := (r.body.drop acc.length).take (min (n + 1) partBufferSize)
    if chunk = [] then some (node, .recording acc)
    else if acc.length + chunk.length > maxPartSize then none
    else some ({ node with fs := node.fs.write ino acc.length chunk }, .receiving ino (acc ++ chunk))
  | (node, .recording acc), _ =>
    match recordPart node.db r.bucket r.key r.uploadId r.partNumber (Sha256.digest acc) acc.length with
    | .error _ => none
    | .ok ws => some ({ node with db := applyAll node.db ws }, .done (Sha256.digest acc))
  | (_, .done _), _ => none

/-- The operations of `upload_part`, with what each has found. -/
inductive UploadsPart (s : ObjectStorage) (r : PartRequest) (n : Nat) (node : Node) :
    PartStage → Node → PartStage → Prop where
  | look {upload : MultipartUpload} (valid : r.Valid)
      (found : getMultipartUpload node.db r.bucket r.key r.uploadId = .ok upload) :
      UploadsPart s r n node .looking node .creating
  | create :
      UploadsPart s r n node .creating
        { node with fs := (node.fs.create (partPath s.basePath r.uploadId r.partNumber)).2 }
        (.receiving (node.fs.create (partPath s.basePath r.uploadId r.partNumber)).1 [])
  | receive (ino : Nat) (acc : Bytes) {chunk : Bytes}
      (bytes : chunk = (r.body.drop acc.length).take (min (n + 1) partBufferSize)) :
      UploadsPart s r n node (.receiving ino acc)
        { node with fs := node.fs.write ino acc.length chunk } (.receiving ino (acc ++ chunk))
  | ended (ino : Nat) {acc : Bytes} (all : r.body.drop acc.length = []) :
      UploadsPart s r n node (.receiving ino acc) node (.recording acc)
  | record {acc : Bytes} {ws : List (Write Value)}
      (call : recordPart node.db r.bucket r.key r.uploadId r.partNumber (Sha256.digest acc)
        acc.length = .ok ws) :
      UploadsPart s r n node (.recording acc) { node with db := applyAll node.db ws }
        (.done (Sha256.digest acc))

theorem uploadPartStep_cases {s : ObjectStorage} {r : PartRequest} {node node' : Node}
    {stage stage' : PartStage} {n : Nat}
    (step : uploadPartStep s r (node, stage) n = some (node', stage')) :
    UploadsPart s r n node stage node' stage' := by
  cases stage with
  | looking =>
    simp only [uploadPartStep] at step
    split at step
    · rename_i valid
      split at step
      · cases step
      · rename_i upload found
        cases step
        exact .look valid found
    · cases step
  | creating =>
    cases step
    exact .create
  | receiving ino acc =>
    simp only [uploadPartStep] at step
    split at step
    · rename_i empty
      cases step
      have room : min (n + 1) partBufferSize ≠ 0 := by
        have : 0 < partBufferSize := by decide
        omega
      exact .ended ino ((List.take_eq_nil_iff.1 empty).resolve_left room)
    · split at step
      · cases step
      · cases step
        exact .receive ino acc rfl
  | recording acc =>
    simp only [uploadPartStep] at step
    split at step
    · cases step
    · rename_i ws call
      cases step
      exact .record call
  | done etag => cases step

/-- What a call has received is of the body, and so is the etag it returns. -/
def PartStage.Received (body : Bytes) : PartStage → Prop
  | .receiving _ acc => acc <+: body
  | .recording acc => acc = body
  | .done etag => etag = Sha256.digest body
  | _ => True

omit [Sha256] in
/-- What has been read is the start of the body, and what is read next follows it. -/
theorem prefix_receive {body acc : Bytes} (start : acc <+: body) (m : Nat) :
    acc ++ (body.drop acc.length).take m <+: body := by
  obtain ⟨rest, rfl⟩ := start
  rw [List.drop_left]
  exact (List.prefix_append_right_inj acc).2 (List.take_prefix m rest)

theorem UploadsPart.received {s : ObjectStorage} {r : PartRequest} {n : Nat} {node node' : Node}
    {stage stage' : PartStage} (step : UploadsPart s r n node stage node' stage')
    (received : stage.Received r.body) : stage'.Received r.body := by
  cases step with
  | look => trivial
  | create => exact List.nil_prefix
  | @receive ino acc chunk bytes =>
    rw [bytes]
    exact prefix_receive received _
  | @ended ino acc all =>
    obtain ⟨rest, whole⟩ := received
    rw [← whole, List.drop_left] at all
    show acc = r.body
    rw [← whole, all, List.append_nil]
  | @record acc ws call =>
    obtain rfl : acc = r.body := received
    rfl

/-! ## `abort_multipart` -/

inductive AbortStage where
  | looking
  | aborting (upload : MultipartUpload)
  /-- The records are gone; the files of these parts are still to be removed. -/
  | removing (todo : List Nat)
  | done

/-- The next operation of `abort_multipart`; `removed` says whether a removal succeeds, which
the handler does not insist on. -/
def abortStep (s : ObjectStorage) (w : UploadName) (removed : Bool) :
    Node × AbortStage → Option (Node × AbortStage)
  | (node, .looking) =>
    if ValidBucket w.bucket ∧ ValidKey w.key then
      match getMultipartUpload node.db w.bucket w.key w.uploadId with
      | .error _ => none
      | .ok upload => some (node, .aborting upload)
    else none
  | (node, .aborting upload) =>
    match abortMultipartUpload node.db w.bucket w.key w.uploadId with
    | .error _ => none
    | .ok ws => some ({ node with db := applyAll node.db ws }, .removing upload.parts.keys)
  | (node, .removing (part :: todo)) =>
    some ({ node with fs :=
      bif removed then node.fs.unlink (partPath s.basePath w.uploadId part) else node.fs },
      .removing todo)
  | (node, .removing []) => some (node, .done)
  | (_, .done) => none

/-- The operations of `abort_multipart`, with what each has found. -/
inductive Aborts (s : ObjectStorage) (w : UploadName) (removed : Bool) (node : Node) :
    AbortStage → Node → AbortStage → Prop where
  | look {upload : MultipartUpload}
      (found : getMultipartUpload node.db w.bucket w.key w.uploadId = .ok upload) :
      Aborts s w removed node .looking node (.aborting upload)
  | abort (upload : MultipartUpload) {ws : List (Write Value)}
      (call : abortMultipartUpload node.db w.bucket w.key w.uploadId = .ok ws) :
      Aborts s w removed node (.aborting upload) { node with db := applyAll node.db ws }
        (.removing upload.parts.keys)
  | remove (part : Nat) (todo : List Nat) :
      Aborts s w removed node (.removing (part :: todo))
        { node with fs :=
          bif removed then node.fs.unlink (partPath s.basePath w.uploadId part) else node.fs }
        (.removing todo)
  | finish : Aborts s w removed node (.removing []) node .done

omit [Sha256] in
theorem abortStep_cases {s : ObjectStorage} {w : UploadName} {removed : Bool} {node node' : Node}
    {stage stage' : AbortStage} (step : abortStep s w removed (node, stage) = some (node', stage')) :
    Aborts s w removed node stage node' stage' := by
  cases stage with
  | looking =>
    simp only [abortStep] at step
    split at step
    · split at step
      · cases step
      · rename_i upload found
        cases step
        exact .look found
    · cases step
  | aborting upload =>
    simp only [abortStep] at step
    split at step
    · cases step
    · rename_i ws call
      cases step
      exact .abort upload call
  | removing todo =>
    cases todo with
    | nil =>
      cases step
      exact .finish
    | cons part todo =>
      cases step
      exact .remove part todo
  | done => cases step

/-! ## The node -/

/-- A request in progress. -/
inductive MultipartTask where
  | part (r : PartRequest) (stage : PartStage)
  | complete (r : CompleteRequest) (stage : CompleteStage)
  | abort (w : UploadName) (stage : AbortStage)

/-- A request as a client sends it. -/
inductive MultipartRequest where
  | part (r : PartRequest)
  | complete (r : CompleteRequest)
  | abort (w : UploadName)

def MultipartRequest.task : MultipartRequest → MultipartTask
  | .part r => .part r .looking
  | .complete r => .complete r .locking
  | .abort w => .abort w .looking

/-- The checks that are made before the first operation. -/
def MultipartRequest.valid : MultipartRequest → Bool
  | .complete r => decide (ValidBucket r.bucket) && decide (ValidKey r.key)
  | _ => true

/-- The next operation; `n` bounds a read or a write, and 0 is a removal that fails. -/
def MultipartTask.advance (s : ObjectStorage) (node : Node) (n : Nat) :
    MultipartTask → Option (Node × MultipartTask)
  | .part r stage => (uploadPartStep s r (node, stage) n).map fun next => (next.1, .part r next.2)
  | .complete r stage => (completeStep s r (node, stage) n).map fun next => (next.1, .complete r next.2)
  | .abort w stage =>
    (abortStep s w (n != 0) (node, stage)).map fun next => (next.1, .abort w next.2)

/-- What is left when the request stops here. -/
def MultipartTask.dropped (s : ObjectStorage) (node : Node) : MultipartTask → Node
  | .complete r stage => stage.dropped s r node
  | _ => node

/-- The upload whose records the next operation deletes. -/
def MultipartTask.ends : MultipartTask → Option UploadName
  | .complete r .aborting => some ⟨r.bucket, r.key, r.uploadId⟩
  | .abort w (.aborting _) => some w
  | _ => none

structure MultipartNode where
  node : Node
  tasks : List MultipartTask
  gc : GcStage
  /-- The uploads that were initiated. -/
  issued : List UploadName
  /-- Those of them that are neither completed nor aborted. -/
  live : List UploadName
  /-- The uploads that were initiated before the collector's cycle started. -/
  seen : List UploadName

/-- A node that has just started. -/
def MultipartNode.start (node : Node) : MultipartNode := ⟨node, [], .idle, [], [], []⟩

inductive MultipartEvent where
  /-- `initiate_multipart`, with the id it has drawn. -/
  | initiate (now : DateTime) (w : UploadName) (contentType : Option String) (cached : Bool)
  | request (r : MultipartRequest)
  | advance (i n : Nat)
  /-- A request fails, is dropped, or is over. -/
  | stop (i : Nat)
  | gc (event : GcEvent)

instance (id : String) : Decidable (IsUuid id) :=
  decidable_of_iff (id.toList.length = 36 ∧ id.toList.all (fun c => hexChar c || c == '-') = true ∧
    id.toList.contains '-' = true) (by simp [IsUuid])

/-- `initiate_multipart`: the writes of an upload with an id that is new. -/
def MultipartNode.initiateWrites (sys : MultipartNode) (now : DateTime) (w : UploadName)
    (contentType : Option String) (cached : Bool) : Option (List (Write Value)) :=
  if ValidBucket w.bucket ∧ ValidKey w.key ∧ (cached || (getBucket sys.node.db w.bucket).toBool) = true ∧
      IsUuid w.uploadId ∧ w.uploadId ∉ sys.issued.map UploadName.uploadId then
    match initiateMultipartUpload now w.bucket w.key w.uploadId contentType with
    | .error _ => none
    | .ok (_, ws) => some ws
  else none

def MultipartNode.step (s : ObjectStorage) (tempFileMaxAge : Nat) (sys : MultipartNode) :
    MultipartEvent → Option MultipartNode
  | .initiate now w contentType cached => do
    let ws ← sys.initiateWrites now w contentType cached
    return { sys with
      node := { sys.node with db := applyAll sys.node.db ws }
      issued := w :: sys.issued
      live := w :: sys.live }
  | .request r => if r.valid then some { sys with tasks := sys.tasks ++ [r.task] } else none
  | .advance i n => do
    let task ← sys.tasks[i]?
    let next ← task.advance s sys.node n
    return { sys with
      node := next.1
      tasks := sys.tasks.set i next.2
      live := sys.live.filter fun w => some w != task.ends }
  | .stop i => do
    let task ← sys.tasks[i]?
    return { sys with node := task.dropped s sys.node, tasks := sys.tasks.eraseIdx i }
  | .gc event => do
    let next ← gcStep s tempFileMaxAge (sys.node, sys.gc) event
    return { sys with
      node := next.1
      gc := next.2
      seen := if sys.gc = .idle then sys.issued else sys.seen }


/-- The steps of the node, with what each has found. -/
inductive MultipartNode.Steps (s : ObjectStorage) (age : Nat) (sys : MultipartNode) :
    MultipartEvent → MultipartNode → Prop where
  | initiate {now : DateTime} {w : UploadName} {contentType : Option String} {cached : Bool}
      (valid : w.Valid) (uuid : IsUuid w.uploadId) (fresh : ∀ v ∈ sys.issued, v.uploadId ≠ w.uploadId) :
      Steps s age sys (.initiate now w contentType cached)
        { sys with
          node := ⟨sys.node.db.put w.dbKey (.upload ⟨w.uploadId, w.bucket, w.key, now, contentType⟩),
            sys.node.fs⟩
          issued := w :: sys.issued
          live := w :: sys.live }
  | request (r : MultipartRequest) :
      Steps s age sys (.request r) { sys with tasks := sys.tasks ++ [r.task] }
  | advance {i n : Nat} {task task' : MultipartTask} {node : Node} (at_i : sys.tasks[i]? = some task)
      (step : task.advance s sys.node n = some (node, task')) :
      Steps s age sys (.advance i n)
        { sys with
          node
          tasks := sys.tasks.set i task'
          live := sys.live.filter fun w => some w != task.ends }
  | stop {i : Nat} {task : MultipartTask} (at_i : sys.tasks[i]? = some task) :
      Steps s age sys (.stop i)
        { sys with node := task.dropped s sys.node, tasks := sys.tasks.eraseIdx i }
  | gc {event : GcEvent} {node : Node} {stage : GcStage}
      (step : gcStep s age (sys.node, sys.gc) event = some (node, stage)) :
      Steps s age sys (.gc event)
        { sys with node, gc := stage, seen := if sys.gc = .idle then sys.issued else sys.seen }

theorem MultipartNode.step_cases {s : ObjectStorage} {age : Nat} {sys sys' : MultipartNode}
    {e : MultipartEvent} (step : sys.step s age e = some sys') : sys.Steps s age e sys' := by
  cases e with
  | initiate now w contentType cached =>
    obtain ⟨ws, call, same⟩ := Option.bind_eq_some_iff.1 step
    cases same
    unfold MultipartNode.initiateWrites at call
    split at call
    · rename_i checks
      obtain ⟨bucket, key, -, uuid, fresh⟩ := checks
      split at call
      · cases call
      · rename_i upload ws' made
        cases call
        obtain ⟨-, -, made⟩ := bind_ok made
        obtain ⟨⟨⟩, checked, made⟩ := bind_ok made
        cases made
        exact .initiate ⟨bucket, key, checked⟩ uuid fun v member same =>
          fresh (List.mem_map.2 ⟨v, member, same⟩)
    · cases call
  | request r =>
    simp only [MultipartNode.step] at step
    split at step
    · cases step
      exact .request r
    · cases step
  | advance i n =>
    obtain ⟨task, at_i, step⟩ := Option.bind_eq_some_iff.1 step
    obtain ⟨⟨node, task'⟩, made, same⟩ := Option.bind_eq_some_iff.1 step
    cases same
    exact .advance at_i made
  | stop i =>
    obtain ⟨task, at_i, same⟩ := Option.bind_eq_some_iff.1 step
    cases same
    exact .stop at_i
  | gc event =>
    obtain ⟨⟨node, stage⟩, made, same⟩ := Option.bind_eq_some_iff.1 step
    cases same
    exact .gc made

/-! ## What a step does with the upload records -/

section Uploads
omit [Sha256]

variable {db : Store Value} {ws : List (Write Value)}

/-- An operation of a request that is to end the upload `ends` leaves the upload records of `db` in
`db'`, except for those it deletes and those it overwrites with the record of a part. -/
structure KeepsUploads (ends : Option UploadName) (db db' : Store Value) : Prop where
  old : ∀ k u, db'.get k = some (.upload u) → db.get k = some (.upload u)
  kept : ∀ k u, startsWith k multipartPrefix = true → db.get k = some (.upload u) →
    db'.get k = some (.upload u) ∨ (∃ v, ends = some v ∧ v.Claims k) ∨ ∃ v n, k = UploadName.partKey v n

theorem KeepsUploads.refl (ends : Option UploadName) (db : Store Value) : KeepsUploads ends db db :=
  ⟨fun _ _ there => there, fun _ _ _ there => .inl there⟩

/-- The record of a part. -/
theorem recordPart_keeps {w : UploadName} {n size : Nat} {etag : String}
    (call : recordPart db w.bucket w.key w.uploadId n etag size = .ok ws) (ends : Option UploadName) :
    KeepsUploads ends db (applyAll db ws) := by
  obtain rfl := recordPart_eq call
  refine ⟨fun k u there => ?_, fun k u _ there => ?_⟩
  · rw [get_applyAll_put] at there
    split at there
    · cases there
    · exact there
  · rw [get_applyAll_put]
    split
    · rename_i same
      exact .inr (.inr ⟨w, n, same.symm⟩)
    · exact .inl there

/-- The record of an object. -/
theorem putObjectMetadata_keeps {metadata : ObjectMetadata} (call : putObjectMetadata metadata = .ok ws)
    (ends : Option UploadName) : KeepsUploads ends db (applyAll db ws) := by
  obtain rfl := putObjectMetadata_eq call
  refine ⟨fun k u there => ?_, fun k u named there => ?_⟩
  · rw [get_applyAll_put] at there
    split at there
    · cases there
    · exact there
  · rw [get_applyAll_put, if_neg]
    · exact .inl there
    · intro same
      exact ne_of_startsWith (by decide) (by decide) named
        (objectDbKey_startsWith metadata.bucket metadata.key) same.symm

/-- The records of an upload that is over. -/
theorem abort_keeps {w : UploadName}
    (call : abortMultipartUpload db w.bucket w.key w.uploadId = .ok ws) :
    KeepsUploads (some w) db (applyAll db ws) := by
  refine ⟨fun k u there => upload_of_abort call there, fun k u _ there => ?_⟩
  by_cases touched : ∃ write ∈ ws, write.key = k
  · obtain ⟨write, member, rfl⟩ := touched
    refine .inr (.inl ⟨w, rfl, ?_⟩)
    rw [abortMultipartUpload_eq call] at member
    rcases List.mem_cons.1 member with rfl | member
    · exact .inl rfl
    · obtain ⟨⟨k, v⟩, scanned, rfl⟩ := List.mem_map.1 member
      exact .inr (mem_scan.1 scanned).2
  · rw [get_applyAll_of_ne fun write member same => touched ⟨write, member, same⟩]
    exact .inl there

end Uploads

/-- What one operation of a request does with the upload records. -/
theorem MultipartTask.advance_keeps {s : ObjectStorage} {node node' : Node} {n : Nat}
    {task task' : MultipartTask} (step : task.advance s node n = some (node', task')) :
    KeepsUploads task.ends node.db node'.db := by
  cases task with
  | part r stage =>
    obtain ⟨⟨_, _⟩, made, same⟩ := Option.map_eq_some_iff.1 step
    cases same
    cases uploadPartStep_cases made with
    | record call => exact recordPart_keeps (w := r.name) call _
    | _ => exact .refl _ _
  | complete r stage =>
    obtain ⟨⟨_, _⟩, made, same⟩ := Option.map_eq_some_iff.1 step
    cases same
    cases completeStep_cases made with
    | write upload call => exact putObjectMetadata_keeps call _
    | abort call => exact abort_keeps (w := ⟨r.bucket, r.key, r.uploadId⟩) call
    | _ => exact .refl _ _
  | abort w stage =>
    obtain ⟨⟨_, _⟩, made, same⟩ := Option.map_eq_some_iff.1 step
    cases same
    cases abortStep_cases made with
    | abort upload call => exact abort_keeps call
    | _ => exact .refl _ _

omit [Sha256] in
theorem Collects.db {s : ObjectStorage} {node node' : Node} {stage stage' : GcStage}
    (step : Collects s node stage node' stage') : node'.db = node.db := by
  cases step <;> rfl

omit [Sha256] in
theorem MultipartTask.dropped_db (s : ObjectStorage) (node : Node) (task : MultipartTask) :
    (task.dropped s node).db = node.db := by
  cases task with
  | complete r stage => cases stage <;> rfl
  | part r stage => rfl
  | abort w stage => rfl

end Save.Api
