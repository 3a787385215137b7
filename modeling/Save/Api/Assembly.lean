import Save.Api.FailedWrites
import Save.Api.PartPaths

/-!
# What a completed upload holds

`upload_part` (`handlers/multipart/upload_part.rs`) truncates the file of its part,
writes the body to it in place and records size and etag at the end;
`complete_multipart` (`complete.rs` beside it) looks the records up once and then
copies the files, of which it checks neither. Any number of calls for one upload and
one completion, interleaved. `Assembly.owner` is the call that was the last to
create the file of a part, if it had the file to itself. `completed_content`: when
at the lookup every recorded part belongs to a call that has been answered, and
until the answer no call creates the file of a part still to be copied or records
one, the object is made of the bodies that were acknowledged.

The invariant goes through the stages of the completion. Before the lookup it is
about the records, each of which belongs to a call that wrote what it recorded;
after it, about the files that are still to be copied, whose owners must not change;
and at the end about the object.
-/

namespace Save.Api
set_option autoImplicit false
open Save.Text Save.Kv Save.Common Save.Metadata Save.Files Save.Storage Save.Run

variable [Sha256]

/-! ## Calls for one upload -/

/-- A call of `upload_part`. -/
structure PartCall where
  partNumber : Nat
  body : Bytes
  /-- Nothing, when the call has failed or was dropped. -/
  stage : Option PartStage

def PartCall.request (w : UploadName) (call : PartCall) : PartRequest :=
  ⟨w.bucket, w.key, w.uploadId, call.partNumber, call.body⟩

/-- The file is created and the part not yet recorded. -/
def PartStage.isOpen : PartStage → Bool
  | .receiving _ _ => true
  | .recording _ => true
  | _ => false

/-- The call has the file of the part open. -/
def PartCall.opens (call : PartCall) (partNumber : Nat) : Bool :=
  call.partNumber == partNumber && call.stage.any PartStage.isOpen

def PartCall.answered (call : PartCall) : Bool :=
  match call.stage with
  | some (.done _) => true
  | _ => false

/-- An acknowledged part: the body that was sent and the etag that was returned. -/
structure Ack where
  body : Bytes
  etag : String

/-- The acknowledged bodies, in the order of the part numbers. -/
def content (acks : Std.ExtTreeMap Nat Ack compare) : Bytes := acks.toList.flatMap fun e => e.2.body

structure Assembly where
  node : Node
  calls : List PartCall
  /-- `complete_multipart`, whose names have passed validation. -/
  stage : CompleteStage
  /-- The last acknowledged call for each part. -/
  acks : Std.ExtTreeMap Nat Ack compare
  /-- The call that was the last to create the file of a part, when no other had it open. -/
  owner : Nat → Option Nat
  /-- The upload as the completion has found it. -/
  found : Option MultipartUpload

def Assembly.start (node : Node) : Assembly := ⟨node, [], .locking, ∅, fun _ => none, none⟩

inductive AssemblyEvent where
  | upload (partNumber : Nat) (body : Bytes)
  /-- The next operation of a call. -/
  | part (i n : Nat)
  /-- A call fails or is dropped. -/
  | stop (i : Nat)
  /-- The next operation of the completion. -/
  | complete (n : Nat)

/-- The acknowledged parts after an operation of the call. -/
def Assembly.acked (sys : Assembly) (call : PartCall) : PartStage → Std.ExtTreeMap Nat Ack compare
  | .done etag => sys.acks.insert call.partNumber ⟨call.body, etag⟩
  | _ => sys.acks

/-- The owners after an operation of the call `i`. -/
def Assembly.owned (sys : Assembly) (i : Nat) (call : PartCall) : PartStage → Nat → Option Nat
  | .creating => Function.update sys.owner call.partNumber
      (if sys.calls.any fun c => c.opens call.partNumber then none else some i)
  | _ => sys.owner

/-- The state after a request for another call. -/
def Assembly.begun (sys : Assembly) (partNumber : Nat) (body : Bytes) : Assembly :=
  { sys with calls := sys.calls ++ [⟨partNumber, body, some .looking⟩] }

/-- The state after an operation of the call `i` at its stage. -/
def Assembly.called (sys : Assembly) (i : Nat) (call : PartCall) (stage : PartStage) (node : Node)
    (next : PartStage) : Assembly :=
  { sys with
    node
    calls := sys.calls.set i { call with stage := some next }
    acks := sys.acked call next
    owner := sys.owned i call stage }

/-- The state after the call `i` has failed or was dropped. -/
def Assembly.stopped (sys : Assembly) (i : Nat) (call : PartCall) : Assembly :=
  { sys with
    calls := sys.calls.set i { call with stage := none }
    owner := fun m => if sys.owner m = some i then none else sys.owner m }

/-- What the completion has found, after an operation that leaves it at the stage. -/
def Assembly.looked (sys : Assembly) : CompleteStage → Option MultipartUpload
  | .creating upload => some upload
  | _ => sys.found

/-- The state after an operation of the completion. -/
def Assembly.completed (sys : Assembly) (node : Node) (stage : CompleteStage) : Assembly :=
  { sys with node, stage, found := sys.looked stage }

def Assembly.step (s : ObjectStorage) (w : UploadName) (now : DateTime) (sys : Assembly) :
    AssemblyEvent → Option Assembly
  | .upload partNumber body => some (sys.begun partNumber body)
  | .part i n => do
    let call ← sys.calls[i]?
    let stage ← call.stage
    let next ← uploadPartStep s (call.request w) (sys.node, stage) n
    return sys.called i call stage next.1 next.2
  | .stop i => do
    let call ← sys.calls[i]?
    if call.answered then none else return sys.stopped i call
  | .complete n => do
    let next ← completeStep s ⟨w.bucket, w.key, w.uploadId, now⟩ (sys.node, sys.stage) n
    return sys.completed next.1 next.2

/-! ## What keeps records and bytes together -/

/-- The part is still to be copied, or being copied. -/
def CompleteStage.needs (s : ObjectStorage) (w : UploadName) (fs : Fs) (m : Nat) :
    CompleteStage → Bool
  | .creating upload => upload.parts.keys.contains m
  | .assembling _ _ _ part todo => todo.contains m ||
      part.any fun reading => fs.inode (partPath s.basePath w.uploadId m) == some reading.1
  | _ => false

/-- The upload is not yet looked up. -/
def CompleteStage.waiting : CompleteStage → Bool
  | .locking => true
  | .looking => true
  | _ => false

/-- The call that was the last to create the file of the part had it to itself and is answered. -/
def Assembly.settled (sys : Assembly) (m : Nat) : Bool :=
  match sys.owner m with
  | none => false
  | some i => sys.calls[i]?.any PartCall.answered

/-- The completion looks settled parts up; until it is done, no call creates the file of a part it
needs and none is acknowledged. -/
def Assembly.undisturbed (s : ObjectStorage) (w : UploadName) (sys : Assembly) : AssemblyEvent → Bool
  | .part i _ =>
    match sys.calls[i]? with
    | none => true
    | some call =>
      match call.stage with
      | some .creating => !sys.stage.needs s w sys.node.fs call.partNumber
      | some (.recording _) => sys.stage.waiting
      | _ => true
  | .complete _ =>
    match sys.stage with
    | .looking => sys.acks.keys.all sys.settled
    | _ => true
  | _ => true

/-- The object is made of the acknowledged bodies, and these are what was recorded. -/
structure Assembly.Committed (s : ObjectStorage) (w : UploadName) (u : MultipartMetadata)
    (now : DateTime) (sys : Assembly) : Prop where
  found : ∃ upload, sys.found = some upload ∧
    ∀ n : Nat, upload.parts[n]? = sys.acks[n]?.map fun a => ⟨n, a.etag, a.body.length⟩
  pieces : ∀ (n : Nat) (a : Ack), sys.acks[n]? = some a → a.etag = Sha256.digest a.body
  file : objectFile s sys.node w.bucket w.key = some (content sys.acks)
  record : sys.node.db.get (objectDbKey w.bucket w.key) =
    some (.object (newMetadata w.bucket w.key (content sys.acks) u.contentType now))

/-! ## Steps -/

/-- The steps, with what each has found. -/
inductive Assembly.Steps (s : ObjectStorage) (w : UploadName) (now : DateTime) (sys : Assembly) :
    AssemblyEvent → Assembly → Prop where
  | upload (partNumber : Nat) (body : Bytes) :
      Steps s w now sys (.upload partNumber body) (sys.begun partNumber body)
  | part {i n : Nat} {call : PartCall} {stage stage' : PartStage} {node : Node}
      (at_i : sys.calls[i]? = some call) (here : call.stage = some stage)
      (step : UploadsPart s (call.request w) n sys.node stage node stage') :
      Steps s w now sys (.part i n) (sys.called i call stage node stage')
  | stop {i : Nat} {call : PartCall} (at_i : sys.calls[i]? = some call)
      (unanswered : call.answered = false) :
      Steps s w now sys (.stop i) (sys.stopped i call)
  | complete {n : Nat} {node : Node} {stage : CompleteStage}
      (step : Completes s ⟨w.bucket, w.key, w.uploadId, now⟩ n sys.node sys.stage node stage) :
      Steps s w now sys (.complete n) (sys.completed node stage)

theorem Assembly.step_cases {s : ObjectStorage} {w : UploadName} {now : DateTime}
    {sys sys' : Assembly} {e : AssemblyEvent} (step : sys.step s w now e = some sys') :
    sys.Steps s w now e sys' := by
  cases e with
  | upload partNumber body =>
    cases step
    exact .upload partNumber body
  | part i n =>
    obtain ⟨call, at_i, step⟩ := Option.bind_eq_some_iff.1 step
    obtain ⟨stage, here, step⟩ := Option.bind_eq_some_iff.1 step
    obtain ⟨⟨node, stage'⟩, made, same⟩ := Option.bind_eq_some_iff.1 step
    cases same
    exact .part at_i here (uploadPartStep_cases made)
  | stop i =>
    obtain ⟨call, at_i, step⟩ := Option.bind_eq_some_iff.1 step
    split at step
    · cases step
    · rename_i unanswered
      cases step
      exact .stop at_i (by simpa using unanswered)
  | complete n =>
    obtain ⟨⟨node, stage⟩, made, same⟩ := Option.bind_eq_some_iff.1 step
    cases same
    exact .complete (completeStep_cases made)

/-! ## Paths -/

section Paths

variable {s : ObjectStorage} {id : String}

/-- The file of a part of the upload. -/
abbrev partFile (s : ObjectStorage) (w : UploadName) (m : Nat) : Path := partPath s.basePath w.uploadId m

omit [Sha256] in
theorem partPath_inj {base : Path} {m m' : Nat} (same : partPath base id m = partPath base id m') :
    m = m' := by
  rw [partPath, partPath, join_plain _ (plain_toString m), join_plain _ (plain_toString m')] at same
  have digits : toString m = toString m' := by simpa using same
  simpa using congrArg (fun s : String => Nat.ofDigitChars 10 s.toList 0) digits

theorem partPath_ne_pathOf (plain : Plain id) (m : Nat) (key : String) :
    s.pathOf key ≠ partPath s.basePath id m := by
  rw [partPath_plain _ plain, pathOf_eq]
  simp

theorem partPath_ne_tempOf (plain : Plain id) (m : Nat) (key : String) :
    s.tempOf key ≠ partPath s.basePath id m := by
  rw [partPath_plain _ plain, tempOf_eq]
  simp

theorem outside_of_plain (plain : Plain id) : Outside s id := by
  intro key inside
  rw [partsDir, Path.parent, partPath_plain _ plain, pathOf_eq] at inside
  have dir : (s.basePath ++ ["temp", "parts", id, toString 0]).dropLast =
      s.basePath ++ ["temp", "parts", id] := by
    rw [show ["temp", "parts", id, toString 0] = ["temp", "parts", id] ++ [toString 0] from rfl,
      ← List.append_assoc, List.dropLast_concat]
  rw [dir, List.prefix_append_right_inj] at inside
  simp at inside

end Paths

/-! ## What a call does with the files -/

section Calls

variable {s : ObjectStorage} {r : PartRequest} {n : Nat} {node node' : Node} {stage stage' : PartStage}

/-- A call touches the file it creates and the file it has open. -/
theorem UploadsPart.sameAt (step : UploadsPart s r n node stage node' stage') {p : Path}
    (apart : stage = .creating → p ≠ partPath s.basePath r.uploadId r.partNumber)
    (other : ∀ ino acc, stage = .receiving ino acc → node.fs.inode p ≠ some ino) :
    node.fs.SameAt node'.fs p := by
  cases step with
  | look => exact .refl _ p
  | create => exact node.fs.sameAt_create (apart rfl)
  | receive ino acc bytes => exact node.fs.sameAt_write (other ino acc rfl)
  | ended => exact .refl _ p
  | record => exact .refl _ p

/-- A file keeps its inode. -/
theorem UploadsPart.named (step : UploadsPart s r n node stage node' stage') {q : Path} {i : Nat}
    (named : node.fs.inode q = some i) : node'.fs.inode q = some i := by
  cases step with
  | create => exact Fs.inode_create_of_some named _
  | _ => exact named

/-- Only the record of a part changes the database. -/
theorem UploadsPart.db (step : UploadsPart s r n node stage node' stage')
    (early : ∀ acc, stage ≠ .recording acc) : node'.db = node.db ∧ ∀ etag, stage' ≠ .done etag := by
  cases step with
  | @record acc ws call => exact absurd rfl (early acc)
  | _ => exact ⟨rfl, by simp⟩

end Calls

/-! ## The invariant -/

section Invariant

variable (s : ObjectStorage) (w : UploadName) (u : MultipartMetadata) (now : DateTime)

/-- The file of the part holds what the call has received, or what it was acknowledged for. -/
def PartCall.Holds (fs : Fs) (ack : Option Ack) (call : PartCall) : Prop :=
  match call.stage with
  | some (.receiving ino acc) => fs.inode (partFile s w call.partNumber) = some ino ∧ fs.data ino = acc
  | some (.recording acc) => fs.read (partFile s w call.partNumber) = some acc
  | some (.done _) => fs.read (partFile s w call.partNumber) = some call.body ∧
      ack.map Ack.body = some call.body
  | _ => False

/-- No call has the file of the part open. -/
def Assembly.Quiet (sys : Assembly) (m : Nat) : Prop := ∀ call ∈ sys.calls, call.opens m = false

/-- No call writes to the file at the path. -/
def Assembly.Clear (sys : Assembly) (p : Path) : Prop :=
  ∀ call ∈ sys.calls, ∀ ino acc, call.stage = some (.receiving ino acc) → sys.node.fs.inode p ≠ some ino

/-- A call writes to the file of its part. -/
def Assembly.Linked (sys : Assembly) : Prop :=
  ∀ call ∈ sys.calls, ∀ ino acc, call.stage = some (.receiving ino acc) →
    sys.node.fs.inode (partFile s w call.partNumber) = some ino

/-- The call has the file of the part to itself. -/
structure Assembly.Owns (sys : Assembly) (m i : Nat) : Prop where
  holds : ∃ call, sys.calls[i]? = some call ∧ call.partNumber = m ∧
    call.Holds s w sys.node.fs sys.acks[m]?
  alone : ∀ j c, sys.calls[j]? = some c → c.opens m = true → j = i

/-- The records of the acknowledged parts. -/
def recordsOf (acks : Std.ExtTreeMap Nat Ack compare) : Std.ExtTreeMap Nat MultipartPart compare :=
  acks.map fun n a => ⟨n, a.etag, a.body.length⟩

/-- The upload is not yet looked up. -/
structure Assembly.Gathering (sys : Assembly) : Prop where
  recorded : UploadRecords w u sys.node.db (recordsOf sys.acks)
  owned : ∀ m i, sys.owner m = some i → sys.Owns s w m i

/-- The upload that was found has the acknowledged parts. -/
structure Assembly.Matches (sys : Assembly) (upload : MultipartUpload) : Prop where
  found : sys.found = some upload
  parts : upload.parts = recordsOf sys.acks
  contentType : upload.contentType = u.contentType

/-- The file of the part is the body it was acknowledged for, and stays so. -/
structure Assembly.Whole (sys : Assembly) (e : Nat × Ack) : Prop where
  read : sys.node.fs.read (partFile s w e.1) = some e.2.body
  quiet : sys.Quiet e.1

/-- Part way through the loop over the parts. -/
structure Assembly.Copying (sys : Assembly) (ino : Nat) (acc : Bytes) (part : Option (Nat × Nat))
    (todo : List Nat) : Prop where
  named : sys.node.fs.inode (tempFinalPath s.basePath w.uploadId) = some ino
  copied : sys.node.fs.data ino = acc
  reading : ∀ j offset, part = some (j, offset) →
    ∃ m, sys.node.fs.inode (partFile s w m) = some j ∧ sys.Quiet m
  rest : ∃ rest : List (Nat × Ack), todo = rest.map Prod.fst ∧ (∀ e ∈ rest, sys.Whole s w e) ∧
    content sys.acks = acc ++ (unread sys.node.fs part ++ rest.flatMap fun e => e.2.body)

/-- What the completion has done. -/
def Assembly.Phase (sys : Assembly) : CompleteStage → Prop
  | .locking => sys.Gathering s w u
  | .looking => sys.Gathering s w u
  | .creating upload => sys.Matches u upload ∧ ∀ e ∈ sys.acks.toList, sys.Whole s w e
  | .assembling upload ino acc part todo => sys.Matches u upload ∧ sys.Copying s w ino acc part todo
  | .flushing upload acc => sys.Matches u upload ∧ acc = content sys.acks ∧
      sys.node.fs.read (tempFinalPath s.basePath w.uploadId) = some acc
  | .storing upload acc body stage => sys.Matches u upload ∧ acc = content sys.acks ∧
      body = content sys.acks ∧ stage.Content s (storageKey w.bucket w.key) body sys.node.fs ∧
      (stage.published = true → objectFile s sys.node w.bucket w.key = some body)
  | .writing upload metadata => sys.Matches u upload ∧
      metadata = newMetadata w.bucket w.key (content sys.acks) u.contentType now ∧
      objectFile s sys.node w.bucket w.key = some (content sys.acks)
  | .aborting => sys.Committed s w u now
  | .removingParts => sys.Committed s w u now
  | .removingTemp => sys.Committed s w u now ∧ sys.Clear (s.pathOf (storageKey w.bucket w.key))
  | .done => sys.Committed s w u now ∧ sys.Clear (s.pathOf (storageKey w.bucket w.key))

/-- The files of the parts are removed. -/
def CompleteStage.cleared : CompleteStage → Bool
  | .removingTemp => true
  | .done => true
  | _ => false

structure Assembly.Inv (sys : Assembly) : Prop where
  received : ∀ call ∈ sys.calls, ∀ stage, call.stage = some stage → stage.Received call.body
  pieces : ∀ (n : Nat) (a : Ack), sys.acks[n]? = some a → a.etag = Sha256.digest a.body
  linked : sys.stage.cleared = false → sys.Linked s w
  phase : sys.Phase s w u now sys.stage

end Invariant

/-! ## Records -/

section Records
omit [Sha256]

variable {acks : Std.ExtTreeMap Nat Ack compare}

theorem recordsOf_insert (m : Nat) (a : Ack) :
    recordsOf (acks.insert m a) = (recordsOf acks).insert m ⟨m, a.etag, a.body.length⟩ := by
  refine Std.ExtTreeMap.ext_getElem? fun {k} => ?_
  simp only [recordsOf, Std.ExtTreeMap.getElem?_map, Std.ExtTreeMap.getElem?_insert,
    Std.LawfulEqCmp.compare_eq_iff_eq]
  split
  · rename_i same
    rw [← same, Option.map_some]
  · rfl

end Records

/-! ## A step of a call -/

section Part

variable {s : ObjectStorage} {w : UploadName} {sys : Assembly} {i n m : Nat} {call : PartCall}
  {stage stage' : PartStage} {node : Node} {p : Path}

omit [Sha256] in
theorem mem_set_call {call' c : PartCall} (member : c ∈ sys.calls.set i call') :
    c ∈ sys.calls ∨ c = call' := List.mem_or_eq_of_mem_set member

omit [Sha256] in
/-- A call at a path that is no part's writes elsewhere. -/
theorem Assembly.Linked.clear (linked : sys.Linked s w) (apart : ∀ m, p ≠ partFile s w m) :
    sys.Clear p := by
  intro c member ino acc here named
  exact apart _ (sys.node.fs.inj _ _ ino named (linked c member ino acc here))

omit [Sha256] in
theorem Assembly.Quiet.ne (quiet : sys.Quiet m) {c : PartCall} (member : c ∈ sys.calls)
    (here : c.stage = some stage) (open_ : stage.isOpen = true) : c.partNumber ≠ m := by
  rintro rfl
  have opens := quiet c member
  simp [PartCall.opens, here, open_] at opens

theorem UploadsPart.isOpen {r : PartRequest} {node node' : Node}
    (step : UploadsPart s r n node stage node' stage') (open_ : stage'.isOpen = true) :
    stage = .creating ∨ stage.isOpen = true := by
  cases step with
  | look => cases open_
  | create => exact .inl rfl
  | receive => exact .inr rfl
  | ended => exact .inr rfl
  | record => cases open_

section

variable (at_i : sys.calls[i]? = some call) (here : call.stage = some stage)
  (step : UploadsPart s (call.request w) n sys.node stage node stage')
include at_i here step

/-- A part that no call has open is left alone by every call that does not create its file. -/
theorem Assembly.Quiet.called (quiet : sys.Quiet m) (linked : sys.Linked s w)
    (apart : stage = .creating → call.partNumber ≠ m) :
    sys.node.fs.SameAt node.fs (partFile s w m) ∧ (sys.called i call stage node stage').Quiet m := by
  have member := List.mem_of_getElem? at_i
  refine ⟨step.sameAt (fun creating same => apart creating (partPath_inj same).symm) ?_, ?_⟩
  · rintro ino acc rfl named
    have same := sys.node.fs.inj _ _ ino named (linked call member ino acc here)
    exact quiet.ne member here rfl (partPath_inj same).symm
  · intro c changed
    rcases mem_set_call changed with old | rfl
    · exact quiet c old
    · by_contra opens
      have opens : call.partNumber = m ∧ stage'.isOpen = true := by
        simpa [PartCall.opens] using opens
      rcases step.isOpen opens.2 with creating | before
      · exact apart creating opens.1
      · exact quiet.ne member here before opens.1

/-- A path that no call writes to is left alone. -/
theorem Assembly.Clear.called (clear : sys.Clear p) (apart : p ≠ partFile s w call.partNumber) :
    sys.node.fs.SameAt node.fs p ∧ (sys.called i call stage node stage').Clear p := by
  have member := List.mem_of_getElem? at_i
  have same : sys.node.fs.SameAt node.fs p := by
    refine step.sameAt (fun _ => apart) ?_
    rintro ino acc rfl
    exact clear call member ino acc here
  refine ⟨same, fun c changed ino acc receiving named => ?_⟩
  have before : sys.node.fs.inode p = some ino := same.inode.symm.trans named
  rcases mem_set_call changed with old | rfl
  · exact clear c old ino acc receiving before
  · obtain rfl : stage' = .receiving ino acc := Option.some.inj receiving
    cases step with
    | create => exact apart (Fs.inj _ _ _ _ named (sys.node.fs.inode_create _))
    | receive => exact clear call member _ _ here before

theorem Assembly.Linked.called (linked : sys.Linked s w) :
    (sys.called i call stage node stage').Linked s w := by
  have member := List.mem_of_getElem? at_i
  intro c changed ino acc receiving
  rcases mem_set_call changed with old | rfl
  · exact step.named (linked c old ino acc receiving)
  · obtain rfl : stage' = .receiving ino acc := Option.some.inj receiving
    cases step with
    | create => exact sys.node.fs.inode_create _
    | receive => exact linked call member _ _ here

end

end Part

/-! ## While parts are uploaded -/

section Gathering

variable {s : ObjectStorage} {w : UploadName} {u : MultipartMetadata} {sys : Assembly} {i k n m : Nat}
  {call : PartCall} {stage stage' : PartStage} {node : Node}

omit [Sha256] in
theorem getElem?_set_call (at_i : sys.calls[i]? = some call) {call' c : PartCall} {j : Nat} :
    (sys.calls.set i call')[j]? = some c ↔ (j = i ∧ c = call') ∨ (j ≠ i ∧ sys.calls[j]? = some c) := by
  have inside : i < sys.calls.length := (List.getElem?_eq_some_iff.1 at_i).1
  rw [List.getElem?_set]
  by_cases same : i = j
  · simp [same, same ▸ inside, eq_comm]
  · simp [same, Ne.symm same]

omit [Sha256] in
theorem PartCall.Holds.frame {fs fs' : Fs} {ack : Option Ack} (holds : call.Holds s w fs ack)
    (same : fs.SameAt fs' (partFile s w call.partNumber)) : call.Holds s w fs' ack := by
  unfold PartCall.Holds at *
  split at holds
  · rename_i ino acc here
    obtain ⟨named, data⟩ := holds
    exact ⟨same.inode.trans named, (same.data ino named).trans data⟩
  · exact same.read.trans holds
  · exact ⟨same.read.trans holds.1, holds.2⟩
  · exact holds

omit [Sha256] in
theorem Assembly.Owns.number (owns : sys.Owns s w m i) (at_i : sys.calls[i]? = some call) :
    call.partNumber = m ∧ call.Holds s w sys.node.fs sys.acks[m]? := by
  obtain ⟨call', at_i', number, holds⟩ := owns.holds
  cases at_i.symm.trans at_i'
  exact ⟨number, holds⟩

section

variable (at_i : sys.calls[i]? = some call) (here : call.stage = some stage)
  (step : UploadsPart s (call.request w) n sys.node stage node stage')
include at_i here step

/-- The part of another call. -/
theorem Assembly.Owns.called_other (owns : sys.Owns s w m k) (linked : sys.Linked s w) (other : k ≠ i)
    (apart : stage = .creating → call.partNumber ≠ m) :
    (sys.called i call stage node stage').Owns s w m k := by
  have member := List.mem_of_getElem? at_i
  have closed : stage.isOpen = true → call.partNumber ≠ m := by
    intro open_ number
    exact other (owns.alone i call at_i (by simp [PartCall.opens, here, open_, number])).symm
  have same : sys.node.fs.SameAt node.fs (partFile s w m) := by
    refine step.sameAt (fun creating same => apart creating (partPath_inj same).symm) ?_
    rintro ino acc rfl named
    have one := sys.node.fs.inj _ _ ino named (linked call member ino acc here)
    exact closed rfl (partPath_inj one).symm
  have ack : (sys.acked call stage')[m]? = sys.acks[m]? := by
    cases step with
    | record =>
      simp only [Assembly.acked, Std.ExtTreeMap.getElem?_insert, Std.LawfulEqCmp.compare_eq_iff_eq]
      rw [if_neg (closed rfl)]
    | _ => rfl
  obtain ⟨c, at_k, rfl, holds⟩ := owns.holds
  refine ⟨⟨c, (getElem?_set_call at_i).2 (.inr ⟨other, at_k⟩), rfl, ?_⟩, fun j c' at_j opens => ?_⟩
  · show c.Holds s w node.fs (sys.acked call stage')[c.partNumber]?
    rw [ack]
    exact holds.frame same
  · rcases (getElem?_set_call at_i).1 at_j with ⟨rfl, rfl⟩ | ⟨-, old⟩
    · obtain ⟨number, open_⟩ : call.partNumber = c.partNumber ∧ stage'.isOpen = true := by
        simpa [PartCall.opens] using opens
      rcases step.isOpen open_ with creating | before
      · exact absurd number (apart creating)
      · exact absurd number (closed before)
    · exact owns.alone j c' old opens

/-- The part of the call itself. -/
theorem Assembly.Owns.called_self (owns : sys.Owns s w m i) (received : stage.Received call.body) :
    (sys.called i call stage node stage').Owns s w m i := by
  obtain ⟨rfl, holds⟩ := owns.number at_i
  unfold PartCall.Holds at holds
  rw [here] at holds
  refine ⟨⟨_, (getElem?_set_call at_i).2 (.inl ⟨rfl, rfl⟩), rfl, ?_⟩, fun j c at_j opens => ?_⟩
  · cases step with
    | look => exact holds.elim
    | create => exact holds.elim
    | @receive ino acc chunk bytes =>
      obtain ⟨named, data⟩ := holds
      refine ⟨named, ?_⟩
      show (sys.node.fs.write ino acc.length chunk).data ino = acc ++ chunk
      rw [Fs.data_write, data, writeAt_end]
    | @ended ino acc all =>
      obtain ⟨named, data⟩ := holds
      show sys.node.fs.read (partFile s w call.partNumber) = some acc
      rw [Fs.read, named, Option.map_some, data]
    | @record acc ws made =>
      obtain rfl : acc = call.body := received
      refine ⟨holds, ?_⟩
      simp [Assembly.called, Assembly.acked]
  · rcases (getElem?_set_call at_i).1 at_j with ⟨rfl, -⟩ | ⟨-, old⟩
    · rfl
    · exact owns.alone j c old opens

/-- A call that creates the file of a part has it to itself, if no other has it open. -/
theorem Assembly.owns_created (creating : stage = .creating)
    (free : (sys.calls.any fun c => c.opens call.partNumber) = false) :
    (sys.called i call stage node stage').Owns s w call.partNumber i := by
  subst creating
  refine ⟨⟨_, (getElem?_set_call at_i).2 (.inl ⟨rfl, rfl⟩), rfl, ?_⟩, fun j c at_j opens => ?_⟩
  · cases step with
    | create => exact ⟨sys.node.fs.inode_create _, sys.node.fs.data_create _⟩
  · rcases (getElem?_set_call at_i).1 at_j with ⟨rfl, -⟩ | ⟨-, old⟩
    · rfl
    · have none_open := List.any_eq_false.1 free c (List.mem_of_getElem? old)
      exact absurd opens none_open

theorem Assembly.Gathering.called (gathering : sys.Gathering s w u) (linked : sys.Linked s w)
    (received : stage.Received call.body) : (sys.called i call stage node stage').Gathering s w u := by
  constructor
  · have recorded := gathering.recorded
    cases step with
    | @record acc ws made =>
      obtain rfl : acc = call.body := received
      obtain rfl := recordPart_eq made
      show UploadRecords w u _ (recordsOf (sys.acks.insert call.partNumber ⟨call.body, _⟩))
      rw [recordsOf_insert]
      exact recorded.record ⟨call.partNumber, _, call.body.length⟩
    | _ => exact recorded
  · intro m k owner
    by_cases creating : stage = .creating
    · have owner : Function.update sys.owner call.partNumber
          (if sys.calls.any fun c => c.opens call.partNumber then none else some i) m = some k := by
        simpa [Assembly.called, creating, Assembly.owned] using owner
      by_cases own : m = call.partNumber
      · subst own
        rw [Function.update_self] at owner
        split at owner
        · cases owner
        · rename_i free
          cases owner
          exact Assembly.owns_created at_i here step creating (by simpa using free)
      · rw [Function.update_of_ne own] at owner
        have owns := gathering.owned m k owner
        refine owns.called_other at_i here step linked ?_ fun _ => Ne.symm own
        rintro rfl
        exact own (owns.number at_i).1.symm
    · have owner : sys.owner m = some k := by
        have same : sys.owned i call stage = sys.owner := by
          cases stage <;> first | rfl | exact absurd rfl creating
        simpa [Assembly.called, same] using owner
      have owns := gathering.owned m k owner
      by_cases self : k = i
      · subst self
        exact owns.called_self at_i here step received
      · exact owns.called_other at_i here step linked self fun now => absurd now creating

end

omit [Sha256] in
/-- A call that fails gives up its part. -/
theorem Assembly.Gathering.stopped (gathering : sys.Gathering s w u) (at_i : sys.calls[i]? = some call) :
    (sys.stopped i call).Gathering s w u := by
  refine ⟨gathering.recorded, fun m k after => ?_⟩
  have owner : (if sys.owner m = some i then none else sys.owner m) = some k := after
  split at owner
  · cases owner
  · rename_i other
    have apart : k ≠ i := by
      rintro rfl
      exact other owner
    have owns := gathering.owned m k owner
    obtain ⟨c, at_k, number, holds⟩ := owns.holds
    refine ⟨⟨c, (getElem?_set_call at_i).2 (.inr ⟨apart, at_k⟩), number, holds⟩, ?_⟩
    intro j c' at_j opens
    rcases (getElem?_set_call at_i).1 at_j with ⟨rfl, rfl⟩ | ⟨-, old⟩
    · simp [PartCall.opens] at opens
    · exact owns.alone j c' old opens

omit [Sha256] in
/-- A new call. -/
theorem Assembly.Gathering.begun (gathering : sys.Gathering s w u) (partNumber : Nat) (body : Bytes) :
    (sys.begun partNumber body).Gathering s w u := by
  refine ⟨gathering.recorded, fun m k owner => ?_⟩
  have owns := gathering.owned m k owner
  obtain ⟨c, at_k, number, holds⟩ := owns.holds
  have inside : k < sys.calls.length := (List.getElem?_eq_some_iff.1 at_k).1
  refine ⟨⟨c, (List.getElem?_append_left inside).trans at_k, number, holds⟩, ?_⟩
  intro j c' at_j opens
  rw [Assembly.begun, List.getElem?_append] at at_j
  split at at_j
  · exact owns.alone j c' at_j opens
  · obtain rfl := List.mem_singleton.1 (List.mem_of_getElem? at_j)
    simp [PartCall.opens, PartStage.isOpen] at opens

end Gathering

/-! ## After the lookup -/

section Frame

variable {s : ObjectStorage} {w : UploadName} {u : MultipartMetadata} {now : DateTime}
  {sys sys' : Assembly}

/-- A step of the calls that leaves alone what the completion works on. -/
structure Assembly.Keeps (s : ObjectStorage) (w : UploadName) (sys sys' : Assembly) : Prop where
  acks : sys'.acks = sys.acks
  found : sys'.found = sys.found
  db : sys'.node.db = sys.node.db
  files : ∀ p, (∀ m, p ≠ partFile s w m) → sys.Clear p →
    sys.node.fs.SameAt sys'.node.fs p ∧ sys'.Clear p
  parts : sys.Linked s w → ∀ m, sys.stage.needs s w sys.node.fs m = true → sys.Quiet m →
    sys.node.fs.SameAt sys'.node.fs (partFile s w m) ∧ sys'.Quiet m

omit [Sha256] in
theorem Assembly.Matches.frame {upload : MultipartUpload} (matched : sys.Matches u upload)
    (keeps : sys.Keeps s w sys') : sys'.Matches u upload :=
  ⟨keeps.found.trans matched.found, by rw [keeps.acks, matched.parts], matched.contentType⟩

theorem Assembly.Committed.frame (committed : sys.Committed s w u now) (keeps : sys.Keeps s w sys')
    (file : objectFile s sys'.node w.bucket w.key = objectFile s sys.node w.bucket w.key) :
    sys'.Committed s w u now := by
  constructor
  · rw [keeps.found, keeps.acks]
    exact committed.found
  · rw [keeps.acks]
    exact committed.pieces
  · rw [file, keeps.acks]
    exact committed.file
  · rw [keeps.db, keeps.acks]
    exact committed.record

omit [Sha256] in
theorem Assembly.Copying.frame {upload : MultipartUpload} {ino : Nat} {acc : Bytes}
    {part : Option (Nat × Nat)} {todo : List Nat} (copying : sys.Copying s w ino acc part todo)
    (at_stage : sys.stage = .assembling upload ino acc part todo) (linked : sys.Linked s w)
    (keeps : sys.Keeps s w sys')
    (temp : sys.node.fs.SameAt sys'.node.fs (tempFinalPath s.basePath w.uploadId)) :
    sys'.Copying s w ino acc part todo := by
  have reading : ∀ j offset, part = some (j, offset) → sys'.node.fs.data j = sys.node.fs.data j ∧
      ∃ m, sys'.node.fs.inode (partFile s w m) = some j ∧ sys'.Quiet m := by
    intro j offset open_
    obtain ⟨m, named, quiet⟩ := copying.reading j offset open_
    have needed : sys.stage.needs s w sys.node.fs m = true := by
      simp [at_stage, CompleteStage.needs, open_, named]
    obtain ⟨same, quiet'⟩ := keeps.parts linked m needed quiet
    exact ⟨same.data j named, m, same.inode.trans named, quiet'⟩
  have left : unread sys'.node.fs part = unread sys.node.fs part := by
    cases part with
    | none => rfl
    | some opened => simp only [unread, (reading _ _ rfl).1]
  refine ⟨temp.inode.trans copying.named, (temp.data ino copying.named).trans copying.copied,
    fun j offset open_ => (reading j offset open_).2, ?_⟩
  obtain ⟨rest, rfl, whole, bytes⟩ := copying.rest
  refine ⟨rest, rfl, fun e member => ?_, ?_⟩
  · have needed : sys.stage.needs s w sys.node.fs e.1 = true := by
      have there : e.1 ∈ rest.map Prod.fst := List.mem_map.2 ⟨e, member, rfl⟩
      simp [at_stage, CompleteStage.needs, there]
    obtain ⟨same, quiet⟩ := keeps.parts linked e.1 needed (whole e member).quiet
    exact ⟨same.read.trans (whole e member).read, quiet⟩
  · rw [keeps.acks, left, bytes]

theorem Assembly.Phase.frame (plain : Plain w.uploadId) (phase : sys.Phase s w u now sys.stage)
    (past : sys.stage.waiting = false) (linked : sys.stage.cleared = false → sys.Linked s w)
    (keeps : sys.Keeps s w sys') : sys'.Phase s w u now sys.stage := by
  have same : ∀ p, (∀ m, p ≠ partFile s w m) → sys.stage.cleared = false →
      sys.node.fs.SameAt sys'.node.fs p :=
    fun p apart early => (keeps.files p apart ((linked early).clear apart)).1
  have object : ∀ m, s.pathOf (storageKey w.bucket w.key) ≠ partFile s w m :=
    fun m => partPath_ne_pathOf plain m _
  have temp : ∀ m, tempFinalPath s.basePath w.uploadId ≠ partFile s w m :=
    fun m => (partPath_ne_tempFinalPath s.basePath w.uploadId m).symm
  cases at_stage : sys.stage with
  | locking => simp [at_stage, CompleteStage.waiting] at past
  | looking => simp [at_stage, CompleteStage.waiting] at past
  | creating upload =>
    rw [at_stage] at phase
    obtain ⟨matched, whole⟩ := phase
    refine ⟨matched.frame keeps, fun e member => ?_⟩
    rw [keeps.acks] at member
    have needed : sys.stage.needs s w sys.node.fs e.1 = true := by
      have there : e.1 ∈ sys.acks.keys := by
        rw [← Std.ExtTreeMap.map_fst_toList_eq_keys]
        exact List.mem_map.2 ⟨e, member, rfl⟩
      simpa [at_stage, CompleteStage.needs, matched.parts, recordsOf] using there
    have early : sys.stage.cleared = false := by rw [at_stage]; rfl
    obtain ⟨kept, quiet⟩ := keeps.parts (linked early) e.1 needed (whole e member).quiet
    exact ⟨kept.read.trans (whole e member).read, quiet⟩
  | assembling upload ino acc part todo =>
    rw [at_stage] at phase
    have early : sys.stage.cleared = false := by rw [at_stage]; rfl
    exact ⟨phase.1.frame keeps, phase.2.frame at_stage (linked early) keeps (same _ temp early)⟩
  | flushing upload acc =>
    rw [at_stage] at phase
    have early : sys.stage.cleared = false := by rw [at_stage]; rfl
    refine ⟨phase.1.frame keeps, ?_, (same _ temp early).read.trans phase.2.2⟩
    rw [keeps.acks]
    exact phase.2.1
  | storing upload acc body stage =>
    rw [at_stage] at phase
    have early : sys.stage.cleared = false := by rw [at_stage]; rfl
    obtain ⟨matched, copied, assembled, stored, published⟩ := phase
    have inside : ∀ m, s.tempOf (storageKey w.bucket w.key) ≠ partFile s w m :=
      fun m => partPath_ne_tempOf plain m _
    refine ⟨matched.frame keeps, by rw [keeps.acks]; exact copied, by rw [keeps.acks]; exact assembled,
      stored.frame (same _ inside early), fun after => ?_⟩
    exact (same _ object early).read.trans (published after)
  | writing upload metadata =>
    rw [at_stage] at phase
    have early : sys.stage.cleared = false := by rw [at_stage]; rfl
    obtain ⟨matched, made, file⟩ := phase
    refine ⟨matched.frame keeps, by rw [keeps.acks]; exact made, ?_⟩
    rw [keeps.acks]
    exact (same _ object early).read.trans file
  | aborting =>
    rw [at_stage] at phase
    have early : sys.stage.cleared = false := by rw [at_stage]; rfl
    exact Assembly.Committed.frame phase keeps (same _ object early).read
  | removingParts =>
    rw [at_stage] at phase
    have early : sys.stage.cleared = false := by rw [at_stage]; rfl
    exact Assembly.Committed.frame phase keeps (same _ object early).read
  | removingTemp =>
    rw [at_stage] at phase
    obtain ⟨kept, clear⟩ := keeps.files _ object phase.2
    exact ⟨phase.1.frame keeps kept.read, clear⟩
  | done =>
    rw [at_stage] at phase
    obtain ⟨kept, clear⟩ := keeps.files _ object phase.2
    exact ⟨phase.1.frame keeps kept.read, clear⟩

/-! The steps of the calls. -/

section

variable {i n : Nat} {call : PartCall} {stage stage' : PartStage} {node : Node}

omit [Sha256] in
theorem Assembly.keeps_begun (partNumber : Nat) (body : Bytes) :
    sys.Keeps s w (sys.begun partNumber body) := by
  have old : ∀ c ∈ (sys.begun partNumber body).calls, c ∈ sys.calls ∨ c.stage = some .looking := by
    intro c member
    rcases List.mem_append.1 member with there | new
    · exact .inl there
    · rw [List.mem_singleton.1 new]
      exact .inr rfl
  refine ⟨rfl, rfl, rfl, fun p _ clear => ⟨.refl _ p, ?_⟩, fun _ m _ quiet => ⟨.refl _ _, ?_⟩⟩
  · intro c member ino acc receiving
    rcases old c member with there | new
    · exact clear c there ino acc receiving
    · rw [new] at receiving
      cases receiving
  · intro c member
    rcases old c member with there | new
    · exact quiet c there
    · simp [PartCall.opens, new, PartStage.isOpen]

omit [Sha256] in
theorem Assembly.keeps_stopped (i : Nat) (call : PartCall) : sys.Keeps s w (sys.stopped i call) := by
  refine ⟨rfl, rfl, rfl, fun p _ clear => ⟨.refl _ p, ?_⟩, fun _ m _ quiet => ⟨.refl _ _, ?_⟩⟩
  · intro c member ino acc receiving
    rcases mem_set_call member with there | rfl
    · exact clear c there ino acc receiving
    · cases receiving
  · intro c member
    rcases mem_set_call member with there | rfl
    · exact quiet c there
    · simp [PartCall.opens]

theorem Assembly.keeps_called (at_i : sys.calls[i]? = some call) (here : call.stage = some stage)
    (step : UploadsPart s (call.request w) n sys.node stage node stage')
    (creates : stage = .creating → sys.stage.needs s w sys.node.fs call.partNumber = false)
    (early : ∀ acc, stage ≠ .recording acc) : sys.Keeps s w (sys.called i call stage node stage') := by
  obtain ⟨db, unanswered⟩ := step.db early
  have acks : sys.acked call stage' = sys.acks := by
    cases stage' with
    | done etag => exact absurd rfl (unanswered etag)
    | _ => rfl
  refine ⟨acks, rfl, db, fun p apart clear => ?_, fun linked m needed quiet => ?_⟩
  · exact clear.called at_i here step (apart _)
  · refine quiet.called at_i here step linked fun creating same => ?_
    rw [← same, creates creating] at needed
    cases needed

end

end Frame

/-! ## A step of the completion -/

section Complete

variable {s : ObjectStorage} {w : UploadName} {u : MultipartMetadata} {now : DateTime}
  {sys : Assembly} {n : Nat} {node : Node} {stage : CompleteStage}

omit [Sha256] in
/-- Every acknowledged part is that of its file. -/
theorem Assembly.Gathering.whole (gathering : sys.Gathering s w u)
    (settled : sys.acks.keys.all sys.settled = true) {e : Nat × Ack} (member : e ∈ sys.acks.toList) :
    sys.Whole s w e := by
  have there : e.1 ∈ sys.acks.keys := by
    rw [← Std.ExtTreeMap.map_fst_toList_eq_keys]
    exact List.mem_map.2 ⟨e, member, rfl⟩
  have acked : sys.acks[e.1]? = some e.2 := Std.ExtTreeMap.mem_toList_iff_getElem?_eq_some.1 member
  have answered := List.all_eq_true.1 settled e.1 there
  unfold Assembly.settled at answered
  split at answered
  · cases answered
  · rename_i i owner
    have owns := gathering.owned e.1 i owner
    obtain ⟨call, at_i, number, holds⟩ := owns.holds
    rw [at_i, Option.any_some] at answered
    have done : ∃ etag, call.stage = some (.done etag) := by
      unfold PartCall.answered at answered
      split at answered
      · exact ⟨_, ‹_›⟩
      · cases answered
    obtain ⟨etag, done⟩ := done
    unfold PartCall.Holds at holds
    rw [done, acked, number] at holds
    have body : e.2.body = call.body := by simpa using holds.2
    refine ⟨by rw [body]; exact holds.1, fun c member' => ?_⟩
    -- a call that has the file open is the owner, which is answered
    by_contra opens
    obtain ⟨j, at_j⟩ := List.mem_iff_getElem?.1 member'
    obtain rfl := owns.alone j c at_j (by simpa using opens)
    cases at_i.symm.trans at_j
    simp [PartCall.opens, done, PartStage.isOpen] at opens

theorem Assembly.Phase.sameAt_part (plain : Plain w.uploadId) (phase : sys.Phase s w u now sys.stage)
    (step : Completes s ⟨w.bucket, w.key, w.uploadId, now⟩ n sys.node sys.stage node stage)
    (kept : stage.cleared = false) (m : Nat) : sys.node.fs.SameAt node.fs (partFile s w m) := by
  have apart := partPath_ne_tempFinalPath s.basePath w.uploadId m
  generalize at_stage : sys.stage = before at step phase
  cases step with
  | create upload => exact sys.node.fs.sameAt_create apart
  | copy upload ino acc j offset todo bytes =>
    refine sys.node.fs.sameAt_write fun named => ?_
    exact apart (sys.node.fs.inj _ _ ino named phase.2.named)
  | store upload acc advanced =>
    obtain ⟨-, -, -, stored, -⟩ := phase
    exact stored.advance_sameAt advanced (partPath_ne_tempOf plain m _).symm
      (partPath_ne_pathOf plain m _).symm
  | removeParts => cases kept
  | removeTemp => cases kept
  | _ => exact .refl _ _

omit [Sha256] in
/-- The next bytes of the open part are copied. -/
theorem Assembly.Copying.copy {ino j offset : Nat} {acc : Bytes} {todo : List Nat}
    (copying : sys.Copying s w ino acc (some (j, offset)) todo) (size : Nat) {stage : CompleteStage}
    {chunk : Bytes} (bytes : chunk = ((sys.node.fs.data j).drop offset).take size) :
    (sys.completed { sys.node with fs := sys.node.fs.write ino acc.length chunk } stage).Copying s w
      ino (acc ++ chunk) (some (j, offset + chunk.length)) todo := by
  have apart : ∀ m, sys.node.fs.inode (partFile s w m) ≠ some ino := by
    intro m named
    exact partPath_ne_tempFinalPath s.basePath w.uploadId m
      (sys.node.fs.inj _ _ ino named copying.named)
  obtain ⟨m, named, quiet⟩ := copying.reading j offset rfl
  have source : (sys.node.fs.write ino acc.length chunk).data j = sys.node.fs.data j :=
    (sys.node.fs.sameAt_write (apart m)).data j named
  refine ⟨copying.named, ?_, ?_, ?_⟩
  · show (sys.node.fs.write ino acc.length chunk).data ino = acc ++ chunk
    rw [Fs.data_write, copying.copied, writeAt_end]
  · rintro _ _ ⟨⟩
    exact ⟨m, named, quiet⟩
  · obtain ⟨rest, rfl, whole, all⟩ := copying.rest
    refine ⟨rest, rfl, fun e member => ⟨?_, (whole e member).quiet⟩, ?_⟩
    · exact (sys.node.fs.read_write_of_ne (apart e.1)).trans (whole e member).read
    · have split : (sys.node.fs.data j).drop offset =
          chunk ++ (sys.node.fs.data j).drop (offset + chunk.length) := by
        rw [bytes]
        exact drop_eq_take_append (sys.node.fs.data j) offset size
      show content sys.acks = _
      rw [all]
      simp only [unread, Assembly.completed, source]
      rw [split]
      simp

omit [Sha256] in
/-- The next part is opened. -/
theorem Assembly.Copying.openPart {ino j part : Nat} {acc : Bytes} {todo : List Nat}
    (copying : sys.Copying s w ino acc none (part :: todo))
    (found : sys.node.fs.inode (partFile s w part) = some j) {stage : CompleteStage} :
    (sys.completed sys.node stage).Copying s w ino acc (some (j, 0)) todo := by
  obtain ⟨rest, parts, whole, all⟩ := copying.rest
  obtain ⟨e, rest, rfl, number, rfl⟩ : ∃ e rest', rest = e :: rest' ∧ e.1 = part ∧
      rest'.map Prod.fst = todo := by
    cases rest with
    | nil => cases parts
    | cons e rest =>
      rw [List.map_cons, List.cons.injEq] at parts
      exact ⟨e, rest, rfl, parts.1.symm, parts.2.symm⟩
  subst number
  have here := whole e List.mem_cons_self
  have body : sys.node.fs.data j = e.2.body := by
    have read := here.read
    rw [Fs.read, found] at read
    simpa using read
  refine ⟨copying.named, copying.copied, ?_, rest, rfl, fun e member => ?_, ?_⟩
  · rintro _ _ ⟨⟩
    exact ⟨e.1, found, here.quiet⟩
  · have later := whole e (List.mem_cons_of_mem _ member)
    exact ⟨later.read, later.quiet⟩
  · show content sys.acks = _
    rw [all]
    simp [unread, Assembly.completed, body]

/-- What holds of the object stays, when the file does. -/
theorem Assembly.Committed.completed (committed : sys.Committed s w u now)
    (record : node.db.get (objectDbKey w.bucket w.key) = sys.node.db.get (objectDbKey w.bucket w.key))
    (file : objectFile s node w.bucket w.key = objectFile s sys.node w.bucket w.key)
    (later : sys.looked stage = sys.found) : (sys.completed node stage).Committed s w u now := by
  refine ⟨?_, committed.pieces, file.trans committed.file, record.trans committed.record⟩
  show ∃ upload, sys.looked stage = some upload ∧ _
  rw [later]
  exact committed.found

omit [Sha256] in
theorem Assembly.Matches.completed {upload : MultipartUpload} (matched : sys.Matches u upload)
    (later : sys.looked stage = sys.found) : (sys.completed node stage).Matches u upload :=
  ⟨later.trans matched.found, matched.parts, matched.contentType⟩

/-- The object's record is written. -/
theorem Assembly.committed_of_record {upload : MultipartUpload} {ws : List (Write Value)}
    (matched : sys.Matches u upload)
    (pieces : ∀ (n : Nat) (a : Ack), sys.acks[n]? = some a → a.etag = Sha256.digest a.body)
    (file : objectFile s sys.node w.bucket w.key = some (content sys.acks))
    (call : putObjectMetadata (newMetadata w.bucket w.key (content sys.acks) u.contentType now) =
      .ok ws) :
    (sys.completed { sys.node with db := applyAll sys.node.db ws } .aborting).Committed s w u now := by
  refine ⟨⟨upload, matched.found, fun n => ?_⟩, pieces, file, ?_⟩
  · rw [matched.parts, recordsOf, Std.ExtTreeMap.getElem?_map]
    rfl
  · obtain rfl := putObjectMetadata_eq call
    show (applyAll sys.node.db [.put _ _]).get _ = _
    rw [get_applyAll_put]
    exact if_pos rfl

/-- One operation of the completion. -/
theorem Assembly.Phase.complete (plain : Plain w.uploadId) (phase : sys.Phase s w u now sys.stage)
    (pieces : ∀ (n : Nat) (a : Ack), sys.acks[n]? = some a → a.etag = Sha256.digest a.body)
    (linked : sys.stage.cleared = false → sys.Linked s w)
    (settled : sys.undisturbed s w (.complete n) = true)
    (step : Completes s ⟨w.bucket, w.key, w.uploadId, now⟩ n sys.node sys.stage node stage) :
    (sys.completed node stage).Phase s w u now stage := by
  have parts := phase.sameAt_part plain step
  unfold Assembly.undisturbed at settled
  generalize sys.stage = before at step phase settled linked
  have object : ∀ m, s.pathOf (storageKey w.bucket w.key) ≠ partFile s w m :=
    fun m => partPath_ne_pathOf plain m _
  cases step with
  | lock =>
    refine ⟨phase.recorded, fun m i owner => ?_⟩
    obtain ⟨holds, alone⟩ := phase.owned m i owner
    exact ⟨holds, alone⟩
  | @look upload found =>
    obtain rfl := phase.recorded.found found
    refine ⟨⟨rfl, rfl, rfl⟩, fun e member => ?_⟩
    obtain ⟨read, quiet⟩ := Assembly.Gathering.whole phase settled member
    exact ⟨read, quiet⟩
  | create upload =>
    obtain ⟨matched, whole⟩ := phase
    refine ⟨matched.completed rfl, ⟨sys.node.fs.inode_create _, sys.node.fs.data_create _, by simp, ?_⟩⟩
    refine ⟨sys.acks.toList, ?_, fun e member => ?_, ?_⟩
    · rw [matched.parts, recordsOf, Std.ExtTreeMap.keys_map, Std.ExtTreeMap.map_fst_toList_eq_keys]
    · obtain ⟨read, quiet⟩ := whole e member
      exact ⟨(parts rfl e.1).read.trans read, quiet⟩
    · simp [unread, content, Assembly.completed]
  | openPart upload ino acc todo found => exact ⟨phase.1.completed rfl, phase.2.openPart found⟩
  | copy upload ino acc j offset todo bytes => exact ⟨phase.1.completed rfl, phase.2.copy _ bytes⟩
  | endPart upload ino acc todo ended =>
    obtain ⟨matched, copying⟩ := phase
    refine ⟨matched.completed rfl, copying.named, copying.copied, by simp, ?_⟩
    obtain ⟨rest, rfl, whole, all⟩ := copying.rest
    refine ⟨rest, rfl, fun e member => ⟨(whole e member).read, (whole e member).quiet⟩, ?_⟩
    show content sys.acks = _
    rw [all]
    simp [unread, ended]
  | assembled upload ino acc =>
    obtain ⟨matched, copying⟩ := phase
    obtain ⟨rest, empty, -, all⟩ := copying.rest
    obtain rfl : rest = [] := List.map_eq_nil_iff.1 empty.symm
    refine ⟨matched.completed rfl, ?_, ?_⟩
    · show acc = content sys.acks
      rw [all]
      simp [unread]
    · show sys.node.fs.read _ = some acc
      rw [Fs.read, copying.named, Option.map_some, copying.copied]
  | flush upload acc read =>
    obtain ⟨matched, copied, assembled⟩ := phase
    obtain rfl := Option.some.inj (assembled.symm.trans read)
    exact ⟨matched.completed rfl, copied, copied, trivial, fun never => by cases never⟩
  | @store upload acc body stage stage' fs advanced =>
    obtain ⟨matched, copied, assembled, stored, published⟩ := phase
    refine ⟨matched.completed rfl, copied, assembled, stored.advance advanced, fun after => ?_⟩
    rcases stored.advance_object advanced with ⟨same, read⟩ | ⟨-, read⟩
    · rw [same] at after
      exact read.trans (published after)
    · exact read
  | stored upload acc body =>
    obtain ⟨matched, rfl, rfl, -, published⟩ := phase
    refine ⟨matched.completed rfl, ?_, published rfl⟩
    rw [matched.contentType]
    rfl
  | write upload call =>
    obtain ⟨matched, rfl, file⟩ := phase
    exact Assembly.committed_of_record matched pieces file call
  | abort call =>
    refine Assembly.Committed.completed phase ?_ rfl rfl
    refine get_applyAll_of_ne fun write member same => ?_
    exact ne_of_startsWith (by decide) (by decide) (abortMultipartUpload_local call write member)
      (objectDbKey_startsWith w.bucket w.key) same
  | removeParts =>
    have clear := (linked rfl).clear object
    have outside := outside_of_plain (s := s) plain (storageKey w.bucket w.key)
    refine ⟨Assembly.Committed.completed phase rfl ?_ rfl, fun c member ino acc receiving => ?_⟩
    · show (sys.node.fs.removeDirAll _).read _ = sys.node.fs.read _
      have keep : (partsDir s.basePath w.uploadId).isPrefixOf
          (s.pathOf (storageKey w.bucket w.key)) = false := by
        by_contra inside
        exact outside (List.isPrefixOf_iff_prefix.1 (by simpa using inside))
      rw [Fs.read_removeDirAll, keep]
      rfl
    · show (sys.node.fs.removeDirAll _).inode _ ≠ some ino
      rw [Fs.inode_removeDirAll_of_outside _ outside]
      exact clear c member ino acc receiving
  | removeTemp =>
    have same := sys.node.fs.sameAt_unlink (tempFinalPath_ne_pathOf s w.uploadId (storageKey w.bucket w.key))
    refine ⟨phase.1.completed rfl same.read rfl, fun c member ino acc receiving => ?_⟩
    show (sys.node.fs.unlink _).inode _ ≠ some ino
    rw [same.inode]
    exact phase.2 c member ino acc receiving

end Complete

/-! ## Runs -/

section Runs

variable {s : ObjectStorage} {w : UploadName} {u : MultipartMetadata} {now : DateTime}
  {sys sys' : Assembly}

theorem Assembly.phase_waiting {stage : CompleteStage} (waiting : stage.waiting = true) :
    sys.Phase s w u now stage ↔ sys.Gathering s w u := by
  cases stage with
  | locking => rfl
  | looking => rfl
  | _ => cases waiting

/-- A step of the calls, while parts are uploaded or later. -/
theorem Assembly.Phase.calls (plain : Plain w.uploadId) (phase : sys.Phase s w u now sys.stage)
    (linked : sys.stage.cleared = false → sys.Linked s w) (same : sys'.stage = sys.stage)
    (gathering : sys.stage.waiting = true → sys.Gathering s w u → sys'.Gathering s w u)
    (keeps : sys.stage.waiting = false → sys.Keeps s w sys') : sys'.Phase s w u now sys'.stage := by
  rw [same]
  cases waiting : sys.stage.waiting with
  | true =>
    rw [Assembly.phase_waiting waiting] at phase ⊢
    exact gathering waiting phase
  | false => exact phase.frame plain waiting linked (keeps waiting)

theorem Assembly.Inv.begun (plain : Plain w.uploadId) (inv : sys.Inv s w u now) (partNumber : Nat)
    (body : Bytes) : (sys.begun partNumber body).Inv s w u now := by
  refine ⟨fun c member stage here => ?_, inv.pieces, fun early c member ino acc receiving => ?_, ?_⟩
  · rcases List.mem_append.1 member with old | new
    · exact inv.received c old stage here
    · obtain rfl := List.mem_singleton.1 new
      cases here
      trivial
  · rcases List.mem_append.1 member with old | new
    · exact inv.linked early c old ino acc receiving
    · obtain rfl := List.mem_singleton.1 new
      cases receiving
  · exact inv.phase.calls plain inv.linked rfl (fun _ gathering => gathering.begun partNumber body)
      fun _ => Assembly.keeps_begun partNumber body

theorem Assembly.Inv.stopped (plain : Plain w.uploadId) (inv : sys.Inv s w u now) {i : Nat}
    {call : PartCall} (at_i : sys.calls[i]? = some call) : (sys.stopped i call).Inv s w u now := by
  refine ⟨fun c member stage here => ?_, inv.pieces, fun early c member ino acc receiving => ?_, ?_⟩
  · rcases mem_set_call member with old | rfl
    · exact inv.received c old stage here
    · cases here
  · rcases mem_set_call member with old | rfl
    · exact inv.linked early c old ino acc receiving
    · cases receiving
  · exact inv.phase.calls plain inv.linked rfl (fun _ gathering => gathering.stopped at_i)
      fun _ => Assembly.keeps_stopped i call

theorem Assembly.Inv.called (plain : Plain w.uploadId) (inv : sys.Inv s w u now) {i n : Nat}
    {call : PartCall} {stage stage' : PartStage} {node : Node} (at_i : sys.calls[i]? = some call)
    (here : call.stage = some stage)
    (step : UploadsPart s (call.request w) n sys.node stage node stage')
    (undisturbed : sys.undisturbed s w (.part i n) = true) :
    (sys.called i call stage node stage').Inv s w u now := by
  have received := inv.received call (List.mem_of_getElem? at_i) stage here
  have creates : stage = .creating → sys.stage.needs s w sys.node.fs call.partNumber = false := by
    rintro rfl
    simpa [Assembly.undisturbed, at_i, here] using undisturbed
  have early : sys.stage.waiting = false → ∀ acc, stage ≠ .recording acc := by
    rintro past acc rfl
    have waiting : sys.stage.waiting = true := by
      simpa [Assembly.undisturbed, at_i, here] using undisturbed
    rw [past] at waiting
    cases waiting
  have later : stage'.Received call.body := step.received received
  refine ⟨fun c member next at_next => ?_, fun m a acked => ?_, fun early => ?_, ?_⟩
  · rcases mem_set_call member with old | rfl
    · exact inv.received c old next at_next
    · cases at_next
      exact later
  · cases stage' with
    | done etag =>
      have acked : (sys.acks.insert call.partNumber ⟨call.body, etag⟩)[m]? = some a := acked
      rw [Std.ExtTreeMap.getElem?_insert] at acked
      split at acked
      · cases acked
        exact later
      · exact inv.pieces m a acked
    | _ => exact inv.pieces m a acked
  · exact (inv.linked early).called at_i here step
  · refine inv.phase.calls plain inv.linked rfl (fun waiting gathering => ?_) fun past => ?_
    · have early : sys.stage.cleared = false := by
        cases at_stage : sys.stage with
        | locking => rfl
        | looking => rfl
        | _ => simp [at_stage, CompleteStage.waiting] at waiting
      exact gathering.called at_i here step (inv.linked early) received
    · exact Assembly.keeps_called at_i here step creates (early past)

theorem Assembly.Inv.completed (plain : Plain w.uploadId) (inv : sys.Inv s w u now) {n : Nat}
    {node : Node} {stage : CompleteStage}
    (step : Completes s ⟨w.bucket, w.key, w.uploadId, now⟩ n sys.node sys.stage node stage)
    (settled : sys.undisturbed s w (.complete n) = true) : (sys.completed node stage).Inv s w u now := by
  have early : stage.cleared = false → sys.stage.cleared = false := by
    intro kept
    generalize sys.stage = before at step
    cases step with
    | removeTemp => cases kept
    | _ => rfl
  refine ⟨inv.received, inv.pieces, fun kept c member ino acc receiving => ?_, ?_⟩
  · have named := inv.linked (early kept) c member ino acc receiving
    exact (inv.phase.sameAt_part plain step kept c.partNumber).inode.trans named
  · exact inv.phase.complete plain inv.pieces inv.linked settled step

theorem Assembly.Inv.step (plain : Plain w.uploadId) (inv : sys.Inv s w u now) {e : AssemblyEvent}
    (undisturbed : sys.undisturbed s w e = true) (step : sys.step s w now e = some sys') :
    sys'.Inv s w u now := by
  cases Assembly.step_cases step with
  | upload partNumber body => exact inv.begun plain partNumber body
  | part at_i here made => exact inv.called plain at_i here made undisturbed
  | stop at_i unanswered => exact inv.stopped plain at_i
  | complete made => exact inv.completed plain made undisturbed

end Runs

end Save.Api
