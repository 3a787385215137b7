import Save.Replication.Service
import Save.Lib.Run

/-!
# A participant that serves many coordinators

The requests of `ReplicationService` (`replication/service.rs`) as one machine: a
request in progress is a `Job`, and jobs take their file operations in any order.
The table of prepares is behind a lock, so each use of it is one step; what a
request does to files comes before or after. A failing request drops its temp
object, and a restart of the participant loses the jobs and the table and keeps the
files.

A request does not say who sent it. The machine keeps beside the service which
prepare an entry comes from and which prepare was last acknowledged to whom; the
service reads neither.
-/

namespace Save.Replication
set_option autoImplicit false
open Save.Text Save.Kv Save.Common Save.Files Save.Storage Save.Run

variable [Sha256]

/-- A prepare as its coordinator sent it. -/
structure Origin where
  coordinator : Nat
  requestId : Nat
  key : String
  data : Bytes
  checksum : String
  deriving DecidableEq, Repr

def Origin.tempId (o : Origin) : String := Replication.tempId o.requestId o.key

inductive PrepareCall where
  | unary (req : PrepareRequest)
  | stream (chunks : List PrepareChunk)

/-- What is left of the call after the checks that come before any file operation:
`prepare_object` compares the checksum here, `stream_prepare_object` when it has all chunks. -/
def PrepareCall.checked (coordinator : Nat) : PrepareCall → Option Origin
  | .unary req =>
    if req.checksum ≠ "" ∧ Sha256.digest req.data ≠ req.checksum then none
    else if ValidKey req.key then some ⟨coordinator, req.requestId, req.key, req.data, req.checksum⟩
    else none
  | .stream [] => none
  | .stream (first :: rest) =>
    if first.key = "" then none
    else if ValidKey first.key then
      some ⟨coordinator, first.requestId, first.key, (first :: rest).flatMap PrepareChunk.chunk,
        expectedChecksum (first :: rest)⟩
    else none

inductive Job where
  /-- A prepare that has not reached the table. -/
  | preparing (origin : Origin) (stage : Stage)
  /-- A commit that has taken its entry; `acked` is the prepare last acknowledged to the
  coordinator under the id when the commit came, `published` the object it has written. -/
  | committing (coordinator : Nat) (t : String) (acked : Option Origin)
      (published : Option (Path × Bytes)) (stage : Stage)
  /-- An abort that has taken its entry. -/
  | aborting (temp : TempObject)
  deriving DecidableEq, Repr

/-- The stages of `write_temp_object` before its return. -/
def Writing : Stage → Bool
  | .start => true
  | .handle _ => true
  | .copying _ _ _ _ => true
  | .copied _ => true
  | _ => false

/-- The next operation of `commit_object`, in which the key and the body play no part. -/
def commitStep (s : ObjectStorage) (fs : Fs) (stage : Stage) : Option (Fs × Stage) :=
  s.advance "" [] 0 fs stage

/-- The object that the next operation of a commit has written. -/
def publication (fs : Fs) (published : Option (Path × Bytes)) : Stage → Option (Path × Bytes)
  | .dirMade t => (fs.read t.finalPath).map fun bytes => (t.finalPath, bytes)
  | _ => published

/-- The next file operation of a job. -/
def Job.advance (s : ObjectStorage) (n : Nat) (fs : Fs) : Job → Option (Fs × Option Job)
  | .preparing o stage =>
    if Writing stage then
      (s.advance o.key o.data n fs stage).map fun next => (next.1, some (.preparing o next.2))
    else none
  | .committing c t acked published stage =>
    (commitStep s fs stage).map fun next =>
      (next.1, some (.committing c t acked (publication next.1 published stage) next.2))
  | .aborting temp => some (fs.unlink temp.tempPath, none)

/-- What is left when a job fails. -/
def Job.dropped (fs : Fs) : Job → Fs
  | .preparing _ stage => stage.dropped fs
  | .committing _ _ _ _ stage => stage.dropped fs
  | .aborting temp => fs.unlink temp.tempPath

structure Running (s : ObjectStorage) where
  service : Service s
  /-- The requests in progress, by the number they were given. -/
  jobs : Nat → Option Job
  next : Nat
  /-- The prepare an entry comes from. -/
  origins : String → Option Origin
  /-- The prepare last acknowledged to a coordinator under an id. -/
  acked : Nat → String → Option Origin

variable {s : ObjectStorage}

def Running.start (s : ObjectStorage) (fs : Fs) : Running s :=
  ⟨.fresh s fs, fun _ => none, 0, fun _ => none, fun _ _ => none⟩

/-- The state with other files and another job under the number. -/
def Running.after (sys : Running s) (fs : Fs) (i : Nat) (job : Option Job) : Running s :=
  { sys with service := { sys.service with fs }, jobs := Function.update sys.jobs i job }

def Running.begin (sys : Running s) (job : Job) : Running s :=
  { sys with jobs := Function.update sys.jobs sys.next (some job), next := sys.next + 1 }

/-- A new job for an entry that is taken out of the table. -/
def Running.take (sys : Running s) (t : String) (job : Job) : Running s :=
  { sys.begin job with service := sys.service.remove t sys.service.fs }

/-- The written temp file of a prepare is remembered, and the prepare is acknowledged. -/
def Running.register (sys : Running s) (i : Nat) (o : Origin) (now : Nat) : Running s :=
  { sys with
    service := sys.service.insert o.requestId o.key ⟨tempObject s o.key, o.checksum, now⟩ rfl
    jobs := Function.update sys.jobs i none
    origins := Function.update sys.origins o.tempId (some o)
    acked := Function.update sys.acked o.coordinator
      (Function.update (sys.acked o.coordinator) o.tempId (some o)) }

/-- The requests carry the coordinator that sent them. -/
inductive RequestEvent where
  | prepare (coordinator : Nat) (call : PrepareCall)
  | commit (coordinator : Nat) (t : String)
  | abort (coordinator : Nat) (t : String)
  /-- A file operation of a job; `n + 1` bounds the bytes of one write. -/
  | advance (i n : Nat)
  /-- A prepare whose temp file is written takes the lock of the table and answers. -/
  | register (i now : Nat)
  /-- A commit answers success. -/
  | answer (i : Nat)
  | fail (i : Nat)
  | cleanup (now maxAge : Nat)
  | crash

def Running.step (sys : Running s) : RequestEvent → Option (Running s)
  | .prepare c call =>
    match call.checked c with
    | none => some sys
    | some o => some (sys.begin (.preparing o .start))
  | .commit c t =>
    match sys.service.pending.get t with
    | none => some sys
    | some p => some (sys.take t (.committing c t (sys.acked c t) none (.written p.temp)))
  | .abort _ t =>
    match sys.service.pending.get t with
    | none => some sys
    | some p => some (sys.take t (.aborting p.temp))
  | .advance i n => do
    let job ← sys.jobs i
    let next ← job.advance s n sys.service.fs
    return sys.after next.1 i next.2
  | .register i now =>
    match sys.jobs i with
    | some (.preparing o (.written temp)) =>
      if o.checksum ≠ "" ∧ Sha256.digest o.data ≠ o.checksum then
        some (sys.after (sys.service.fs.unlink temp.tempPath) i none)
      else some (sys.register i o now)
    | _ => none
  | .answer i =>
    match sys.jobs i with
    | some (.committing _ _ _ _ .committed) => some (sys.after sys.service.fs i none)
    | _ => none
  | .fail i => do
    let job ← sys.jobs i
    return sys.after (job.dropped sys.service.fs) i none
  | .cleanup now maxAge =>
    some { sys with service := (cleanupStalePrepares sys.service now maxAge).1 }
  | .crash =>
    some { sys with service := .fresh s sys.service.fs, jobs := fun _ => none }

/-! ## Requests that run alone

Taken without interruption, the steps of a request have the effect of its function.
-/

section Alone

variable (sys : Running s) (c : Nat)

theorem abort_alone {t : String} {p : Pending} (there : sys.service.pending.get t = some p) :
    (exec Running.step sys [.abort c t, .advance sys.next 0]).map Running.service =
      some (abortObject sys.service t).1 := by
  simp [exec, Running.step, there, Running.take, Running.begin, Running.after, Job.advance,
    abortObject, Service.remove]

/-- A commit that finds its temp file. -/
theorem commit_alone {t : String} {p : Pending} (there : sys.service.pending.get t = some p)
    {fs : Fs} (call : sys.service.fs.rename p.temp.tempPath p.temp.finalPath = some fs) :
    (exec Running.step sys (.commit c t :: List.replicate (if s.fsyncMode = "full" then 3 else 2)
      (.advance sys.next 0))).map Running.service = some (commitObject sys.service t).1 := by
  by_cases full : s.fsyncMode = "full"
  · simp [exec, Running.step, there, Running.take, Running.begin, Running.after, Job.advance,
      commitStep, ObjectStorage.advance, commitObject, Service.remove, call, full]
  · simp [exec, Running.step, there, Running.take, Running.begin, Running.after, Job.advance,
      commitStep, ObjectStorage.advance, commitObject, Service.remove, call, full]

/-- A commit whose temp file is gone. -/
theorem commit_alone_gone {t : String} {p : Pending} (there : sys.service.pending.get t = some p)
    (gone : sys.service.fs.rename p.temp.tempPath p.temp.finalPath = none) :
    (exec Running.step sys [.commit c t, .advance sys.next 0, .fail sys.next]).map Running.service =
      some (commitObject sys.service t).1 := by
  simp [exec, Running.step, there, Running.take, Running.begin, Running.after, Job.advance,
    commitObject, Service.remove, gone, commitStep, ObjectStorage.advance, Job.dropped,
    Stage.dropped]

/-- The events of a prepare whose data is written at once. -/
def PrepareCall.events (sys : Running s) (c now : Nat) (data : Bytes) (call : PrepareCall) :
    List RequestEvent :=
  .prepare c call :: List.replicate (if data = [] then 4 else 5) (.advance sys.next data.length) ++
    [.register sys.next now]

/-- A prepare that passes its first checks. -/
theorem prepare_alone (now : Nat) {call : PrepareCall} {o : Origin}
    (checked : call.checked c = some o) (valid : ValidKey o.key) :
    (exec Running.step sys (call.events sys c now o.data)).map Running.service =
      some (if o.checksum ≠ "" ∧ Sha256.digest o.data ≠ o.checksum then
        { sys.service with
          fs := (writeFile sys.service.fs (s.tempOf o.key) o.data).unlink (s.tempOf o.key) }
      else (sys.service.prepared now o.key o.requestId o.data o.checksum).1) := by
  have temp := createTempObject_ok (s := s) valid
  have whole : o.data.take (o.data.length + 1) = o.data := List.take_of_length_le (by omega)
  have written : (exec Running.step sys (.prepare c call ::
      List.replicate (if o.data = [] then 4 else 5) (.advance sys.next o.data.length))) =
      some ((sys.begin (.preparing o .start)).after
        (writeFile sys.service.fs (s.tempOf o.key) o.data) sys.next
        (some (.preparing o (.written (tempObject s o.key))))) := by
    by_cases empty : o.data = []
    · simp [exec, Running.step, checked, Running.begin, Running.after, Job.advance, Writing,
        ObjectStorage.advance, temp, empty, writeFile, Fs.write_nil]
      rfl
    · simp [exec, Running.step, checked, Running.begin, Running.after, Job.advance, Writing,
        ObjectStorage.advance, temp, empty, writeFile, whole]
      rfl
  rw [PrepareCall.events, exec_append, written]
  simp only [Option.bind_some, exec, Running.step]
  by_cases mismatch : o.checksum ≠ "" ∧ Sha256.digest o.data ≠ o.checksum
  · simp [mismatch, Running.after, Running.begin, tempObject]
  · simp [mismatch, Running.after, Running.begin, Running.register, Service.prepared]

theorem prepareObject_alone (now : Nat) {req : PrepareRequest} (accepted : Accepted req) :
    (exec Running.step sys ((PrepareCall.unary req).events sys c now req.data)).map
      Running.service = some (prepareObject sys.service now req).1 := by
  have checked : ¬ (req.checksum ≠ "" ∧ Sha256.digest req.data ≠ req.checksum) := by
    rintro ⟨present, wrong⟩
    exact accepted.1.elim present wrong
  have call : (PrepareCall.unary req).checked c =
      some ⟨c, req.requestId, req.key, req.data, req.checksum⟩ := by
    simp only [PrepareCall.checked, if_neg checked, if_pos accepted.2]
  rw [prepare_alone sys c now call accepted.2, if_neg checked, prepareObject, if_neg checked,
    createTempObject_ok accepted.2]

theorem streamPrepareObject_alone (now : Nat) {first : PrepareChunk} {rest : List PrepareChunk}
    (named : first.key ≠ "") (valid : ValidKey first.key) :
    (exec Running.step sys ((PrepareCall.stream (first :: rest)).events sys c now
      ((first :: rest).flatMap PrepareChunk.chunk))).map Running.service =
      some (streamPrepareObject sys.service now (first :: rest)).1 := by
  have call : (PrepareCall.stream (first :: rest)).checked c = some ⟨c, first.requestId, first.key,
      (first :: rest).flatMap PrepareChunk.chunk, expectedChecksum (first :: rest)⟩ := by
    simp only [PrepareCall.checked, if_neg named, if_pos valid]
  rw [prepare_alone sys c now call valid, streamPrepareObject, streamPrepareData, if_neg named,
    createTempObject_ok valid]
  simp only [tempObject]
  split <;> rfl

end Alone

end Save.Replication
