import Save.Lib.Readers
import Save.Storage.Objects

/-!
# Writing the temp file

`write_temp_object` (`save-storage/src/lib.rs`) copies whatever reader it is given:
`copy` polls the reader with its buffer, which may hold bytes already, gives the
file any part of what it holds, and starts over with an empty buffer; the file
writes behind the call, until it is flushed. When the call returns `Ok` the temp
file holds what the reader had to deliver (`TempWrite.written_file`), and on the way
it does to the file system what the stages of the write do (`TempWrite.advances`).
-/

namespace Save.Storage
set_option autoImplicit false
open Save.Files Save.Readers Save.Run

/-! ## The call -/

/-- The longest file: its offsets are signed. -/
def maxFileLength : Nat := 2 ^ 63 - 1

/-- An open file. -/
structure OpenFile where
  ino : Nat
  offset : Nat
  /-- Accepted, and not written yet. -/
  queued : Bytes
  deriving DecidableEq

/-- The buffer of `copy`: what it holds, how much of that the file has taken, and whether the reader
has come to its end. -/
structure CopyBuffer where
  filled : Bytes
  pos : Nat
  readDone : Bool
  deriving DecidableEq

/-- `write_temp_object` between its operations. -/
inductive TempStage where
  | start
  /-- `create_temp_object` has returned. -/
  | handle (t : TempObject)
  | copying (t : TempObject) (file : OpenFile) (buf : CopyBuffer)
  /-- `copy` has returned; the flush is next. -/
  | copied (t : TempObject) (file : OpenFile)
  /-- `sync_all` is next, unless the mode is `none`. -/
  | flushed (t : TempObject)
  /-- The call has returned `Ok`. -/
  | written (t : TempObject)
  | failed (e : StorageError)
  deriving DecidableEq

structure TempWrite (R : Type) where
  fs : Fs
  reader : R
  stage : TempStage

inductive TempEvent where
  /-- The next operation of the call returns. -/
  | next
  /-- It fails. -/
  | fail (msg : String)
  /-- `copy` polls the reader with a buffer of this size. -/
  | poll (capacity : Nat)
  /-- The file takes `n + 1` bytes. -/
  | write (n : Nat)
  /-- `copy` starts over with an empty buffer. -/
  | restart
  /-- Of the bytes that are queued, at most `n + 1` are written. -/
  | store (n : Nat)
  deriving DecidableEq

variable [Sha256] {R : Type} [AsyncRead R]

/-- One poll of the reader; its end shows as a poll that adds nothing. -/
def CopyBuffer.fill (buf : CopyBuffer) (reader : R) (capacity : Nat)
    (room : buf.filled.length < capacity) : R × Except String CopyBuffer :=
  match AsyncRead.pollRead reader ⟨buf.filled, capacity, room.le⟩ with
  | (reader, readBuf, .pending) =>
    (reader, .ok { buf with filled := readBuf.filled.take buf.filled.length })
  | (reader, _, .ready (.error msg)) => (reader, .error msg)
  | (reader, readBuf, .ready (.ok _)) =>
    (reader, .ok { buf with
      filled := readBuf.filled
      readDone := readBuf.filled.length == buf.filled.length })

/-- The operation that comes next, when it succeeds. -/
def TempWrite.next (s : ObjectStorage) (key : String) (w : TempWrite R) : Option (TempWrite R) :=
  match w.stage with
  | .start =>
    match s.createTempObject key with
    | .error e => some { w with stage := .failed e }
    | .ok t => some { w with stage := .handle t }
  | .handle t => some { w with
      fs := (w.fs.create t.tempPath).2
      stage := .copying t ⟨(w.fs.create t.tempPath).1, 0, []⟩ ⟨[], 0, false⟩ }
  | .copying t file buf =>
    if buf.readDone = true ∧ buf.pos = buf.filled.length then some { w with stage := .copied t file }
    else none
  | .copied t file => if file.queued = [] then some { w with stage := .flushed t } else none
  | .flushed t => some { w with stage := .written t }
  | _ => none

/-- The operation that comes next can fail. -/
def TempStage.canFail (s : ObjectStorage) : TempStage → Bool
  | .handle _ => true
  | .copying _ _ _ => true
  | .copied _ _ => true
  | .flushed _ => s.fsyncMode != "none"
  | _ => false

/-- A file writes what is queued from its front. -/
def OpenFile.store (file : OpenFile) (fs : Fs) (n : Nat) : Option (Fs × OpenFile) :=
  let chunk := file.queued.take (n + 1)
  if chunk ≠ [] ∧ file.offset + chunk.length ≤ maxFileLength then
    some (fs.write file.ino file.offset chunk,
      { file with offset := file.offset + chunk.length, queued := file.queued.drop (n + 1) })
  else none

def TempWrite.step (s : ObjectStorage) (key : String) (w : TempWrite R) :
    TempEvent → Option (TempWrite R)
  | .next => w.next s key
  | .fail msg => if w.stage.canFail s then some { w with stage := .failed (.io msg) } else none
  | .poll capacity =>
    match w.stage with
    | .copying t file buf =>
      if room : buf.filled.length < capacity then
        if buf.readDone then none
        else
          match buf.fill w.reader capacity room with
          | (reader, .error msg) => some { w with reader, stage := .failed (.io msg) }
          | (reader, .ok buf) => some { w with reader, stage := .copying t file buf }
      else none
    | _ => none
  | .write n =>
    match w.stage with
    | .copying t file buf =>
      if buf.pos + n < buf.filled.length then some { w with
        stage := .copying t
          { file with queued := file.queued ++ (buf.filled.drop buf.pos).take (n + 1) }
          { buf with pos := buf.pos + (n + 1) } }
      else none
    | _ => none
  | .restart =>
    match w.stage with
    | .copying t file buf =>
      if buf.pos = buf.filled.length then some { w with
        stage := .copying t file { buf with filled := [], pos := 0 } }
      else none
    | _ => none
  | .store n =>
    match w.stage with
    | .copying t file buf =>
      (file.store w.fs n).map fun out => { w with fs := out.1, stage := .copying t out.2 buf }
    | .copied t file =>
      (file.store w.fs n).map fun out => { w with fs := out.1, stage := .copied t out.2 }
    | _ => none

/-! ## What a step does -/

inductive TempWrite.Does (s : ObjectStorage) (key : String) (w : TempWrite R) : TempWrite R → Prop where
  /-- The key is refused, an operation fails or the reader does. -/
  | fail (reader : R) (e : StorageError) : Does s key w ⟨w.fs, reader, .failed e⟩
  | handle {t : TempObject} (stage : w.stage = .start) (call : s.createTempObject key = .ok t) :
      Does s key w { w with stage := .handle t }
  | create {t : TempObject} (stage : w.stage = .handle t) : Does s key w { w with
      fs := (w.fs.create t.tempPath).2
      stage := .copying t ⟨(w.fs.create t.tempPath).1, 0, []⟩ ⟨[], 0, false⟩ }
  | poll {t : TempObject} {file : OpenFile} {buf buf' : CopyBuffer} {reader : R} {capacity : Nat}
      (stage : w.stage = .copying t file buf) (reading : buf.readDone = false)
      (room : buf.filled.length < capacity)
      (polled : buf.fill w.reader capacity room = (reader, .ok buf')) :
      Does s key w ⟨w.fs, reader, .copying t file buf'⟩
  | write {t : TempObject} {file : OpenFile} {buf : CopyBuffer} {n : Nat}
      (stage : w.stage = .copying t file buf) (inside : buf.pos + n < buf.filled.length) :
      Does s key w { w with
        stage := .copying t
          { file with queued := file.queued ++ (buf.filled.drop buf.pos).take (n + 1) }
          { buf with pos := buf.pos + (n + 1) } }
  | restart {t : TempObject} {file : OpenFile} {buf : CopyBuffer}
      (stage : w.stage = .copying t file buf) (all : buf.pos = buf.filled.length) :
      Does s key w { w with stage := .copying t file { buf with filled := [], pos := 0 } }
  | store {t : TempObject} {file file' : OpenFile} {buf : CopyBuffer} {fs : Fs} {n : Nat}
      (stage : w.stage = .copying t file buf) (stored : file.store w.fs n = some (fs, file')) :
      Does s key w { w with fs, stage := .copying t file' buf }
  | storeCopied {t : TempObject} {file file' : OpenFile} {fs : Fs} {n : Nat}
      (stage : w.stage = .copied t file) (stored : file.store w.fs n = some (fs, file')) :
      Does s key w { w with fs, stage := .copied t file' }
  | copied {t : TempObject} {file : OpenFile} {buf : CopyBuffer}
      (stage : w.stage = .copying t file buf) (atEnd : buf.readDone = true)
      (all : buf.pos = buf.filled.length) : Does s key w { w with stage := .copied t file }
  | flushed {t : TempObject} {file : OpenFile} (stage : w.stage = .copied t file)
      (empty : file.queued = []) : Does s key w { w with stage := .flushed t }
  | written {t : TempObject} (stage : w.stage = .flushed t) :
      Does s key w { w with stage := .written t }

section

variable {s : ObjectStorage} {key : String} {w w' : TempWrite R} {e : TempEvent}

theorem TempWrite.next_cases (taken : w.next s key = some w') : w.Does s key w' := by
  unfold TempWrite.next at taken
  cases stage : w.stage with
  | start =>
    cases call : s.createTempObject key with
    | error e =>
      simp only [stage, call, Option.some.injEq] at taken
      subst taken
      exact .fail w.reader e
    | ok t =>
      simp only [stage, call, Option.some.injEq] at taken
      subst taken
      exact .handle stage call
  | handle t =>
    simp only [stage, Option.some.injEq] at taken
    subst taken
    exact .create stage
  | copying t file buf =>
    simp only [stage, Option.ite_none_right_eq_some, Option.some.injEq] at taken
    obtain ⟨⟨atEnd, all⟩, rfl⟩ := taken
    exact .copied stage atEnd all
  | copied t file =>
    simp only [stage, Option.ite_none_right_eq_some, Option.some.injEq] at taken
    obtain ⟨empty, rfl⟩ := taken
    exact .flushed stage empty
  | flushed t =>
    simp only [stage, Option.some.injEq] at taken
    subst taken
    exact .written stage
  | written t => simp only [stage, reduceCtorEq] at taken
  | failed e => simp only [stage, reduceCtorEq] at taken

theorem TempWrite.step_cases (taken : w.step s key e = some w') : w.Does s key w' := by
  cases e with
  | next => exact TempWrite.next_cases taken
  | fail msg =>
    simp only [TempWrite.step, Option.ite_none_right_eq_some, Option.some.injEq] at taken
    obtain ⟨-, rfl⟩ := taken
    exact .fail w.reader _
  | poll capacity =>
    simp only [TempWrite.step] at taken
    cases stage : w.stage with
    | copying t file buf =>
      simp only [stage, Option.dite_none_right_eq_some, Option.ite_none_left_eq_some] at taken
      obtain ⟨room, reading, taken⟩ := taken
      cases polled : buf.fill w.reader capacity room with
      | mk reader answer =>
        cases answer with
        | error msg =>
          simp only [polled, Option.some.injEq] at taken
          subst taken
          exact .fail reader _
        | ok buf' =>
          simp only [polled, Option.some.injEq] at taken
          subst taken
          exact .poll stage (by simpa using reading) room polled
    | _ => simp only [stage, reduceCtorEq] at taken
  | write n =>
    simp only [TempWrite.step] at taken
    cases stage : w.stage with
    | copying t file buf =>
      simp only [stage, Option.ite_none_right_eq_some, Option.some.injEq] at taken
      obtain ⟨inside, rfl⟩ := taken
      exact .write stage inside
    | _ => simp only [stage, reduceCtorEq] at taken
  | restart =>
    simp only [TempWrite.step] at taken
    cases stage : w.stage with
    | copying t file buf =>
      simp only [stage, Option.ite_none_right_eq_some, Option.some.injEq] at taken
      obtain ⟨all, rfl⟩ := taken
      exact .restart stage all
    | _ => simp only [stage, reduceCtorEq] at taken
  | store n =>
    simp only [TempWrite.step] at taken
    cases stage : w.stage with
    | copying t file buf =>
      simp only [stage, Option.map_eq_some_iff] at taken
      obtain ⟨⟨fs, file'⟩, stored, rfl⟩ := taken
      exact .store stage stored
    | copied t file =>
      simp only [stage, Option.map_eq_some_iff] at taken
      obtain ⟨⟨fs, file'⟩, stored, rfl⟩ := taken
      exact .storeCopied stage stored
    | _ => simp only [stage, reduceCtorEq] at taken

end

/-! ## What the file holds -/

/-- The temp file is open, and its content with what is queued is what it has accepted. -/
structure OpenFile.Writes (file : OpenFile) (fs : Fs) (t : TempObject) (accepted : Bytes) : Prop where
  named : fs.inode t.tempPath = some file.ino
  offset : file.offset = (fs.data file.ino).length
  bound : file.offset ≤ maxFileLength
  accepted : fs.data file.ino ++ file.queued = accepted

/-- The call has accepted what the reader has delivered, up to what its buffer still holds. -/
def TempWrite.Sound (Left : R → Bytes → Prop) (body : Bytes) (w : TempWrite R) : Prop :=
  match w.stage with
  | .start => Left w.reader body
  | .handle _ => Left w.reader body
  | .copying t file buf => ∃ accepted left, file.Writes w.fs t accepted ∧ Left w.reader left ∧
    accepted ++ buf.filled.drop buf.pos ++ left = body ∧ buf.pos ≤ buf.filled.length ∧
    (buf.readDone = true → left = [])
  | .copied t file => file.Writes w.fs t body ∧ Left w.reader []
  | .flushed t => w.fs.read t.tempPath = some body ∧ Left w.reader [] ∧ body.length ≤ maxFileLength
  | .written t => w.fs.read t.tempPath = some body ∧ Left w.reader [] ∧ body.length ≤ maxFileLength
  | .failed _ => True

section

variable {Left : R → Bytes → Prop} {body : Bytes}

omit [Sha256] in
/-- A poll adds to the buffer what is next, and sees the end of the reader for what it is. -/
theorem CopyBuffer.fill_cases (delivers : Delivers Left) {buf buf' : CopyBuffer} {reader reader' : R}
    {left : Bytes} (here : Left reader left) {capacity : Nat} {room : buf.filled.length < capacity}
    (polled : buf.fill reader capacity room = (reader', .ok buf')) (reading : buf.readDone = false) :
    ∃ new rest, left = new ++ rest ∧ Left reader' rest ∧ buf'.filled = buf.filled ++ new ∧
      buf'.pos = buf.pos ∧ (buf'.readDone = true → rest = []) := by
  have whenReady := delivers.ready reader left ⟨buf.filled, capacity, room.le⟩ here
  have whenPending := delivers.pending reader left ⟨buf.filled, capacity, room.le⟩ here
  unfold CopyBuffer.fill at polled
  generalize AsyncRead.pollRead reader ⟨buf.filled, capacity, room.le⟩ = answer
    at whenReady whenPending polled
  obtain ⟨r, readBuf, _ | _ | _⟩ := answer
  · obtain ⟨same, later⟩ := whenPending rfl
    cases polled
    refine ⟨[], left, rfl, later, ?_, rfl, fun done => ?_⟩
    · rw [same, List.take_length, List.append_nil]
    · rw [reading] at done
      cases done
  · cases polled
  · obtain ⟨new, rest, split, added, later, ended⟩ := whenReady rfl
    cases polled
    refine ⟨new, rest, split, later, added, rfl, fun done => ?_⟩
    -- the poll had room, so that only the end adds nothing
    have none : new = [] := by
      rw [added, beq_iff_eq, List.length_append] at done
      exact List.length_eq_zero_iff.1 (Nat.add_eq_left.1 done)
    have left_nil : left = [] := (ended none).resolve_left (Nat.sub_ne_zero_of_lt room)
    exact (List.append_eq_nil_iff.1 (split ▸ left_nil)).2

omit [Sha256] [AsyncRead R] in
theorem OpenFile.Writes.store {file file' : OpenFile} {fs fs' : Fs} {t : TempObject}
    {accepted : Bytes} {n : Nat} (writes : file.Writes fs t accepted)
    (stored : file.store fs n = some (fs', file')) : file'.Writes fs' t accepted := by
  simp only [OpenFile.store, Option.ite_none_right_eq_some, Option.some.injEq, Prod.mk.injEq] at stored
  obtain ⟨⟨-, fits⟩, rfl, rfl⟩ := stored
  have content : (fs.write file.ino file.offset (file.queued.take (n + 1))).data file.ino =
      fs.data file.ino ++ file.queued.take (n + 1) := by
    rw [Fs.data_write, writes.offset, writeAt_end]
  refine ⟨writes.named, ?_, fits, ?_⟩
  · rw [content, List.length_append, writes.offset]
  · rw [content, List.append_assoc, List.take_append_drop, writes.accepted]

theorem TempWrite.Sound.step {s : ObjectStorage} {key : String} {w w' : TempWrite R} {e : TempEvent}
    (delivers : Delivers Left) (sound : w.Sound Left body) (taken : w.step s key e = some w') :
    w'.Sound Left body := by
  unfold TempWrite.Sound at sound
  cases TempWrite.step_cases taken with
  | fail reader e => trivial
  | handle stage call =>
    rw [stage] at sound
    exact sound
  | @create t stage =>
    rw [stage] at sound
    refine ⟨[], body, ⟨Fs.inode_create _ _, ?_, Nat.zero_le _, ?_⟩, sound, rfl, Nat.le_refl _, nofun⟩
    · rw [Fs.data_create]
      rfl
    · rw [Fs.data_create]
      rfl
  | poll stage reading room polled =>
    rw [stage] at sound
    obtain ⟨accepted, left, writes, here, whole, pos, -⟩ := sound
    obtain ⟨new, rest, rfl, later, added, same, atEnd⟩ :=
      CopyBuffer.fill_cases delivers here polled reading
    refine ⟨accepted, rest, writes, later, ?_, ?_, atEnd⟩
    · rw [added, same, List.drop_append_of_le_length pos, ← whole]
      simp only [List.append_assoc]
    · rw [added, same, List.length_append]
      omega
  | @write t file buf n stage inside =>
    rw [stage] at sound
    obtain ⟨accepted, left, writes, here, whole, pos, atEnd⟩ := sound
    refine ⟨accepted ++ (buf.filled.drop buf.pos).take (n + 1), left,
      ⟨writes.named, writes.offset, writes.bound, ?_⟩, here, ?_, inside, atEnd⟩
    · rw [← writes.accepted, List.append_assoc]
    · rw [List.append_assoc accepted, ← List.drop_drop, List.take_append_drop, whole]
  | restart stage all =>
    rw [stage] at sound
    obtain ⟨accepted, left, writes, here, whole, -, atEnd⟩ := sound
    refine ⟨accepted, left, writes, here, ?_, Nat.le_refl _, atEnd⟩
    rwa [all, List.drop_length] at whole
  | store stage stored =>
    rw [stage] at sound
    obtain ⟨accepted, left, writes, rest⟩ := sound
    exact ⟨accepted, left, writes.store stored, rest⟩
  | storeCopied stage stored =>
    rw [stage] at sound
    exact ⟨sound.1.store stored, sound.2⟩
  | copied stage atEnd all =>
    rw [stage] at sound
    obtain ⟨accepted, left, writes, here, whole, -, done⟩ := sound
    obtain rfl := done atEnd
    rw [all, List.drop_length, List.append_nil, List.append_nil] at whole
    exact ⟨whole ▸ writes, here⟩
  | flushed stage empty =>
    rw [stage] at sound
    obtain ⟨writes, here⟩ := sound
    have content := writes.accepted
    rw [empty, List.append_nil] at content
    refine ⟨?_, here, ?_⟩
    · rw [Fs.read, writes.named, Option.map_some, content]
    · rw [← content, ← writes.offset]
      exact writes.bound
  | written stage =>
    rw [stage] at sound
    exact sound

/-- When `write_temp_object` returns `Ok`, the temp file holds what the reader had to deliver, and the
reader is at its end. -/
theorem TempWrite.written_file (delivers : Delivers Left) {s : ObjectStorage} {key : String} {fs : Fs}
    {reader : R} (here : Left reader body) {events : List TempEvent} {w : TempWrite R}
    (ran : exec (TempWrite.step s key) ⟨fs, reader, .start⟩ events = some w) {t : TempObject}
    (written : w.stage = .written t) :
    w.fs.read t.tempPath = some body ∧ Left w.reader [] ∧ body.length ≤ maxFileLength := by
  have start : TempWrite.Sound Left body ⟨fs, reader, .start⟩ := here
  have sound : w.Sound Left body :=
    exec_invariant_always (fun _ _ _ sound taken => sound.step delivers taken) start ran
  unfold TempWrite.Sound at sound
  rwa [written] at sound

/-! ## The stages of the write -/

/-- The stage of a write of `body` that the call is at; there is none once it has failed. -/
def TempStage.asStage (body : Bytes) : TempStage → Option Stage
  | .start => some .start
  | .handle t => some (.handle t)
  | .copying t file _ => some (.copying t file.ino file.offset (body.drop file.offset))
  | .copied t file => some (.copying t file.ino file.offset (body.drop file.offset))
  | .flushed t => some (.copied t)
  | .written t => some (.written t)
  | .failed _ => none

omit [Sha256] in
/-- What a file still has to write comes next in the body. -/
theorem OpenFile.Writes.drop {file : OpenFile} {fs : Fs} {t : TempObject} {accepted rest : Bytes}
    (writes : file.Writes fs t accepted) (whole : accepted ++ rest = body) :
    body.drop file.offset = file.queued ++ rest := by
  rw [← whole, ← writes.accepted, writes.offset, List.append_assoc, List.drop_left]

/-- A write of the file is one of the stage. -/
theorem OpenFile.Writes.advances (s : ObjectStorage) (key : String) {file file' : OpenFile}
    {fs fs' : Fs} {t : TempObject} {accepted rest : Bytes} {n : Nat}
    (writes : file.Writes fs t accepted) (whole : accepted ++ rest = body)
    (stored : file.store fs n = some (fs', file')) :
    Advances s key body fs (.copying t file.ino file.offset (body.drop file.offset)) fs'
      (.copying t file'.ino file'.offset (body.drop file'.offset)) := by
  have later := (writes.store stored).drop whole
  simp only [OpenFile.store, Option.ite_none_right_eq_some, Option.some.injEq, Prod.mk.injEq] at stored
  obtain ⟨-, rfl, rfl⟩ := stored
  have here : body.drop file.offset =
      file.queued.take (n + 1) ++ (file.queued.drop (n + 1) ++ rest) := by
    rw [writes.drop whole, ← List.append_assoc, List.take_append_drop]
  rw [here, later]
  exact .write fs t file.ino file.offset _ _

/-- A step of the call is none of the write, or its next one, or the call fails and leaves the files to
the handle it drops. -/
theorem TempWrite.advances {s : ObjectStorage} {key : String} {w w' : TempWrite R} {e : TempEvent}
    (sound : w.Sound Left body) (taken : w.step s key e = some w') :
    w'.fs = w.fs ∧ (w'.stage.asStage body = none ∨ w'.stage.asStage body = w.stage.asStage body) ∨
      ∃ stage stage', w.stage.asStage body = some stage ∧ w'.stage.asStage body = some stage' ∧
        Advances s key body w.fs stage w'.fs stage' := by
  unfold TempWrite.Sound at sound
  cases TempWrite.step_cases taken with
  | fail reader e => exact .inl ⟨rfl, .inl rfl⟩
  | handle stage call =>
    rw [stage, createTempObject_eq call]
    exact .inr ⟨_, _, rfl, rfl, .start w.fs⟩
  | create stage =>
    rw [stage]
    exact .inr ⟨_, _, rfl, rfl, .create w.fs _⟩
  | poll stage => exact .inl ⟨rfl, .inr (by rw [stage]; rfl)⟩
  | write stage => exact .inl ⟨rfl, .inr (by rw [stage]; rfl)⟩
  | restart stage => exact .inl ⟨rfl, .inr (by rw [stage]; rfl)⟩
  | store stage stored =>
    rw [stage] at sound ⊢
    obtain ⟨accepted, left, writes, -, whole, -⟩ := sound
    rw [List.append_assoc] at whole
    exact .inr ⟨_, _, rfl, rfl, writes.advances s key whole stored⟩
  | storeCopied stage stored =>
    rw [stage] at sound ⊢
    exact .inr ⟨_, _, rfl, rfl, sound.1.advances s key (List.append_nil body) stored⟩
  | copied stage => exact .inl ⟨rfl, .inr (by rw [stage]; rfl)⟩
  | @flushed t file stage empty =>
    rw [stage] at sound ⊢
    have none := sound.1.drop (List.append_nil body)
    rw [empty] at none
    refine .inr ⟨.copying t file.ino file.offset [], _, ?_, rfl, .copied w.fs _ _ _⟩
    rw [TempStage.asStage, none, List.nil_append]
  | written stage =>
    rw [stage]
    exact .inr ⟨_, _, rfl, rfl, .synced w.fs _⟩

end

end Save.Storage
