import Save.Storage.Objects

/-!
# Object files over whole runs

The writes, deletes and drops of a storage (`save-storage/src/lib.rs`) on any keys,
one file-system operation at a time, with failures at every point and crashes of the
process. A key has one write at a time, as its write lock guarantees, and no delete
inside a commit of its own. `objects_replaced_atomically`: at every moment the file
of an object is absent or has the complete input of a write that was passed to
`commit_object`, and without crashes the files besides the objects are those of the
writes in progress.
-/

namespace Save.Storage
set_option autoImplicit false
open Save.Text Save.Common Save.Files Save.Run

variable [Sha256]

/-- The files of a storage with what is in memory, and with what has been: the inputs passed to
`commit_object`, and for each key those of the last commit that returned, until it is committed
or deleted again. -/
structure Disk where
  fs : Fs
  live : String → Option (Bytes × Stage)
  passed : List (String × Bytes)
  settled : String → Option Bytes

def Disk.start : Disk := ⟨Fs.empty, fun _ => none, [], fun _ => none⟩

inductive FileEvent where
  /-- `write_temp_object` or `put_object` is called. -/
  | write (key : String) (body : Bytes)
  /-- The write of the key makes its next operation; `commit_object` begins with the one behind
  `write_temp_object`. -/
  | advance (key : String) (n : Nat)
  /-- The next operation fails, or the temp object is dropped; `Drop` may fail to remove the file. -/
  | stop (key : String) (removed : Bool)
  | delete (key : String)
  | crash
  deriving DecidableEq, Repr

def FileEvent.key : FileEvent → Option String
  | .write key _ => some key
  | .advance key _ => some key
  | .stop key _ => some key
  | .delete key => some key
  | .crash => none

omit [Sha256] in
theorem FileEvent.eq_crash {e : FileEvent} (own : e.key = none) : e = .crash := by
  cases e with
  | crash => rfl
  | _ => cases own

/-- `write_temp_object` has returned the temp object. -/
def Stage.returned : Stage → Bool
  | .written _ => true
  | _ => false

/-- Inside `commit_object`. -/
def Stage.committing : Stage → Bool
  | .dirMade _ => true
  | .renamed _ => true
  | _ => false

/-- The temp file is created and not yet renamed. -/
def Stage.hasTemp : Stage → Bool
  | .copying _ _ _ _ => true
  | .copied _ => true
  | .written _ => true
  | .dirMade _ => true
  | _ => false

omit [Sha256] in
theorem Stage.temp_of_hasTemp {stage : Stage} (there : stage.hasTemp = true) :
    stage.temp.isSome = true := by
  cases stage with
  | start => cases there
  | handle t => rfl
  | copying t ino offset rest => rfl
  | copied t => rfl
  | written t => rfl
  | dirMade t => rfl
  | renamed t => rfl
  | committed => cases there

/-- The disk after an operation of a write that succeeds. -/
def Disk.advanced (d : Disk) (key : String) (body : Bytes) (stage : Stage) (next : Fs × Stage) : Disk where
  fs := next.1
  live := Function.update d.live key (if next.2 = .committed then none else some (body, next.2))
  passed := if stage.returned then (key, body) :: d.passed else d.passed
  settled :=
    if next.2 = .committed then Function.update d.settled key (some body)
    else if stage.returned then Function.update d.settled key none
    else d.settled

def fileStep (s : ObjectStorage) (d : Disk) : FileEvent → Option Disk
  | .write key body =>
    match d.live key with
    | none => some { d with live := Function.update d.live key (some (body, .start)) }
    | some _ => none
  | .advance key n =>
    match d.live key with
    | none => none
    | some (body, stage) => (s.advance key body n d.fs stage).map (d.advanced key body stage)
  | .stop key removed =>
    match d.live key with
    | none => none
    | some (_, stage) =>
      some { d with
        fs := bif removed then stage.dropped d.fs else d.fs
        live := Function.update d.live key none }
  | .delete key =>
    if (d.live key).any fun write => write.2.committing then none
    else
      match s.deleteObject d.fs key with
      | .error _ => some d
      | .ok fs => some { d with fs, settled := Function.update d.settled key none }
  | .crash => some { d with live := fun _ => none }

/-- The operations of the storage, with what each has found. -/
inductive Acts (s : ObjectStorage) (d : Disk) : FileEvent → Disk → Prop where
  | write {key : String} (body : Bytes) (idle : d.live key = none) :
      Acts s d (.write key body) { d with live := Function.update d.live key (some (body, .start)) }
  | advance {key : String} {body : Bytes} {stage : Stage} {n : Nat} {next : Fs × Stage}
      (live : d.live key = some (body, stage))
      (step : s.advance key body n d.fs stage = some next) :
      Acts s d (.advance key n) (d.advanced key body stage next)
  | stop {key : String} {body : Bytes} {stage : Stage} (removed : Bool)
      (live : d.live key = some (body, stage)) :
      Acts s d (.stop key removed) { d with
        fs := bif removed then stage.dropped d.fs else d.fs
        live := Function.update d.live key none }
  | noObject (key : String) : Acts s d (.delete key) d
  | delete {key : String}
      (calm : ∀ body stage, d.live key = some (body, stage) → stage.committing = false) :
      Acts s d (.delete key)
        { d with fs := d.fs.unlink (s.pathOf key), settled := Function.update d.settled key none }
  | crash : Acts s d .crash { d with live := fun _ => none }

theorem fileStep_cases {s : ObjectStorage} {d d' : Disk} {e : FileEvent}
    (step : fileStep s d e = some d') : Acts s d e d' := by
  cases e with
  | write key body =>
    simp only [fileStep] at step
    split at step
    · rename_i idle
      cases step
      exact .write body idle
    · cases step
  | advance key n =>
    simp only [fileStep] at step
    split at step
    · cases step
    · rename_i body stage live
      obtain ⟨next, advanced, rfl⟩ := Option.map_eq_some_iff.1 step
      exact .advance live advanced
  | stop key removed =>
    simp only [fileStep] at step
    split at step
    · cases step
    · rename_i body stage live
      cases step
      exact .stop removed live
  | delete key =>
    simp only [fileStep] at step
    split at step
    · cases step
    · rename_i idle
      split at step
      · cases step
        exact .noObject key
      · rename_i fs call
        cases step
        rw [deleteObject_eq call]
        refine .delete fun body stage live => ?_
        simpa [live] using idle
  | crash =>
    cases step
    exact .crash

/-- Distinct keys have distinct temp files. -/
theorem Distinct.tempOf_ne {keys : Set String} (distinct : Distinct keys) (s : ObjectStorage)
    {key key' : String} (member : key ∈ keys) (member' : key' ∈ keys) (apart : key ≠ key') :
    s.tempOf key ≠ s.tempOf key' :=
  fun same => apart (distinct member member' (tempOf_inj same))

/-! ## What is known of one key -/

/-- Of a key: its write works on its own files, an object is the input of a write that was committed,
and a settled object is there. -/
structure Disk.Holds (s : ObjectStorage) (d : Disk) (key : String) : Prop where
  content : ∀ body stage, d.live key = some (body, stage) → stage.Content s key body d.fs
  committing : ∀ body stage, d.live key = some (body, stage) → stage.committing = true →
    (key, body) ∈ d.passed ∧ d.settled key = none
  renamed : ∀ body t, d.live key = some (body, .renamed t) →
    d.fs.read (s.pathOf key) = some body
  object : ∀ bytes, d.fs.read (s.pathOf key) = some bytes → (key, bytes) ∈ d.passed
  settled : ∀ body, d.settled key = some body → d.fs.read (s.pathOf key) = some body

/-- Nothing has changed for the key. -/
structure Disk.Same (s : ObjectStorage) (d d' : Disk) (key : String) : Prop where
  live : d'.live key = d.live key
  passed : ∀ write ∈ d.passed, write ∈ d'.passed
  settled : d'.settled key = d.settled key
  temp : d.fs.SameAt d'.fs (s.tempOf key)
  object : d'.fs.read (s.pathOf key) = d.fs.read (s.pathOf key)

section

variable {s : ObjectStorage} {keys : Set String} {d d' : Disk} {e : FileEvent} {key key' : String}
  {body : Bytes} {stage : Stage} {next : Fs × Stage} {n : Nat}

theorem Disk.Holds.frame (holds : d.Holds s key) (same : d.Same s d' key) : d'.Holds s key where
  content body stage live := (holds.content body stage (same.live ▸ live)).frame same.temp
  committing body stage live inside := by
    rw [same.live] at live
    obtain ⟨passed, unsettled⟩ := holds.committing body stage live inside
    exact ⟨same.passed _ passed, same.settled.trans unsettled⟩
  renamed body t live := same.object.trans (holds.renamed body t (same.live ▸ live))
  object bytes there := same.passed _ (holds.object bytes (same.object ▸ there))
  settled body done := same.object.trans (holds.settled body (same.settled ▸ done))

theorem Disk.Holds.start : Disk.start.Holds s key where
  content _ _ := nofun
  committing _ _ := nofun
  renamed _ _ := nofun
  object _ := nofun
  settled _ := nofun

/-- An event touches the files of its key only. -/
theorem Acts.sameAt (acts : Acts s d e d') (own : e.key = some key) (holds : d.Holds s key) {p : Path}
    (temp : p ≠ s.tempOf key) (object : p ≠ s.pathOf key) : d.fs.SameAt d'.fs p := by
  cases acts with
  | write body idle => exact .refl _ _
  | @advance _ body stage n next live step =>
    cases own
    exact (holds.content body stage live).advance_sameAt step temp object
  | @stop _ body stage removed live =>
    cases own
    cases removed with
    | false => exact .refl _ _
    | true => exact (holds.content body stage live).dropped_sameAt temp
  | noObject key => exact .refl _ _
  | delete calm =>
    cases own
    exact d.fs.sameAt_unlink object
  | crash => cases own

/-- An event touches the write of its key only. -/
theorem Acts.live_other (acts : Acts s d e d') (own : e.key = some key') (apart : key ≠ key') :
    d'.live key = d.live key := by
  cases acts with
  | write body idle =>
    cases own
    exact Function.update_of_ne apart _ _
  | advance live step =>
    cases own
    exact Function.update_of_ne apart _ _
  | stop removed live =>
    cases own
    exact Function.update_of_ne apart _ _
  | noObject key => rfl
  | delete calm => rfl
  | crash => cases own

/-- What an event does to the other keys: nothing. -/
theorem Acts.same_other (distinct : Distinct keys) (acts : Acts s d e d') (member : key ∈ keys)
    (member' : key' ∈ keys) (own : e.key = some key') (apart : key ≠ key')
    (holds : d.Holds s key') : d.Same s d' key := by
  have temps := distinct.tempOf_ne s member member' apart
  have objects := distinct.pathOf_ne s member member' apart
  refine ⟨acts.live_other own apart, ?_, ?_, acts.sameAt own holds temps (tempOf_ne_pathOf s key key'),
    (acts.sameAt own holds (tempOf_ne_pathOf s key' key).symm objects).read⟩
  · intro write there
    cases acts with
    | write body idle => exact there
    | advance live step =>
      simp only [Disk.advanced]
      split
      · exact List.mem_cons_of_mem _ there
      · exact there
    | stop removed live => exact there
    | noObject key => exact there
    | delete calm => exact there
    | crash => exact there
  · cases acts with
    | write body idle => rfl
    | advance live step =>
      cases own
      simp only [Disk.advanced]
      split
      · exact Function.update_of_ne apart _ _
      · split
        · exact Function.update_of_ne apart _ _
        · rfl
    | stop removed live => rfl
    | noObject key => rfl
    | delete calm =>
      cases own
      exact Function.update_of_ne apart _ _
    | crash => rfl

/-! ## One operation of the key -/

omit [Sha256] in
theorem Disk.advanced_live : (d.advanced key body stage next).live key =
    if next.2 = .committed then none else some (body, next.2) :=
  Function.update_self _ _ _

/-- A step before `commit_object`. -/
theorem Disk.Holds.quiet (holds : d.Holds s key) (live : d.live key = some (body, stage))
    (step : s.advance key body n d.fs stage = some next) (writing : stage.returned = false)
    (uncommitted : next.2 ≠ .committed) (calm : next.2.committing = false)
    (object : next.1.read (s.pathOf key) = d.fs.read (s.pathOf key)) :
    (d.advanced key body stage next).Holds s key := by
  have passed : (d.advanced key body stage next).passed = d.passed := by
    simp only [Disk.advanced, writing, Bool.false_eq_true, if_false]
  have settled : (d.advanced key body stage next).settled = d.settled := by
    simp only [Disk.advanced, writing, uncommitted, Bool.false_eq_true, if_false]
  have after : (d.advanced key body stage next).live key = some (body, next.2) := by
    rw [Disk.advanced_live, if_neg uncommitted]
  refine ⟨fun body' stage' live' => ?_, fun body' stage' live' inside => ?_, fun body' t live' => ?_,
    fun bytes there => ?_, fun body' done => ?_⟩
  · rw [after] at live'
    cases live'
    exact (holds.content body stage live).advance step
  · rw [after] at live'
    cases live'
    rw [calm] at inside
    cases inside
  · rw [after] at live'
    obtain ⟨-, same⟩ := Prod.mk.inj (Option.some.inj live')
    rw [same] at calm
    cases calm
  · rw [passed]
    exact holds.object bytes (object ▸ there)
  · rw [settled] at done
    exact object.trans (holds.settled body' done)

/-- The call of `commit_object`. -/
theorem Disk.Holds.call (holds : d.Holds s key) {t : TempObject} (live : d.live key = some (body, .written t)) :
    (d.advanced key body (.written t) (d.fs, .dirMade t)).Holds s key := by
  have after : (d.advanced key body (.written t) (d.fs, .dirMade t)).live key =
      some (body, .dirMade t) := by
    rw [Disk.advanced_live, if_neg nofun]
  have content := holds.content body (.written t) live
  refine ⟨fun body' stage' live' => ?_, fun body' stage' live' inside => ?_, fun body' t' live' => ?_,
    fun bytes there => ?_, fun body' done => ?_⟩
  · rw [after] at live'
    cases live'
    exact content
  · rw [after] at live'
    cases live'
    exact ⟨List.mem_cons_self, Function.update_self _ _ _⟩
  · rw [after] at live'
    cases live'
  · exact List.mem_cons_of_mem _ (holds.object bytes there)
  · have none_settled : (d.advanced key body (.written t) (d.fs, .dirMade t)).settled key = none :=
      Function.update_self _ _ _
    rw [none_settled] at done
    cases done

/-- The rename, and the sync behind it. -/
theorem Disk.Holds.publish (holds : d.Holds s key) (t : TempObject) (live : d.live key = some (body, stage))
    (inside : stage.committing = true) (done : next.2 = .renamed t ∨ next.2 = .committed)
    (names : next.2 = .renamed t → t = ⟨s.tempOf key, s.pathOf key⟩)
    (object : next.1.read (s.pathOf key) = some body) :
    (d.advanced key body stage next).Holds s key := by
  obtain ⟨mine, unsettled⟩ := holds.committing body stage live inside
  have calling : stage.returned = false := by
    cases stage <;> first | rfl | cases inside
  have passed : (d.advanced key body stage next).passed = d.passed := by
    simp only [Disk.advanced, calling, Bool.false_eq_true, if_false]
  have stays : ∀ body' stage', (d.advanced key body stage next).live key = some (body', stage') →
      body' = body ∧ stage' = .renamed t ∧ next.2 = .renamed t := by
    intro body' stage' live'
    rw [Disk.advanced_live] at live'
    split at live'
    · cases live'
    · rename_i uncommitted
      obtain ⟨rfl, rfl⟩ := Prod.mk.inj (Option.some.inj live')
      have now := done.resolve_right uncommitted
      exact ⟨rfl, now, now⟩
  refine ⟨fun body' stage' live' => ?_, fun body' stage' live' _ => ?_, fun body' t' live' => ?_,
    fun bytes there => ?_, fun body' settled => ?_⟩
  · obtain ⟨rfl, rfl, now⟩ := stays body' stage' live'
    exact names now
  · obtain ⟨rfl, rfl, now⟩ := stays body' stage' live'
    refine ⟨passed ▸ mine, ?_⟩
    simp only [Disk.advanced, now, calling, reduceCtorEq, Bool.false_eq_true, if_false]
    exact unsettled
  · obtain ⟨rfl, -, -⟩ := stays body' _ live'
    exact object
  · have same : bytes = body := Option.some.inj (there.symm.trans object)
    rw [same, passed]
    exact mine
  · obtain now | now := done
    · simp only [Disk.advanced, now, calling, reduceCtorEq, Bool.false_eq_true, if_false, unsettled] at settled
    · simp only [Disk.advanced, now, if_true, Function.update_self] at settled
      rw [← settled]
      exact object

theorem Disk.Holds.advance (holds : d.Holds s key) (live : d.live key = some (body, stage))
    (step : s.advance key body n d.fs stage = some next) :
    (d.advanced key body stage next).Holds s key := by
  obtain ⟨fs', stage'⟩ := next
  have content := holds.content body stage live
  have apart : s.pathOf key ≠ s.tempOf key := (tempOf_ne_pathOf s key key).symm
  cases advance_cases step with
  | start => exact holds.quiet live step rfl nofun rfl rfl
  | create t =>
    obtain rfl := content.names rfl
    exact holds.quiet live step rfl nofun rfl (d.fs.read_create_of_ne apart)
  | write t ino offset chunk rest =>
    have named : d.fs.inode (s.tempOf key) = some ino := content.2.1
    refine holds.quiet live step rfl nofun rfl ?_
    exact d.fs.read_write_of_ne fun found => apart (d.fs.inj _ _ ino found named)
  | copied t ino offset => exact holds.quiet live step rfl nofun rfl rfl
  | synced t => exact holds.quiet live step rfl nofun rfl rfl
  | dirMade t => exact holds.call live
  | rename t moved next =>
    obtain ⟨rfl, temp⟩ := content
    exact holds.publish _ live rfl next (fun _ => rfl) ((Fs.read_rename moved).trans temp)
  | dirSynced t => exact holds.publish t live rfl (.inr rfl) nofun (holds.renamed body t live)

/-- What an event of the key leaves. -/
theorem Acts.holds_own (acts : Acts s d e d') (own : e.key = some key) (holds : d.Holds s key) :
    d'.Holds s key := by
  cases acts with
  | write body idle =>
    cases own
    have after : Function.update d.live key (some (body, .start)) key = some (body, .start) :=
      Function.update_self _ _ _
    refine ⟨fun body' stage' live' => ?_, fun body' stage' live' inside => ?_, fun body' t live' => ?_,
      holds.object, holds.settled⟩
    · obtain ⟨-, rfl⟩ := Prod.mk.inj (Option.some.inj (after.symm.trans live'))
      trivial
    · obtain ⟨-, rfl⟩ := Prod.mk.inj (Option.some.inj (after.symm.trans live'))
      cases inside
    · cases after.symm.trans live'
  | advance live step =>
    cases own
    exact holds.advance live step
  | @stop _ body stage removed live =>
    cases own
    have content := holds.content body stage live
    have after : Function.update d.live key none key = none := Function.update_self _ _ _
    have object : (bif removed then stage.dropped d.fs else d.fs).read (s.pathOf key) =
        d.fs.read (s.pathOf key) := by
      cases removed with
      | false => rfl
      | true => exact (content.dropped_sameAt (tempOf_ne_pathOf s key key).symm).read
    refine ⟨fun body' stage' live' => ?_, fun body' stage' live' => ?_, fun body' t live' => ?_,
      fun bytes there => holds.object bytes (object ▸ there),
      fun body' done => object.trans (holds.settled body' done)⟩
    · cases after.symm.trans live'
    · cases after.symm.trans live'
    · cases after.symm.trans live'
  | noObject key => exact holds
  | delete calm =>
    cases own
    have apart := tempOf_ne_pathOf s key key
    have gone : (d.fs.unlink (s.pathOf key)).read (s.pathOf key) = none := by
      rw [Fs.read, Fs.inode_unlink]
      rfl
    have unsettled : Function.update d.settled key none key = none := Function.update_self _ _ _
    refine ⟨fun body' stage' live' => ?_, fun body' stage' live' inside => ?_, fun body' t live' => ?_,
      fun bytes there => ?_, fun body' done => ?_⟩
    · exact (holds.content body' stage' live').frame (d.fs.sameAt_unlink apart)
    · rw [calm body' stage' live'] at inside
      cases inside
    · have inside := calm body' _ live'
      cases inside
    · cases gone.symm.trans there
    · cases unsettled.symm.trans done
  | crash => cases own

theorem Acts.holds_crash (holds : d.Holds s key) :
    Disk.Holds s { d with live := fun _ => none } key where
  content _ _ := nofun
  committing _ _ := nofun
  renamed _ _ := nofun
  object := holds.object
  settled := holds.settled

/-- The event is about one of the keys. -/
def FileEvent.Within (keys : Set String) (e : FileEvent) : Prop := ∀ key, e.key = some key → key ∈ keys

/-- **One operation.** -/
theorem Disk.Holds.step (distinct : Distinct keys) (holds : ∀ key ∈ keys, d.Holds s key)
    (within : e.Within keys) (acts : Acts s d e d') : ∀ key ∈ keys, d'.Holds s key := by
  intro key member
  cases own : e.key with
  | none =>
    obtain rfl := FileEvent.eq_crash own
    cases acts with
    | crash => exact Acts.holds_crash (holds key member)
  | some key' =>
    by_cases same : key = key'
    · subst same
      exact acts.holds_own own (holds key member)
    · have member' := within key' own
      exact (holds key member).frame
        (acts.same_other distinct member member' own same (holds key' member'))

/-- **A whole run.** -/
theorem Disk.Holds.run (distinct : Distinct keys) {es : List FileEvent}
    (within : ∀ e ∈ es, e.Within keys) (ran : exec (fileStep s) Disk.start es = some d) :
    ∀ key ∈ keys, d.Holds s key := by
  have kept : ∀ (d : Disk) (e : FileEvent) (d' : Disk), (∀ key ∈ keys, d.Holds s key) →
      e.Within keys → fileStep s d e = some d' → ∀ key ∈ keys, d'.Holds s key :=
    fun d e d' holds within step => Disk.Holds.step distinct holds within (fileStep_cases step)
  exact exec_invariant kept (fun _ _ => Disk.Holds.start) (along_of_mem (fun e member _ => within e member) _) ran

/-! ## The temp files -/

/-- The key has a write in progress whose temp file is created and not yet renamed. -/
def Disk.HasTemp (d : Disk) (key : String) : Prop :=
  ∃ body stage, d.live key = some (body, stage) ∧ stage.hasTemp = true

/-- Neither a crash nor a removal that fails. -/
def FileEvent.clean : FileEvent → Bool
  | .stop _ removed => removed
  | .crash => false
  | _ => true

/-- There are no files but the objects and the temp files of writes in progress. -/
structure Disk.Tidy (s : ObjectStorage) (keys : Set String) (d : Disk) : Prop where
  temp : ∀ key ∈ keys, ¬ d.HasTemp key → d.fs.inode (s.tempOf key) = none
  others : ∀ p, (∀ key ∈ keys, p ≠ s.pathOf key ∧ p ≠ s.tempOf key) → d.fs.inode p = none

theorem Disk.Tidy.start : Disk.start.Tidy s keys := ⟨fun _ _ _ => rfl, fun _ _ => rfl⟩

/-- A temp file that an operation has not left is not there. -/
theorem advance_temp (content : stage.Content s key body d.fs)
    (step : s.advance key body n d.fs stage = some next)
    (before : stage.hasTemp = false → d.fs.inode (s.tempOf key) = none)
    (after : next.2.hasTemp = false) : next.1.inode (s.tempOf key) = none := by
  obtain ⟨fs', stage'⟩ := next
  cases advance_cases step with
  | start => exact before rfl
  | create t => cases after
  | write t ino offset chunk rest => cases after
  | copied t ino offset => cases after
  | synced t => cases after
  | dirMade t => cases after
  | rename t moved next =>
    obtain rfl := content.names rfl
    obtain ⟨i, named, inode, -⟩ := Fs.rename_eq_some moved
    rw [inode, Fs.moved, Function.update_of_ne (tempOf_ne_pathOf s key key), Function.update_self]
  | dirSynced t => exact before rfl

theorem Acts.temp_own (acts : Acts s d e d') (own : e.key = some key) (clean : e.clean = true)
    (holds : d.Holds s key) (before : ¬ d.HasTemp key → d.fs.inode (s.tempOf key) = none)
    (after : ¬ d'.HasTemp key) : d'.fs.inode (s.tempOf key) = none := by
  cases acts with
  | write body idle =>
    cases own
    refine before ?_
    rintro ⟨body', stage', live', -⟩
    rw [idle] at live'
    cases live'
  | @advance _ body stage n next live step =>
    cases own
    refine advance_temp (holds.content body stage live) step (fun no_temp => before ?_) ?_
    · rintro ⟨body', stage', live', there⟩
      rw [live] at live'
      cases live'
      rw [no_temp] at there
      cases there
    · by_contra there
      have kept : next.2 ≠ .committed := by
        intro done
        rw [done] at there
        exact there rfl
      refine after ⟨body, next.2, ?_, eq_true_of_ne_false there⟩
      rw [Disk.advanced_live, if_neg kept]
  | @stop _ body stage removed live =>
    cases own
    have content := holds.content body stage live
    obtain rfl : removed = true := clean
    show (stage.dropped d.fs).inode (s.tempOf key) = none
    rw [Stage.dropped_eq]
    split
    · rename_i none_held
      refine before ?_
      rintro ⟨body', stage', live', there⟩
      rw [live] at live'
      cases live'
      have held := Stage.temp_of_hasTemp there
      rw [none_held] at held
      cases held
    · rename_i t held
      rw [content.names held]
      exact d.fs.inode_unlink _
  | noObject key => exact before after
  | delete calm =>
    cases own
    rw [show _ = _ from (d.fs.sameAt_unlink (tempOf_ne_pathOf s key key)).inode]
    exact before after
  | crash => cases own

theorem Disk.Tidy.step (distinct : Distinct keys) (tidy : d.Tidy s keys)
    (holds : ∀ key ∈ keys, d.Holds s key) (within : e.Within keys) (clean : e.clean = true)
    (acts : Acts s d e d') : d'.Tidy s keys := by
  cases own : e.key with
  | none =>
    obtain rfl := FileEvent.eq_crash own
    cases clean
  | some key' =>
    have member' := within key' own
    have mine := holds key' member'
    refine ⟨fun key member idle => ?_, fun p apart => ?_⟩
    · by_cases same : key = key'
      · subst same
        exact acts.temp_own own clean mine (tidy.temp key member) idle
      · have kept := acts.same_other distinct member member' own same mine
        rw [kept.temp.inode]
        refine tidy.temp key member ?_
        rintro ⟨body, stage, live, there⟩
        exact idle ⟨body, stage, kept.live.trans live, there⟩
    · obtain ⟨object, temp⟩ := apart key' member'
      rw [(acts.sameAt own mine temp object).inode]
      exact tidy.others p apart

theorem Disk.Tidy.run (distinct : Distinct keys) {es : List FileEvent}
    (within : ∀ e ∈ es, e.Within keys) (clean : ∀ e ∈ es, e.clean = true)
    (ran : exec (fileStep s) Disk.start es = some d) : d.Tidy s keys := by
  have kept : ∀ (d : Disk) (e : FileEvent) (d' : Disk),
      ((∀ key ∈ keys, d.Holds s key) ∧ d.Tidy s keys) → e.Within keys ∧ e.clean = true →
      fileStep s d e = some d' → (∀ key ∈ keys, d'.Holds s key) ∧ d'.Tidy s keys := by
    intro d e d' ⟨holds, tidy⟩ ⟨inside, clean⟩ step
    have acts := fileStep_cases step
    exact ⟨Disk.Holds.step distinct holds inside acts, tidy.step distinct holds inside clean acts⟩
  have along : Along (fileStep s) (fun _ e => e.Within keys ∧ e.clean = true) Disk.start es :=
    along_of_mem (fun e member _ => ⟨within e member, clean e member⟩) _
  exact (exec_invariant kept ⟨fun _ _ => Disk.Holds.start, Disk.Tidy.start⟩ along ran).2

/-- A write in progress has its temp file. -/
theorem Disk.Holds.hasTemp (holds : d.Holds s key) (write : d.HasTemp key) :
    d.fs.HasFile (s.tempOf key) := by
  obtain ⟨body, stage, live, there⟩ := write
  have content := holds.content body stage live
  cases stage with
  | start => cases there
  | handle t => cases there
  | copying t ino offset rest =>
    unfold Fs.HasFile
    rw [content.2.1]
    rfl
  | copied t => exact Fs.hasFile_iff_read.2 ⟨body, content.2⟩
  | written t => exact Fs.hasFile_iff_read.2 ⟨body, content.2⟩
  | dirMade t => exact Fs.hasFile_iff_read.2 ⟨body, content.2⟩
  | renamed t => cases there
  | committed => cases there

end

/-- **Atomic replacement.** After any operations on distinct keys: an object is the complete input of
a write that was passed to `commit_object`; it is that of the last commit that returned, until the next
commit or delete; the next operation changes no other key's object; and without crashes and failed
removals the files besides the objects are the temp files of the writes in progress. -/
theorem objects_replaced_atomically (s : ObjectStorage) {keys : Set String} (distinct : Distinct keys)
    {es : List FileEvent} (within : ∀ e ∈ es, e.Within keys) {d : Disk}
    (ran : exec (fileStep s) Disk.start es = some d) :
    (∀ key ∈ keys, d.fs.read (s.pathOf key) = none ∨
      ∃ body, (key, body) ∈ d.passed ∧ d.fs.read (s.pathOf key) = some body) ∧
    (∀ key ∈ keys, ∀ body, d.settled key = some body → d.fs.read (s.pathOf key) = some body) ∧
    (∀ e d' key', e.Within keys → fileStep s d e = some d' → e.key = some key' →
      ∀ key ∈ keys, key ≠ key' → d'.fs.read (s.pathOf key) = d.fs.read (s.pathOf key)) ∧
    ((∀ e ∈ es, e.clean = true) → ∀ p, (∀ key ∈ keys, p ≠ s.pathOf key) →
      (d.fs.HasFile p ↔ ∃ key ∈ keys, d.HasTemp key ∧ p = s.tempOf key)) := by
  have holds := Disk.Holds.run distinct within ran
  refine ⟨fun key member => ?_, fun key member => (holds key member).settled,
    fun e d' key' inside step own key member apart => ?_, fun clean p besides => ⟨fun there => ?_, ?_⟩⟩
  · cases found : d.fs.read (s.pathOf key) with
    | none => exact .inl rfl
    | some body => exact .inr ⟨body, (holds key member).object body found, rfl⟩
  · have member' := inside key' own
    exact ((fileStep_cases step).same_other distinct member member' own apart (holds key' member')).object
  · have tidy := Disk.Tidy.run distinct within clean ran
    by_contra unused
    have absent : d.fs.inode p = none := by
      by_cases named : ∃ key ∈ keys, p = s.tempOf key
      · obtain ⟨key, member, rfl⟩ := named
        exact tidy.temp key member fun write => unused ⟨key, member, write, rfl⟩
      · refine tidy.others p fun key member => ⟨besides key member, fun same => ?_⟩
        exact named ⟨key, member, same⟩
    rw [Fs.HasFile, absent] at there
    cases there
  · rintro ⟨key, member, write, rfl⟩
    exact (holds key member).hasTemp write

/-- Two writes of `abc/k`, the second not finished, and a delete that finds nothing. -/
def sampleFileEvents : List FileEvent :=
  [.write "abc/k" [1], .delete "abc/l"] ++ List.replicate 7 (.advance "abc/k" 0) ++
    [.write "abc/k" [2]] ++ List.replicate 4 (.advance "abc/k" 0)

omit [Sha256] in
/-- The object is the first input, and the only other file is the temp file of the second write. -/
theorem objects_replaced_sample :
    letI : Sha256 := Sha256.sampled
    ∃ d, exec (fileStep sampleStorage) Disk.start sampleFileEvents = some d ∧
      d.fs.read (sampleStorage.pathOf "abc/k") = some [1] ∧
      d.fs.HasFile (sampleStorage.tempOf "abc/k") := by
  let _ : Sha256 := Sha256.sampled
  have apart : Sha256.digest (utf8 "abc/k") ≠ Sha256.digest (utf8 "abc/l") := by decide +kernel
  have distinct : Distinct {"abc/k", "abc/l"} := by
    rintro key (rfl | rfl) key' (rfl | rfl) same
    · rfl
    · exact absurd same apart
    · exact absurd same.symm apart
    · rfl
  have inside : ∀ e ∈ sampleFileEvents, e.key ∈ [some "abc/k", some "abc/l"] := by decide
  have within : ∀ e ∈ sampleFileEvents, e.Within {"abc/k", "abc/l"} := by
    intro e member key own
    have listed := inside e member
    rw [own] at listed
    have named : key = "abc/k" ∨ key = "abc/l" := by simpa using listed
    exact named
  have seen : (exec (fileStep sampleStorage) Disk.start sampleFileEvents).map
      (fun d => (d.settled "abc/k", (d.live "abc/k").map fun write => write.2.hasTemp)) =
      some (some [1], some true) := by decide +kernel
  obtain ⟨d, ran, observed⟩ := Option.map_eq_some_iff.1 seen
  obtain ⟨settled, write⟩ := Prod.mk.inj observed
  obtain ⟨-, commits, -, files⟩ := objects_replaced_atomically sampleStorage distinct within ran
  refine ⟨d, ran, commits "abc/k" (.inl rfl) [1] settled, ?_⟩
  obtain ⟨⟨body, stage⟩, live, there⟩ := Option.map_eq_some_iff.1 write
  refine (files (by decide) _ fun key _ => tempOf_ne_pathOf _ _ _).2 ⟨"abc/k", .inl rfl, ?_, rfl⟩
  exact ⟨body, stage, live, there⟩

end Save.Storage
