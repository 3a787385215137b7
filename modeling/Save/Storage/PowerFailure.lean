import Save.Lib.Durable
import Save.Storage.Atomic

/-!
# Object files and power failures

A crash of the process leaves every file as it was; a power failure leaves what the
disk has. `fsync_mode` of `ObjectStorage` (`save-storage/src/lib.rs`) decides how much
that is: a temp file is synced before it is renamed unless the mode is "none", and
the directory of the object after the rename when it is "full".
`objects_survive_power_failures`: in every run with power failures between any two
operations, an object that is there is the complete input of a commit unless the
mode is "none", and in mode "full" an object whose commit has returned is there,
unless the directory it is in is lost, whose own entry nothing syncs.
-/

namespace Save.Storage
set_option autoImplicit false
open Save.Text Save.Common Save.Files Save.Run

variable [Sha256]

/-- A storage with what its disk has for certain, and the commits that have returned, each
until it is committed or deleted again. -/
structure Volume where
  disk : Disk
  durable : Durable
  acked : String → Option Bytes

/-- An empty storage, as `ObjectStorage::new` leaves it. -/
def Volume.start (s : ObjectStorage) : Volume :=
  ⟨Disk.start,
    ⟨.bare fun dir => dir == s.basePath.join "temp" || dir == s.basePath.join "objects", [],
      fun _ => none⟩,
    fun _ => none⟩

/-- What the disk knows of the next operation of a write. -/
def ObjectStorage.durablyAdvance (s : ObjectStorage) (fs : Fs) (v : Durable) : Stage → Durable
  | .start => v
  | .handle t =>
    match fs.inode t.tempPath with
    | some i => v.dirty i
    | none => (v.push (.link t.tempPath fs.next)).dirty fs.next
  | .copying _ ino _ rest => if rest = [] then v else v.dirty ino
  | .copied t =>
    -- the open file is the one named here
    match fs.inode t.tempPath with
    | some i => if s.fsyncMode ≠ "none" then v.sync i (fs.data i) else v
    | none => v
  | .written t => v.push (.mkdir t.finalPath.parent)
  | .dirMade t =>
    match fs.inode t.tempPath with
    | some i => v.push (.move t.tempPath t.finalPath i)
    | none => v
  | .renamed t => v.force t.finalPath.parent
  | .committed => v

/-- What the disk knows of an operation of the storage. -/
def ObjectStorage.durably (s : ObjectStorage) (d : Disk) (v : Durable) : FileEvent → Durable
  | .advance key _ =>
    match d.live key with
    | none => v
    | some (_, stage) => s.durablyAdvance d.fs v stage
  | .stop key removed =>
    match d.live key with
    | none => v
    | some (_, stage) =>
      match stage.temp with
      | some t => if removed then v.push (.unlink t.tempPath) else v
      | none => v
  | .delete key =>
    match s.deleteObject d.fs key with
    | .error _ => v
    | .ok _ => v.push (.unlink (s.pathOf key))
  | .write _ _ => v
  | .crash => v

/-- The commits that have returned, after an operation that leaves `d'`. -/
def Volume.ackedAfter (s : ObjectStorage) (v : Volume) (d' : Disk) : FileEvent → String → Option Bytes
  | .advance key _ =>
    match v.disk.live key with
    | none => v.acked
    | some (body, stage) =>
      if d'.live key = none then Function.update v.acked key (some body)
      else if stage.returned then Function.update v.acked key none
      else v.acked
  | .delete key =>
    match s.deleteObject v.disk.fs key with
    | .error _ => v.acked
    | .ok _ => Function.update v.acked key none
  | .write _ _ => v.acked
  | .stop _ _ => v.acked
  | .crash => v.acked

inductive PowerEvent where
  | file (e : FileEvent)
  /-- The power fails: of the changes no sync has forced those that `keep` says are on the disk,
  and `garbage` in the files no sync has forced. The storage starts again from that. -/
  | fail (keep : Nat → Bool) (garbage : Nat → Bytes)

def PowerEvent.Within (keys : Set String) : PowerEvent → Prop
  | .file e => e.Within keys
  | .fail _ _ => True

/-- An object whose directory is lost is no longer counted among those acknowledged. -/
def powerStep (s : ObjectStorage) (v : Volume) : PowerEvent → Option Volume
  | .file e => (fileStep s v.disk e).map fun d' =>
    ⟨d', s.durably v.disk v.durable e, v.ackedAfter s d' e⟩
  | .fail keep garbage =>
    let fs := v.durable.found v.disk.fs.next keep garbage
    some ⟨⟨fs, fun _ => none, v.disk.passed, fun _ => none⟩, v.durable.mounted fs keep,
      fun key => if (v.durable.tree keep).dirs (s.pathOf key).parent then v.acked key else none⟩

/-! ## Trees that fit -/

section Fits

variable {s : ObjectStorage} {keys : Set String} {d d' : Disk} {e : FileEvent} {key key' : String}
  {body : Bytes} {stage : Stage} {synced synced' : Nat → Option Bytes} {t : Tree}

/-- A tree whose objects are synced and the inputs of commits, and are not open as temp files. -/
structure Fits (s : ObjectStorage) (keys : Set String) (d : Disk) (synced : Nat → Option Bytes)
    (t : Tree) : Prop where
  bound : ∀ p i, t.inode p = some i → i < d.fs.next
  objects : ∀ key ∈ keys, ∀ i, t.inode (s.pathOf key) = some i →
    ∃ body, synced i = some body ∧ (key, body) ∈ d.passed
  temps : ∀ key ∈ keys, ∀ key' ∈ keys, ∀ i, d.fs.inode (s.tempOf key) = some i →
    t.inode (s.pathOf key') ≠ some i

/-- The files and commits after an operation are those before it, or new. -/
structure Later (s : ObjectStorage) (keys : Set String) (d d' : Disk) : Prop where
  next : d.fs.next ≤ d'.fs.next
  passed : ∀ write ∈ d.passed, write ∈ d'.passed
  temps : ∀ key ∈ keys, ∀ i, d'.fs.inode (s.tempOf key) = some i →
    d.fs.inode (s.tempOf key) = some i ∨ d.fs.next ≤ i

theorem Fits.later (fits : Fits s keys d synced t) (later : Later s keys d d')
    (same : ∀ key ∈ keys, ∀ i, t.inode (s.pathOf key) = some i → synced' i = synced i) :
    Fits s keys d' synced' t where
  bound p i named := Nat.lt_of_lt_of_le (fits.bound p i named) later.next
  objects key member i named := by
    obtain ⟨body, content, passed⟩ := fits.objects key member i named
    exact ⟨body, (same key member i named).trans content, later.passed _ passed⟩
  temps key member key' member' i open_file named := by
    rcases later.temps key member i open_file with old | new
    · exact fits.temps key member key' member' i old named
    · have := fits.bound _ i named
      omega

theorem Fits.link (fits : Fits s keys d synced t) (key : String) {i : Nat} (less : i < d.fs.next) :
    Fits s keys d synced ((NameOp.link (s.tempOf key) i).apply t) := by
  have old : ∀ key' j, ((NameOp.link (s.tempOf key) i).apply t).inode (s.pathOf key') = some j →
      t.inode (s.pathOf key') = some j := by
    intro key' j named
    rcases Tree.place_cases named with ⟨same, -⟩ | ⟨-, -, there⟩
    · exact absurd same.symm (tempOf_ne_pathOf s key key')
    · exact there
  refine ⟨fun p j named => ?_, fun key' member j named => fits.objects key' member j (old key' j named),
    fun key₁ member₁ key₂ member₂ j open_file named =>
      fits.temps key₁ member₁ key₂ member₂ j open_file (old key₂ j named)⟩
  rcases Tree.place_cases named with ⟨-, rfl⟩ | ⟨-, -, there⟩
  · exact less
  · exact fits.bound p j there

theorem Fits.unlink (fits : Fits s keys d synced t) (p : Path) :
    Fits s keys d synced ((NameOp.unlink p).apply t) where
  bound q j named := fits.bound q j (Tree.remove_cases named).2
  objects key member j named := fits.objects key member j (Tree.remove_cases named).2
  temps key member key' member' j open_file named :=
    fits.temps key member key' member' j open_file (Tree.remove_cases named).2

theorem Fits.mkdir (fits : Fits s keys d synced t) (dir : Path) :
    Fits s keys d synced ((NameOp.mkdir dir).apply t) := ⟨fits.bound, fits.objects, fits.temps⟩

/-- A rename makes an object of a synced file that is no longer open as a temp file. -/
theorem Fits.move (distinct : Distinct keys) (fits : Fits s keys d synced t) (member : key ∈ keys)
    {i : Nat} (content : synced i = some body) (passed : (key, body) ∈ d.passed)
    (renamed : d.fs.inode (s.pathOf key) = some i) :
    Fits s keys d synced ((NameOp.move (s.tempOf key) (s.pathOf key) i).apply t) where
  bound p j named := by
    rcases Tree.place_cases named with ⟨-, rfl⟩ | ⟨-, -, there⟩
    · exact d.fs.bound _ _ renamed
    · exact fits.bound p j (Tree.remove_cases there).2
  objects key' member' j named := by
    rcases Tree.place_cases named with ⟨same, rfl⟩ | ⟨-, -, there⟩
    · obtain rfl : key' = key := distinct member' member (pathOf_inj same)
      exact ⟨body, content, passed⟩
    · exact fits.objects key' member' j (Tree.remove_cases there).2
  temps key₁ member₁ key₂ member₂ j open_file named := by
    rcases Tree.place_cases named with ⟨-, rfl⟩ | ⟨-, -, there⟩
    · exact tempOf_ne_pathOf s key₁ key (d.fs.inj _ _ _ open_file renamed)
    · exact fits.temps key₁ member₁ key₂ member₂ j open_file (Tree.remove_cases there).2

/-- A file that is open as a temp file may be written or synced. -/
theorem Fits.touch (fits : Fits s keys d synced t) (member : key ∈ keys) {i : Nat}
    (open_file : d.fs.inode (s.tempOf key) = some i) (content : Option Bytes) {key' : String}
    (member' : key' ∈ keys) {j : Nat} (named : t.inode (s.pathOf key') = some j) :
    Function.update synced i content j = synced j := by
  apply Function.update_of_ne
  rintro rfl
  exact fits.temps key member key' member' j open_file named

end Fits

/-! ## The disk after an operation -/

section Steps

variable {s : ObjectStorage} {keys : Set String} {d d' : Disk} {e : FileEvent} {key key' : String}
  {body : Bytes} {stage : Stage} {next : Fs × Stage} {n : Nat} {v : Durable}

theorem Later.same (fs : d'.fs = d.fs) (passed : d'.passed = d.passed) : Later s keys d d' where
  next := by rw [fs]
  passed write there := by rwa [passed]
  temps key _ i named := by
    rw [fs] at named
    exact .inl named

omit [Sha256] in
theorem Disk.advanced_passed (write : String × Bytes) (there : write ∈ d.passed) :
    write ∈ (d.advanced key body stage next).passed := by
  simp only [Disk.advanced]
  split
  · exact List.mem_cons_of_mem _ there
  · exact there

theorem Stage.Content.later (content : stage.Content s key body d.fs)
    (step : s.advance key body n d.fs stage = some next) :
    Later s keys d (d.advanced key body stage next) := by
  obtain ⟨fs', stage'⟩ := next
  have same : ∀ fs', d.fs.next ≤ fs'.next → (∀ p i, fs'.inode p = some i → d.fs.inode p = some i ∨
      d.fs.next ≤ i) → Later s keys d (d.advanced key body stage (fs', stage')) :=
    fun fs' bound names => ⟨bound, Disk.advanced_passed, fun key _ i named => names _ i named⟩
  cases advance_cases step with
  | start | copied t ino offset | synced t | dirMade t | dirSynced t =>
    exact same _ le_rfl fun _ _ named => .inl named
  | create t => exact same _ (Fs.next_create _ _) fun _ _ named => Fs.inode_create_cases named
  | write t ino offset chunk rest => exact same _ le_rfl fun _ _ named => .inl named
  | rename t moved next =>
    obtain rfl := content.names rfl
    refine ⟨(Fs.next_rename moved).ge, Disk.advanced_passed, fun key' _ i named => .inl ?_⟩
    have named : fs'.inode (s.tempOf key') = some i := named
    obtain ⟨j, open_file, inode, -⟩ := Fs.rename_eq_some moved
    rw [inode] at named
    rcases d.fs.moved_source open_file named with ⟨same, -⟩ | ⟨-, -, old, -⟩
    · exact absurd same (tempOf_ne_pathOf s key' key)
    · exact old

theorem Acts.later (acts : Acts s d e d') (holds : ∀ key, e.key = some key → d.Holds s key) :
    Later s keys d d' := by
  cases acts with
  | write body idle => exact .same rfl rfl
  | @advance key body stage n next live step =>
    exact ((holds key rfl).content body stage live).later step
  | @stop key body stage removed live =>
    cases removed with
    | false => exact .same rfl rfl
    | true =>
      refine ⟨?_, fun _ there => there, fun key' _ i named => .inl ?_⟩
      · simp only [cond_true, Stage.dropped_eq]
        split <;> exact le_rfl
      · simp only [cond_true, Stage.dropped_eq] at named
        split at named
        · exact named
        · exact Fs.inode_unlink_cases named
  | noObject key => exact .same rfl rfl
  | delete calm => exact ⟨le_rfl, fun _ there => there, fun _ _ _ named => .inl (Fs.inode_unlink_cases named)⟩
  | crash => exact .same rfl rfl

/-- The temp file is complete and synced. -/
def Stage.ready : Stage → Bool
  | .written _ => true
  | .dirMade _ => true
  | _ => false

/-- The temp file of a write that is ready is on the disk. -/
def Disk.Ready (s : ObjectStorage) (d : Disk) (synced : Nat → Option Bytes) (key : String) : Prop :=
  ∀ body stage, d.live key = some (body, stage) → stage.ready = true →
    ∃ i, d.fs.inode (s.tempOf key) = some i ∧ synced i = some body

/-- **The trees after the next operation of a write.** -/
theorem Fits.advance (mode : s.fsyncMode ≠ "none") (distinct : Distinct keys) (member : key ∈ keys)
    (holds : d.Holds s key) (live : d.live key = some (body, stage)) (ready : d.Ready s v.synced key)
    (step : s.advance key body n d.fs stage = some next)
    (trees : v.Always (Fits s keys d v.synced)) :
    (s.durablyAdvance d.fs v stage).Always
      (Fits s keys (d.advanced key body stage next) (s.durablyAdvance d.fs v stage).synced) := by
  have content := holds.content body stage live
  have later : Later s keys d (d.advanced key body stage next) := content.later step
  -- nothing that is an object in some tree is touched
  have calm : v.Always (Fits s keys (d.advanced key body stage next) v.synced) :=
    trees.mono fun t fits => fits.later later fun _ _ _ _ => rfl
  have touched : ∀ i c, d.fs.inode (s.tempOf key) = some i →
      v.Always (Fits s keys (d.advanced key body stage next) (Function.update v.synced i c)) :=
    fun i c open_file => trees.mono fun t fits => fits.later later fun key' member' j named =>
      fits.touch member open_file c member' named
  cases stage with
  | start | committed => exact calm
  | handle t =>
    obtain rfl := content.names rfl
    simp only [ObjectStorage.durablyAdvance]
    split
    · rename_i i open_file
      exact touched i none open_file
    · rename_i absent
      cases step
      have fresh : v.Always (Fits s keys (d.advanced key body (.handle ⟨s.tempOf key, s.pathOf key⟩)
          ((d.fs.create (s.tempOf key)).2,
            .copying ⟨s.tempOf key, s.pathOf key⟩ (d.fs.create (s.tempOf key)).1 0 body))
          (Function.update v.synced d.fs.next none)) := by
        refine trees.mono fun t fits => fits.later later fun key' member' j named => ?_
        have := fits.bound _ j named
        exact Function.update_of_ne (by omega) _ _
      refine fresh.push fun t fits => fits.link key ?_
      change d.fs.next < (d.fs.create (s.tempOf key)).2.next
      simp only [Fs.create, absent]
      exact Nat.lt_succ_self _
  | copying t ino offset rest =>
    simp only [ObjectStorage.durablyAdvance]
    split
    · exact calm
    · exact touched ino none content.2.1
  | copied t =>
    obtain rfl := content.names rfl
    simp only [ObjectStorage.durablyAdvance]
    split
    · rename_i i open_file
      rw [if_pos mode]
      exact touched i _ open_file
    · exact calm
  | written t => exact calm.push fun t fits => fits.mkdir _
  | dirMade t =>
    obtain rfl := content.names rfl
    simp only [ObjectStorage.durablyAdvance]
    split
    · rename_i i open_file
      obtain ⟨j, there, on_disk⟩ := ready body _ live rfl
      cases there.symm.trans open_file
      obtain ⟨fs', moved, same⟩ := Option.map_eq_some_iff.1 step
      have passed := (holds.committing body _ live rfl).1
      refine calm.push fun t fits => fits.move distinct member on_disk (later.passed _ passed) ?_
      rw [← same]
      exact (Fs.inode_rename moved).trans open_file
    · exact calm
  | renamed t => exact calm.force _

/-- An operation touches the contents of its temp file only, which may be new. -/
theorem durably_synced (content : ∀ body stage, d.live key = some (body, stage) →
    stage.Content s key body d.fs) (own : e.key = some key) (i : Nat) :
    (s.durably d v e).synced i = v.synced i ∨ d.fs.inode (s.tempOf key) = some i ∨ i = d.fs.next := by
  have touch : ∀ j c, d.fs.inode (s.tempOf key) = some j →
      Function.update v.synced j c i = v.synced i ∨ d.fs.inode (s.tempOf key) = some i ∨
        i = d.fs.next := by
    intro j c open_file
    by_cases same : i = j
    · exact .inr (.inl (same ▸ open_file))
    · exact .inl (Function.update_of_ne same _ _)
  cases e with
  | write key' body | crash => exact .inl rfl
  | stop key' removed =>
    simp only [ObjectStorage.durably]
    split
    · exact .inl rfl
    · split
      · split <;> exact .inl rfl
      · exact .inl rfl
  | delete key' =>
    simp only [ObjectStorage.durably]
    split <;> exact .inl rfl
  | advance key' n =>
    cases own
    simp only [ObjectStorage.durably]
    split
    · exact .inl rfl
    · rename_i body stage live
      have content := content body stage live
      cases stage with
      | start | committed | written t | renamed t => exact .inl rfl
      | dirMade t =>
        simp only [ObjectStorage.durablyAdvance]
        split <;> exact .inl rfl
      | handle t =>
        obtain rfl := content.names rfl
        simp only [ObjectStorage.durablyAdvance]
        split
        · rename_i j open_file
          exact touch j none open_file
        · by_cases fresh : i = d.fs.next
          · exact .inr (.inr fresh)
          · exact .inl (Function.update_of_ne fresh _ _)
      | copying t ino offset rest =>
        simp only [ObjectStorage.durablyAdvance]
        split
        · exact .inl rfl
        · exact touch ino none content.2.1
      | copied t =>
        obtain rfl := content.names rfl
        simp only [ObjectStorage.durablyAdvance]
        split
        · rename_i j open_file
          split
          · exact touch j _ open_file
          · exact .inl rfl
        · exact .inl rfl

/-- A write becomes ready by a sync. -/
theorem Disk.Ready.advance (mode : s.fsyncMode ≠ "none") (holds : d.Holds s key)
    (live : d.live key = some (body, stage)) (ready : d.Ready s v.synced key)
    (step : s.advance key body n d.fs stage = some next) :
    (d.advanced key body stage next).Ready s (s.durablyAdvance d.fs v stage).synced key := by
  intro body' stage' live' there
  rw [Disk.advanced_live] at live'
  split at live'
  · cases live'
  · obtain ⟨rfl, rfl⟩ := Prod.mk.inj (Option.some.inj live')
    have content := holds.content body stage live
    cases stage with
    | start =>
      simp only [ObjectStorage.advance] at step
      split at step
      · cases step
      · cases step
        cases there
    | handle t =>
      cases step
      cases there
    | copying t ino offset rest =>
      simp only [ObjectStorage.advance] at step
      split at step <;> cases step <;> cases there
    | copied t =>
      cases step
      obtain ⟨rfl, read⟩ := content
      obtain ⟨i, open_file, data⟩ := Option.map_eq_some_iff.1 read
      refine ⟨i, open_file, ?_⟩
      simp only [ObjectStorage.durablyAdvance, open_file, if_pos mode, data]
      exact Function.update_self _ _ _
    | written t =>
      cases step
      exact ready body _ live rfl
    | dirMade t =>
      obtain ⟨fs', -, rfl⟩ := Option.map_eq_some_iff.1 step
      simp only at there
      split at there <;> cases there
    | renamed t =>
      cases step
      cases there
    | committed => cases step

/-- What the disk knows fits the files. -/
structure Volume.Holds (s : ObjectStorage) (keys : Set String) (v : Volume) : Prop where
  disk : ∀ key ∈ keys, v.disk.Holds s key
  trees : v.durable.Always (Fits s keys v.disk v.durable.synced)
  ready : ∀ key ∈ keys, v.disk.Ready s v.durable.synced key

/-- Of an operation on another key a write that is ready does not notice. -/
theorem Disk.Ready.frame (distinct : Distinct keys) (ready : d.Ready s v.synced key)
    (member : key ∈ keys) (member' : key' ∈ keys) (own : e.key = some key') (apart : key ≠ key')
    (holds : d.Holds s key') (acts : Acts s d e d') :
    d'.Ready s (s.durably d v e).synced key := by
  have same := acts.same_other distinct member member' own apart holds
  intro body stage live there
  rw [same.live] at live
  obtain ⟨i, open_file, on_disk⟩ := ready body stage live there
  refine ⟨i, same.temp.inode.trans open_file, ?_⟩
  rcases durably_synced holds.content own i with kept | other | fresh
  · exact kept.trans on_disk
  · exact absurd (d.fs.inj _ _ _ open_file other) (distinct.tempOf_ne s member member' apart)
  · have := d.fs.bound _ i open_file
    omega

theorem Volume.Holds.file {vol : Volume} {acked : String → Option Bytes} (mode : s.fsyncMode ≠ "none")
    (distinct : Distinct keys) (holds : vol.Holds s keys) (within : e.Within keys)
    (acts : Acts s vol.disk e d') :
    Volume.Holds s keys ⟨d', s.durably vol.disk vol.durable e, acked⟩ := by
  have later : Later s keys vol.disk d' :=
    acts.later fun key own => holds.disk key (within key own)
  have calm : vol.durable.Always (Fits s keys d' vol.durable.synced) :=
    holds.trees.mono fun t fits => fits.later later fun _ _ _ _ => rfl
  refine ⟨Disk.Holds.step distinct holds.disk within acts, ?_, fun key member => ?_⟩
  · cases acts with
    | write body idle | crash => exact calm
    | noObject key =>
      simp only [ObjectStorage.durably]
      split
      · exact calm
      · exact calm.push fun t fits => fits.unlink _
    | delete =>
      simp only [ObjectStorage.durably]
      split
      · exact calm
      · exact calm.push fun t fits => fits.unlink _
    | stop removed live =>
      simp only [ObjectStorage.durably]
      split
      · exact calm
      · split
        · split
          · exact calm.push fun t fits => fits.unlink _
          · exact calm
        · exact calm
    | @advance key body stage n next live step =>
      have member := within key rfl
      simp only [ObjectStorage.durably, live]
      exact Fits.advance mode distinct member (holds.disk key member) live (holds.ready key member)
        step holds.trees
  · cases own : e.key with
    | none =>
      obtain rfl := FileEvent.eq_crash own
      cases acts with
      | crash => exact fun body stage live => nomatch live
    | some key' =>
      have member' := within key' own
      by_cases same : key = key'
      · subst same
        cases acts with
        | write body idle =>
          cases own
          intro body' stage' live' there
          have after : Function.update vol.disk.live key (some (body, Stage.start)) key =
              some (body, .start) := Function.update_self _ _ _
          obtain ⟨-, rfl⟩ := Prod.mk.inj (Option.some.inj (after.symm.trans live'))
          cases there
        | @advance _ body stage n next live step =>
          cases own
          simp only [ObjectStorage.durably, live]
          exact (holds.ready key member).advance mode (holds.disk key member) live step
        | stop removed live =>
          cases own
          intro body' stage' live'
          have after : Function.update vol.disk.live key none key = none := Function.update_self _ _ _
          cases after.symm.trans live'
        | noObject =>
          cases own
          have kept : (s.durably vol.disk vol.durable (.delete key)).synced = vol.durable.synced := by
            simp only [ObjectStorage.durably]
            split <;> rfl
          simp only [kept]
          exact holds.ready key member
        | delete calm =>
          cases own
          have kept : (s.durably vol.disk vol.durable (.delete key)).synced = vol.durable.synced := by
            simp only [ObjectStorage.durably]
            split <;> rfl
          intro body stage live there
          obtain ⟨i, open_file, on_disk⟩ := holds.ready key member body stage live there
          refine ⟨i, ?_, ?_⟩
          · exact (vol.disk.fs.inode_unlink_of_ne (tempOf_ne_pathOf s key key)).trans open_file
          · simp only [kept]
            exact on_disk
        | crash => cases own
      · exact (holds.ready key member).frame distinct member member' own same (holds.disk key' member') acts

/-- **A power failure.** Whatever the disk kept of what it did not have to keep. -/
theorem Volume.Holds.fail {vol : Volume} {acked : String → Option Bytes} (holds : vol.Holds s keys)
    (keep : Nat → Bool) (garbage : Nat → Bytes) :
    Volume.Holds s keys ⟨⟨vol.durable.found vol.disk.fs.next keep garbage, fun _ => none,
      vol.disk.passed, fun _ => none⟩,
      vol.durable.mounted (vol.durable.found vol.disk.fs.next keep garbage) keep, acked⟩ := by
  have objects : ∀ key ∈ keys, ∀ i,
      (vol.durable.found vol.disk.fs.next keep garbage).inode (s.pathOf key) = some i →
      ∃ body, (vol.durable.found vol.disk.fs.next keep garbage).data i = body ∧
        (key, body) ∈ vol.disk.passed := by
    intro key member i named
    obtain ⟨body, on_disk, passed⟩ :=
      (holds.trees keep).objects key member i (Durable.found_inode named)
    exact ⟨body, by simp [Durable.found, on_disk], passed⟩
  -- no write survives
  have dead : ∀ {α : Type} {x : α}, ¬ (none : Option α) = some x := (Option.some_ne_none _).symm
  refine ⟨fun key member => ?_, fun _ => ?_, fun key _ body stage live => absurd live dead⟩
  · refine ⟨fun _ _ live => absurd live dead, fun _ _ live => absurd live dead,
      fun _ _ live => absurd live dead, fun bytes there => ?_, fun _ settled => absurd settled dead⟩
    obtain ⟨i, named, rfl⟩ := Option.map_eq_some_iff.1 there
    obtain ⟨body, rfl, passed⟩ := objects key member i named
    exact passed
  · refine ⟨fun p i named => Fs.bound _ p i named, fun key member i named => ?_, ?_⟩
    · obtain ⟨body, rfl, passed⟩ := objects key member i named
      exact ⟨_, rfl, passed⟩
    · intro key _ key' _ i open_file named
      exact tempOf_ne_pathOf s key key' (Fs.inj _ _ _ _ open_file named)

theorem Volume.start_holds : (Volume.start s).Holds s keys where
  disk _ _ := Disk.Holds.start
  trees _ := ⟨nofun, nofun, nofun⟩
  ready _ _ _ _ live := nomatch live

theorem Volume.Holds.step {vol vol' : Volume} {event : PowerEvent} (mode : s.fsyncMode ≠ "none")
    (distinct : Distinct keys) (holds : vol.Holds s keys) (within : event.Within keys)
    (step : powerStep s vol event = some vol') : vol'.Holds s keys := by
  cases event with
  | file e =>
    obtain ⟨d', ran, rfl⟩ := Option.map_eq_some_iff.1 step
    exact holds.file mode distinct within (fileStep_cases ran)
  | fail keep garbage =>
    cases step
    exact holds.fail keep garbage

/-! ## Commits that have returned -/

/-- An operation that leaves alone what the disk knows of a name and its file. -/
inductive Spares (v : Durable) (p : Path) (i : Nat) : Durable → Prop where
  | contents {synced : Nat → Option Bytes} (same : synced i = v.synced i) :
      Spares v p i { v with synced := synced }
  | push {op : NameOp} {synced : Nat → Option Bytes} (avoids : op.Avoids p i)
      (same : synced i = v.synced i) : Spares v p i { v.push op with synced := synced }
  | force (dir : Path) : Spares v p i (v.force dir)

omit [Sha256] in
theorem Spares.refl (v : Durable) (p : Path) (i : Nat) : Spares v p i v := .contents rfl

omit [Sha256] in
theorem Spares.synced {v' : Durable} {p : Path} {i : Nat} (spares : Spares v p i v') :
    v'.synced i = v.synced i := by
  cases spares with
  | contents same => exact same
  | push avoids same => exact same
  | force dir => rfl

omit [Sha256] in
theorem Spares.always {v' : Durable} {p : Path} {i : Nat} (spares : Spares v p i v')
    (always : v.Always fun t => t.inode p = some i) : v'.Always fun t => t.inode p = some i := by
  cases spares with
  | contents same => exact always
  | push avoids same => exact always.push fun t named => avoids.apply named
  | force dir => exact always.force dir

omit [Sha256] in
theorem Spares.moved {v' : Durable} {p : Path} {i : Nat} (spares : Spares v p i v')
    (moved : v.Moved p i) : v'.Moved p i := by
  cases spares with
  | contents same => exact ⟨moved.split⟩
  | push avoids same => exact ⟨(moved.push avoids).split⟩
  | force dir => exact moved.force dir

/-- The operation does not commit or delete the key. -/
def FileEvent.Leaves (d : Disk) (key : String) : FileEvent → Prop
  | .advance key' _ => key' = key → ∀ body stage, d.live key = some (body, stage) → stage.committing = false
  | .delete key' => key' ≠ key
  | _ => True

/-- Operations on other keys, and those on the key itself until its commit, spare the object of
the key: its file is not the one they have open. -/
theorem durably_spares (distinct : Distinct keys) (member : key ∈ keys) (member' : key' ∈ keys)
    (content : ∀ body stage, d.live key' = some (body, stage) → stage.Content s key' body d.fs)
    (own : e.key = some key') (leaves : e.Leaves d key) {i : Nat} (less : i < d.fs.next)
    (closed : d.fs.inode (s.tempOf key') ≠ some i) :
    Spares v (s.pathOf key) i (s.durably d v e) := by
  have temp : s.tempOf key' ≠ s.pathOf key := tempOf_ne_pathOf s key' key
  have touch : ∀ j c, d.fs.inode (s.tempOf key') = some j →
      Spares v (s.pathOf key) i { v with synced := Function.update v.synced j c } := by
    intro j c open_file
    refine .contents (Function.update_of_ne ?_ _ _)
    rintro rfl
    exact closed open_file
  cases e with
  | write _ _ | crash => exact .refl _ _ _
  | stop key₁ removed =>
    cases own
    simp only [ObjectStorage.durably]
    split
    · exact .refl _ _ _
    · rename_i body stage live
      split
      · rename_i t held
        obtain rfl := (content body stage live).names held
        split
        · exact .push temp rfl
        · exact .refl _ _ _
      · exact .refl _ _ _
  | delete key₁ =>
    cases own
    simp only [ObjectStorage.durably]
    split
    · exact .refl _ _ _
    · exact .push (distinct.pathOf_ne s member' member leaves) rfl
  | advance key₁ n =>
    cases own
    simp only [ObjectStorage.durably]
    split
    · exact .refl _ _ _
    · rename_i body stage live
      have content := content body stage live
      cases stage with
      | start | committed => exact .refl _ _ _
      | renamed t => exact .force _
      | written t => exact .push trivial rfl
      | handle t =>
        obtain rfl := content.names rfl
        simp only [ObjectStorage.durablyAdvance]
        split
        · rename_i j open_file
          exact touch j none open_file
        · have fresh : d.fs.next ≠ i := by omega
          exact .push ⟨temp, fresh⟩ (Function.update_of_ne fresh.symm _ _)
      | copying t ino offset rest =>
        simp only [ObjectStorage.durablyAdvance]
        split
        · exact .refl _ _ _
        · exact touch ino none content.2.1
      | copied t =>
        obtain rfl := content.names rfl
        simp only [ObjectStorage.durablyAdvance]
        split
        · rename_i j open_file
          split
          · exact touch j _ open_file
          · exact .refl _ _ _
        · exact .refl _ _ _
      | dirMade t =>
        obtain rfl := content.names rfl
        simp only [ObjectStorage.durablyAdvance]
        split
        · rename_i j open_file
          have apart : key' ≠ key := by
            rintro rfl
            have inside := leaves rfl body _ live
            cases inside
          have other : j ≠ i := by
            rintro rfl
            exact closed open_file
          exact .push ⟨temp, distinct.pathOf_ne s member' member apart, other⟩ rfl
        · exact .refl _ _ _

/-- A commit that has returned is on the disk in every tree; one that has renamed its file is,
once the directory is synced. -/
structure Volume.Keeps (s : ObjectStorage) (v : Volume) (key : String) : Prop where
  acked : ∀ body, v.acked key = some body → v.disk.fs.read (s.pathOf key) = some body ∧
    ∃ i, i < v.disk.fs.next ∧ v.durable.synced i = some body ∧
      v.durable.Always fun t => t.inode (s.pathOf key) = some i
  renamed : ∀ body t, v.disk.live key = some (body, .renamed t) →
    ∃ i, i < v.disk.fs.next ∧ v.durable.synced i = some body ∧ v.durable.Moved (s.pathOf key) i
  committing : ∀ body stage, v.disk.live key = some (body, stage) → stage.committing = true →
    v.acked key = none

/-- What an operation that spares the key leaves of its object. -/
theorem Volume.Keeps.spared {vol : Volume} (distinct : Distinct keys) (holds : vol.Holds s keys)
    (keeps : vol.Keeps s key) (member : key ∈ keys) (member' : key' ∈ keys) (own : e.key = some key')
    (leaves : e.Leaves vol.disk key) (acts : Acts s vol.disk e d') :
    (∀ body, vol.acked key = some body → ∃ i, i < d'.fs.next ∧
      (s.durably vol.disk vol.durable e).synced i = some body ∧
        (s.durably vol.disk vol.durable e).Always fun t => t.inode (s.pathOf key) = some i) ∧
    ∀ body t, vol.disk.live key = some (body, .renamed t) → ∃ i, i < d'.fs.next ∧
      (s.durably vol.disk vol.durable e).synced i = some body ∧
        (s.durably vol.disk vol.durable e).Moved (s.pathOf key) i := by
  have later : Later s keys vol.disk d' := by
    apply acts.later
    intro key₁ own₁
    cases own.symm.trans own₁
    exact holds.disk key' member'
  have spares : ∀ i keep, i < vol.disk.fs.next →
      (vol.durable.tree keep).inode (s.pathOf key) = some i →
      Spares vol.durable (s.pathOf key) i (s.durably vol.disk vol.durable e) := by
    intro i keep less named
    refine durably_spares distinct member member' (holds.disk key' member').content own leaves less ?_
    exact fun open_file => (holds.trees keep).temps key' member' key member i open_file named
  refine ⟨fun body done => ?_, fun body t live => ?_⟩
  · obtain ⟨-, i, less, on_disk, always⟩ := keeps.acked body done
    have spared := spares i (fun _ => true) less (always _)
    exact ⟨i, Nat.lt_of_lt_of_le less later.next, spared.synced.trans on_disk, spared.always always⟩
  · obtain ⟨i, less, on_disk, moved⟩ := keeps.renamed body t live
    obtain ⟨keep, named⟩ := moved.possible
    have spared := spares i keep less named
    exact ⟨i, Nat.lt_of_lt_of_le less later.next, spared.synced.trans on_disk, spared.moved moved⟩

/-- An operation on another key. -/
theorem Volume.Keeps.other {vol : Volume} (distinct : Distinct keys) (holds : vol.Holds s keys)
    (keeps : vol.Keeps s key) (member : key ∈ keys) (member' : key' ∈ keys) (own : e.key = some key')
    (apart : key ≠ key') (acts : Acts s vol.disk e d') :
    Volume.Keeps s ⟨d', s.durably vol.disk vol.durable e, vol.ackedAfter s d' e⟩ key := by
  have same := acts.same_other distinct member member' own apart (holds.disk key' member')
  have leaves : e.Leaves vol.disk key := by
    cases e with
    | advance key₁ n =>
      cases own
      exact fun here => absurd here.symm apart
    | delete key₁ =>
      cases own
      exact fun here => apart here.symm
    | write _ _ | stop _ _ | crash => trivial
  have acked : vol.ackedAfter s d' e key = vol.acked key := by
    cases e with
    | write _ _ | stop _ _ | crash => rfl
    | advance key₁ n =>
      cases own
      cases live : vol.disk.live key' with
      | none => simp only [Volume.ackedAfter, live]
      | some write =>
        simp only [Volume.ackedAfter, live]
        by_cases done : d'.live key' = none
        · rw [if_pos done]
          exact Function.update_of_ne apart _ _
        · rw [if_neg done]
          split
          · exact Function.update_of_ne apart _ _
          · rfl
    | delete key₁ =>
      cases own
      simp only [Volume.ackedAfter]
      cases s.deleteObject vol.disk.fs key' with
      | error e => rfl
      | ok fs => exact Function.update_of_ne apart _ _
  obtain ⟨done, renamed⟩ := keeps.spared distinct holds member member' own leaves acts
  refine ⟨fun body there => ?_, fun body t live => ?_, fun body stage live inside => ?_⟩
  · have before := acked.symm.trans there
    exact ⟨same.object.trans (keeps.acked body before).1, done body before⟩
  · exact renamed body t (same.live ▸ live)
  · exact acked.trans (keeps.committing body stage (same.live ▸ live) inside)

/-- An operation on the key itself that neither commits nor deletes it. -/
theorem Volume.Keeps.quiet {vol : Volume} {acked : String → Option Bytes} (distinct : Distinct keys)
    (holds : vol.Holds s keys) (keeps : vol.Keeps s key) (member : key ∈ keys)
    (own : e.key = some key) (leaves : e.Leaves vol.disk key) (acts : Acts s vol.disk e d')
    (before : acked key = vol.acked key) (object : d'.fs.read (s.pathOf key) = vol.disk.fs.read (s.pathOf key))
    (calm : ∀ body stage, d'.live key = some (body, stage) → stage.committing = false) :
    Volume.Keeps s ⟨d', s.durably vol.disk vol.durable e, acked⟩ key := by
  obtain ⟨done, -⟩ := keeps.spared distinct holds member member own leaves acts
  refine ⟨fun body there => ?_, fun body t live => ?_, fun body stage live inside => ?_⟩
  · have old := before.symm.trans there
    exact ⟨object.trans (keeps.acked body old).1, done body old⟩
  · have := calm body _ live
    cases this
  · rw [calm body stage live] at inside
    cases inside

/-- An operation of a write, in mode "full". -/
theorem Volume.Keeps.advance {vol : Volume} (mode : s.fsyncMode = "full") (distinct : Distinct keys)
    (holds : vol.Holds s keys) (keeps : vol.Keeps s key) (member : key ∈ keys)
    (live : vol.disk.live key = some (body, stage))
    (step : s.advance key body n vol.disk.fs stage = some next) :
    Volume.Keeps s ⟨vol.disk.advanced key body stage next,
      s.durably vol.disk vol.durable (.advance key n),
      vol.ackedAfter s (vol.disk.advanced key body stage next) (.advance key n)⟩ key := by
  have disk := holds.disk key member
  have content := disk.content body stage live
  have acts : Acts s vol.disk (.advance key n) (vol.disk.advanced key body stage next) :=
    .advance live step
  have acked : vol.ackedAfter s (vol.disk.advanced key body stage next) (.advance key n) key =
      if next.2 = .committed then some body else if stage.returned then none else vol.acked key := by
    simp only [Volume.ackedAfter, live, Disk.advanced_live]
    by_cases done : next.2 = .committed
    · rw [if_pos done, if_pos rfl, if_pos done, Function.update_self]
    · rw [if_neg done, if_neg (by simp), if_neg done]
      split
      · exact Function.update_self _ _ _
      · rfl
  -- up to the call of `commit_object` nothing happens to the object
  have writing : stage.committing = false → stage.returned = false → next.2.committing = false →
      next.2 ≠ .committed → next.1.read (s.pathOf key) = vol.disk.fs.read (s.pathOf key) →
      Volume.Keeps s ⟨vol.disk.advanced key body stage next,
        s.durably vol.disk vol.durable (.advance key n),
        vol.ackedAfter s (vol.disk.advanced key body stage next) (.advance key n)⟩ key := by
    intro outside unreturned calm unfinished object
    refine keeps.quiet distinct holds member rfl ?_ acts ?_ object ?_
    · intro _ body' stage' live'
      cases live.symm.trans live'
      exact outside
    · rw [acked, if_neg unfinished, if_neg (by simp [unreturned])]
    · intro body' stage' live'
      rw [Disk.advanced_live, if_neg unfinished] at live'
      cases live'
      exact calm
  cases stage with
  | start =>
    simp only [ObjectStorage.advance] at step
    split at step
    · cases step
    · cases step
      exact writing rfl rfl rfl (by simp) rfl
  | handle t =>
    obtain rfl := content.names rfl
    cases step
    exact writing rfl rfl rfl (by simp) (vol.disk.fs.read_create_of_ne (tempOf_ne_pathOf s key key).symm)
  | copying t ino offset rest =>
    simp only [ObjectStorage.advance] at step
    split at step
    · cases step
      exact writing rfl rfl rfl (by simp) rfl
    · cases step
      refine writing rfl rfl rfl (by simp) (vol.disk.fs.read_write_of_ne fun named => ?_)
      exact tempOf_ne_pathOf s key key (vol.disk.fs.inj _ _ _ content.2.1 named)
  | copied t =>
    cases step
    exact writing rfl rfl rfl (by simp) rfl
  | written t =>
    cases step
    have unacked : vol.ackedAfter s (vol.disk.advanced key body (.written t) (vol.disk.fs, .dirMade t))
        (.advance key n) key = none := by
      rw [acked, if_neg (by simp)]
      exact if_pos rfl
    refine ⟨fun body' done => ?_, fun body' t' live' => ?_, fun _ _ _ _ => unacked⟩
    · cases unacked.symm.trans done
    · rw [Disk.advanced_live, if_neg (by simp)] at live'
      cases live'
  | dirMade t =>
    obtain rfl := content.names rfl
    obtain ⟨fs', moved, rfl⟩ := Option.map_eq_some_iff.1 step
    obtain ⟨i, open_file, -, -⟩ := Fs.rename_eq_some moved
    obtain ⟨j, there, on_disk⟩ := holds.ready key member body _ live rfl
    cases there.symm.trans open_file
    have unacked := keeps.committing body _ live rfl
    simp only [if_pos mode] at acked ⊢
    rw [if_neg (by simp), unacked] at acked
    have unacked : vol.ackedAfter s (vol.disk.advanced key body (.dirMade ⟨s.tempOf key, s.pathOf key⟩)
        (fs', .renamed ⟨s.tempOf key, s.pathOf key⟩)) (.advance key n) key = none := by
      rw [acked, ite_self]
    refine ⟨fun body' done => ?_, fun body' t' live' => ?_, fun _ _ _ _ => unacked⟩
    · cases unacked.symm.trans done
    · rw [Disk.advanced_live, if_neg (by simp)] at live'
      cases live'
      refine ⟨i, ?_, ?_, ?_⟩
      · change i < fs'.next
        rw [Fs.next_rename moved]
        exact vol.disk.fs.bound _ _ open_file
      · simp only [ObjectStorage.durably, live, ObjectStorage.durablyAdvance, open_file]
        exact on_disk
      · simp only [ObjectStorage.durably, live, ObjectStorage.durablyAdvance, open_file]
        exact Durable.moved_push _ _ _ _
  | renamed t =>
    obtain rfl := content.names rfl
    cases step
    obtain ⟨i, less, on_disk, moved⟩ := keeps.renamed body _ live
    rw [if_pos rfl] at acked
    refine ⟨fun body' done => ?_, fun body' t' live' => ?_, fun body' stage' live' => ?_⟩
    · cases acked.symm.trans done
      refine ⟨disk.renamed body _ live, i, less, ?_, ?_⟩
      · simp only [ObjectStorage.durably, live, ObjectStorage.durablyAdvance]
        exact on_disk
      · simp only [ObjectStorage.durably, live, ObjectStorage.durablyAdvance]
        exact moved.forced
    · rw [Disk.advanced_live, if_pos rfl] at live'
      cases live'
    · rw [Disk.advanced_live, if_pos rfl] at live'
      cases live'
  | committed => cases step

theorem Volume.Keeps.own {vol : Volume} (mode : s.fsyncMode = "full") (distinct : Distinct keys)
    (holds : vol.Holds s keys) (keeps : vol.Keeps s key) (member : key ∈ keys)
    (own : e.key = some key) (ran : fileStep s vol.disk e = some d') :
    Volume.Keeps s ⟨d', s.durably vol.disk vol.durable e, vol.ackedAfter s d' e⟩ key := by
  have acts := fileStep_cases ran
  cases e with
  | write key₁ body =>
    cases own
    refine keeps.quiet distinct holds member rfl trivial acts rfl ?_ ?_
    · cases acts with
      | write body idle => rfl
    · cases acts with
      | write body idle =>
        intro body' stage' live'
        have after : Function.update vol.disk.live key (some (body, Stage.start)) key =
            some (body, .start) := Function.update_self _ _ _
        cases after.symm.trans live'
        rfl
  | advance key₁ n =>
    cases own
    simp only [fileStep] at ran
    split at ran
    · cases ran
    · rename_i body stage live
      obtain ⟨next, step, rfl⟩ := Option.map_eq_some_iff.1 ran
      exact keeps.advance mode distinct holds member live step
  | stop key₁ removed =>
    cases own
    refine keeps.quiet distinct holds member rfl trivial acts rfl ?_ ?_
    · cases acts with
      | @stop _ body stage removed live =>
        have content := (holds.disk key member).content body stage live
        cases removed with
        | false => rfl
        | true => exact (content.dropped_sameAt (tempOf_ne_pathOf s key key).symm).read
    · cases acts with
      | stop removed live =>
        intro body' stage' live'
        have after : Function.update vol.disk.live key none key = none := Function.update_self _ _ _
        cases after.symm.trans live'
  | delete key₁ =>
    cases own
    simp only [fileStep] at ran
    split at ran
    · cases ran
    · rename_i idle
      simp only [ObjectStorage.durably, Volume.ackedAfter]
      cases call : s.deleteObject vol.disk.fs key with
      | error error =>
        rw [call] at ran
        cases ran
        exact keeps
      | ok fs =>
        rw [call] at ran
        cases ran
        refine ⟨fun body done => ?_, fun body t live => ?_, fun _ _ _ _ => Function.update_self _ _ _⟩
        · have unacked : Function.update vol.acked key none key = none := Function.update_self _ _ _
          cases unacked.symm.trans done
        · have live : vol.disk.live key = some (body, .renamed t) := live
          rw [live] at idle
          exact absurd rfl idle
  | crash => cases own

theorem Volume.Keeps.crash {vol : Volume} (keeps : vol.Keeps s key) :
    Volume.Keeps s { vol with disk := { vol.disk with live := fun _ => none } } key where
  acked := keeps.acked
  renamed _ _ live := nomatch live
  committing _ _ live := nomatch live

/-- What is on the disk is found, in directories that are. -/
theorem Volume.Keeps.fail {vol : Volume} (keeps : vol.Keeps s key) (keep : Nat → Bool)
    (garbage : Nat → Bytes) : Volume.Keeps s
      ⟨⟨vol.durable.found vol.disk.fs.next keep garbage, fun _ => none, vol.disk.passed, fun _ => none⟩,
        vol.durable.mounted (vol.durable.found vol.disk.fs.next keep garbage) keep,
        fun key => if (vol.durable.tree keep).dirs (s.pathOf key).parent then vol.acked key else none⟩
      key := by
  refine ⟨fun body done => ?_, nofun, nofun⟩
  simp only at done
  split at done
  · rename_i there
    obtain ⟨-, i, less, on_disk, always⟩ := keeps.acked body done
    have read := Durable.found_read garbage (always keep) less there on_disk
    obtain ⟨j, named, data⟩ := Option.map_eq_some_iff.1 read
    obtain rfl : i = j := Option.some.inj ((always keep).symm.trans (Durable.found_inode named))
    exact ⟨read, i, less, congrArg some data, fun _ => named⟩
  · cases done

end Steps

/-- **Power failures.** After any operations on distinct keys, with crashes and power failures
between any two of them: unless `fsync_mode` is "none", an object that is there is the complete
input of a write that was passed to `commit_object`; and when it is "full", an object whose commit
has returned is there with its input, until its next commit or delete, or until a power failure
loses the directory it is in. -/
theorem objects_survive_power_failures (s : ObjectStorage) {keys : Set String}
    (distinct : Distinct keys) {events : List PowerEvent} (within : ∀ e ∈ events, e.Within keys)
    {v : Volume} (ran : exec (powerStep s) (Volume.start s) events = some v) :
    (s.fsyncMode ≠ "none" → ∀ key ∈ keys, ∀ bytes, v.disk.fs.read (s.pathOf key) = some bytes →
      (key, bytes) ∈ v.disk.passed) ∧
    (s.fsyncMode = "full" → ∀ key ∈ keys, ∀ body, v.acked key = some body →
      v.disk.fs.read (s.pathOf key) = some body) := by
  have along : Along (powerStep s) (fun _ e => e.Within keys) (Volume.start s) events :=
    along_of_mem (fun e member _ => within e member) _
  refine ⟨fun mode key member bytes there => ?_, fun mode key member body done => ?_⟩
  · have holds : v.Holds s keys :=
      exec_invariant (fun _ _ _ holds inside step => holds.step mode distinct inside step)
        Volume.start_holds along ran
    exact (holds.disk key member).object bytes there
  · have synced : s.fsyncMode ≠ "none" := by
      rw [mode]
      decide
    have kept : ∀ (v : Volume) (e : PowerEvent) (v' : Volume),
        (v.Holds s keys ∧ ∀ key ∈ keys, v.Keeps s key) → e.Within keys →
        powerStep s v e = some v' → v'.Holds s keys ∧ ∀ key ∈ keys, v'.Keeps s key := by
      intro v e v' ⟨holds, keeps⟩ inside step
      refine ⟨holds.step synced distinct inside step, fun key member => ?_⟩
      cases e with
      | fail keep garbage =>
        cases step
        exact (keeps key member).fail keep garbage
      | file e =>
        obtain ⟨d', ran, rfl⟩ := Option.map_eq_some_iff.1 step
        cases own : e.key with
        | none =>
          obtain rfl := FileEvent.eq_crash own
          cases ran
          exact (keeps key member).crash
        | some key' =>
          by_cases same : key = key'
          · subst same
            exact (keeps key member).own mode distinct holds member own ran
          · exact (keeps key member).other distinct holds member (inside key' own) own same
              (fileStep_cases ran)
    have start : ∀ key ∈ keys, (Volume.start s).Keeps s key :=
      fun key _ => ⟨nofun, nofun, nofun⟩
    exact (((exec_invariant kept ⟨Volume.start_holds, start⟩ along ran).2 key member).acked body done).1

/-- One write in mode "full", and a power failure that keeps nothing it need not keep but the
object's directory. -/
def fullCommit : List PowerEvent :=
  .file (.write "abc/k" [1]) :: List.replicate 8 (.file (.advance "abc/k" 0)) ++
    [.fail (fun n => n == 1) fun _ => [9]]

omit [Sha256] in
/-- The object is there after the failure. -/
theorem fullCommit_survives :
    letI : Sha256 := Sha256.sampled
    ∃ v, exec (powerStep ⟨["data"], "full"⟩) (Volume.start ⟨["data"], "full"⟩) fullCommit = some v ∧
      v.disk.fs.read (ObjectStorage.pathOf ⟨["data"], "full"⟩ "abc/k") = some [1] := by
  let _ : Sha256 := Sha256.sampled
  have distinct : Distinct {"abc/k"} := by
    rintro key rfl key' rfl _
    rfl
  have within : ∀ e ∈ fullCommit, e.Within {"abc/k"} := by
    intro e member
    simp only [fullCommit, List.cons_append, List.mem_cons, List.mem_append, List.mem_replicate,
      List.not_mem_nil, or_false] at member
    rcases member with rfl | ⟨-, rfl⟩ | rfl
    · rintro key ⟨⟩
      rfl
    · rintro key ⟨⟩
      rfl
    · trivial
  have seen : (exec (powerStep ⟨["data"], "full"⟩) (Volume.start ⟨["data"], "full"⟩) fullCommit).map
      (fun v => v.acked "abc/k") = some (some [1]) := by decide +kernel
  obtain ⟨v, ran, acked⟩ := Option.map_eq_some_iff.1 seen
  have found := (objects_survive_power_failures ⟨["data"], "full"⟩ distinct within ran).2 rfl
  exact ⟨v, ran, found "abc/k" rfl [1] acked⟩

end Save.Storage
