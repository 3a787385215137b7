import Save.Replication.Quorum

/-!
# Replicated writes that fail

`put_object` and `commit_object` of `replicated_backend.rs` with every point at
which their local half may fail: the temp file, the checksum pass, the object's
directory, the rename and the sync of the directory behind it.
`failed_write_invisible_iff`: a write that is answered with an error has changed no
object, unless it is the sync after the rename that fails; the local node then has
the new object, and the prepared nodes are told to abort.
-/

namespace Save.Replication
set_option autoImplicit false
open Save.Text Save.Kv Save.Common Save.Files Save.Storage

variable [Sha256] {s : ObjectStorage}

/-- How far the local `write_temp_object` gets. -/
inductive LocalWrite where
  | noDirectory
  | notCreated
  /-- The copy, the flush or the sync fails, with `n` bytes in the file. -/
  | stopped (n : Nat)
  | written
  deriving DecidableEq, Repr

/-- What the local files do during one write, the rename apart. -/
structure LocalFaults where
  write : LocalWrite
  /-- The checksum pass over the temp file succeeds. -/
  checksumReads : Bool
  /-- The object's directory is there or can be made. -/
  makesDir : Bool
  /-- `fsync_dir` succeeds. -/
  syncsDir : Bool

/-- The services after the local temp object is dropped. -/
def dropTemp (localId : Nat) (key : String) (services : Nat → Service s) : Nat → Service s :=
  Function.update services localId
    { services localId with fs := (services localId).fs.unlink (s.tempOf key) }

/-- The services after the prepared nodes are told to abort, with `fs` as the local files. -/
def abortAll (localId : Nat) (faults : Faults) (prepared : Prepared s) (fs : Fs) :
    Nat → Service s :=
  Function.update (prepared.finish fun i t svc => abortPrepared (faults.participants i) t svc) localId
    { prepared.services localId with fs }

/-- `commit_object` of the backend with the local faults. -/
def commitFaulty (config : QuorumConfig) (localId : Nat) (faults : Faults) (here : LocalFaults)
    (key : String) (services : Nat → Service s) : (Nat → Service s) × Except StorageError Unit :=
  match (services localId).fs.read (s.tempOf key) with
  | none => (services, .error noSuchFile)
  | some data =>
    if !here.checksumReads then (dropTemp localId key services, .error (.io "read failed"))
    else
      let prepared := prepareAll config faults key data (Sha256.digest data) services
      let successCount := 1 + prepared.tempIds.length
      let fs := (prepared.services localId).fs
      let dropped := abortAll localId faults prepared (fs.unlink (s.tempOf key))
      if successCount < config.writeQuorum then
        (dropped, .error (.quorumNotAchieved successCount config.writeQuorum))
      else if !here.makesDir then (dropped, .error (.io "create_dir_all failed"))
      else if !faults.localRenames then (dropped, .error (.io "rename failed"))
      else
        match fs.rename (s.tempOf key) (s.pathOf key) with
        | none => (dropped, .error noSuchFile)
        | some fs' =>
          -- the rename has taken effect, and no temp file is left for the drop to remove
          if s.fsyncMode = "full" ∧ here.syncsDir = false then
            (abortAll localId faults prepared fs', .error (.io "fsync failed"))
          else
            let committed := prepared.finish fun i t svc =>
              commitPrepared (faults.participants i) t svc
            (Function.update committed localId { prepared.services localId with fs := fs' }, .ok ())

/-- `put_object` of the backend with the local faults. -/
def putFaulty (config : QuorumConfig) (localId : Nat) (faults : Faults) (here : LocalFaults)
    (key : String) (data : Bytes) (services : Nat → Service s) :
    (Nat → Service s) × Except StorageError Unit :=
  match s.createTempObject key with
  | .error e => (services, .error e)
  | .ok temp =>
    let files (bytes : Bytes) : Nat → Service s := Function.update services localId
      { services localId with fs := writeFile (services localId).fs temp.tempPath bytes }
    match here.write with
    | .noDirectory => (services, .error (.io "create_dir_all failed"))
    | .notCreated => (dropTemp localId key services, .error (.io "create failed"))
    | .stopped n => (dropTemp localId key (files (data.take n)), .error (.io "write failed"))
    | .written => commitFaulty config localId faults here key (files data)

/-! ## Without local faults -/

/-- Nothing fails on the local node but the rename. -/
structure LocalFaults.Clean (here : LocalFaults) : Prop where
  written : here.write = .written
  checksumReads : here.checksumReads = true
  makesDir : here.makesDir = true
  syncsDir : here.syncsDir = true

section

variable {config : QuorumConfig} {localId : Nat} {faults : Faults} {here : LocalFaults} {key : String}
  {data : Bytes} {services : Nat → Service s}

theorem commitFaulty_clean (clean : here.Clean) :
    commitFaulty config localId faults here key services =
      commitReplicated config localId faults key services := by
  unfold commitFaulty commitReplicated abortAll
  cases (services localId).fs.read (s.tempOf key) with
  | none => rfl
  | some data =>
    cases moved : ((prepareAll config faults key data (Sha256.digest data) services).services
        localId).fs.rename (s.tempOf key) (s.pathOf key) with
    | none =>
      simp only [clean.checksumReads, clean.makesDir, moved, Bool.not_true, Bool.false_eq_true, if_false]
    | some fs' =>
      simp only [clean.checksumReads, clean.makesDir, clean.syncsDir, moved, Bool.not_true,
        Bool.false_eq_true, if_false, reduceCtorEq, and_false]

theorem putFaulty_clean (clean : here.Clean) :
    putFaulty config localId faults here key data services =
      putReplicated config localId faults key data services := by
  unfold putFaulty putReplicated
  cases s.createTempObject key with
  | error e => rfl
  | ok temp => simp only [clean.written, commitFaulty_clean clean]

/-! ## The first phase -/

/-- The node acknowledges its prepare. -/
def Faults.acks (faults : Faults) (data : Bytes) (i : Nat) : Bool :=
  (faults.participants i).connected && decide ((faults.participants i).prepare = .answered) &&
    decide (data ≠ [])

/-- How many of the selected nodes acknowledge. -/
def ackCount (config : QuorumConfig) (faults : Faults) (data : Bytes) : Nat :=
  ((selectReplicaNodes faults config.replicationFactor).filter (faults.acks data)).length

theorem acknowledged_streamPrepare (valid : ValidKey key) (i : Nat) (svc : Service s) :
    acknowledged (streamPrepare (faults.participants i) key faults.requestId data
        (Sha256.digest data) svc).2 =
      if faults.acks data i then some (tempId faults.requestId key) else none := by
  by_cases acks : faults.acks data i = true
  · simp only [Faults.acks, Bool.and_eq_true, decide_eq_true_eq] at acks
    rw [streamPrepare_acknowledged valid acks.1.1 acks.1.2 acks.2, acknowledged]
    simp [Faults.acks, acks]
  · rw [if_neg acks]
    cases result : (streamPrepare (faults.participants i) key faults.requestId data
        (Sha256.digest data) svc).2 with
    | none => rfl
    | some answer =>
      cases answer with
      | error e => rfl
      | ok t =>
        obtain ⟨connected, answered, nonempty, -, -⟩ := streamPrepare_ok valid result
        exact absurd (by simp [Faults.acks, connected, answered, nonempty]) acks

theorem tempIds_prepareAll (config : QuorumConfig) (faults : Faults) (valid : ValidKey key)
    (data : Bytes) (services : Nat → Service s) :
    (prepareAll config faults key data (Sha256.digest data) services).tempIds =
      (selectReplicaNodes faults config.replicationFactor).filterMap fun i =>
        (if faults.acks data i then some (tempId faults.requestId key) else none).map (Prod.mk i) := by
  simp only [prepareAll, acknowledged_streamPrepare valid]

theorem length_tempIds (config : QuorumConfig) (faults : Faults) (valid : ValidKey key)
    (data : Bytes) (services : Nat → Service s) :
    (prepareAll config faults key data (Sha256.digest data) services).tempIds.length =
      ackCount config faults data := by
  rw [tempIds_prepareAll config faults valid, ackCount, List.length_filterMap_eq_countP,
    List.countP_eq_length_filter]
  congr 2
  funext i
  cases faults.acks data i <;> rfl

/-- The local node takes no part in the first phase but for its own cleanups. -/
theorem services_prepareAll_local (self : localId ∉ faults.clients) (checksum : String) :
    (prepareAll config faults key data checksum services).services localId =
      runCleanups (services localId) (faults.participants localId).cleanups := by
  have apart : localId ∉ selectReplicaNodes faults config.replicationFactor := fun member =>
    self (List.mem_of_mem_filter (List.mem_of_mem_take member))
  simp only [prepareAll, apart, if_false]

/-! ## The aborts -/

/-- The node gets an abort, when the write is given up behind its first phase. -/
def Faults.abortArrives (faults : Faults) (config : QuorumConfig) (data : Bytes) (i : Nat) : Bool :=
  decide (i ∈ selectReplicaNodes faults config.replicationFactor) && faults.acks data i &&
    (faults.participants i).reachable && (faults.participants i).aborts

/-- An abort that arrives leaves nothing pending. -/
theorem pending_abortAll (self : localId ∉ faults.clients) (valid : ValidKey key) (fs : Fs) {i : Nat}
    (arrives : faults.abortArrives config data i = true) :
    (abortAll localId faults (prepareAll config faults key data (Sha256.digest data) services) fs
      i).pending.get (tempId faults.requestId key) = none := by
  simp only [Faults.abortArrives, Bool.and_eq_true, decide_eq_true_eq] at arrives
  obtain ⟨⟨⟨selected, acks⟩, reachable⟩, aborts⟩ := arrives
  have other : i ≠ localId := by
    rintro rfl
    exact self (List.mem_of_mem_filter (List.mem_of_mem_take selected))
  have prepared : (prepareAll config faults key data (Sha256.digest data) services).tempIds.lookup i =
      some (tempId faults.requestId key) := by
    rw [tempIds_prepareAll config faults valid, lookup_filterMap, if_pos selected, if_pos acks]
  rw [abortAll, Function.update_of_ne other, Prepared.finish, prepared]
  simp only [abortPrepared, reachable, aborts, Bool.and_self, if_true]
  rw [(abortObject_spec _ _).2.1, get_delete, if_pos rfl]

theorem abortAll_local (localId : Nat) (faults : Faults) (prepared : Prepared s) (fs : Fs) :
    (abortAll localId faults prepared fs localId).fs = fs := by
  rw [abortAll, Function.update_self]

/-- The other nodes keep their objects, and the local node has that of its files. -/
theorem read_abortAll (valid : ValidKey key) {fs : Fs} {key' : String}
    (file : fs.read (s.pathOf key') = (services localId).fs.read (s.pathOf key')) (i : Nat) :
    (abortAll localId faults (prepareAll config faults key data (Sha256.digest data) services) fs
      i).fs.read (s.pathOf key') = (services i).fs.read (s.pathOf key') := by
  by_cases same : i = localId
  · subst same
    rw [abortAll_local]
    exact file
  · rw [abortAll, Function.update_of_ne same, read_aborted config faults valid]

theorem read_dropTemp (key' : String) (i : Nat) :
    (dropTemp localId key services i).fs.read (s.pathOf key') =
      (services i).fs.read (s.pathOf key') := by
  by_cases same : i = localId
  · subst same
    rw [dropTemp, Function.update_self]
    exact Fs.read_unlink_of_ne _ (tempOf_ne_pathOf s key key').symm
  · rw [dropTemp, Function.update_of_ne same]

/-! ## What a failed write leaves -/

/-- The write cannot be seen: every node has the object it had, and a node that got the abort has
nothing pending. `sent` says that the first phase was reached. -/
structure Invisible (config : QuorumConfig) (faults : Faults) (key : String) (data : Bytes)
    (sent : Prop) (before after : Nat → Service s) : Prop where
  objects : ∀ i, (after i).fs.read (s.pathOf key) = (before i).fs.read (s.pathOf key)
  aborted : sent → ∀ i, faults.abortArrives config data i = true →
    (after i).pending.get (tempId faults.requestId key) = none

/-- The write gets as far as its rename. -/
structure Renames (config : QuorumConfig) (localId : Nat) (faults : Faults) (here : LocalFaults)
    (key : String) (data : Bytes) (services : Nat → Service s) : Prop where
  checksumReads : here.checksumReads = true
  quorum : config.writeQuorum ≤ 1 + ackCount config faults data
  makesDir : here.makesDir = true
  renames : faults.localRenames = true
  fresh : Fresh (services localId) key (faults.participants localId).cleanups

/-- The write gets as far as its rename, the directory is not synced behind it, and the object was
another one. -/
structure Exposed (config : QuorumConfig) (localId : Nat) (faults : Faults) (here : LocalFaults)
    (key : String) (data : Bytes) (services : Nat → Service s) : Prop where
  full : s.fsyncMode = "full"
  unsynced : here.syncsDir = false
  renamed : Renames config localId faults here key data services
  differs : (services localId).fs.read (s.pathOf key) ≠ some data

/-- What is before counts for its objects only. -/
theorem Invisible.congr {sent sent' : Prop} {before before' after : Nat → Service s}
    (reached : sent' ↔ sent)
    (objects : ∀ i, (before' i).fs.read (s.pathOf key) = (before i).fs.read (s.pathOf key)) :
    Invisible config faults key data sent' before' after ↔
      Invisible config faults key data sent before after := by
  constructor
  · intro hidden
    exact ⟨fun i => (hidden.objects i).trans (objects i), fun now => hidden.aborted (reached.2 now)⟩
  · intro hidden
    exact ⟨fun i => (hidden.objects i).trans (objects i).symm, fun now => hidden.aborted (reached.1 now)⟩

theorem Invisible.of_abortAll (self : localId ∉ faults.clients) (valid : ValidKey key) {fs : Fs}
    (file : fs.read (s.pathOf key) = (services localId).fs.read (s.pathOf key)) (sent : Prop) :
    Invisible config faults key data sent services
      (abortAll localId faults (prepareAll config faults key data (Sha256.digest data) services) fs) :=
  ⟨read_abortAll valid file, fun _ _ arrives => pending_abortAll self valid fs arrives⟩

/-- The local rename finds its temp file exactly when no cleanup has dropped it. -/
theorem rename_prepareAll (config : QuorumConfig) (self : localId ∉ faults.clients)
    (file : (services localId).fs.read (s.tempOf key) = some data) :
    (Fresh (services localId) key (faults.participants localId).cleanups →
      ∃ fs', ((prepareAll config faults key data (Sha256.digest data) services).services
          localId).fs.rename (s.tempOf key) (s.pathOf key) = some fs' ∧
        fs'.read (s.pathOf key) = some data) ∧
    (¬ Fresh (services localId) key (faults.participants localId).cleanups →
      ((prepareAll config faults key data (Sha256.digest data) services).services localId).fs.rename
        (s.tempOf key) (s.pathOf key) = none) := by
  rw [services_prepareAll_local self]
  obtain ⟨alive, gone⟩ := runCleanups_temp key (faults.participants localId).cleanups
    (services localId)
  constructor
  · intro fresh
    have there := (alive fresh).1.trans file
    obtain ⟨i, named, -⟩ := Option.map_eq_some_iff.1 there
    obtain ⟨fs', moved⟩ := Fs.rename_isSome named
    exact ⟨fs', moved, (Fs.read_rename moved).trans there⟩
  · intro stale
    by_contra moved
    obtain ⟨fs', call⟩ := Option.ne_none_iff_exists'.1 moved
    obtain ⟨i, named, -⟩ := Fs.rename_eq_some call
    rw [gone stale] at named
    cases named

/-- How a write with a temp file ends: at its checksum pass, given up between the phases, with the
object renamed and not synced, or acknowledged. -/
theorem commitFaulty_cases (config : QuorumConfig) (here : LocalFaults) (self : localId ∉ faults.clients)
    (valid : ValidKey key) (file : (services localId).fs.read (s.tempOf key) = some data) :
    (here.checksumReads = false ∧ ∃ e, commitFaulty config localId faults here key services =
      (dropTemp localId key services, .error e)) ∨
    (¬ Renames config localId faults here key data services ∧
      ∃ e, commitFaulty config localId faults here key services =
        (abortAll localId faults (prepareAll config faults key data (Sha256.digest data) services)
          (((prepareAll config faults key data (Sha256.digest data) services).services
            localId).fs.unlink (s.tempOf key)), .error e)) ∨
    (Renames config localId faults here key data services ∧
      s.fsyncMode = "full" ∧ here.syncsDir = false ∧
      ∃ e fs', fs'.read (s.pathOf key) = some data ∧
        commitFaulty config localId faults here key services =
          (abortAll localId faults (prepareAll config faults key data (Sha256.digest data) services) fs',
            .error e)) ∨
    (¬ (s.fsyncMode = "full" ∧ here.syncsDir = false) ∧
      (commitFaulty config localId faults here key services).2 = .ok ()) := by
  obtain ⟨moves, lost⟩ := rename_prepareAll config self file
  unfold commitFaulty
  simp only [file, length_tempIds config faults valid]
  by_cases read : here.checksumReads = true
  · simp only [read, Bool.not_true, Bool.false_eq_true, if_false]
    by_cases quorum : 1 + ackCount config faults data < config.writeQuorum
    · simp only [quorum, if_true]
      exact .inr (.inl ⟨fun r => absurd r.quorum (Nat.not_le.2 quorum), _, rfl⟩)
    by_cases makesDir : here.makesDir = true
    · by_cases renames : faults.localRenames = true
      · simp only [quorum, makesDir, renames, Bool.not_true, Bool.false_eq_true, if_false]
        by_cases fresh : Fresh (services localId) key (faults.participants localId).cleanups
        · obtain ⟨fs', moved, object⟩ := moves fresh
          simp only [moved]
          have renamed : Renames config localId faults here key data services :=
            ⟨read, Nat.not_lt.1 quorum, makesDir, renames, fresh⟩
          by_cases unsynced : s.fsyncMode = "full" ∧ here.syncsDir = false
          · rw [if_pos unsynced]
            exact .inr (.inr (.inl ⟨renamed, unsynced.1, unsynced.2, _, fs', object, rfl⟩))
          · rw [if_neg unsynced]
            exact .inr (.inr (.inr ⟨unsynced, rfl⟩))
        · simp only [lost fresh]
          exact .inr (.inl ⟨fun r => fresh r.fresh, _, rfl⟩)
      · simp only [quorum, makesDir, renames, Bool.not_true, Bool.not_false, Bool.false_eq_true, if_false,
          if_true]
        exact .inr (.inl ⟨fun r => renames r.renames, _, rfl⟩)
    · simp only [quorum, makesDir, Bool.not_false, if_false, if_true]
      exact .inr (.inl ⟨fun r => makesDir r.makesDir, _, rfl⟩)
  · simp only [read, Bool.not_false, if_true]
    exact .inl ⟨trivial, _, rfl⟩

/-- **The second half of a write.** -/
theorem commitFaulty_invisible_iff (config : QuorumConfig) (here : LocalFaults)
    (self : localId ∉ faults.clients) (valid : ValidKey key)
    (file : (services localId).fs.read (s.tempOf key) = some data) :
    ((commitFaulty config localId faults here key services).2 ≠ .ok () →
      Invisible config faults key data (here.checksumReads = true) services
        (commitFaulty config localId faults here key services).1) ↔
    ¬ Exposed config localId faults here key data services := by
  obtain ⟨unread, e, ends⟩ | ⟨stays, e, ends⟩ | ⟨renamed, full, unsynced, e, fs', object, ends⟩ |
    ⟨synced, ok⟩ := commitFaulty_cases config here self valid file
  · rw [ends]
    refine iff_of_true (fun _ => ⟨read_dropTemp key, fun sent => ?_⟩) fun exposed => ?_
    · rw [unread] at sent
      cases sent
    · have read := exposed.renamed.checksumReads
      rw [unread] at read
      cases read
  · rw [ends]
    have unlinked : (((prepareAll config faults key data (Sha256.digest data) services).services
        localId).fs.unlink (s.tempOf key)).read (s.pathOf key) =
          (services localId).fs.read (s.pathOf key) := by
      rw [Fs.read_unlink_of_ne _ (tempOf_ne_pathOf s key key).symm, read_prepareAll config faults valid]
    exact iff_of_true (fun _ => .of_abortAll self valid unlinked _) fun exposed => stays exposed.renamed
  · rw [ends]
    constructor
    · intro invisible exposed
      have unseen := (invisible nofun).objects localId
      rw [abortAll_local] at unseen
      exact exposed.differs (unseen.symm.trans object)
    · intro hidden _
      have before : (services localId).fs.read (s.pathOf key) = some data := by
        by_contra differs
        exact hidden ⟨full, unsynced, renamed, differs⟩
      exact .of_abortAll self valid (object.trans before.symm) _
  · refine iff_of_true (fun failed => absurd ok failed) fun exposed => ?_
    exact synced ⟨exposed.full, exposed.unsynced⟩

/-! ## The whole write -/

/-- The services with the local temp file written. -/
def withTemp (localId : Nat) (key : String) (bytes : Bytes) (services : Nat → Service s) :
    Nat → Service s :=
  Function.update services localId
    { services localId with fs := writeFile (services localId).fs (s.tempOf key) bytes }

theorem read_withTemp (bytes : Bytes) (key' : String) (i : Nat) :
    (withTemp localId key bytes services i).fs.read (s.pathOf key') =
      (services i).fs.read (s.pathOf key') := by
  by_cases same : i = localId
  · subst same
    rw [withTemp, Function.update_self]
    exact read_writeFile_of_ne _ (tempOf_ne_pathOf s key key').symm _
  · rw [withTemp, Function.update_of_ne same]

theorem putFaulty_eq (valid : ValidKey key) :
    putFaulty config localId faults here key data services =
      match here.write with
      | .noDirectory => (services, .error (.io "create_dir_all failed"))
      | .notCreated => (dropTemp localId key services, .error (.io "create failed"))
      | .stopped n =>
        (dropTemp localId key (withTemp localId key (data.take n) services), .error (.io "write failed"))
      | .written => commitFaulty config localId faults here key (withTemp localId key data services) := by
  unfold putFaulty
  rw [createTempObject_ok valid]
  rfl

theorem exposed_withTemp :
    Exposed config localId faults here key data (withTemp localId key data services) ↔
      Exposed config localId faults here key data services := by
  have fresh : Fresh (withTemp localId key data services localId) key
      (faults.participants localId).cleanups ↔
      Fresh (services localId) key (faults.participants localId).cleanups := by
    rw [withTemp, Function.update_self]
    exact Iff.rfl
  constructor
  · rintro ⟨full, unsynced, r, differs⟩
    refine ⟨full, unsynced, ⟨r.checksumReads, r.quorum, r.makesDir, r.renames, fresh.1 r.fresh⟩, ?_⟩
    rw [← read_withTemp data key localId]
    exact differs
  · rintro ⟨full, unsynced, r, differs⟩
    refine ⟨full, unsynced, ⟨r.checksumReads, r.quorum, r.makesDir, r.renames, fresh.2 r.fresh⟩, ?_⟩
    rw [read_withTemp data key localId]
    exact differs

/-- A write with an invalid key does nothing. -/
theorem putFaulty_invalid (invalid : ¬ ValidKey key) :
    (putFaulty config localId faults here key data services).1 = services := by
  obtain ⟨e, refused⟩ := createTempObject_invalid s invalid
  unfold putFaulty
  rw [refused]

end

/-- What the local temp file has. -/
def tempData (localId : Nat) (key : String) (services : Nat → Service s) : Bytes :=
  ((services localId).fs.read (s.tempOf key)).getD []

/-- The local temp file is there. -/
def HasTemp (localId : Nat) (key : String) (services : Nat → Service s) : Prop :=
  (services localId).fs.HasFile (s.tempOf key)

section

variable (config : QuorumConfig) {localId : Nat} {faults : Faults} (here : LocalFaults) {key : String}
  {services : Nat → Service s}

/-- A put fails where its temp file is not written, or as its commit does. -/
theorem putFaulty_invisible_iff (self : localId ∉ faults.clients) (data : Bytes) :
    ((putFaulty config localId faults here key data services).2 ≠ .ok () →
      Invisible config faults key data
        (ValidKey key ∧ here.write = .written ∧ here.checksumReads = true) services
        (putFaulty config localId faults here key data services).1) ↔
    ¬ (ValidKey key ∧ here.write = .written ∧
      Exposed config localId faults here key data services) := by
  by_cases valid : ValidKey key
  · rw [putFaulty_eq valid]
    cases point : here.write with
    | noDirectory =>
      exact iff_of_true (fun _ => ⟨fun _ => rfl, fun sent => by cases sent.2.1⟩)
        fun exposed => by cases exposed.2.1
    | notCreated =>
      exact iff_of_true (fun _ => ⟨read_dropTemp key, fun sent => by cases sent.2.1⟩)
        fun exposed => by cases exposed.2.1
    | stopped n =>
      have objects (i : Nat) : (dropTemp localId key (withTemp localId key (data.take n) services)
          i).fs.read (s.pathOf key) = (services i).fs.read (s.pathOf key) :=
        (read_dropTemp key i).trans (read_withTemp _ key i)
      exact iff_of_true (fun _ => ⟨objects, fun sent => by cases sent.2.1⟩)
        fun exposed => by cases exposed.2.1
    | written =>
      have file : (withTemp localId key data services localId).fs.read (s.tempOf key) = some data := by
        rw [withTemp, Function.update_self]
        exact read_writeFile _ _ _
      have sent : (ValidKey key ∧ LocalWrite.written = .written ∧ here.checksumReads = true) ↔
          here.checksumReads = true := by
        simp [valid]
      have commit := commitFaulty_invisible_iff config here self valid file
      rw [exposed_withTemp] at commit
      rw [Invisible.congr sent fun i => (read_withTemp data key i).symm, commit]
      simp [valid]
  · refine iff_of_true (fun _ => ?_) fun exposed => valid exposed.1
    rw [putFaulty_invalid valid]
    exact ⟨fun _ => rfl, fun sent => absurd sent.1 valid⟩

/-- A commit fails at once where its temp file is gone. -/
theorem commitFaulty_invisible_iff_of_temp (self : localId ∉ faults.clients) (valid : ValidKey key) :
    ((commitFaulty config localId faults here key services).2 ≠ .ok () →
      Invisible config faults key (tempData localId key services)
        (HasTemp localId key services ∧ here.checksumReads = true) services
        (commitFaulty config localId faults here key services).1) ↔
    ¬ (HasTemp localId key services ∧
      Exposed config localId faults here key (tempData localId key services) services) := by
  by_cases there : HasTemp localId key services
  · obtain ⟨data, file⟩ := Fs.hasFile_iff_read.1 there
    have data_eq : tempData localId key services = data := by
      rw [tempData, file]
      rfl
    have sent : (HasTemp localId key services ∧ here.checksumReads = true) ↔
        here.checksumReads = true := and_iff_right there
    have commit := commitFaulty_invisible_iff config here self valid file
    rw [data_eq, Invisible.congr sent fun _ => rfl, commit]
    simp [there]
  · have missing : (services localId).fs.read (s.tempOf key) = none := by
      by_contra file
      obtain ⟨data, file⟩ := Option.ne_none_iff_exists'.1 file
      exact there (Fs.hasFile_iff_read.2 ⟨data, file⟩)
    have call : commitFaulty config localId faults here key services = (services, .error noSuchFile) := by
      unfold commitFaulty
      rw [missing]
    rw [call]
    exact iff_of_true (fun _ => ⟨fun _ => rfl, fun sent => absurd sent.1 there⟩) fun exposed =>
      there exposed.1

end

/-- **Failed writes.** A write that is answered with an error has changed no object, and a node that
got its abort has nothing pending, exactly when it is not the sync behind the rename that fails. -/
theorem failed_write_invisible_iff (config : QuorumConfig) (localId : Nat) (faults : Faults)
    (self : localId ∉ faults.clients) (here : LocalFaults) (key : String)
    (services : Nat → Service s) :
    (∀ data : Bytes,
      ((putFaulty config localId faults here key data services).2 ≠ .ok () →
        Invisible config faults key data
          (ValidKey key ∧ here.write = .written ∧ here.checksumReads = true) services
          (putFaulty config localId faults here key data services).1) ↔
      ¬ (ValidKey key ∧ here.write = .written ∧
        Exposed config localId faults here key data services)) ∧
    (ValidKey key →
      (((commitFaulty config localId faults here key services).2 ≠ .ok () →
        Invisible config faults key (tempData localId key services)
          (HasTemp localId key services ∧ here.checksumReads = true) services
          (commitFaulty config localId faults here key services).1) ↔
      ¬ (HasTemp localId key services ∧
        Exposed config localId faults here key (tempData localId key services) services))) := by
  constructor
  · intro data
    exact putFaulty_invisible_iff config here self data
  · intro valid
    exact commitFaulty_invisible_iff_of_temp config here self valid

/-! ## Runs on one key -/

/-- A storage that syncs directories. -/
def fullStorage : ObjectStorage := ⟨["data"], "full"⟩

/-- The object's directory cannot be made. -/
def noDirectory : LocalFaults := ⟨.written, true, false, true⟩

/-- The object's directory is not synced. -/
def notSynced : LocalFaults := ⟨.written, true, true, false⟩

omit [Sha256] in
theorem failed_write_invisible_sample :
    letI : Sha256 := Sha256.sampled
    (putFaulty (.withReplicationFactor 3) 0 (sampleFaults 1) noDirectory "abc/k" [1]
      fun _ => Service.empty fullStorage).2 ≠ .ok () ∧
    Invisible (.withReplicationFactor 3) (sampleFaults 1) "abc/k" [1]
      (ValidKey "abc/k" ∧ noDirectory.write = .written ∧ noDirectory.checksumReads = true)
      (fun _ => Service.empty fullStorage)
      (putFaulty (.withReplicationFactor 3) 0 (sampleFaults 1) noDirectory "abc/k" [1]
        fun _ => Service.empty fullStorage).1 := by
  let _ : Sha256 := Sha256.sampled
  have failed : (putFaulty (.withReplicationFactor 3) 0 (sampleFaults 1) noDirectory "abc/k" [1]
      fun _ => Service.empty fullStorage).2 ≠ .ok () := by decide +kernel
  refine ⟨failed, ((failed_write_invisible_iff (.withReplicationFactor 3) 0 (sampleFaults 1) (by decide)
    noDirectory "abc/k" fun _ => Service.empty fullStorage).1 [1]).2 ?_ failed⟩
  rintro ⟨-, -, exposed⟩
  cases exposed.renamed.makesDir

omit [Sha256] in
/-- The sync behind the rename fails: the write is answered with an error, and read. -/
theorem failed_write_published :
    ¬ ∀ [Sha256] (s : ObjectStorage) (config : QuorumConfig) (localId : Nat) (faults : Faults),
      localId ∉ faults.clients → ∀ (here : LocalFaults) (key : String) (services : Nat → Service s),
      (∀ data : Bytes, (putFaulty config localId faults here key data services).2 ≠ .ok () →
        Invisible config faults key data
          (ValidKey key ∧ here.write = .written ∧ here.checksumReads = true) services
          (putFaulty config localId faults here key data services).1) ∧
      (ValidKey key → (commitFaulty config localId faults here key services).2 ≠ .ok () →
        Invisible config faults key (tempData localId key services)
          (HasTemp localId key services ∧ here.checksumReads = true) services
          (commitFaulty config localId faults here key services).1) := by
  intro claim
  let _ : Sha256 := Sha256.sampled
  have failed : (putFaulty (.withReplicationFactor 3) 0 (sampleFaults 1) notSynced "abc/k" [1]
      fun _ => Service.empty fullStorage).2 ≠ .ok () := by decide +kernel
  have hidden := (claim fullStorage (.withReplicationFactor 3) 0 (sampleFaults 1) (by decide) notSynced
    "abc/k" fun _ => Service.empty fullStorage).1 [1] failed
  have seen := hidden.objects 0
  exact absurd seen (by decide +kernel)

end Save.Replication
