import Save.Lib.Catchup
import Save.Metadata.Cut
import Save.Metadata.Install
import Save.Metadata.Determinism

/-!
# The catalogs of a cluster converge

The nodes of a cluster apply one log of committed entries, each in its own batches,
write by write (`raft/storage.rs`); they take snapshots while they do so, send the
stored one to each other (`raft/snapshot.rs`), install it key by key, crash at any
write and start again from their databases. The cut a snapshot is taken at need not
be consistent, and a node that starts again applies entries a second time. The
bucket and object records bear it: `catalogs_converge` says that in every run in
which no half-stored snapshot is sent, found at a start or overwritten (`Calm`),
each record of a node is what the last entry on it left, as soon as that entry is
behind the node's position.

`Follows` carries the proof: it says of some records that they agree with the log up
to a position, in the sense of the library on lists of entries, and it holds of a
node at every write of a batch, of a checkpoint taken there, and of what an
installation has written when it is done.
-/

namespace Save.Metadata
set_option autoImplicit false
open Save.Kv Save.Common Save.Cells Save.Run Save.Catchup

/-! ## The log -/

/-- The bucket or object record a command sets, creation times aside. -/
def Command.effect : Command → Option (String × Option Value)
  | .createBucket bucket => some (bucketKey bucket.name, some (.bucket ⟨bucket.name, 0⟩))
  | .deleteBucket name => some (bucketKey name, none)
  | .putObjectMetadata metadata =>
    some (objectDbKey metadata.bucket metadata.key, some (.object metadata))
  | .deleteObjectMetadata bucket key => some (objectDbKey bucket key, none)
  | .acquireLock _ _ _ _ => none
  | .releaseLock _ _ _ => none

def Entry.effect (e : Entry) : Option (String × Option Value) :=
  match e.payload with
  | .normal cmd => cmd.effect
  | _ => none

instance (k : String) : Decidable (BucketOrObject k) := inferInstanceAs (Decidable (_ ∨ _))

/-- The bucket and object records of a store, creation times aside. -/
def catalog (s : Store Value) (k : String) : Option Value :=
  if BucketOrObject k then (s.get k).map Value.timeless else none

/-- Records that follow the log from a position. -/
def Follows (log : List Entry) (last : Option LogId) (records : Store Value) : Prop :=
  Agrees Entry.effect (fun _ => none) log (position last) (catalog records)

/-- The bucket and object records that the last entries on them left. -/
def committedCatalog (log : List Entry) : String → Option Value :=
  after Entry.effect (fun _ => none) log

/-! ## A node -/

/-- The call of the state machine under way, with the writes it has still to make. -/
inductive Work where
  | applying (left : List SnapshotWrite)
  | installing (snapshot : Snapshot) (left : List SnapshotWrite)

/-- A node: its database outlives a crash, the rest does not. -/
structure Member where
  db : Db
  work : Work
  /-- No call has failed; openraft makes none after that. -/
  running : Bool
  build : BuildStage

def Member.empty : Member := ⟨Db.empty, .applying [], true, .idle⟩

inductive MemberEvent where
  /-- The entries from the position on are applied, one for each clock reading. -/
  | apply (nows : List DateTime)
  | write
  | readPosition
  | readMembership
  | checkpoint
  | writeMeta (timestampMillis : Int)
  | writeData
  /-- A handler writes a record of an upload, which is not replicated. -/
  | record (w : Write Value)
  | crash
  /-- A start that finds the Raft state corrupt. -/
  | clearRaftState

/-- `clear_raft_state`, for what the state machine keeps: the default column family stays. -/
def Db.clearRaftState (db : Db) : Db := ⟨db.default, none, none, none, none⟩

/-- The entries from a position on, with the clock readings of the node that applies them. -/
def batchFrom (log : List Entry) (done : Nat) (nows : List DateTime) : List Tick :=
  List.zipWith Tick.mk (log.drop done) nows

def Member.step (log : List Entry) (m : Member) : MemberEvent → Option Member
  | .apply nows =>
    match m.work, m.running with
    | .applying [], true =>
      let call := applyToStateMachine m.db (batchFrom log (position m.db.lastApplied) nows)
      some { m with work := .applying (call.1.map .state), running := call.2.toBool }
    | _, _ => none
  | .write =>
    match m.work with
    | .applying (w :: left) => some { m with db := w.apply m.db, work := .applying left }
    | .installing _ [w] => some { m with db := w.apply m.db, work := .applying [] }
    | .installing snapshot (w :: left) =>
      some { m with db := w.apply m.db, work := .installing snapshot left }
    | _ => none
  | .readPosition =>
    match m.build with
    | .idle | .returned _ => some { m with build := .positioned m.db.lastApplied }
    | _ => none
  | .readMembership =>
    match m.build with
    | .positioned last =>
      some { m with build := .described last (m.db.membership.getD StoredMembership.default) }
    | _ => none
  | .checkpoint =>
    match m.build with
    | .described last membership => some { m with build := .archived last membership m.db.default }
    | _ => none
  | .writeMeta timestampMillis =>
    match m.build with
    | .archived last membership archive =>
      let info := snapshotInfo timestampMillis last membership
      some { m with db := (SnapshotWrite.info info).apply m.db, build := .recorded ⟨info, archive⟩ }
    | _ => none
  | .writeData =>
    match m.build with
    | .recorded snapshot =>
      some { m with db := (SnapshotWrite.archive snapshot.archive).apply m.db
                    build := .returned snapshot }
    | _ => none
  | .record w =>
    if BucketOrObject w.key then none
    else some { m with db := (SnapshotWrite.state (.data w)).apply m.db }
  | .crash => some ⟨m.db, .applying [], true, .idle⟩
  | .clearRaftState => some ⟨m.db.clearRaftState, .applying [], true, .idle⟩

/-- A snapshot is installed between calls, and only when it is ahead of the node. -/
def Member.install (m : Member) (snapshot : Snapshot) : Option Member :=
  match m.work with
  | .applying [] =>
    if m.running = true ∧ position m.db.lastApplied < position snapshot.info.lastLogId then
      some { m with work := .installing snapshot (installWrites m.db snapshot.info snapshot.archive) }
    else none
  | _ => none

/-! ## The cluster -/

/-- The committed log, the nodes, and the snapshots sent so far: each may arrive at any
node, any number of times. -/
structure ReplicaSet where
  log : List Entry
  members : NodeId → Member
  sent : List Snapshot

def ReplicaSet.empty : ReplicaSet := ⟨[], fun _ => Member.empty, []⟩

inductive ReplicaSetEvent where
  | commit (leaderId : LeaderId) (payload : EntryPayload)
  | member (n : NodeId) (event : MemberEvent)
  /-- The node's `get_current_snapshot` is sent. -/
  | send (n : NodeId)
  | install (n : NodeId) (i : Nat)

def ReplicaSet.step (c : ReplicaSet) : ReplicaSetEvent → Option ReplicaSet
  | .commit leaderId payload =>
    some { c with log := c.log ++ [⟨⟨leaderId, c.log.length⟩, payload⟩] }
  | .member n event =>
    ((c.members n).step c.log event).map fun m => { c with members := Function.update c.members n m }
  | .send n =>
    (getCurrentSnapshot (c.members n).db).map fun snapshot => { c with sent := c.sent ++ [snapshot] }
  | .install n i =>
    c.sent[i]?.bind fun snapshot =>
      ((c.members n).install snapshot).map fun m =>
        { c with members := Function.update c.members n m }

/-! ## The condition -/

def Work.Installing : Work → Prop
  | .applying _ => False
  | .installing _ _ => True

instance (work : Work) : Decidable work.Installing :=
  match work with
  | .applying _ => .isFalse id
  | .installing _ _ => .isTrue trivial

/-- The meta of a new snapshot is stored, its data is not. -/
def BuildStage.Half : BuildStage → Prop
  | .recorded _ => True
  | _ => False

instance (stage : BuildStage) : Decidable stage.Half :=
  match stage with
  | .recorded _ => .isTrue trivial
  | .idle | .positioned _ | .described _ _ | .archived _ _ _ | .returned _ => .isFalse id

/-- What the database holds is all of one piece. -/
def Member.Steady (m : Member) : Prop := ¬ m.work.Installing ∧ ¬ m.build.Half

instance (m : Member) : Decidable m.Steady := inferInstanceAs (Decidable (_ ∧ _))

def MemberEvent.Calm (m : Member) : MemberEvent → Prop
  | .crash => m.Steady
  | .clearRaftState | .checkpoint | .writeMeta _ => ¬ m.work.Installing
  | _ => True

instance (m : Member) (event : MemberEvent) : Decidable (event.Calm m) :=
  match event with
  | .crash => inferInstanceAs (Decidable m.Steady)
  | .clearRaftState | .checkpoint | .writeMeta _ => inferInstanceAs (Decidable (¬ m.work.Installing))
  | .apply _ | .write | .readPosition | .readMembership | .writeData | .record _ => .isTrue trivial

/-- No node is left with half an installation or half a snapshot, by a crash or by the
other of the two, and no such half is sent. -/
def Calm (c : ReplicaSet) : ReplicaSetEvent → Prop
  | .commit _ _ => True
  | .member n event => event.Calm (c.members n)
  | .send n => (c.members n).Steady
  | .install n _ => ¬ (c.members n).build.Half

instance (c : ReplicaSet) (event : ReplicaSetEvent) : Decidable (Calm c event) :=
  match event with
  | .commit _ _ => .isTrue trivial
  | .member n event => inferInstanceAs (Decidable (event.Calm (c.members n)))
  | .send n => inferInstanceAs (Decidable (c.members n).Steady)
  | .install n _ => inferInstanceAs (Decidable (¬ (c.members n).build.Half))

/-- Each bucket and object record is, creation times aside, what the last entry on it left,
when that entry is among those up to `last`. -/
def Converged (log : List Entry) (last : Option LogId) (records : Store Value) : Prop :=
  ∀ k, BucketOrObject k → Untouched Entry.effect k (log.drop (position last)) →
    (records.get k).map Value.timeless = committedCatalog log k

/-! ## One entry -/

theorem bucketKey_object (name : String) : BucketOrObject (bucketKey name) :=
  .inl (bucketKey_startsWith name)

theorem objectDbKey_object (bucket key : String) : BucketOrObject (objectDbKey bucket key) :=
  .inr (objectDbKey_startsWith bucket key)

theorem lockKey_not_object (bucket key : String) : ¬ BucketOrObject (lockKey bucket key) := by
  have lock := lockKey_startsWith bucket key
  rintro (hit | hit)
  · exact ne_of_startsWith (by decide) (by decide) hit lock rfl
  · exact ne_of_startsWith (by decide) (by decide) hit lock rfl

/-- A change of one bucket or object record. -/
theorem catalog_update {s s' : Store Value} {k : String} {v : Option Value} (object : BucketOrObject k)
    (changed : s'.get = Function.update s.get k v) :
    catalog s' = Function.update (catalog s) k (v.map Value.timeless) := by
  funext k'
  rw [catalog, changed]
  by_cases same : k' = k
  · subst same
    rw [if_pos object, Function.update_self, Function.update_self]
  · rw [Function.update_of_ne same, Function.update_of_ne same, catalog]

/-- A change of any other record. -/
theorem catalog_update_other {s s' : Store Value} {k : String} {v : Option Value}
    (other : ¬ BucketOrObject k) (changed : s'.get = Function.update s.get k v) :
    catalog s' = catalog s := by
  funext k'
  rw [catalog, catalog, changed]
  split
  · rename_i object
    have apart : k' ≠ k := fun same => other (same ▸ object)
    rw [Function.update_of_ne apart]
  · rfl

/-- A command that is applied leaves of its record what the log says. -/
theorem cellAct_effect {now : DateTime} {cmd : Command} {v w : Option Value}
    (act : cellAct now cmd v = some w) :
    (BucketOrObject cmd.cell ∧ cmd.effect = some (cmd.cell, w.map Value.timeless)) ∨
      (¬ BucketOrObject cmd.cell ∧ cmd.effect = none) := by
  cases cmd with
  | createBucket bucket =>
    refine .inl ⟨bucketKey_object _, ?_⟩
    simp only [cellAct, Option.ite_none_right_eq_some, Option.some.injEq] at act
    rw [← act.2]
    rfl
  | deleteBucket name =>
    refine .inl ⟨bucketKey_object _, ?_⟩
    simp only [cellAct, Option.ite_none_right_eq_some, Option.some.injEq] at act
    rw [← act.2]
    rfl
  | putObjectMetadata metadata =>
    refine .inl ⟨objectDbKey_object _ _, ?_⟩
    simp only [cellAct, Option.ite_none_right_eq_some, Option.some.injEq] at act
    rw [← act.2]
    rfl
  | deleteObjectMetadata bucket key =>
    refine .inl ⟨objectDbKey_object _ _, ?_⟩
    simp only [cellAct, Option.ite_none_right_eq_some, Option.some.injEq] at act
    rw [← act.2]
    rfl
  | acquireLock bucket key lockType holder | releaseLock bucket key holder =>
    exact .inr ⟨lockKey_not_object _ _, rfl⟩

/-- The writes of an entry execute it on the catalog, whatever was there before. -/
theorem catalog_entryWrites {db : Db} {t : Tick} {ws : List DbWrite}
    (call : entryWrites db t = .ok ws) :
    catalog (db.applyAll ws).default = execute Entry.effect (catalog db.default) t.entry := by
  have step := step_of_entryWrites call
  obtain ⟨⟨id, payload⟩, now⟩ := t
  cases payload with
  | blank | membership m =>
    have same : db.default.get = (db.applyAll ws).default.get := Option.some.inj step
    rw [← Store.ext fun k => congrFun same k]
    rfl
  | normal cmd =>
    rw [machine.step_of_some (k := cmd.cell) rfl] at step
    obtain ⟨v, act, changed⟩ := Option.map_eq_some_iff.1 step
    rcases cellAct_effect act with ⟨object, effect⟩ | ⟨other, effect⟩
    · rw [catalog_update object changed.symm]
      simp only [execute, Entry.effect, effect]
    · rw [catalog_update_other other changed.symm]
      simp only [execute, Entry.effect, effect]

/-! ## The writes of a call -/

/-- Each of the writes, in its turn, takes the database to one that `r` relates it to. -/
def Steps (r : Db → Db → Prop) : Db → List SnapshotWrite → Prop
  | _, [] => True
  | db, w :: ws => r db (w.apply db) ∧ Steps r (w.apply db) ws

theorem Steps.imp {r r' : Db → Db → Prop} (weaker : ∀ db db', r db db' → r' db db') {db : Db}
    {ws : List SnapshotWrite} (steps : Steps r db ws) : Steps r' db ws := by
  induction ws generalizing db with
  | nil => trivial
  | cons w ws ih => exact ⟨weaker _ _ steps.1, ih steps.2⟩

theorem steps_append {r : Db → Db → Prop} {db : Db} {ws ws' : List SnapshotWrite} :
    Steps r db (ws ++ ws') ↔ Steps r db ws ∧ Steps r (db.applySnapshot ws) ws' := by
  induction ws generalizing db with
  | nil => simp [Steps, Db.applySnapshot]
  | cons w ws ih =>
    simp only [List.cons_append, Steps, ih, and_assoc]
    rfl

theorem applySnapshot_state (db : Db) (ws : List DbWrite) :
    db.applySnapshot (ws.map .state) = db.applyAll ws := by
  rw [Db.applySnapshot, List.foldl_map]
  rfl

/-- The position does not fall back. -/
def Rises (db db' : Db) : Prop := position db.lastApplied ≤ position db'.lastApplied

/-- Nor does the database leave the log. -/
def StaysBehind (log : List Entry) (db db' : Db) : Prop :=
  Rises db db' ∧ Follows log db'.lastApplied db'.default

/-- The writes of one entry, of which there is at most one. -/
theorem steps_entryWrites {log : List Entry} {db : Db} {t : Tick} {ws : List DbWrite}
    (call : entryWrites db t = .ok ws) (same : (db.applyAll ws).lastApplied = db.lastApplied)
    (follows : Follows log db.lastApplied (db.applyAll ws).default) :
    Steps (StaysBehind log) db (ws.map .state) := by
  cases step : machine.step db.default.get t with
  | none =>
    obtain ⟨e, failed⟩ := entryWrites_error step
    rw [failed] at call
    cases call
  | some s =>
    obtain ⟨ws', call', short, -⟩ := entryWrites_ok step
    rw [call'] at call
    cases call
    match ws, short with
    | [], _ => trivial
    | [w], _ =>
      have last : (w.apply db).lastApplied = db.lastApplied := same
      refine ⟨⟨?_, ?_⟩, trivial⟩
      · exact le_of_eq (congrArg position last.symm)
      · change Follows log (w.apply db).lastApplied (w.apply db).default
        rw [last]
        exact follows

theorem entryWrites_lastApplied {db : Db} {t : Tick} {ws : List DbWrite}
    (call : entryWrites db t = .ok ws) : (db.applyAll ws).lastApplied = db.lastApplied := by
  have unchanged : ∀ (ws : List DbWrite) (db : Db), NoPosition ws →
      (db.applyAll ws).lastApplied = db.lastApplied := by
    intro ws
    induction ws with
    | nil => exact fun _ _ => rfl
    | cons w ws ih =>
      intro db other
      have first := (DbWrite.apply_lastApplied (other w List.mem_cons_self) db db).1
      rw [← first]
      exact ih (w.apply db) fun w' member => other w' (List.mem_cons_of_mem _ member)
  exact unchanged ws db (entryWrites_noPosition call)

/-- The entries that are applied are the next ones of the log. -/
def NextOf (log : List Entry) (done : Nat) (ts : List Tick) : Prop :=
  ∀ i t, ts[i]? = some t → log[done + i]? = some t.entry ∧ t.entry.logId.index = done + i

/-- The loop executes the entries it is given, ahead of the position. -/
theorem applyLoop_follows {log : List Entry} {db : Db} {done : Nat} {ts : List Tick}
    (last : Option LogId)
    (agrees : Agrees Entry.effect (fun _ => none) log done (catalog db.default))
    (ahead : position db.lastApplied ≤ done) (next : NextOf log done ts) :
    Steps (StaysBehind log) db ((applyLoop db last ts).1.map .state) ∧
      (db.applyAll (applyLoop db last ts).1).lastApplied = db.lastApplied ∧
      ∀ id, (applyLoop db last ts).2 = .ok id →
        Agrees Entry.effect (fun _ => none) log (done + ts.length)
          (catalog (db.applyAll (applyLoop db last ts).1).default) := by
  induction ts generalizing db done last with
  | nil => exact ⟨trivial, rfl, fun _ _ => agrees⟩
  | cons t ts ih =>
    simp only [applyLoop]
    split
    · exact ⟨trivial, rfl, fun id failed => by cases failed⟩
    · rename_i ws call
      have same := entryWrites_lastApplied call
      have here : log[done]? = some t.entry := (next 0 t rfl).1
      have executed := agrees.advance here
      rw [← catalog_entryWrites call] at executed
      have first := steps_entryWrites call same (executed.fallBack (by omega))
      have rest : NextOf log (done + 1) ts := by
        intro i t' there
        have found := next (i + 1) t' there
        rw [show done + 1 + i = done + (i + 1) by omega]
        exact found
      obtain ⟨steps, kept, all⟩ := ih (some t.entry.logId) executed (by rw [same]; omega) rest
      refine ⟨?_, ?_, fun id ok => ?_⟩
      · rw [List.map_append, steps_append, applySnapshot_state]
        exact ⟨first, steps⟩
      · rw [Db.applyAll_append, kept, same]
      · rw [Db.applyAll_append, List.length_cons, show done + (ts.length + 1) = done + 1 + ts.length by omega]
        exact all id ok

/-- The position a loop ends at is that of its last entry. -/
theorem applyLoop_last {db : Db} {last : Option LogId} {ts : List Tick} {id : Option LogId}
    (ok : (applyLoop db last ts).2 = .ok id) :
    id = (ts.getLast?.map fun t => t.entry.logId).or last := by
  cases ran : machine.run ts db.default.get with
  | none =>
    obtain ⟨ws, e, loop, -⟩ := applyLoop_error last ran
    rw [loop] at ok
    cases ok
  | some s =>
    obtain ⟨ws, loop, -⟩ := applyLoop_ok last ran
    rw [loop] at ok
    cases ok
    exact foldl_lastApplied ts last

/-- A call of `apply_to_state_machine` with the next entries never leaves the log. -/
theorem applyToStateMachine_follows {log : List Entry} {db : Db} {ts : List Tick}
    (follows : Follows log db.lastApplied db.default)
    (next : NextOf log (position db.lastApplied) ts) :
    Steps (StaysBehind log) db ((applyToStateMachine db ts).1.map .state) := by
  obtain ⟨steps, kept, all⟩ := applyLoop_follows none follows le_rfl next
  have ends : ∀ id, (applyLoop db none ts).2 = .ok id →
      id = (ts.getLast?.map fun t => t.entry.logId).or none := fun _ => applyLoop_last
  unfold applyToStateMachine
  revert steps kept all ends
  generalize applyLoop db none ts = loop
  intro steps kept all ends
  obtain ⟨ws, answer⟩ := loop
  cases answer with
  | error e => exact steps
  | ok last =>
    cases last with
    | none => exact steps
    | some id =>
      -- the position of the last entry, written at the end
      obtain ⟨t, there, rfl⟩ : ∃ t, ts.getLast? = some t ∧ t.entry.logId = id := by
        have same := ends (some id) rfl
        rw [Option.or_none] at same
        exact Option.map_eq_some_iff.1 same.symm
      have found : ts[ts.length - 1]? = some t := by rw [← List.getLast?_eq_getElem?, there]
      have index := (next _ t found).2
      have nonempty : ts.length ≠ 0 := by
        intro empty
        rw [List.length_eq_zero_iff.1 empty] at there
        cases there
      have after := all _ rfl
      have end_position : position (some t.entry.logId) = position db.lastApplied + ts.length := by
        simp only [position] at index ⊢
        omega
      simp only [List.map_append, steps_append, applySnapshot_state]
      refine ⟨steps, ⟨?_, ?_⟩, trivial⟩
      · change position (db.applyAll ws).lastApplied ≤ position (some t.entry.logId)
        rw [kept, end_position]
        omega
      · change Agrees _ _ log (position (some t.entry.logId)) _
        rw [end_position]
        exact after

/-- Entry `i` of the log has index `i`. -/
def Numbered (log : List Entry) : Prop :=
  ∀ (i : Nat) (e : Entry), log[i]? = some e → e.logId.index = i

theorem nextOf_batchFrom {log : List Entry} (numbered : Numbered log) (done : Nat)
    (nows : List DateTime) : NextOf log done (batchFrom log done nows) := by
  intro i t there
  obtain ⟨e, now, entry, -, rfl⟩ := List.getElem?_zipWith_eq_some.1 there
  rw [List.getElem?_drop] at entry
  exact ⟨entry, numbered _ _ entry⟩

/-! ## Installations -/

theorem steps_data (db : Db) (ws : List (Write Value)) :
    Steps Rises db (ws.map fun w => .state (.data w)) := by
  induction ws generalizing db with
  | nil => trivial
  | cons w ws ih => exact ⟨le_rfl, ih _⟩

theorem applySnapshot_data_lastApplied (db : Db) (ws : List (Write Value)) :
    (db.applySnapshot (ws.map fun w => .state (.data w))).lastApplied = db.lastApplied := by
  rw [applySnapshot_data]

/-- An installation ahead of the node does not let its position fall back. -/
theorem installWrites_rises {db : Db} {info : SnapshotMeta} (archive : Store Value)
    (ahead : position db.lastApplied ≤ position info.lastLogId) :
    Steps Rises db (installWrites db info archive) := by
  rw [installWrites, steps_append]
  refine ⟨steps_data _ _, ?_⟩
  have kept := applySnapshot_data_lastApplied db (restoreWrites db.default archive)
  cases last : info.lastLogId with
  | none => exact ⟨le_rfl, le_rfl, le_rfl, trivial⟩
  | some id =>
    rw [last] at ahead
    refine ⟨?_, le_rfl, le_rfl, le_rfl, trivial⟩
    change position (Db.applySnapshot _ _).lastApplied ≤ position (some id)
    rw [kept]
    exact ahead

theorem covered_of_object {k : String} (object : BucketOrObject k) : covered dataPrefixes k = true := by
  rcases object with hit | hit <;> simp [covered, dataPrefixes, hit]

theorem catalog_restored (target source : Store Value) :
    catalog (restoreDefaultCf target source) = catalog source := by
  funext k
  unfold catalog
  split
  · rename_i object
    rw [get_restoreDefaultCf, if_pos (covered_of_object object)]
  · rfl

/-- What an installation leaves. -/
structure Installed (snapshot : Snapshot) (db : Db) : Prop where
  records : catalog db.default = catalog snapshot.archive
  lastApplied : db.lastApplied = snapshot.info.lastLogId
  stored : getCurrentSnapshot db = some snapshot

theorem installWrites_installed {db : Db} {snapshot : Snapshot}
    (ahead : position db.lastApplied < position snapshot.info.lastLogId) :
    Installed snapshot (db.applySnapshot (installWrites db snapshot.info snapshot.archive)) := by
  have all := installCrashed_all db snapshot.info snapshot.archive
  rw [installCrashed, List.take_length] at all
  rw [all]
  obtain ⟨id, last⟩ : ∃ id, snapshot.info.lastLogId = some id := by
    cases last : snapshot.info.lastLogId with
    | none =>
      rw [last] at ahead
      exact absurd ahead (Nat.not_lt_zero _)
    | some id => exact ⟨id, rfl⟩
  unfold installSnapshot updateRaftStateFromSnapshot
  rw [last]
  exact ⟨catalog_restored _ _, last.symm, rfl⟩

/-! ## The invariant -/

/-- A snapshot whose records follow the log from the position it names. -/
def Snapshot.Follows (log : List Entry) (snapshot : Snapshot) : Prop :=
  Metadata.Follows log snapshot.info.lastLogId snapshot.archive

/-- The call under way ends with records that follow the log. -/
def Work.Right (log : List Entry) (db : Db) : Work → Prop
  | .applying left => Follows log db.lastApplied db.default ∧ Steps (StaysBehind log) db left ∧
      ∀ w ∈ left, ∃ d, w = .state d
  | .installing snapshot left => snapshot.Follows log ∧ Steps Rises db left ∧
      Installed snapshot (db.applySnapshot left)

/-- The builder's position is behind the node's, or its archive follows the log from it. -/
def BuildStage.Behind (log : List Entry) (db : Db) : BuildStage → Prop
  | .idle => True
  | .positioned last => position last ≤ position db.lastApplied
  | .described last _ => position last ≤ position db.lastApplied
  | .archived last _ archive => Metadata.Follows log last archive
  | .recorded snapshot => snapshot.Follows log
  | .returned snapshot => snapshot.Follows log

structure Member.Sound (log : List Entry) (m : Member) : Prop where
  work : m.work.Right log m.db
  build : m.build.Behind log m.db
  stored : m.Steady → ∀ snapshot, getCurrentSnapshot m.db = some snapshot → snapshot.Follows log
  half : ∀ snapshot, m.build = .recorded snapshot →
    ¬ m.work.Installing ∧ m.db.snapshotMeta = some snapshot.info

structure ReplicaSet.Sound (c : ReplicaSet) : Prop where
  numbered : Numbered c.log
  members : ∀ n, (c.members n).Sound c.log
  sent : ∀ snapshot ∈ c.sent, snapshot.Follows c.log

/-! ## Databases that differ in other records -/

/-- Equal positions and catalogs. -/
structure Alike (db db' : Db) : Prop where
  records : catalog db.default = catalog db'.default
  lastApplied : db.lastApplied = db'.lastApplied

theorem catalog_write {s s' : Store Value} (same : catalog s = catalog s') (w : Write Value) :
    catalog (w.apply s) = catalog (w.apply s') := by
  funext k
  have here := congrFun same k
  unfold catalog at here ⊢
  split
  · rename_i object
    rw [if_pos object, if_pos object] at here
    rw [get_apply, get_apply]
    split
    · rfl
    · exact here
  · rfl

theorem Alike.apply {db db' : Db} (alike : Alike db db') (w : SnapshotWrite) :
    Alike (w.apply db) (w.apply db') := by
  cases w with
  | state d =>
    cases d with
    | data w => exact ⟨catalog_write alike.records w, alike.lastApplied⟩
    | membership m => exact ⟨alike.records, alike.lastApplied⟩
    | lastApplied id => exact ⟨alike.records, rfl⟩
  | info info => exact ⟨alike.records, alike.lastApplied⟩
  | archive archive => exact ⟨alike.records, alike.lastApplied⟩

theorem Alike.applySnapshot {db db' : Db} (alike : Alike db db') (ws : List SnapshotWrite) :
    Alike (db.applySnapshot ws) (db'.applySnapshot ws) := by
  induction ws generalizing db db' with
  | nil => exact alike
  | cons w ws ih => exact ih (alike.apply w)

theorem Follows.congr {log : List Entry} {db db' : Db} (follows : Follows log db.lastApplied db.default)
    (alike : Alike db db') : Follows log db'.lastApplied db'.default := by
  unfold Follows at follows ⊢
  rw [← alike.lastApplied, ← alike.records]
  exact follows

theorem Rises.congr {db₁ db₂ db₁' db₂' : Db} (rises : Rises db₁ db₂) (first : Alike db₁ db₁')
    (second : Alike db₂ db₂') : Rises db₁' db₂' := by
  unfold Rises at rises ⊢
  rw [← first.lastApplied, ← second.lastApplied]
  exact rises

theorem Steps.congr {r : Db → Db → Prop}
    (respects : ∀ db₁ db₂ db₁' db₂', r db₁ db₂ → Alike db₁ db₁' → Alike db₂ db₂' → r db₁' db₂')
    {db db' : Db} {ws : List SnapshotWrite} (steps : Steps r db ws) (alike : Alike db db') :
    Steps r db' ws := by
  induction ws generalizing db db' with
  | nil => trivial
  | cons w ws ih =>
    exact ⟨respects _ _ _ _ steps.1 alike (alike.apply w), ih steps.2 (alike.apply w)⟩

theorem StaysBehind.congr {log : List Entry} (db₁ db₂ db₁' db₂' : Db) (stays : StaysBehind log db₁ db₂)
    (first : Alike db₁ db₁') (second : Alike db₂ db₂') : StaysBehind log db₁' db₂' :=
  ⟨stays.1.congr first second, stays.2.congr second⟩

/-- The stored snapshot does not depend on the rest of the database. -/
theorem getCurrentSnapshot_applySnapshot {db db' : Db} (info : db.snapshotMeta = db'.snapshotMeta)
    (data : db.snapshotData = db'.snapshotData) (ws : List SnapshotWrite) :
    getCurrentSnapshot (db.applySnapshot ws) = getCurrentSnapshot (db'.applySnapshot ws) := by
  induction ws generalizing db db' with
  | nil =>
    simp only [Db.applySnapshot, List.foldl_nil, getCurrentSnapshot, info, data]
  | cons w ws ih =>
    cases w with
    | state d => cases d <;> exact ih info data
    | info m => exact ih rfl data
    | archive a => exact ih info rfl

theorem BuildStage.Behind.rise {log : List Entry} {db db' : Db} {stage : BuildStage}
    (behind : stage.Behind log db) (rises : Rises db db') : stage.Behind log db' := by
  cases stage with
  | idle => trivial
  | positioned last | described last membership => exact Nat.le_trans behind rises
  | archived last membership archive | recorded snapshot | returned snapshot => exact behind

/-- Writes of records outside the catalog, or of the stored snapshot, do not disturb a call. -/
theorem Work.Right.congr {log : List Entry} {db db' : Db} {work : Work} (right : work.Right log db)
    (alike : Alike db db') (stored : work.Installing →
      db.snapshotMeta = db'.snapshotMeta ∧ db.snapshotData = db'.snapshotData) :
    work.Right log db' := by
  cases work with
  | applying left =>
    obtain ⟨follows, steps, plain⟩ := right
    exact ⟨follows.congr alike, steps.congr StaysBehind.congr alike, plain⟩
  | installing snapshot left =>
    obtain ⟨source, rises, installed⟩ := right
    obtain ⟨info, data⟩ := stored trivial
    have ends := alike.applySnapshot left
    refine ⟨source, rises.congr (fun _ _ _ _ => Rises.congr) alike, ?_, ?_, ?_⟩
    · rw [← ends.records, installed.records]
    · rw [← ends.lastApplied, installed.lastApplied]
    · rw [← getCurrentSnapshot_applySnapshot info data, installed.stored]

/-! ## Steps of a node -/

section Member

variable {log : List Entry} {m : Member}

theorem Member.empty_sound : Member.empty.Sound [] where
  work := by
    have start : Agrees Entry.effect (fun _ => none) [] 0 (fun _ => none) := Agrees.start []
    refine ⟨?_, trivial, fun w member => by cases member⟩
    have none_there : catalog Store.empty = fun _ => none := by
      funext k
      simp [catalog]
    change Agrees _ _ [] 0 (catalog Store.empty)
    rw [none_there]
    exact start
  build := trivial
  stored _ snapshot there := by cases there
  half snapshot there := by cases there

theorem Member.Sound.grow (sound : m.Sound log) (more : List Entry) : m.Sound (log ++ more) where
  work := by
    have right := sound.work
    cases work : m.work with
    | applying left =>
      rw [work] at right
      obtain ⟨follows, steps, plain⟩ := right
      exact ⟨follows.grow more, steps.imp fun _ _ stays => ⟨stays.1, stays.2.grow more⟩, plain⟩
    | installing snapshot left =>
      rw [work] at right
      exact ⟨right.1.grow more, right.2⟩
  build := by
    have behind := sound.build
    cases stage : m.build with
    | idle => trivial
    | positioned last | described last membership =>
      rw [stage] at behind
      exact behind
    | archived last membership archive | recorded snapshot | returned snapshot =>
      rw [stage] at behind
      exact behind.grow more
  stored steady snapshot there := (sound.stored steady snapshot there).grow more
  half := sound.half

/-- Between calls the records follow the log. -/
theorem Member.Sound.follows (sound : m.Sound log) (calm : ¬ m.work.Installing) :
    Follows log m.db.lastApplied m.db.default := by
  have right := sound.work
  cases work : m.work with
  | applying left =>
    rw [work] at right
    exact right.1
  | installing snapshot left =>
    rw [work] at calm
    exact absurd trivial calm

/-- A write of the state machine or of the installation under way. -/
theorem Member.Sound.write {w : SnapshotWrite} {work : Work}
    (sound : m.Sound log) (rises : Rises m.db (w.apply m.db)) (right : work.Right log (w.apply m.db))
    (stored : (¬ work.Installing) → ¬ m.build.Half → ∀ snapshot,
      getCurrentSnapshot (w.apply m.db) = some snapshot → snapshot.Follows log)
    (half : ∀ snapshot, m.build = .recorded snapshot →
      ¬ work.Installing ∧ (w.apply m.db).snapshotMeta = some snapshot.info) :
    Member.Sound log { m with db := w.apply m.db, work := work } where
  work := right
  build := sound.build.rise rises
  stored steady := stored steady.1 steady.2
  half := half

theorem Member.Sound.writeApplying {w : SnapshotWrite} {left : List SnapshotWrite} (sound : m.Sound log)
    (work : m.work = .applying (w :: left)) :
    Member.Sound log { m with db := w.apply m.db, work := .applying left } := by
  have right := sound.work
  rw [work] at right
  obtain ⟨-, ⟨⟨rises, follows⟩, steps⟩, plain⟩ := right
  have calm : ¬ m.work.Installing := by rw [work]; exact id
  -- a write of the state machine leaves the stored snapshot alone
  obtain ⟨d, rfl⟩ := plain w List.mem_cons_self
  have info : ((SnapshotWrite.state d).apply m.db).snapshotMeta = m.db.snapshotMeta := by
    cases d <;> rfl
  have data : ((SnapshotWrite.state d).apply m.db).snapshotData = m.db.snapshotData := by
    cases d <;> rfl
  have stored := getCurrentSnapshot_applySnapshot info data []
  refine sound.write rises ⟨follows, steps, fun w' member => plain w' (List.mem_cons_of_mem _ member)⟩ ?_ ?_
  · intro _ whole snapshot there
    exact sound.stored ⟨calm, whole⟩ snapshot (stored.symm.trans there)
  · intro snapshot stage
    exact ⟨id, info.trans (sound.half snapshot stage).2⟩

theorem Member.Sound.writeInstalling {w : SnapshotWrite} {left : List SnapshotWrite}
    {snapshot : Snapshot} (sound : m.Sound log) (work : m.work = .installing snapshot (w :: left)) :
    Member.Sound log { m with db := w.apply m.db, work := .installing snapshot left } := by
  have right := sound.work
  rw [work] at right
  obtain ⟨source, ⟨rises, steps⟩, installed⟩ := right
  refine sound.write rises ⟨source, steps, installed⟩ (fun calm => absurd trivial calm) ?_
  intro snapshot' stage
  have calm := (sound.half snapshot' stage).1
  rw [work] at calm
  exact absurd trivial calm

/-- The last write of an installation. -/
theorem Member.Sound.writeLast {w : SnapshotWrite} {snapshot : Snapshot} (sound : m.Sound log)
    (work : m.work = .installing snapshot [w]) :
    Member.Sound log { m with db := w.apply m.db, work := .applying [] } := by
  have right := sound.work
  rw [work] at right
  obtain ⟨source, ⟨rises, -⟩, installed⟩ := right
  have follows : Follows log (w.apply m.db).lastApplied (w.apply m.db).default := by
    have last : (w.apply m.db).lastApplied = snapshot.info.lastLogId := installed.lastApplied
    have records : catalog (w.apply m.db).default = catalog snapshot.archive := installed.records
    unfold Follows
    rw [last, records]
    exact source
  refine sound.write rises ⟨follows, trivial, fun w' member => by cases member⟩ ?_ ?_
  · intro _ _ snapshot' there
    have here : getCurrentSnapshot (w.apply m.db) = some snapshot := installed.stored
    cases here.symm.trans there
    exact source
  · intro snapshot' stage
    have calm := (sound.half snapshot' stage).1
    rw [work] at calm
    exact absurd trivial calm

/-- A start from what the database holds. -/
theorem Member.Sound.start {db : Db} (follows : Follows log db.lastApplied db.default)
    (stored : ∀ snapshot, getCurrentSnapshot db = some snapshot → snapshot.Follows log) :
    Member.Sound log ⟨db, .applying [], true, .idle⟩ where
  work := ⟨follows, trivial, fun w member => by cases member⟩
  build := trivial
  stored _ := stored
  half snapshot stage := by cases stage

/-- A step of the builder that writes nothing. -/
theorem Member.Sound.building {build : BuildStage} (sound : m.Sound log)
    (behind : build.Behind log m.db) (before : ¬ m.build.Half) (whole : ¬ build.Half) :
    Member.Sound log { m with build := build } where
  work := sound.work
  build := behind
  stored steady := sound.stored ⟨steady.1, before⟩
  half snapshot stage := by
    have stage : build = .recorded snapshot := stage
    rw [stage] at whole
    exact absurd trivial whole

/-- A write of the builder, between the writes of a call. -/
theorem Member.Sound.stores {w : SnapshotWrite} {build : BuildStage} (sound : m.Sound log)
    (calm : ¬ m.work.Installing) (alike : Alike m.db (w.apply m.db))
    (behind : build.Behind log (w.apply m.db))
    (stored : ¬ build.Half → ∀ snapshot, getCurrentSnapshot (w.apply m.db) = some snapshot →
      snapshot.Follows log)
    (half : ∀ snapshot, build = .recorded snapshot →
      (w.apply m.db).snapshotMeta = some snapshot.info) :
    Member.Sound log { m with db := w.apply m.db, build := build } where
  work := sound.work.congr alike fun installing => absurd installing calm
  build := behind
  stored steady := stored steady.2
  half snapshot stage := ⟨calm, half snapshot stage⟩

theorem Member.Sound.step {m' : Member} {event : MemberEvent} (numbered : Numbered log)
    (sound : m.Sound log) (calm : event.Calm m) (step : m.step log event = some m') :
    m'.Sound log := by
  cases event with
  | apply nows =>
    simp only [Member.step] at step
    split at step
    · rename_i work running
      cases step
      have follows := sound.follows (by rw [work]; exact id)
      refine ⟨⟨follows, applyToStateMachine_follows follows (nextOf_batchFrom numbered _ nows), ?_⟩,
        sound.build, ?_, ?_⟩
      · intro w member
        obtain ⟨d, -, rfl⟩ := List.mem_map.1 member
        exact ⟨d, rfl⟩
      · intro steady
        exact sound.stored ⟨by rw [work]; exact id, steady.2⟩
      · intro snapshot stage
        exact ⟨id, (sound.half snapshot stage).2⟩
    · cases step
  | write =>
    simp only [Member.step] at step
    split at step
    · rename_i w left work
      cases step
      exact sound.writeApplying work
    · rename_i snapshot w work
      cases step
      exact sound.writeLast work
    · rename_i snapshot w left _ work
      cases step
      exact sound.writeInstalling work
    · cases step
  | readPosition =>
    simp only [Member.step] at step
    split at step
    · rename_i stage
      cases step
      exact sound.building le_rfl (by rw [stage]; exact id) id
    · rename_i snapshot stage
      cases step
      exact sound.building le_rfl (by rw [stage]; exact id) id
    · cases step
  | readMembership =>
    simp only [Member.step] at step
    split at step
    · rename_i last stage
      cases step
      have behind := sound.build
      rw [stage] at behind
      exact sound.building behind (by rw [stage]; exact id) id
    · cases step
  | checkpoint =>
    simp only [Member.step] at step
    split at step
    · rename_i last membership stage
      cases step
      have behind := sound.build
      rw [stage] at behind
      -- the archive may be ahead of the position that was read
      exact sound.building ((sound.follows calm).fallBack behind) (by rw [stage]; exact id) id
    · cases step
  | writeMeta timestampMillis =>
    simp only [Member.step] at step
    split at step
    · rename_i last membership archive stage
      cases step
      have behind := sound.build
      rw [stage] at behind
      refine sound.stores calm ⟨rfl, rfl⟩ behind (fun whole => absurd trivial whole) ?_
      rintro snapshot ⟨⟩
      rfl
    · cases step
  | writeData =>
    simp only [Member.step] at step
    split at step
    · rename_i snapshot stage
      cases step
      have behind := sound.build
      rw [stage] at behind
      obtain ⟨calm, info⟩ := sound.half snapshot stage
      refine sound.stores calm ⟨rfl, rfl⟩ behind ?_ (fun snapshot' there => by cases there)
      intro _ snapshot' there
      have here : getCurrentSnapshot ((SnapshotWrite.archive snapshot.archive).apply m.db) =
          some snapshot := by
        simp only [SnapshotWrite.apply, getCurrentSnapshot, info]
      cases here.symm.trans there
      exact behind
    · cases step
  | record w =>
    simp only [Member.step] at step
    split at step
    · cases step
    · rename_i other
      cases step
      have alike : Alike m.db ((SnapshotWrite.state (.data w)).apply m.db) := by
        refine ⟨?_, rfl⟩
        funext k
        unfold catalog
        split
        · rename_i object
          have apart : w.key ≠ k := fun same => other (same ▸ object)
          change _ = ((w.apply m.db.default).get k).map Value.timeless
          rw [get_apply, if_neg apart]
        · rfl
      refine ⟨sound.work.congr alike fun _ => ⟨rfl, rfl⟩, sound.build.rise le_rfl, sound.stored, sound.half⟩
  | crash =>
    cases step
    exact .start (sound.follows calm.1) (sound.stored calm)
  | clearRaftState =>
    cases step
    refine .start ((sound.follows calm).fallBack (Nat.zero_le _)) ?_
    intro snapshot there
    cases there

theorem Member.Sound.install {m' : Member} {snapshot : Snapshot} (sound : m.Sound log)
    (source : snapshot.Follows log) (whole : ¬ m.build.Half)
    (step : m.install snapshot = some m') : m'.Sound log := by
  simp only [Member.install] at step
  split at step
  · split at step
    · rename_i work checks
      cases step
      have ahead := checks.2
      refine ⟨⟨source, installWrites_rises _ ahead.le, installWrites_installed ahead⟩, sound.build,
        fun steady => absurd trivial steady.1, fun snapshot' stage => ?_⟩
      have stage : m.build = .recorded snapshot' := stage
      rw [stage] at whole
      exact absurd trivial whole
    · cases step
  · cases step

end Member

/-! ## Runs of the cluster -/

theorem Numbered.commit {log : List Entry} (numbered : Numbered log) (leaderId : LeaderId)
    (payload : EntryPayload) : Numbered (log ++ [⟨⟨leaderId, log.length⟩, payload⟩]) := by
  intro i e there
  by_cases early : i < log.length
  · rw [List.getElem?_append_left early] at there
    exact numbered i e there
  · rw [List.getElem?_append_right (by omega)] at there
    obtain ⟨short, rfl⟩ := List.getElem?_eq_some_iff.1 there
    simp only [List.length_singleton] at short
    simp only [List.getElem_singleton]
    omega

theorem ReplicaSet.Sound.member {c : ReplicaSet} (sound : c.Sound) {n : NodeId} {m : Member}
    (right : m.Sound c.log) :
    ReplicaSet.Sound { c with members := Function.update c.members n m } where
  numbered := sound.numbered
  members n' := by
    by_cases same : n' = n
    · subst same
      simpa using right
    · simpa [Function.update_of_ne same] using sound.members n'
  sent := sound.sent

theorem ReplicaSet.Sound.step {c c' : ReplicaSet} {event : ReplicaSetEvent} (sound : c.Sound)
    (calm : Calm c event) (step : c.step event = some c') : c'.Sound := by
  cases event with
  | commit leaderId payload =>
    cases step
    refine ⟨sound.numbered.commit leaderId payload, fun n => (sound.members n).grow _, ?_⟩
    intro snapshot member
    exact (sound.sent snapshot member).grow _
  | member n event =>
    obtain ⟨m, next, rfl⟩ := Option.map_eq_some_iff.1 step
    exact sound.member ((sound.members n).step sound.numbered calm next)
  | send n =>
    obtain ⟨snapshot, stored, rfl⟩ := Option.map_eq_some_iff.1 step
    refine ⟨sound.numbered, sound.members, fun snapshot' member => ?_⟩
    rcases List.mem_append.1 member with old | new
    · exact sound.sent snapshot' old
    · rw [List.mem_singleton.1 new]
      exact (sound.members n).stored calm snapshot stored
  | install n i =>
    obtain ⟨snapshot, there, next⟩ := Option.bind_eq_some_iff.1 step
    obtain ⟨m, installed, rfl⟩ := Option.map_eq_some_iff.1 next
    have source := sound.sent snapshot (List.mem_of_getElem? there)
    exact sound.member ((sound.members n).install source calm installed)

theorem ReplicaSet.empty_sound : ReplicaSet.empty.Sound where
  numbered i e there := by cases there
  members _ := Member.empty_sound
  sent snapshot member := by cases member

theorem Follows.converged {log : List Entry} {last : Option LogId} {records : Store Value}
    (follows : Follows log last records) : Converged log last records := by
  intro k object untouched
  have settled := follows.settled k untouched
  rw [catalog, if_pos object] at settled
  exact settled

/-- **Convergence.** In every calm run of a cluster, each node that is not in the middle of
an installation, and each snapshot that was sent, has of every bucket and object what the
last committed entry on it left, as soon as that entry is behind its position. -/
theorem catalogs_converge (events : List ReplicaSetEvent) {c : ReplicaSet}
    (calm : Along ReplicaSet.step Calm ReplicaSet.empty events)
    (ran : exec ReplicaSet.step ReplicaSet.empty events = some c) :
    (∀ n, ¬ (c.members n).work.Installing →
      Converged c.log (c.members n).db.lastApplied (c.members n).db.default) ∧
    ∀ snapshot ∈ c.sent, Converged c.log snapshot.info.lastLogId snapshot.archive := by
  have sound : c.Sound :=
    exec_invariant (fun _ _ _ sound calm step => sound.step calm step) ReplicaSet.empty_sound calm ran
  refine ⟨fun n between => ?_, fun snapshot member => ?_⟩
  · exact ((sound.members n).follows between).converged
  · exact Follows.converged (sound.sent snapshot member)

/-- A bucket is created and deleted. Node 1 archives its records after the deletion, at the
position before it, crashes with the deletion applied and its position not written, and
applies it again; node 2 starts from that snapshot. -/
def recreation : List ReplicaSetEvent :=
  [.commit ⟨1, 1⟩ (.normal (.createBucket ⟨"abc", 5⟩)), .commit ⟨1, 1⟩ (.normal (.deleteBucket "abc")),
    .member 1 (.apply [7]), .member 1 .write, .member 1 .write, .member 1 .readPosition,
    .member 1 .readMembership, .member 1 (.apply [8]), .member 1 .write, .member 1 .checkpoint,
    .member 1 (.writeMeta 9), .member 1 .writeData, .member 1 .crash, .send 1, .member 1 (.apply [10]),
    .member 1 .write, .member 1 .write, .install 2 0, .member 2 .write, .member 2 .write,
    .member 2 .write, .member 2 .write, .member 2 (.apply [11]), .member 2 .write, .member 2 .write]

theorem recreation_converges : ∃ c, exec ReplicaSet.step ReplicaSet.empty recreation = some c ∧
    ((c.members 1).db.lastApplied = some ⟨⟨1, 1⟩, 1⟩ ∧ (c.members 2).db.lastApplied = some ⟨⟨1, 1⟩, 1⟩) ∧
    (∀ n, ¬ (c.members n).work.Installing →
      Converged c.log (c.members n).db.lastApplied (c.members n).db.default) ∧
    ∀ snapshot ∈ c.sent, Converged c.log snapshot.info.lastLogId snapshot.archive := by
  refine ⟨_, rfl, ⟨rfl, rfl⟩, catalogs_converge recreation (by decide) rfl⟩

end Save.Metadata
