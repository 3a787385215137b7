import Save.Lib.Run
import Save.Metadata.Snapshot
import Save.Metadata.Refinement

/-!
# Snapshots taken while entries are applied

`build_snapshot` (`raft/snapshot.rs`) reads the applied position, then the
membership, and then takes the checkpoint, while `apply_to_state_machine`
(`raft/storage.rs`) may be writing the same database: its commands first, its
position last. A replica here runs both, write by write. The cut is right as long as
no write of the state machine falls between the position that is read and the
checkpoint (`Undisturbed`); nothing in the source keeps such writes away.

The invariant (`Replica.Sound`) follows both tasks at once. The state of the
database when its position was last written is kept beside it (`settled`), so that a
builder can be compared with that state while the next call writes.
-/

namespace Save.Metadata
set_option autoImplicit false
open Save.Kv Save.Common Save.Cells Save.Run

/-- How far `build_snapshot` has come. -/
inductive BuildStage where
  | idle
  | positioned (last : Option LogId)
  | described (last : Option LogId) (membership : StoredMembership)
  | archived (last : Option LogId) (membership : StoredMembership) (archive : Store Value)
  /-- The meta is stored, the data is not. -/
  | recorded (snapshot : Snapshot)
  | returned (snapshot : Snapshot)

/-- A replica whose state machine and snapshot builder share the database. The writes of a
call are known at its start: nobody else writes what it reads. -/
structure Replica where
  db : Db
  /-- The entries given to `apply_to_state_machine` so far. -/
  given : List Tick
  /-- The writes the call under way has still to make. -/
  pending : List DbWrite
  /-- No call has failed; openraft makes none after that. -/
  running : Bool
  /-- The database when `last_applied_log_id` was last written. -/
  settled : Db
  build : BuildStage

def Replica.empty : Replica := ⟨Db.empty, [], [], true, Db.empty, .idle⟩

inductive ReplicaEvent where
  | apply (batch : List Tick)
  | write
  | readPosition
  | readMembership
  | checkpoint
  | writeMeta (timestampMillis : Int)
  | writeData

/-- The meta `build_snapshot` makes of what it has read. -/
def snapshotInfo (timestampMillis : Int) (last : Option LogId) (membership : StoredMembership) :
    SnapshotMeta :=
  ⟨last, membership, toString ((last.map LogId.index).getD 0) ++ "-" ++ toString timestampMillis⟩

/-- Entries reach a replica once each, in the order of their indexes. -/
def Ascending (ts : List Tick) : Prop :=
  ts.Pairwise fun t t' => t.entry.logId.index < t'.entry.logId.index

instance (ts : List Tick) : Decidable (Ascending ts) :=
  inferInstanceAs (Decidable (ts.Pairwise fun t t' => t.entry.logId.index < t'.entry.logId.index))

/-- The database that counts as settled after a write. -/
def DbWrite.settles (after settled : Db) : DbWrite → Db
  | .lastApplied _ => after
  | _ => settled

def Replica.step (r : Replica) : ReplicaEvent → Option Replica
  | .apply batch =>
    if r.pending = [] ∧ r.running = true ∧ Ascending (r.given ++ batch) then
      some { r with given := r.given ++ batch
                    pending := (applyToStateMachine r.db batch).1
                    running := (applyToStateMachine r.db batch).2.toBool }
    else none
  | .write =>
    match r.pending with
    | [] => none
    | w :: rest =>
      some { r with db := w.apply r.db, pending := rest
                    settled := w.settles (w.apply r.db) r.settled }
  | .readPosition =>
    match r.build with
    | .idle | .returned _ => some { r with build := .positioned r.db.lastApplied }
    | _ => none
  | .readMembership =>
    match r.build with
    | .positioned last =>
      some { r with build := .described last (r.db.membership.getD StoredMembership.default) }
    | _ => none
  | .checkpoint =>
    match r.build with
    | .described last membership => some { r with build := .archived last membership r.db.default }
    | _ => none
  | .writeMeta timestampMillis =>
    match r.build with
    | .archived last membership archive =>
      let info := snapshotInfo timestampMillis last membership
      some { r with db := { r.db with snapshotMeta := some info }, build := .recorded ⟨info, archive⟩ }
    | _ => none
  | .writeData =>
    match r.build with
    | .recorded snapshot =>
      some { r with db := { r.db with snapshotData := some snapshot.archive }
                    build := .returned snapshot }
    | _ => none

/-- With nothing in between, the steps of the builder are `build_snapshot`. -/
theorem buildSnapshot_alone (r : Replica) (timestampMillis : Int) (idle : r.build = .idle) :
    exec Replica.step r [.readPosition, .readMembership, .checkpoint, .writeMeta timestampMillis,
        .writeData] =
      some { r with db := (buildSnapshot timestampMillis r.db).2
                    build := .returned (buildSnapshot timestampMillis r.db).1 } := by
  simp only [exec, Replica.step, idle, Option.bind_some]
  rfl

/-! ## The property and the condition -/

/-- The entries up to and including `last`. -/
def upTo (given : List Tick) : Option LogId → List Tick
  | none => []
  | some id => given.filter fun t => decide (t.entry.logId.index ≤ id.index)

/-- What the builder has taken, from the checkpoint on. -/
def BuildStage.taken : BuildStage → Option (Option LogId × StoredMembership × Store Value)
  | .archived last membership archive => some (last, membership, archive)
  | .recorded snapshot =>
    some (snapshot.info.lastLogId, snapshot.info.lastMembership, snapshot.archive)
  | .returned snapshot =>
    some (snapshot.info.lastLogId, snapshot.info.lastMembership, snapshot.archive)
  | _ => none

/-- A snapshot of `given` at `last`: applying exactly the entries up to `last` to an empty
database gives its records, its position and its membership. -/
def IsCut (given : List Tick) (last : Option LogId) (membership : StoredMembership)
    (archive : Store Value) : Prop :=
  ∃ db, runBatches Db.empty [upTo given last] = (db, .ok ()) ∧ db.default = archive ∧
    db.lastAppliedState = (last, membership)

/-- Whatever the builder has taken is a consistent cut. -/
def Replica.ConsistentCut (r : Replica) : Prop :=
  ∀ last membership archive, r.build.taken = some (last, membership, archive) →
    IsCut r.given last membership archive

/-- The state machine leaves the builder's window alone: no call has changed a record or
the membership since the position was written when it is read, none changes a record from
then on until the checkpoint, nor the membership until that is read. -/
def Undisturbed (r : Replica) : ReplicaEvent → Prop
  | .readPosition =>
    r.db.default = r.settled.default ∧ r.db.membership = r.settled.membership
  | .write => ∀ w ∈ r.pending.head?,
    match r.build with
    | .positioned _ => (w.apply r.db).default = r.db.default ∧
        (w.apply r.db).membership = r.db.membership
    | .described _ _ => (w.apply r.db).default = r.db.default
    | _ => True
  | _ => True

/-! ## Entries up to a position -/

/-- A position is none or that of an entry given. -/
def Known (given : List Tick) (last : Option LogId) : Prop :=
  ∀ id, last = some id → ∃ t ∈ given, t.entry.logId = id

theorem upTo_split {done rest : List Tick} {t : Tick} (ascending : Ascending (done ++ t :: rest)) :
    upTo (done ++ t :: rest) (some t.entry.logId) = done ++ [t] := by
  obtain ⟨-, tail, cross⟩ := List.pairwise_append.1 ascending
  have early : done.filter (fun t' => decide (t'.entry.logId.index ≤ t.entry.logId.index)) = done := by
    rw [List.filter_eq_self]
    intro t' member
    have := cross t' member t List.mem_cons_self
    simp only [decide_eq_true_eq]
    omega
  have late : rest.filter (fun t' => decide (t'.entry.logId.index ≤ t.entry.logId.index)) = [] := by
    rw [List.filter_eq_nil_iff]
    intro t' member
    have := (List.pairwise_cons.1 tail).1 t' member
    simp only [decide_eq_true_eq]
    omega
  rw [upTo, List.filter_append, List.filter_cons_of_pos (by simp), early, late]

theorem upTo_append {given batch : List Tick} {last : Option LogId} (known : Known given last)
    (ascending : Ascending (given ++ batch)) : upTo (given ++ batch) last = upTo given last := by
  cases last with
  | none => rfl
  | some id =>
    obtain ⟨t, member, rfl⟩ := known id rfl
    obtain ⟨-, -, cross⟩ := List.pairwise_append.1 ascending
    have late : batch.filter (fun t' => decide (t'.entry.logId.index ≤ t.entry.logId.index)) = [] := by
      rw [List.filter_eq_nil_iff]
      intro t' later
      have := cross t member t' later
      simp only [decide_eq_true_eq]
      omega
    rw [upTo, List.filter_append, late, List.append_nil, upTo]

/-- Applying the entries up to a position ends at that position. -/
theorem foldl_upTo {given : List Tick} {last : Option LogId} (known : Known given last)
    (ascending : Ascending given) : (upTo given last).foldl lastAppliedAfter none = last := by
  cases last with
  | none => rfl
  | some id =>
    obtain ⟨t, member, rfl⟩ := known id rfl
    obtain ⟨done, rest, rfl⟩ := List.append_of_mem member
    rw [upTo_split ascending, foldl_lastApplied]
    simp

/-! ## The invariant -/

/-- Records and membership after exactly the entries up to `last`. -/
def AppliedUpTo (given : List Tick) (last : Option LogId) (records : Store Value)
    (members : Option StoredMembership) : Prop :=
  machine.run (upTo given last) Store.empty.get = some records.get ∧
    members = (upTo given last).foldl membershipAfter none

theorem AppliedUpTo.append {given batch : List Tick} {last : Option LogId} {records : Store Value}
    {members : Option StoredMembership} (applied : AppliedUpTo given last records members)
    (known : Known given last) (ascending : Ascending (given ++ batch)) :
    AppliedUpTo (given ++ batch) last records members := by
  unfold AppliedUpTo
  rw [upTo_append known ascending]
  exact applied

theorem AppliedUpTo.isCut {given : List Tick} {last : Option LogId} {records : Store Value}
    {members : Option StoredMembership} (applied : AppliedUpTo given last records members)
    (known : Known given last) (ascending : Ascending given) :
    IsCut given last (members.getD StoredMembership.default) records := by
  have flat : [upTo given last].flatten = upTo given last := by simp
  have ran : machine.run [upTo given last].flatten Db.empty.default.get = some records.get := by
    rw [flat]
    exact applied.1
  obtain ⟨db, ran, held⟩ := runBatches_ok ran
  rw [flat] at held
  refine ⟨db, ran, Store.ext fun k => congrFun held.records k, ?_⟩
  rw [Db.lastAppliedState, held.lastApplied, held.membership, applied.2]
  exact Prod.ext (foldl_upTo known ascending) rfl

/-- No write of `last_applied_log_id`. -/
def NoPosition (ws : List DbWrite) : Prop := ∀ w ∈ ws, ∀ id, w ≠ .lastApplied id

theorem entryWrites_noPosition {db : Db} {t : Tick} {ws : List DbWrite}
    (call : entryWrites db t = .ok ws) : NoPosition ws := by
  obtain ⟨⟨id, payload⟩, now⟩ := t
  intro w member id'
  cases payload with
  | blank =>
    cases call
    cases member
  | membership m =>
    cases call
    rw [List.mem_singleton.1 member]
    exact DbWrite.noConfusion
  | normal cmd =>
    simp only [entryWrites] at call
    cases applied : applyCommand now db.default cmd with
    | error e =>
      rw [applied] at call
      cases call
    | ok data =>
      rw [applied] at call
      cases call
      obtain ⟨d, -, rfl⟩ := List.mem_map.1 member
      exact DbWrite.noConfusion

theorem applyLoop_noPosition (db : Db) (last : Option LogId) (ts : List Tick) :
    NoPosition (applyLoop db last ts).1 := by
  induction ts generalizing db last with
  | nil =>
    intro w member
    cases member
  | cons t ts ih =>
    simp only [applyLoop]
    split
    · intro w member
      cases member
    · rename_i ws call
      intro w member
      rcases List.mem_append.1 member with here | later
      · exact entryWrites_noPosition call w here
      · exact ih _ _ w later

/-- What the call under way has left to do. -/
inductive Replica.Call (r : Replica) : Prop where
  /-- Nothing; everything given is applied. -/
  | finished (none_left : r.pending = []) (all : AppliedUpTo r.given r.db.lastApplied r.db.default
      r.db.membership) (last : upTo r.given r.db.lastApplied = r.given)
  /-- Records and memberships, and then the position of the last entry. -/
  | underWay (ws : List DbWrite) (id : LogId) (left : r.pending = ws ++ [.lastApplied id])
      (records : NoPosition ws) (known : Known r.given (some id))
      (all : AppliedUpTo r.given (some id) (r.db.applyAll ws).default (r.db.applyAll ws).membership)
      (last : upTo r.given (some id) = r.given)
  /-- Records and memberships before the entry that fails. -/
  | failing (stopped : r.running = false) (records : NoPosition r.pending)

/-- What the builder has read is right for the position it has read. -/
def BuildStage.Right (given : List Tick) (db : Db) : BuildStage → Prop
  | .idle => True
  | .positioned last => Known given last ∧ AppliedUpTo given last db.default db.membership
  | .described last membership => Known given last ∧
    ∃ members, AppliedUpTo given last db.default members ∧
      membership = members.getD StoredMembership.default
  | .archived last membership archive => Known given last ∧
    ∃ members, AppliedUpTo given last archive members ∧
      membership = members.getD StoredMembership.default
  | .recorded snapshot => Known given snapshot.info.lastLogId ∧
    ∃ members, AppliedUpTo given snapshot.info.lastLogId snapshot.archive members ∧
      snapshot.info.lastMembership = members.getD StoredMembership.default
  | .returned snapshot => Known given snapshot.info.lastLogId ∧
    ∃ members, AppliedUpTo given snapshot.info.lastLogId snapshot.archive members ∧
      snapshot.info.lastMembership = members.getD StoredMembership.default

structure Replica.Sound (r : Replica) : Prop where
  ascending : Ascending r.given
  known : Known r.given r.db.lastApplied
  position : r.settled.lastApplied = r.db.lastApplied
  settled : AppliedUpTo r.given r.db.lastApplied r.settled.default r.settled.membership
  call : r.Call
  build : r.build.Right r.given r.db

/-! ## Steps -/

theorem Known.append {given : List Tick} {last : Option LogId} (known : Known given last)
    (batch : List Tick) : Known (given ++ batch) last := by
  intro id same
  obtain ⟨t, member, own⟩ := known id same
  exact ⟨t, List.mem_append_left _ member, own⟩

theorem BuildStage.Right.append {given batch : List Tick} {db : Db} {stage : BuildStage}
    (right : stage.Right given db) (ascending : Ascending (given ++ batch)) :
    stage.Right (given ++ batch) db := by
  cases stage with
  | idle => trivial
  | positioned last => exact ⟨right.1.append _, right.2.append right.1 ascending⟩
  | described last membership | archived last membership archive | recorded snapshot
  | returned snapshot =>
    obtain ⟨known, members, applied, same⟩ := right
    exact ⟨known.append _, members, applied.append known ascending, same⟩

/-- A call starts when everything given before is applied. -/
theorem Replica.Sound.finished {r : Replica} (sound : r.Sound) (none_left : r.pending = [])
    (running : r.running = true) :
    AppliedUpTo r.given r.db.lastApplied r.db.default r.db.membership ∧
      upTo r.given r.db.lastApplied = r.given := by
  cases sound.call with
  | finished _ all last => exact ⟨all, last⟩
  | underWay ws id left => simp [left] at none_left
  | failing stopped => simp [stopped] at running

/-- The writes of a new call: it applies the batch and then writes its position, or fails. -/
theorem Replica.Call.start {r : Replica} (sound : r.Sound) (none_left : r.pending = [])
    (running : r.running = true) {batch : List Tick} (ascending : Ascending (r.given ++ batch)) :
    Replica.Call { r with
      given := r.given ++ batch
      pending := (applyToStateMachine r.db batch).1
      running := (applyToStateMachine r.db batch).2.toBool } := by
  obtain ⟨⟨ran, members⟩, whole⟩ := sound.finished none_left running
  rw [whole] at ran members
  cases next : machine.run batch r.db.default.get with
  | none =>
    obtain ⟨⟨e, failed⟩, -⟩ := applyToStateMachine_error next
    obtain ⟨ws, e', loop, -⟩ := applyLoop_error none next
    refine .failing (by simp [failed, Except.toBool]) ?_
    have writes : (applyToStateMachine r.db batch).1 = (applyLoop r.db none batch).1 := by
      rw [applyToStateMachine, loop]
    simp only [writes]
    exact applyLoop_noPosition _ _ _
  | some s =>
    have writes := applyToStateMachine_writes next
    obtain ⟨ws, loop, held⟩ := applyLoop_ok none next
    rcases List.eq_nil_or_concat batch with rfl | ⟨init, t, rfl⟩
    · refine .finished writes ?_ ?_
      · simpa using sound.finished none_left running |>.1
      · simpa using whole
    · rw [List.concat_eq_append] at ascending loop held next writes ⊢
      have all : upTo (r.given ++ (init ++ [t])) (some t.entry.logId) = r.given ++ (init ++ [t]) := by
        rw [← List.append_assoc] at ascending ⊢
        exact upTo_split ascending
      refine .underWay ws t.entry.logId ?_ ?_ ?_ ⟨?_, ?_⟩ all
      · simp [writes, loop]
      · have none_there := applyLoop_noPosition r.db none (init ++ [t])
        rw [loop] at none_there
        exact none_there
      · intro id same
        exact ⟨t, by simp, Option.some.inj same⟩
      · rw [all, Machine.run_append, ran, Option.bind_some, next, held.records]
      · rw [all, List.foldl_append, ← members]
        exact held.membership

theorem Replica.Sound.apply {r : Replica} (sound : r.Sound) (none_left : r.pending = [])
    (running : r.running = true) {batch : List Tick} (ascending : Ascending (r.given ++ batch)) :
    Replica.Sound { r with
      given := r.given ++ batch
      pending := (applyToStateMachine r.db batch).1
      running := (applyToStateMachine r.db batch).2.toBool } where
  ascending := ascending
  known := sound.known.append batch
  position := sound.position
  settled := sound.settled.append sound.known ascending
  call := .start sound none_left running ascending
  build := sound.build.append ascending

theorem DbWrite.apply_lastApplied {w : DbWrite} (other : ∀ id, w ≠ .lastApplied id) (db settled : Db) :
    (w.apply db).lastApplied = db.lastApplied ∧ w.settles (w.apply db) settled = settled := by
  cases w with
  | data w => exact ⟨rfl, rfl⟩
  | membership m => exact ⟨rfl, rfl⟩
  | lastApplied id => exact absurd rfl (other id)

/-- A write that the condition allows leaves what the builder has read right. -/
theorem BuildStage.Right.write {r : Replica} {w : DbWrite} {rest : List DbWrite}
    (right : r.build.Right r.given r.db) (next : r.pending = w :: rest)
    (quiet : Undisturbed r .write) : r.build.Right r.given (w.apply r.db) := by
  have here := quiet w (by rw [next]; rfl)
  cases stage : r.build with
  | idle => trivial
  | positioned last =>
    rw [stage] at right here
    obtain ⟨known, applied⟩ := right
    obtain ⟨records, members⟩ := here
    refine ⟨known, ?_⟩
    rw [records, members]
    exact applied
  | described last membership =>
    rw [stage] at right here
    obtain ⟨known, members, applied, same⟩ := right
    refine ⟨known, members, ?_, same⟩
    rw [show (w.apply r.db).default = r.db.default from here]
    exact applied
  | archived last membership archive =>
    rw [stage] at right
    exact right
  | recorded snapshot =>
    rw [stage] at right
    exact right
  | returned snapshot =>
    rw [stage] at right
    exact right

theorem Replica.Sound.write {r : Replica} (sound : r.Sound) {w : DbWrite} {rest : List DbWrite}
    (next : r.pending = w :: rest) (quiet : Undisturbed r .write) :
    Replica.Sound { r with
      db := w.apply r.db
      pending := rest
      settled := w.settles (w.apply r.db) r.settled } := by
  have build := sound.build.write next quiet
  -- a record or a membership: the position and what counts as settled stay
  have record : (∀ id, w ≠ .lastApplied id) → ∀ call : Replica.Call { r with
      db := w.apply r.db, pending := rest, settled := w.settles (w.apply r.db) r.settled },
      Replica.Sound { r with
        db := w.apply r.db, pending := rest, settled := w.settles (w.apply r.db) r.settled } := by
    intro other call
    obtain ⟨last, settled⟩ := DbWrite.apply_lastApplied other r.db r.settled
    refine ⟨sound.ascending, ?_, ?_, ?_, call, build⟩
    · simp only [last]
      exact sound.known
    · simp only [last, settled]
      exact sound.position
    · simp only [last, settled]
      exact sound.settled
  cases sound.call with
  | finished none_left all last => simp [none_left] at next
  | underWay ws id left records known all last =>
    cases ws with
    | nil =>
      obtain ⟨rfl, rfl⟩ : w = .lastApplied id ∧ rest = [] := by
        rw [next] at left
        simpa using left
      exact ⟨sound.ascending, known, rfl, all, .finished rfl all last, build⟩
    | cons w' ws =>
      obtain ⟨rfl, same⟩ : w = w' ∧ rest = ws ++ [.lastApplied id] := by
        rw [next] at left
        simpa using left
      refine record (records w List.mem_cons_self) (.underWay ws id same ?_ known all last)
      exact fun w' member => records w' (List.mem_cons_of_mem _ member)
  | failing stopped records =>
    have all : NoPosition (w :: rest) := next ▸ records
    refine record (all w List.mem_cons_self) (.failing stopped ?_)
    exact fun w' member => all w' (List.mem_cons_of_mem _ member)

/-- The stored snapshot is apart from what the state machine writes. -/
theorem applyAll_stored (db : Db) (info : Option SnapshotMeta) (data : Option (Store Value))
    (ws : List DbWrite) :
    Db.applyAll { db with snapshotMeta := info, snapshotData := data } ws =
      { db.applyAll ws with snapshotMeta := info, snapshotData := data } := by
  induction ws generalizing db with
  | nil => rfl
  | cons w ws ih =>
    cases w with
    | data w => exact ih (DbWrite.apply db (.data w))
    | membership m => exact ih (DbWrite.apply db (.membership m))
    | lastApplied id => exact ih (DbWrite.apply db (.lastApplied id))

/-- A step of the builder: it writes the stored snapshot only. -/
theorem Replica.Sound.builder {r : Replica} (sound : r.Sound) (info : Option SnapshotMeta)
    (data : Option (Store Value)) {build : BuildStage} (right : build.Right r.given r.db) :
    Replica.Sound { r with
      db := { r.db with snapshotMeta := info, snapshotData := data }
      build := build } := by
  refine ⟨sound.ascending, sound.known, sound.position, sound.settled, ?_, ?_⟩
  · cases sound.call with
    | finished none_left all last => exact .finished none_left all last
    | underWay ws id left records known all last =>
      refine .underWay ws id left records known ?_ last
      simp only [applyAll_stored]
      exact all
    | failing stopped records => exact .failing stopped records
  · cases build <;> exact right

theorem Replica.Sound.readPosition {r : Replica} (sound : r.Sound)
    (quiet : Undisturbed r .readPosition) :
    Replica.Sound { r with build := .positioned r.db.lastApplied } := by
  refine sound.builder r.db.snapshotMeta r.db.snapshotData ⟨sound.known, ?_⟩
  obtain ⟨records, members⟩ := quiet
  rw [records, members]
  exact sound.settled

theorem Replica.Sound.step {r r' : Replica} {event : ReplicaEvent} (sound : r.Sound)
    (quiet : Undisturbed r event) (step : r.step event = some r') : r'.Sound := by
  cases event with
  | apply batch =>
    simp only [Replica.step] at step
    split at step
    · rename_i checks
      cases step
      exact sound.apply checks.1 checks.2.1 checks.2.2
    · cases step
  | write =>
    simp only [Replica.step] at step
    split at step
    · cases step
    · rename_i w rest next
      cases step
      exact sound.write next quiet
  | readPosition =>
    simp only [Replica.step] at step
    split at step
    · cases step
      exact sound.readPosition quiet
    · cases step
      exact sound.readPosition quiet
    · cases step
  | readMembership =>
    simp only [Replica.step] at step
    split at step
    · rename_i last stage
      cases step
      have right : BuildStage.Right r.given r.db (.positioned last) := stage ▸ sound.build
      exact sound.builder r.db.snapshotMeta r.db.snapshotData ⟨right.1, _, right.2, rfl⟩
    · cases step
  | checkpoint =>
    simp only [Replica.step] at step
    split at step
    · rename_i last membership stage
      cases step
      have right : BuildStage.Right r.given r.db (.described last membership) := stage ▸ sound.build
      exact sound.builder r.db.snapshotMeta r.db.snapshotData right
    · cases step
  | writeMeta timestampMillis =>
    simp only [Replica.step] at step
    split at step
    · rename_i last membership archive stage
      cases step
      have right : BuildStage.Right r.given r.db (.archived last membership archive) :=
        stage ▸ sound.build
      exact sound.builder _ r.db.snapshotData right
    · cases step
  | writeData =>
    simp only [Replica.step] at step
    split at step
    · rename_i snapshot stage
      cases step
      have right : BuildStage.Right r.given r.db (.recorded snapshot) := stage ▸ sound.build
      exact sound.builder r.db.snapshotMeta _ right
    · cases step

theorem Replica.empty_sound : Replica.empty.Sound where
  ascending := List.Pairwise.nil
  known id same := by cases same
  position := rfl
  settled := ⟨rfl, rfl⟩
  call := .finished rfl ⟨rfl, rfl⟩ rfl
  build := trivial

theorem Replica.Sound.consistentCut {r : Replica} (sound : r.Sound) : r.ConsistentCut := by
  intro last membership archive taken
  have right := sound.build
  cases stage : r.build with
  | idle | positioned l | described l m =>
    rw [stage] at taken
    cases taken
  | archived l m a | recorded snapshot | returned snapshot =>
    rw [stage] at taken right
    cases taken
    obtain ⟨known, members, applied, same⟩ := right
    rw [same]
    exact applied.isCut known sound.ascending

/-- **A consistent cut.** In every run of state machine and builder in which the state
machine leaves the builder's window alone, whatever the builder has taken is the state
after exactly the entries up to its position. -/
theorem snapshot_consistent_cut (events : List ReplicaEvent) {r : Replica}
    (quiet : Along Replica.step Undisturbed Replica.empty events)
    (ran : exec Replica.step Replica.empty events = some r) : r.ConsistentCut := by
  have sound : r.Sound :=
    exec_invariant (fun _ _ _ sound quiet step => sound.step quiet step) Replica.empty_sound quiet ran
  exact sound.consistentCut

/-- The creation of the bucket `abc`, as entry 1. -/
def creation : Tick := ⟨⟨⟨⟨1, 1⟩, 1⟩, .normal (.createBucket ⟨"abc", 5⟩)⟩, 7⟩

theorem snapshot_after_creation :
    ∃ r, exec Replica.step Replica.empty [.apply [creation], .write, .write, .readPosition,
        .readMembership, .checkpoint] = some r ∧
      (r.build.taken.map fun taken => taken.1) = some (some ⟨⟨1, 1⟩, 1⟩) ∧ r.ConsistentCut := by
  refine ⟨_, rfl, rfl, snapshot_consistent_cut [.apply [creation], .write, .write, .readPosition,
    .readMembership, .checkpoint] ?_ rfl⟩
  refine ⟨trivial, ?_⟩
  rintro _ ⟨⟩
  refine ⟨fun w _ => trivial, ?_⟩
  rintro _ ⟨⟩
  refine ⟨fun w _ => trivial, ?_⟩
  rintro _ ⟨⟩
  refine ⟨⟨rfl, rfl⟩, ?_⟩
  rintro _ ⟨⟩
  refine ⟨trivial, ?_⟩
  rintro _ ⟨⟩
  exact ⟨trivial, fun _ _ => trivial⟩

/-- The position is read before the entry is applied and the checkpoint taken after: the
archive has a bucket that no entry up to its position creates. -/
theorem checkpoint_ahead_of_position :
    ∃ r, exec Replica.step Replica.empty [.readPosition, .readMembership, .apply [creation], .write,
        .checkpoint] = some r ∧ ¬ r.ConsistentCut := by
  refine ⟨_, rfl, fun cut => ?_⟩
  obtain ⟨db, ran, records, -⟩ := cut none StoredMembership.default _ rfl
  cases ran
  have bucket := congrArg (fun s : Store Value => s.get (bucketKey "abc")) records
  exact absurd bucket (by decide)

end Save.Metadata
