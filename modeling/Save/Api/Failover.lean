import Save.Api.PartPaths
import Save.Metadata.Snapshot

/-!
# Multipart uploads of a cluster

`forward_to_leader` (`forward.rs`) sends a write to the node that the receiving node
takes for the leader; there `initiate_multipart`, `upload_part`, `complete_multipart`
and `abort_multipart` work on the records of that node alone, which are not written
through Raft. An installed snapshot replaces the upload records of its node by
those of the node that built it, key by key (`restore_default_cf`), while requests
read them. `uploads_survive`: in every run in which each request for an upload is
executed by the node that initiated it, no such request runs there during an install,
and installs and other uploads keep clear of its keys, every request finds the upload
with the parts that were acknowledged.
-/

namespace Save.Api
set_option autoImplicit false
open Save.Text Save.Kv Save.Common Save.Metadata Save.Files Save.Storage Save.Run

variable [Sha256]

/-! ## Routing -/

/-- What a node knows of the leader. -/
structure LeaderView where
  /-- `current_leader`. -/
  leader : Option Nat
  /-- The membership has the leader's address. -/
  addressed : Bool

/-- `forward_to_leader`: the node that executes a write which reaches node `n`. -/
def forwardToLeader (view : LeaderView) (n : Nat) (alreadyForwarded : Bool) : Nat :=
  if alreadyForwarded then n
  else if view.leader = some n then n
  else
    match view.leader with
    | none => n
    | some leader => if view.addressed then leader else n

/-! ## Requests -/

def MultipartRequest.name : MultipartRequest → UploadName
  | .part r => r.name
  | .complete r => ⟨r.bucket, r.key, r.uploadId⟩
  | .abort w => w

def MultipartTask.name : MultipartTask → UploadName
  | .part r _ => r.name
  | .complete r _ => ⟨r.bucket, r.key, r.uploadId⟩
  | .abort w _ => w

/-- The request has been answered with success. -/
def MultipartTask.answered : MultipartTask → Bool
  | .part _ (.done _) => true
  | .complete _ .done => true
  | .abort _ .done => true
  | _ => false

/-- The part that the next operation records and acknowledges. -/
def MultipartTask.records : MultipartTask → Option MultipartPart
  | .part r (.recording acc) => some ⟨r.partNumber, Sha256.digest acc, acc.length⟩
  | _ => none

/-- What an operation of a request does with the records of uploads. -/
inductive MultipartTask.Writes (task : MultipartTask) (db db' : Store Value) : Prop where
  | record (p : MultipartPart) (records : task.records = some p)
      (put : db' = db.put (task.name.partKey p.partNumber) (.part p))
  | closed (records : task.records = none) (ends : task.ends = some task.name)
      (others : ∀ x, ¬ task.name.Claims x → db'.get x = db.get x)
  | nothing (records : task.records = none) (ends : task.ends = none)
      (same : ∀ x, startsWith x multipartPrefix = true → db'.get x = db.get x)

/-! ## The cluster -/

/-- An upload that is neither completed nor aborted. -/
structure LiveUpload where
  metadata : MultipartMetadata
  /-- The node that executed `initiate_multipart`. -/
  home : Nat
  /-- The parts that were acknowledged. -/
  parts : Std.ExtTreeMap Nat MultipartPart compare

def LiveUpload.name (l : LiveUpload) : UploadName :=
  ⟨l.metadata.bucket, l.metadata.key, l.metadata.uploadId⟩

/-- What a lookup of the upload is to answer. -/
def LiveUpload.upload (l : LiveUpload) : MultipartUpload :=
  ⟨l.metadata.uploadId, l.metadata.bucket, l.metadata.key, l.parts, l.metadata.initiatedAt,
    l.metadata.contentType⟩

/-- A snapshot that is being installed. -/
structure Installation where
  source : Store Value
  steps : List RestoreStep

structure Failover where
  nodes : Nat → MultipartNode
  installs : Nat → Option Installation
  views : Nat → LeaderView
  /-- The snapshots that were built. -/
  archives : List (Store Value)
  live : List LiveUpload
  /-- The ids that were drawn or are named by a request. -/
  named : List String

def Failover.start (nodes : Nat → Node) (views : Nat → LeaderView) : Failover :=
  ⟨fun n => .start (nodes n), fun _ => none, views, [], [], []⟩

inductive FailoverEvent where
  /-- A node learns of a leader. -/
  | view (n : Nat) (view : LeaderView)
  | initiate (n : Nat) (alreadyForwarded : Bool) (now : DateTime) (w : UploadName)
      (contentType : Option String) (cached : Bool)
  | request (n : Nat) (alreadyForwarded : Bool) (r : MultipartRequest)
  /-- The next operation of a request on a node. -/
  | advance (n i k : Nat)
  | stop (n i : Nat)
  | gc (n : Nat) (event : GcEvent)
  /-- A node applies a command of the Raft log. -/
  | apply (n : Nat) (now : DateTime) (command : Command)
  | snapshot (n : Nat)
  /-- A node starts to install a snapshot. -/
  | install (n i : Nat)
  /-- The next step of `restore_default_cf` on a node. -/
  | restore (n : Nat)

/-- The node that executes a write which reaches node `n`. -/
def Failover.executes (sys : Failover) (n : Nat) (alreadyForwarded : Bool) : Nat :=
  forwardToLeader (sys.views n) n alreadyForwarded

def Failover.db (sys : Failover) (n : Nat) : Store Value := (sys.nodes n).node.db

def Failover.setNode (sys : Failover) (n : Nat) (node : MultipartNode) : Failover :=
  { sys with nodes := Function.update sys.nodes n node }

def Failover.setDb (sys : Failover) (n : Nat) (db : Store Value) : Failover :=
  sys.setNode n { sys.nodes n with node := { (sys.nodes n).node with db } }

def Failover.setInstall (sys : Failover) (n : Nat) (install : Option Installation) : Failover :=
  { sys with installs := Function.update sys.installs n install }

/-- The uploads after an operation of the request. -/
def MultipartTask.settle (task : MultipartTask) (live : List LiveUpload) : List LiveUpload :=
  match task.records with
  | some p => live.map fun l =>
      if l.name = task.name then { l with parts := l.parts.insert p.partNumber p } else l
  | none => live.filter fun l => some l.name != task.ends

/-- An id is drawn that is new; a node applies no command while it installs a snapshot. -/
def Failover.step (s : ObjectStorage) (age : Nat) (sys : Failover) : FailoverEvent → Option Failover
  | .view n view => some { sys with views := Function.update sys.views n view }
  | .initiate n alreadyForwarded now w contentType cached =>
    if w.uploadId ∈ sys.named then none
    else do
      let home := sys.executes n alreadyForwarded
      let next ← (sys.nodes home).step s age (.initiate now w contentType cached)
      return { sys.setNode home next with
        live := ⟨⟨w.uploadId, w.bucket, w.key, now, contentType⟩, home, ∅⟩ :: sys.live
        named := w.uploadId :: sys.named }
  | .request n alreadyForwarded r => do
    let node := sys.executes n alreadyForwarded
    let next ← (sys.nodes node).step s age (.request r)
    return { sys.setNode node next with named := r.name.uploadId :: sys.named }
  | .advance n i k => do
    let task ← (sys.nodes n).tasks[i]?
    let next ← (sys.nodes n).step s age (.advance i k)
    return { sys.setNode n next with live := task.settle sys.live }
  | .stop n i => ((sys.nodes n).step s age (.stop i)).map (sys.setNode n)
  | .gc n event => ((sys.nodes n).step s age (.gc event)).map (sys.setNode n)
  | .apply n now command =>
    if (sys.installs n).isSome then none
    else
      match applyCommand now (sys.db n) command with
      | .error _ => none
      | .ok ws => some (sys.setDb n (applyAll (sys.db n) ws))
  | .snapshot n => some { sys with archives := sys.archives ++ [sys.db n] }
  | .install n i =>
    if (sys.installs n).isSome then none
    else sys.archives[i]?.map fun archive => sys.setInstall n (some ⟨archive, restoreSteps⟩)
  | .restore n => do
    let install ← sys.installs n
    match restoreStep install.source (sys.db n) install.steps with
    | none => return sys.setInstall n none
    | some (db, steps) => return (sys.setDb n db).setInstall n (some { install with steps })

/-! ## Runs in which the records stay together -/

/-- No key of the store belongs to both names. -/
structure ClaimsApart (w v : UploadName) : Prop where
  records : w.dbKey ≠ v.dbKey
  left : startsWith w.dbKey v.partsPrefix = false
  right : startsWith v.dbKey w.partsPrefix = false
  inside : startsWith w.partsPrefix v.partsPrefix = false
  outside : startsWith v.partsPrefix w.partsPrefix = false

instance (w v : UploadName) : Decidable (ClaimsApart w v) :=
  decidable_of_iff (w.dbKey ≠ v.dbKey ∧ startsWith w.dbKey v.partsPrefix = false ∧
    startsWith v.dbKey w.partsPrefix = false ∧ startsWith w.partsPrefix v.partsPrefix = false ∧
    startsWith v.partsPrefix w.partsPrefix = false)
    ⟨fun h => ⟨h.1, h.2.1, h.2.2.1, h.2.2.2.1, h.2.2.2.2⟩,
      fun h => ⟨h.records, h.left, h.right, h.inside, h.outside⟩⟩

/-- The stores have the same records under the keys of the name. -/
def SameRecords (w : UploadName) (db db' : Store Value) : Prop :=
  db.get w.dbKey = db'.get w.dbKey ∧ scan db w.partsPrefix = scan db' w.partsPrefix

instance (w : UploadName) (db db' : Store Value) : Decidable (SameRecords w db db') :=
  inferInstanceAs (Decidable (_ ∧ _))

/-- Requests for an upload are executed by its node, and not while a snapshot is installed there; the
snapshot has the records the node has; nothing is written under the upload's keys on behalf of
another. -/
def Failover.Steady (sys : Failover) : FailoverEvent → Prop
  | .initiate n alreadyForwarded _ w _ _ =>
    (sys.installs (sys.executes n alreadyForwarded)).isNone ∧
      SameRecords w (sys.db (sys.executes n alreadyForwarded)) Store.empty ∧
      ∀ l ∈ sys.live, l.home = sys.executes n alreadyForwarded →
        l.name.dbKey ≠ w.dbKey ∧ startsWith w.dbKey l.name.partsPrefix = false
  | .request n alreadyForwarded r =>
    ∀ l ∈ sys.live, l.name = r.name →
      sys.executes n alreadyForwarded = l.home ∧ (sys.installs l.home).isNone
  | .advance n i _ => ∀ task ∈ (sys.nodes n).tasks[i]?, (task.records.isSome ∨ task.ends.isSome) →
      ∀ l ∈ sys.live, l.home = n → l.name ≠ task.name → ClaimsApart l.name task.name
  | .install n i => ∀ archive ∈ sys.archives[i]?, ∀ l ∈ sys.live,
      (l.home = n → SameRecords l.name archive (sys.db n)) ∧
        ∀ task ∈ (sys.nodes n).tasks, task.answered = false → l.name ≠ task.name
  | _ => True

instance (sys : Failover) : (e : FailoverEvent) → Decidable (sys.Steady e)
  | .initiate _ _ _ _ _ _ => inferInstanceAs (Decidable (_ ∧ _ ∧ ∀ l ∈ sys.live, _))
  | .request _ _ _ => inferInstanceAs (Decidable (∀ l ∈ sys.live, _))
  | .advance _ _ _ => inferInstanceAs (Decidable (∀ task ∈ _, _ → ∀ l ∈ sys.live, _))
  | .install _ _ => inferInstanceAs (Decidable (∀ archive ∈ _, ∀ l ∈ sys.live, _))
  | .view _ _ => inferInstanceAs (Decidable True)
  | .stop _ _ => inferInstanceAs (Decidable True)
  | .gc _ _ => inferInstanceAs (Decidable True)
  | .apply _ _ _ => inferInstanceAs (Decidable True)
  | .snapshot _ => inferInstanceAs (Decidable True)
  | .restore _ => inferInstanceAs (Decidable True)

/-- Every request in progress for an upload that is not over finds it, with the acknowledged parts,
on the node that executes it. -/
def Failover.Finds (sys : Failover) : Prop :=
  ∀ n, ∀ task ∈ (sys.nodes n).tasks, task.answered = false → ∀ l ∈ sys.live, l.name = task.name →
    getMultipartUpload (sys.db n) l.name.bucket l.name.key l.name.uploadId = .ok l.upload

/-! ## Keys -/

section Keys
omit [Sha256]

variable {w v : UploadName} {db db' : Store Value}

theorem claims_startsWith {x : String} (claims : w.Claims x) : startsWith x multipartPrefix = true := by
  rcases claims with rfl | inside
  · exact multipartDbKey_startsWith w.bucket w.key w.uploadId
  · exact startsWith_of_startsWith inside (partKeyPrefix_startsWith w.bucket w.key w.uploadId)

theorem ClaimsApart.not_claims (apart : ClaimsApart w v) {x : String} (claims : w.Claims x) :
    ¬ v.Claims x := by
  rintro (rfl | inside)
  · rcases claims with same | inside
    · exact apart.records same.symm
    · exact absurd inside (by simp [apart.right])
  · rcases claims with rfl | inside'
    · exact absurd inside (by simp [apart.left])
    · -- two starts of one key: the shorter starts the longer
      rcases le_total w.partsPrefix.toList.length v.partsPrefix.toList.length with short | short
      · have start := startsWith_iff.2 (List.prefix_of_prefix_length_le (startsWith_iff.1 inside')
          (startsWith_iff.1 inside) short)
        exact absurd start (by simp [apart.outside])
      · have start := startsWith_iff.2 (List.prefix_of_prefix_length_le (startsWith_iff.1 inside)
          (startsWith_iff.1 inside') short)
        exact absurd start (by simp [apart.inside])

theorem SameRecords.get (same : SameRecords w db db') {x : String} (claims : w.Claims x) :
    db.get x = db'.get x := by
  rcases claims with rfl | inside
  · exact same.1
  · refine Option.ext fun v => ?_
    have scanned : (x, v) ∈ scan db w.partsPrefix ↔ (x, v) ∈ scan db' w.partsPrefix := by rw [same.2]
    simpa [mem_scan, inside] using scanned

/-- An upload that has just been initiated has no parts. -/
theorem uploadRecords_initiate (fresh : SameRecords w db Store.empty) (metadata : MultipartMetadata) :
    UploadRecords w metadata (db.put w.dbKey (.upload metadata)) ∅ := by
  refine ⟨by rw [get_put, if_pos rfl], fun x v start => ?_, by simp⟩
  have apart : w.dbKey ≠ x := by
    rintro rfl
    rw [dbKey_not_part] at start
    cases start
  rw [get_put, if_neg apart, fresh.get (.inr start), get_empty]
  simp

end Keys

/-! ## What an operation writes -/

theorem MultipartTask.advance_name {s : ObjectStorage} {node node' : Node} {n : Nat}
    {task task' : MultipartTask} (step : task.advance s node n = some (node', task')) :
    task'.name = task.name := by
  cases task with
  | part r stage =>
    obtain ⟨⟨_, _⟩, -, same⟩ := Option.map_eq_some_iff.1 step
    cases same
    rfl
  | complete r stage =>
    obtain ⟨⟨_, _⟩, -, same⟩ := Option.map_eq_some_iff.1 step
    cases same
    rfl
  | abort w stage =>
    obtain ⟨⟨_, _⟩, -, same⟩ := Option.map_eq_some_iff.1 step
    cases same
    rfl

/-- A request that is answered has no operation left. -/
theorem MultipartTask.advance_open {s : ObjectStorage} {node node' : Node} {n : Nat}
    {task task' : MultipartTask} (step : task.advance s node n = some (node', task')) :
    task.answered = false := by
  cases task with
  | part r stage =>
    obtain ⟨_, made, -⟩ := Option.map_eq_some_iff.1 step
    cases stage with
    | done etag => cases made
    | _ => rfl
  | complete r stage =>
    obtain ⟨_, made, -⟩ := Option.map_eq_some_iff.1 step
    cases stage with
    | done => cases made
    | _ => rfl
  | abort w stage =>
    obtain ⟨_, made, -⟩ := Option.map_eq_some_iff.1 step
    cases stage with
    | done => cases made
    | _ => rfl

omit [Sha256] in
/-- The records of an upload that is over are its own. -/
theorem abort_others {db : Store Value} {w : UploadName} {ws : List (Write Value)}
    (call : abortMultipartUpload db w.bucket w.key w.uploadId = .ok ws) {x : String}
    (other : ¬ w.Claims x) : (applyAll db ws).get x = db.get x := by
  obtain rfl := abortMultipartUpload_eq call
  refine (get_uploadDeletes db w x).trans ?_
  rw [if_neg fun inside => other (.inr inside), if_neg fun same => other (.inl same.symm)]

theorem MultipartTask.advance_writes {s : ObjectStorage} {node node' : Node} {n : Nat}
    {task task' : MultipartTask} (step : task.advance s node n = some (node', task')) :
    task.Writes node.db node'.db := by
  cases task with
  | part r stage =>
    obtain ⟨⟨_, _⟩, made, same⟩ := Option.map_eq_some_iff.1 step
    cases same
    cases uploadPartStep_cases made with
    | @record acc ws call =>
      obtain rfl := recordPart_eq call
      exact .record ⟨r.partNumber, _, acc.length⟩ rfl rfl
    | _ => exact .nothing rfl rfl fun _ _ => rfl
  | complete r stage =>
    obtain ⟨⟨_, _⟩, made, same⟩ := Option.map_eq_some_iff.1 step
    cases same
    cases completeStep_cases made with
    | write upload call =>
      refine .nothing rfl rfl fun x start => ?_
      obtain rfl := putObjectMetadata_eq call
      refine (get_applyAll_put _ _ _ _).trans (if_neg ?_)
      exact ne_of_startsWith (by decide) (by decide) (objectDbKey_startsWith _ _) start
    | abort call =>
      exact .closed rfl rfl fun x other => abort_others (w := ⟨r.bucket, r.key, r.uploadId⟩) call other
    | _ => exact .nothing rfl rfl fun _ _ => rfl
  | abort w stage =>
    obtain ⟨⟨_, _⟩, made, same⟩ := Option.map_eq_some_iff.1 step
    cases same
    cases abortStep_cases made with
    | abort upload call => exact .closed rfl rfl fun x other => abort_others call other
    | _ => exact .nothing rfl rfl fun _ _ => rfl

/-! ## The invariant -/

/-- The records of a node, once the snapshot it installs is in place. -/
def Failover.settled (sys : Failover) (n : Nat) : Store Value :=
  (sys.installs n).elim (sys.db n) fun install => restored install.source (sys.db n) install.steps

structure Failover.Inv (sys : Failover) : Prop where
  records : ∀ l ∈ sys.live, l.name.Valid ∧
    UploadRecords l.name l.metadata (sys.settled l.home) l.parts
  placed : ∀ n, ∀ task ∈ (sys.nodes n).tasks, ∀ l ∈ sys.live, l.name = task.name → n = l.home
  named : ∀ n, ∀ task ∈ (sys.nodes n).tasks, task.name.uploadId ∈ sys.named
  quiet : ∀ n, (sys.installs n).isSome → ∀ task ∈ (sys.nodes n).tasks, task.answered = false →
    ∀ l ∈ sys.live, l.name ≠ task.name

section Invariant

variable {sys : Failover} {n : Nat}

omit [Sha256] in
theorem Failover.settled_none (none : sys.installs n = none) : sys.settled n = sys.db n := by
  rw [Failover.settled, none, Option.elim_none]

omit [Sha256] in
/-- A node with a request in progress for an upload that is not over installs nothing. -/
theorem Failover.Inv.idle (inv : sys.Inv) {task : MultipartTask} (member : task ∈ (sys.nodes n).tasks)
    (open_ : task.answered = false) {l : LiveUpload} (live : l ∈ sys.live)
    (same : l.name = task.name) : sys.installs n = none := by
  by_contra busy
  exact inv.quiet n (Option.isSome_iff_ne_none.2 busy) task member open_ l live same

omit [Sha256] in
theorem Failover.Inv.finds (inv : sys.Inv) : sys.Finds := by
  intro n task member open_ l live same
  obtain ⟨valid, records⟩ := inv.records l live
  obtain rfl := inv.placed n task member l live same
  rw [Failover.settled_none (inv.idle member open_ live same)] at records
  exact records.get valid

omit [Sha256] in
theorem Failover.setNode_same (sys : Failover) (n : Nat) (node : MultipartNode) :
    (sys.setNode n node).nodes n = node := Function.update_self _ _ _

omit [Sha256] in
theorem Failover.setNode_other (sys : Failover) {n m : Nat} (node : MultipartNode) (other : m ≠ n) :
    (sys.setNode n node).nodes m = sys.nodes m := Function.update_of_ne other _ _

omit [Sha256] in
/-- The requests of a node are not renamed, nor is an answered one taken up again. -/
theorem Failover.tasks_setNode {node : MultipartNode}
    (tasks : ∀ task ∈ node.tasks, ∃ old ∈ (sys.nodes n).tasks, old.name = task.name ∧
      (task.answered = false → old.answered = false)) (m : Nat) :
    ∀ task ∈ ((sys.setNode n node).nodes m).tasks, ∃ old ∈ (sys.nodes m).tasks,
      old.name = task.name ∧ (task.answered = false → old.answered = false) := by
  intro task member
  by_cases same : m = n
  · subst same
    rw [sys.setNode_same] at member
    exact tasks task member
  · rw [sys.setNode_other node same] at member
    exact ⟨task, member, rfl, id⟩

omit [Sha256] in
/-- A key that a node keeps is kept by the snapshot it installs, too. -/
theorem Failover.get_settled_setNode {node : MultipartNode} {x : String}
    (same : node.node.db.get x = (sys.db n).get x) :
    ((sys.setNode n node).settled n).get x = (sys.settled n).get x := by
  have db : (sys.setNode n node).db n = node.node.db := by rw [Failover.db, sys.setNode_same]
  simp only [Failover.settled, db]
  have installs : (sys.setNode n node).installs n = sys.installs n := rfl
  rw [installs]
  cases sys.installs n with
  | none => exact same
  | some install => exact get_restored_congr same install.source install.steps

omit [Sha256] in
theorem Failover.settled_setNode_other {node : MultipartNode} {m : Nat} (other : m ≠ n) :
    (sys.setNode n node).settled m = sys.settled m := by
  have db : (sys.setNode n node).db m = sys.db m := by
    rw [Failover.db, sys.setNode_other node other]
    rfl
  simp only [Failover.settled, db]
  rfl

omit [Sha256] in
/-- The records of an upload, after its node or another has changed. -/
theorem Failover.Inv.records_setNode (inv : sys.Inv) {node : MultipartNode} {l : LiveUpload}
    (live : l ∈ sys.live)
    (db : l.home = n → ∀ x, l.name.Claims x → node.node.db.get x = (sys.db n).get x) :
    UploadRecords l.name l.metadata ((sys.setNode n node).settled l.home) l.parts := by
  have records := (inv.records l live).2
  by_cases same : l.home = n
  · rw [same] at records ⊢
    exact records.frame fun x claims => Failover.get_settled_setNode (db same x claims)
  · rw [Failover.settled_setNode_other same]
    exact records

omit [Sha256] in
/-- A step of a node that keeps the records of its uploads. -/
theorem Failover.Inv.setNode (inv : sys.Inv) {node : MultipartNode}
    (db : ∀ l ∈ sys.live, l.home = n → ∀ x, l.name.Claims x → node.node.db.get x = (sys.db n).get x)
    (tasks : ∀ task ∈ node.tasks, ∃ old ∈ (sys.nodes n).tasks, old.name = task.name ∧
      (task.answered = false → old.answered = false)) :
    (sys.setNode n node).Inv := by
  refine ⟨fun l live => ?_, fun m task member l live same => ?_, fun m task member => ?_,
    fun m busy task member open_ l live => ?_⟩
  · exact ⟨(inv.records l live).1, inv.records_setNode live (db l live)⟩
  · obtain ⟨old, member', name, -⟩ := Failover.tasks_setNode tasks m task member
    exact inv.placed m old member' l live (same.trans name.symm)
  · obtain ⟨old, member', name, -⟩ := Failover.tasks_setNode tasks m task member
    rw [← name]
    exact inv.named m old member'
  · obtain ⟨old, member', name, still⟩ := Failover.tasks_setNode tasks m task member
    rw [← name]
    exact inv.quiet m busy old member' (still open_) l live

omit [Sha256] in
theorem Failover.Inv.setDb (inv : sys.Inv) {db : Store Value}
    (same : ∀ l ∈ sys.live, l.home = n → ∀ x, l.name.Claims x → db.get x = (sys.db n).get x) :
    (sys.setDb n db).Inv :=
  inv.setNode same fun task member => ⟨task, member, rfl, id⟩

/-! ## Installations -/

omit [Sha256] in
/-- A step that leaves the requests and the uploads, and what the nodes are to end in. -/
theorem Failover.Inv.frame (inv : sys.Inv) {sys' : Failover} (live : sys'.live = sys.live)
    (named : sys'.named = sys.named) (tasks : ∀ m, (sys'.nodes m).tasks = (sys.nodes m).tasks)
    (settled : ∀ l ∈ sys.live, ∀ x, l.name.Claims x →
      (sys'.settled l.home).get x = (sys.settled l.home).get x)
    (quiet : ∀ m, (sys'.installs m).isSome → (sys.installs m).isSome ∨
      ∀ task ∈ (sys.nodes m).tasks, task.answered = false → ∀ l ∈ sys.live, l.name ≠ task.name) :
    sys'.Inv := by
  refine ⟨fun l there => ?_, fun m task member l there => ?_, fun m task member => ?_,
    fun m busy task member open_ l there => ?_⟩
  · rw [live] at there
    obtain ⟨valid, records⟩ := inv.records l there
    exact ⟨valid, records.frame (settled l there)⟩
  · rw [live] at there
    exact inv.placed m task (tasks m ▸ member) l there
  · rw [named]
    exact inv.named m task (tasks m ▸ member)
  · rw [live] at there
    rcases quiet m busy with old | new
    · exact inv.quiet m old task (tasks m ▸ member) open_ l there
    · exact new task (tasks m ▸ member) open_ l there

omit [Sha256] in
theorem Failover.settled_setInstall (sys : Failover) (n : Nat) (install : Option Installation) (m : Nat) :
    (sys.setInstall n install).settled m =
      if m = n then
        install.elim (sys.db n) fun install => restored install.source (sys.db n) install.steps
      else sys.settled m := by
  show (Function.update sys.installs n install m).elim _ _ = _
  by_cases here : m = n
  · subst here
    rw [if_pos rfl, Function.update_self]
    rfl
  · rw [if_neg here, Function.update_of_ne here]
    rfl

omit [Sha256] in
theorem Failover.installs_setInstall {install : Option Installation} {m : Nat}
    (busy : ((sys.setInstall n install).installs m).isSome) : m = n ∨ (sys.installs m).isSome := by
  have busy : (Function.update sys.installs n install m).isSome := busy
  by_cases here : m = n
  · exact .inl here
  · rw [Function.update_of_ne here] at busy
    exact .inr busy

omit [Sha256] in
/-- A snapshot with the records of the node begins to be installed. -/
theorem Failover.Inv.install (inv : sys.Inv) (idle : sys.installs n = none) {archive : Store Value}
    (steady : ∀ l ∈ sys.live, (l.home = n → SameRecords l.name archive (sys.db n)) ∧
      ∀ task ∈ (sys.nodes n).tasks, task.answered = false → l.name ≠ task.name) :
    (sys.setInstall n (some ⟨archive, restoreSteps⟩)).Inv := by
  refine inv.frame rfl rfl (fun _ => rfl) (fun l live x claims => ?_) fun m busy => ?_
  · rw [Failover.settled_setInstall]
    split
    · rename_i home
      have inside : covered dataPrefixes x = true := by
        simp [Metadata.covered, dataPrefixes, claims_startsWith claims]
      rw [Option.elim_some, restored_restoreSteps, get_restoreDefaultCf, if_pos inside, home,
        Failover.settled_none idle]
      exact ((steady l live).1 home).get claims
    · rfl
  · rcases Failover.installs_setInstall busy with rfl | old
    · exact .inr fun task member open_ l live => (steady l live).2 task member open_
    · exact .inl old

omit [Sha256] in
/-- An installation takes a step: it is to end as before. -/
theorem Failover.Inv.restore (inv : sys.Inv) {install : Installation}
    (installing : sys.installs n = some install) {db : Store Value} {steps : List RestoreStep}
    (step : restoreStep install.source (sys.db n) install.steps = some (db, steps)) :
    ((sys.setDb n db).setInstall n (some { install with steps })).Inv := by
  have tasks : ∀ m, ((sys.setDb n db).nodes m).tasks = (sys.nodes m).tasks := by
    intro m
    by_cases here : m = n
    · subst here
      rw [Failover.setDb, sys.setNode_same]
    · rw [Failover.setDb, sys.setNode_other _ here]
  have here : (sys.setDb n db).db n = db := by rw [Failover.db, Failover.setDb, sys.setNode_same]
  refine inv.frame rfl rfl tasks (fun l live x claims => ?_) fun m busy => ?_
  · rw [Failover.settled_setInstall]
    split
    · rename_i home
      rw [Option.elim_some, here, restored_step step, home, Failover.settled, installing,
        Option.elim_some]
    · rename_i away
      rw [Failover.setDb, Failover.settled_setNode_other away]
  · rcases Failover.installs_setInstall busy with rfl | old
    · exact .inl (by rw [installing]; rfl)
    · exact .inl old

omit [Sha256] in
/-- An installation ends. -/
theorem Failover.Inv.installed (inv : sys.Inv) {install : Installation}
    (installing : sys.installs n = some install)
    (ended : restoreStep install.source (sys.db n) install.steps = none) :
    (sys.setInstall n none).Inv := by
  have nothing : install.steps = [] := by
    cases steps : install.steps with
    | nil => rfl
    | cons first rest => cases first <;> rw [steps] at ended <;> cases ended
  refine inv.frame rfl rfl (fun _ => rfl) (fun l live x claims => ?_) fun m busy => ?_
  · rw [Failover.settled_setInstall]
    split
    · rename_i home
      rw [home, Failover.settled, installing, Option.elim_some, nothing]
      rfl
    · rfl
  · rcases Failover.installs_setInstall busy with rfl | old
    · exact .inl (by rw [installing]; rfl)
    · exact .inl old

omit [Sha256] in
/-- A request is executed by the node of its upload. -/
theorem Failover.Inv.request (inv : sys.Inv) {r : MultipartRequest}
    (here : ∀ l ∈ sys.live, l.name = r.name → n = l.home ∧ (sys.installs l.home).isNone) :
    { sys.setNode n { sys.nodes n with tasks := (sys.nodes n).tasks ++ [r.task] } with
      named := r.name.uploadId :: sys.named }.Inv := by
  have name : r.task.name = r.name := by cases r <;> rfl
  have tasks : ∀ m, ∀ task ∈ ((sys.setNode n
      { sys.nodes n with tasks := (sys.nodes n).tasks ++ [r.task] }).nodes m).tasks,
      task ∈ (sys.nodes m).tasks ∨ m = n ∧ task.name = r.name := by
    intro m task member
    by_cases same : m = n
    · subst same
      rw [sys.setNode_same] at member
      rcases List.mem_append.1 member with old | new
      · exact .inl old
      · rw [List.mem_singleton.1 new]
        exact .inr ⟨rfl, name⟩
    · rw [sys.setNode_other _ same] at member
      exact .inl member
  refine ⟨fun l live => ?_, fun m task member l live same => ?_, fun m task member => ?_,
    fun m busy task member open_ l live same => ?_⟩
  · exact ⟨(inv.records l live).1, inv.records_setNode live fun _ _ _ => rfl⟩
  · rcases tasks m task member with old | ⟨rfl, new⟩
    · exact inv.placed m task old l live same
    · exact (here l live (same.trans new)).1
  · rcases tasks m task member with old | ⟨-, new⟩
    · exact List.mem_cons_of_mem _ (inv.named m task old)
    · rw [new]
      exact List.mem_cons_self
  · rcases tasks m task member with old | ⟨rfl, new⟩
    · exact inv.quiet m busy task old open_ l live same
    · obtain ⟨home, idle⟩ := here l live (same.trans new)
      have busy : (sys.installs m).isSome := busy
      rw [home, Option.isNone_iff_eq_none.1 idle] at busy
      cases busy

omit [Sha256] in
/-- An upload is initiated under an id that no request has named. -/
theorem Failover.Inv.initiate (inv : sys.Inv) {w : UploadName} {now : DateTime}
    {contentType : Option String} {node : MultipartNode} (valid : w.Valid)
    (idle : sys.installs n = none)
    (fresh : w.uploadId ∉ sys.named) (empty : SameRecords w (sys.db n) Store.empty)
    (apart : ∀ l ∈ sys.live, l.home = n →
      l.name.dbKey ≠ w.dbKey ∧ startsWith w.dbKey l.name.partsPrefix = false)
    (db : node.node.db = (sys.db n).put w.dbKey (.upload ⟨w.uploadId, w.bucket, w.key, now, contentType⟩))
    (tasks : node.tasks = (sys.nodes n).tasks) :
    { sys.setNode n node with
      live := ⟨⟨w.uploadId, w.bucket, w.key, now, contentType⟩, n, ∅⟩ :: sys.live
      named := w.uploadId :: sys.named }.Inv := by
  have same : ∀ m, ((sys.setNode n node).nodes m).tasks = (sys.nodes m).tasks := by
    intro m
    by_cases here : m = n
    · subst here
      rw [sys.setNode_same, tasks]
    · rw [sys.setNode_other node here]
  refine ⟨fun l live => ?_, fun m task member l live named => ?_, fun m task member => ?_,
    fun m busy task member open_ l live named => ?_⟩
  · rcases List.mem_cons.1 live with rfl | old
    · refine ⟨valid, ?_⟩
      have here : (sys.setNode n node).settled n = node.node.db := by
        have idle : (sys.setNode n node).installs n = none := idle
        rw [Failover.settled_none idle, Failover.db, sys.setNode_same]
      show UploadRecords w _ ((sys.setNode n node).settled n) ∅
      rw [here, db]
      exact uploadRecords_initiate empty _
    · refine ⟨(inv.records l old).1, inv.records_setNode old fun home x claims => ?_⟩
      obtain ⟨records, outside⟩ := apart l old home
      rw [db, get_put, if_neg]
      rintro rfl
      rcases claims with same | inside
      · exact records same.symm
      · rw [outside] at inside
        cases inside
  · have member : task ∈ (sys.nodes m).tasks := same m ▸ member
    rcases List.mem_cons.1 live with rfl | old
    · -- no request in progress names the new id
      have known := inv.named m task member
      rw [← named] at known
      exact absurd known fresh
    · exact inv.placed m task member l old named
  · have member : task ∈ (sys.nodes m).tasks := same m ▸ member
    exact List.mem_cons_of_mem _ (inv.named m task member)
  · have member : task ∈ (sys.nodes m).tasks := same m ▸ member
    rcases List.mem_cons.1 live with rfl | old
    · have known := inv.named m task member
      rw [← named] at known
      exact absurd known fresh
    · exact inv.quiet m busy task member open_ l old named

/-- One operation of a request. -/
theorem Failover.Inv.advance (inv : sys.Inv) {s : ObjectStorage} {i k : Nat}
    {task task' : MultipartTask} {node : MultipartNode}
    (at_i : (sys.nodes n).tasks[i]? = some task)
    (made : task.advance s (sys.nodes n).node k = some (node.node, task'))
    (tasks : node.tasks = (sys.nodes n).tasks.set i task')
    (apart : (task.records.isSome ∨ task.ends.isSome) → ∀ l ∈ sys.live, l.home = n →
      l.name ≠ task.name → ClaimsApart l.name task.name) :
    { sys.setNode n node with live := task.settle sys.live }.Inv := by
  have member := List.mem_of_getElem? at_i
  have going := MultipartTask.advance_open made
  have renamed : ∀ task ∈ node.tasks, ∃ old ∈ (sys.nodes n).tasks, old.name = task.name ∧
      (task.answered = false → old.answered = false) := by
    intro later there
    rw [tasks] at there
    rcases List.mem_or_eq_of_mem_set there with old | rfl
    · exact ⟨later, old, rfl, id⟩
    · exact ⟨task, member, (MultipartTask.advance_name made).symm, fun _ => going⟩
  -- every upload that is left was there before, under its name and on its node
  have settled : ∀ l ∈ task.settle sys.live, ∃ old ∈ sys.live, old.name = l.name ∧ old.home = l.home := by
    intro l live
    unfold MultipartTask.settle at live
    split at live
    · obtain ⟨old, there, rfl⟩ := List.mem_map.1 live
      refine ⟨old, there, ?_⟩
      split
      · exact ⟨rfl, rfl⟩
      · exact ⟨rfl, rfl⟩
    · exact ⟨l, List.mem_of_mem_filter live, rfl, rfl⟩
  refine ⟨fun l live => ?_, fun m later there l live same => ?_, fun m later there => ?_,
    fun m busy later there open_ l live same => ?_⟩
  · obtain ⟨old, there, name, -⟩ := settled l live
    refine ⟨name ▸ (inv.records old there).1, ?_⟩
    cases MultipartTask.advance_writes made with
    | record p records put =>
      have live : l ∈ task.settle sys.live := live
      simp only [MultipartTask.settle, records] at live
      obtain ⟨l, there, rfl⟩ := List.mem_map.1 live
      split
      · rename_i own
        obtain rfl := inv.placed n task member l there own
        have idle := inv.idle member going there own
        have here : (sys.setNode l.home node).settled l.home = node.node.db := by
          have idle : (sys.setNode l.home node).installs l.home = none := idle
          rw [Failover.settled_none idle, Failover.db, sys.setNode_same]
        have recorded := (inv.records l there).2.record p
        rw [Failover.settled_none idle, own] at recorded
        show UploadRecords l.name l.metadata ((sys.setNode l.home node).settled l.home) _
        rw [here, put, own]
        exact recorded
      · rename_i other
        refine inv.records_setNode there fun home x claims => ?_
        have clear := (apart (.inl (by simp [records])) l there home other).not_claims claims
        rw [put, get_put, if_neg]
        · rfl
        · rintro rfl
          exact clear (claims_partKey task.name p.partNumber)
    | closed records ends others =>
      have live : l ∈ task.settle sys.live := live
      simp only [MultipartTask.settle, records] at live
      obtain ⟨there, other⟩ := List.mem_filter.1 live
      have other : l.name ≠ task.name := by
        rw [ends] at other
        simpa using other
      refine inv.records_setNode there fun home x claims => ?_
      exact others x ((apart (.inr (by simp [ends])) l there home other).not_claims claims)
    | nothing records ends same =>
      have live : l ∈ task.settle sys.live := live
      simp only [MultipartTask.settle, records] at live
      have there := List.mem_of_mem_filter live
      exact inv.records_setNode there fun _ x claims => same x (claims_startsWith claims)
  · obtain ⟨before, there', name, -⟩ := Failover.tasks_setNode renamed m later there
    obtain ⟨old, live', name', home⟩ := settled l live
    rw [← home]
    exact inv.placed m before there' old live' (name'.trans (same.trans name.symm))
  · obtain ⟨before, there', name, -⟩ := Failover.tasks_setNode renamed m later there
    rw [← name]
    exact inv.named m before there'
  · obtain ⟨before, there', name, still⟩ := Failover.tasks_setNode renamed m later there
    obtain ⟨old, live', name', -⟩ := settled l live
    exact inv.quiet m busy before there' (still open_) old live' (name'.trans (same.trans name.symm))

end Invariant

/-! ## Runs -/

omit [Sha256] in
/-- No command of the Raft log writes the record of an upload. -/
theorem applyCommand_uploads {now : DateTime} {db : Store Value} {command : Command}
    {ws : List (Write Value)} (call : applyCommand now db command = .ok ws) {x : String}
    (start : startsWith x multipartPrefix = true) : (applyAll db ws).get x = db.get x := by
  obtain ⟨v, -, sets⟩ := applyCommand_sets call
  have other : command.cell ≠ x := by
    cases command with
    | createBucket bucket => exact ne_of_startsWith (by decide) (by decide) (bucketKey_startsWith _) start
    | deleteBucket name => exact ne_of_startsWith (by decide) (by decide) (bucketKey_startsWith _) start
    | putObjectMetadata metadata =>
      exact ne_of_startsWith (by decide) (by decide) (objectDbKey_startsWith _ _) start
    | deleteObjectMetadata bucket key =>
      exact ne_of_startsWith (by decide) (by decide) (objectDbKey_startsWith _ _) start
    | acquireLock bucket key lockType holder =>
      exact ne_of_startsWith (by decide) (by decide) (lockKey_startsWith _ _) start
    | releaseLock bucket key holder =>
      exact ne_of_startsWith (by decide) (by decide) (lockKey_startsWith _ _) start
  rw [sets.2, if_neg other]

variable {s : ObjectStorage} {age : Nat}

theorem Failover.Inv.step {sys sys' : Failover} {e : FailoverEvent} (inv : sys.Inv)
    (steady : sys.Steady e) (step : sys.step s age e = some sys') : sys'.Inv := by
  cases e with
  | view n view =>
    cases step
    exact ⟨inv.records, inv.placed, inv.named, inv.quiet⟩
  | initiate n alreadyForwarded now w contentType cached =>
    simp only [Failover.step] at step
    split at step
    · cases step
    · rename_i fresh
      obtain ⟨next, made, same⟩ := Option.bind_eq_some_iff.1 step
      cases same
      cases MultipartNode.step_cases made with
      | initiate valid uuid _ =>
        have idle := Option.isNone_iff_eq_none.1 steady.1
        exact inv.initiate valid idle fresh steady.2.1 steady.2.2 rfl rfl
  | request n alreadyForwarded r =>
    obtain ⟨next, made, same⟩ := Option.bind_eq_some_iff.1 step
    cases same
    cases MultipartNode.step_cases made with
    | request => exact inv.request steady
  | advance n i k =>
    obtain ⟨task, at_i, step⟩ := Option.bind_eq_some_iff.1 step
    obtain ⟨next, made, same⟩ := Option.bind_eq_some_iff.1 step
    cases same
    cases MultipartNode.step_cases made with
    | advance at_i' advanced =>
      cases at_i.symm.trans at_i'
      exact inv.advance at_i advanced rfl (steady task at_i)
  | stop n i =>
    obtain ⟨next, made, rfl⟩ := Option.map_eq_some_iff.1 step
    cases MultipartNode.step_cases made with
    | stop at_i =>
      refine inv.setNode (fun l live home x claims => ?_) fun task member => ?_
      · show (MultipartTask.dropped s (sys.nodes n).node _).db.get x = _
        rw [MultipartTask.dropped_db]
        rfl
      · exact ⟨task, List.mem_of_mem_eraseIdx member, rfl, id⟩
  | gc n event =>
    obtain ⟨next, made, rfl⟩ := Option.map_eq_some_iff.1 step
    cases MultipartNode.step_cases made with
    | @gc event node stage collected =>
      refine inv.setNode (fun l live home x claims => ?_) fun task member => ⟨task, member, rfl, id⟩
      show node.db.get x = _
      rw [(gcStep_cases collected).db]
      rfl
  | apply n now command =>
    simp only [Failover.step] at step
    split at step
    · cases step
    · split at step
      · cases step
      · rename_i ws call
        cases step
        exact inv.setDb fun l live home x claims => applyCommand_uploads call (claims_startsWith claims)
  | snapshot n =>
    cases step
    exact ⟨inv.records, inv.placed, inv.named, inv.quiet⟩
  | install n i =>
    simp only [Failover.step] at step
    split at step
    · cases step
    · rename_i idle
      obtain ⟨archive, there, rfl⟩ := Option.map_eq_some_iff.1 step
      exact inv.install (by simpa using idle) (steady archive there)
  | restore n =>
    obtain ⟨install, installing, step⟩ := Option.bind_eq_some_iff.1 step
    split at step
    · rename_i ended
      cases step
      exact inv.installed installing ended
    · rename_i made
      cases step
      exact inv.restore installing made

/-- **Leader changes.** In every run in which each request for an upload is executed by the node that
initiated it, an installed snapshot has the records its node has, and no other upload runs into its
keys, every request for an upload that is not over finds it with the parts that were acknowledged. -/
theorem uploads_survive (s : ObjectStorage) (age : Nat) {nodes : Nat → Node} {views : Nat → LeaderView}
    {events : List FailoverEvent} {sys : Failover}
    (steady : Along (Failover.step s age) Failover.Steady (Failover.start nodes views) events)
    (ran : exec (Failover.step s age) (Failover.start nodes views) events = some sys) : sys.Finds := by
  have start : (Failover.start nodes views).Inv := by
    refine ⟨fun l live => ?_, fun n task member => ?_, fun n task member => ?_, fun n busy => ?_⟩
    · cases live
    · cases member
    · cases member
    · cases busy
  have inv : sys.Inv :=
    exec_invariant (fun _ _ _ inv steady step => Failover.Inv.step inv steady step) start steady ran
  exact inv.finds

/-! ## An upload and a leader that moves -/

def movedName : UploadName := ⟨"abc", "k", sampleUuid⟩

def movedPart (partNumber : Nat) : MultipartRequest := .part ⟨"abc", "k", sampleUuid, partNumber, [1]⟩

/-- A cluster without records whose nodes know the first for the leader. -/
def movedStart : Failover := .start (fun _ => ⟨Store.empty, Fs.empty⟩) fun _ => ⟨some 1, true⟩

/-- The leader initiates the upload. -/
def movedInitiate : FailoverEvent := .initiate 1 false 9 movedName none true

/-- The nodes learn of another leader. -/
def movedLeader (leader : Nat) : List FailoverEvent :=
  [.view 1 ⟨some leader, true⟩, .view 2 ⟨some leader, true⟩]

/-- A part is recorded, the leader goes and comes back, and a snapshot of its own is installed key by
key before the next part is sent. -/
def movedBack : List FailoverEvent :=
  movedInitiate :: .request 2 false (movedPart 1) :: List.replicate 5 (.advance 1 0 0) ++
    .snapshot 1 :: movedLeader 2 ++ movedLeader 1 ++ .install 1 0 :: List.replicate 11 (.restore 1) ++
      [.request 2 false (movedPart 2)]

omit [Sha256] in
theorem movedBack_steady :
    letI : Sha256 := Sha256.sampled
    Along (Failover.step sampleStorage 3600) Failover.Steady movedStart movedBack := by
  decide +kernel

omit [Sha256] in
theorem uploads_survive_sample :
    letI : Sha256 := Sha256.sampled
    ∃ sys, exec (Failover.step sampleStorage 3600) movedStart movedBack = some sys ∧
      sys.live.map (fun l => l.parts.keys) = [[1]] ∧ (sys.nodes 1).tasks.length = 2 ∧ sys.Finds := by
  let _ : Sha256 := Sha256.sampled
  have seen : (exec (Failover.step sampleStorage 3600) movedStart movedBack).map
      (fun sys => (sys.live.map (fun l => l.parts.keys), (sys.nodes 1).tasks.length)) =
        some ([[1]], 2) := by
    decide +kernel
  obtain ⟨sys, ran, observed⟩ := Option.map_eq_some_iff.1 seen
  simp only [Prod.mk.injEq] at observed
  exact ⟨sys, ran, observed.1, observed.2, uploads_survive sampleStorage 3600 movedBack_steady ran⟩

omit [Sha256] in
/-- The next leader does not know an upload that the last one has initiated. -/
theorem upload_lost_with_leader :
    ¬ ∀ [Sha256] (s : ObjectStorage) (age : Nat) (nodes : Nat → Node) (views : Nat → LeaderView)
      (events : List FailoverEvent) (sys : Failover),
      exec (Failover.step s age) (Failover.start nodes views) events = some sys → sys.Finds := by
  intro claim
  let _ : Sha256 := Sha256.sampled
  have seen : (exec (Failover.step sampleStorage 3600) movedStart
      (movedInitiate :: movedLeader 2 ++ [.request 1 false (movedPart 1)])).map
        (fun sys => ((sys.nodes 2).tasks.map fun task => (task.name, task.answered),
          sys.live.map LiveUpload.name,
          (getMultipartUpload (sys.db 2) "abc" "k" sampleUuid).toBool)) =
        some ([(movedName, false)], [movedName], false) := by
    decide +kernel
  obtain ⟨sys, ran, observed⟩ := Option.map_eq_some_iff.1 seen
  simp only [Prod.mk.injEq] at observed
  obtain ⟨tasks, live, missing⟩ := observed
  obtain ⟨task, member, seen⟩ : ∃ task ∈ (sys.nodes 2).tasks,
      (task.name, task.answered) = (movedName, false) :=
    List.mem_map.1 (by rw [tasks]; exact List.mem_singleton_self _)
  obtain ⟨named, waiting⟩ := Prod.mk.inj seen
  obtain ⟨l, there, name⟩ : ∃ l ∈ sys.live, l.name = movedName :=
    List.mem_map.1 (by rw [live]; exact List.mem_singleton_self _)
  have found := claim sampleStorage 3600 _ _ _ sys ran 2 task member waiting l there
    (name.trans named.symm)
  rw [name] at found
  have found : (getMultipartUpload (sys.db 2) "abc" "k" sampleUuid).toBool = true := by
    show (getMultipartUpload (sys.db 2) movedName.bucket movedName.key movedName.uploadId).toBool = true
    rw [found]
    rfl
  rw [missing] at found
  cases found

end Save.Api
