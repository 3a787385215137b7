import Save.Replication.Quorum

/-!
# Replicated deletes

A delete of `replication/coordinator.rs` removes the local file and then asks every
client to remove its own, without counting who did. A read that finds no local file
asks the clients. What a later read answers is counted in the copies that the delete
has not reached (`getReplicated_deleted`). `acknowledged_delete`: an acknowledged
delete leaves no copy where it came, and the key reads as not found as long as no
copy left behind is served.
-/

namespace Save.Replication
set_option autoImplicit false
open Save.Text Save.Kv Save.Common Save.Files Save.Storage

variable [Sha256] {s : ObjectStorage}

/-- The node has a copy of the object. -/
def Service.holds (svc : Service s) (key : String) : Bool := (svc.fs.read (s.pathOf key)).isSome

/-- The delete takes effect on the node. -/
def DeleteFaults.reaches (faults : DeleteFaults) (leader i : Nat) : Bool :=
  decide (i = leader ∨ (i ∈ faults.clients ∧ faults.arrives i = true))

/-- A read gets the node's copy. -/
def ReadFaults.serves (reads : ReadFaults) (services : Nat → Service s) (key : String) (i : Nat) :
    Bool :=
  reads.healthy i && reads.answers i && (services i).holds key

section

variable {key : String} {leader : Nat} {faults : DeleteFaults} {services after later : Nat → Service s}

theorem getObject_holds (valid : ValidKey key) (svc : Service s) :
    s.getObject svc.fs key =
      match svc.fs.read (s.pathOf key) with
      | none => .error (.notFound key)
      | some bytes => .ok bytes := by
  rw [getObject_ok s svc.fs valid]
  cases svc.fs.read (s.pathOf key) <;> rfl

theorem holds_deleteObject (valid : ValidKey key) (svc : Service s) :
    (deleteObject svc key).1.holds key = false := by
  have path := objectPath_eq s valid
  unfold deleteObject ObjectStorage.deleteObject
  simp only [path, bind, Except.bind]
  cases there : svc.fs.read (s.pathOf key) with
  | none => simp [Service.holds, there]
  | some bytes => simp [Service.holds, Fs.read, pure, Except.pure, Fs.inode_unlink]

/-- An acknowledged delete: there was a local copy, and where it came there is none. -/
theorem deleteReplicated_ok (call : deleteReplicated leader faults key services = (after, .ok ())) :
    ValidKey key ∧ ∀ i, after i =
      if faults.reaches leader i then (deleteObject (services i) key).1 else services i := by
  have valid : ValidKey key := by
    by_contra invalid
    obtain ⟨e, failed⟩ := objectPath_invalid s invalid
    simp only [deleteReplicated, ObjectStorage.deleteObject, failed, bind, Except.bind] at call
    cases call
  refine ⟨valid, fun i => ?_⟩
  unfold deleteReplicated at call
  split at call
  · cases call
  · split at call
    · cases call
    · cases call
      simp only [DeleteFaults.reaches, decide_eq_true_eq]

/-- What an acknowledged delete leaves are the copies it has not reached. -/
theorem holds_deleteReplicated (call : deleteReplicated leader faults key services = (after, .ok ()))
    (i : Nat) : (after i).holds key = (!faults.reaches leader i && (services i).holds key) := by
  obtain ⟨valid, same⟩ := deleteReplicated_ok call
  rw [same]
  cases faults.reaches leader i with
  | true =>
    rw [if_pos rfl, holds_deleteObject valid]
    rfl
  | false =>
    rw [if_neg Bool.false_ne_true]
    rfl

/-! ## Reads -/

/-- A read of the clients fails when they serve too few copies. -/
theorem readFromReplica_eq_none (valid : ValidKey key) (required : Nat) (reads : ReadFaults)
    (clients : List Nat) (attempts : Nat) :
    readFromReplica required reads services key clients attempts = none ↔
      (clients.filter (reads.serves services key)).length = 0 ∨
        attempts + (clients.filter (reads.serves services key)).length < required := by
  induction clients generalizing attempts with
  | nil => simp [readFromReplica]
  | cons i clients ih =>
    rw [readFromReplica, getObject_holds valid]
    by_cases served : reads.serves services key i = true
    · rw [List.filter_cons_of_pos served, List.length_cons]
      simp only [ReadFaults.serves, Bool.and_eq_true, Service.holds] at served
      obtain ⟨bytes, there⟩ := Option.isSome_iff_exists.1 served.2
      rw [if_pos (by simp [served.1]), there]
      simp only
      split
      · rename_i enough
        refine iff_of_false nofun ?_
        omega
      · rename_i short
        rw [ih]
        omega
    · rw [List.filter_cons_of_neg served, ← ih attempts]
      split
      · rename_i up
        have none_held : (services i).fs.read (s.pathOf key) = none := by
          by_contra there
          refine served ?_
          rw [ReadFaults.serves, up]
          exact Option.isSome_iff_ne_none.2 there
        rw [none_held]
      · rfl

/-- A read without a local copy. -/
theorem getReplicated_eq_notFound (config : QuorumConfig) (valid : ValidKey key)
    (gone : (services leader).holds key = false) (reads : ReadFaults) :
    getReplicated config leader reads services key = .error (.notFound key) ↔
      (reads.clients.filter (reads.serves services key)).length < max 1 config.readQuorum := by
  have absent : (services leader).fs.read (s.pathOf key) = none := by
    simpa [Service.holds] using gone
  have miss : readFromReplica config.readQuorum reads services key reads.clients 0 = none ↔
      (reads.clients.filter (reads.serves services key)).length < max 1 config.readQuorum := by
    rw [readFromReplica_eq_none valid]
    omega
  rw [← miss, getReplicated, getObject_holds valid, absent]
  simp only
  cases readFromReplica config.readQuorum reads services key reads.clients 0 with
  | none => simp
  | some bytes => simp

end

/-- The copies that the delete has not reached and a read is served. -/
def leftCopies (leader : Nat) (faults : DeleteFaults) (reads : ReadFaults) (key : String)
    (services : Nat → Service s) : Nat :=
  (reads.clients.filter fun i => !faults.reaches leader i && reads.serves services key i).length

section

variable {key : String} {leader : Nat} {faults : DeleteFaults} {services after later : Nat → Service s}

/-- A read after an acknowledged delete is served the copies left. -/
theorem getReplicated_deleted (config : QuorumConfig)
    (call : deleteReplicated leader faults key services = (after, .ok ())) (reads : ReadFaults) :
    getReplicated config leader reads after key = .error (.notFound key) ↔
      leftCopies leader faults reads key services < max 1 config.readQuorum := by
  have left := holds_deleteReplicated call
  have gone : (after leader).holds key = false := by
    rw [left]
    simp [DeleteFaults.reaches]
  have same : reads.serves after key =
      fun i => !faults.reaches leader i && reads.serves services key i := by
    funext i
    simp only [ReadFaults.serves, left]
    exact Bool.and_left_comm _ _ _
  rw [getReplicated_eq_notFound config (deleteReplicated_ok call).1 gone, same, leftCopies]

/-- Without a write no copy comes back. -/
theorem getReplicated_later (config : QuorumConfig) (valid : ValidKey key) (reads : ReadFaults)
    (gone : (after leader).holds key = false)
    (unwritten : ∀ i, (later i).holds key = true → (after i).holds key = true)
    (missing : getReplicated config leader reads after key = .error (.notFound key)) :
    getReplicated config leader reads later key = .error (.notFound key) := by
  have gone' : (later leader).holds key = false := by
    rw [Bool.eq_false_iff]
    intro there
    rw [unwritten leader there] at gone
    cases gone
  have fewer : (reads.clients.filter (reads.serves later key)).length ≤
      (reads.clients.filter (reads.serves after key)).length := by
    refine List.Sublist.length_le (List.monotone_filter_right _ fun i served => ?_)
    simp only [ReadFaults.serves, Bool.and_eq_true] at served ⊢
    exact ⟨served.1, unwritten i served.2⟩
  rw [getReplicated_eq_notFound config valid gone] at missing
  exact (getReplicated_eq_notFound config valid gone' reads).2 (fewer.trans_lt missing)

/-- A local copy that can be removed is removed with an acknowledgement. -/
theorem deleteReplicated_isOk (faults : DeleteFaults) (valid : ValidKey key)
    (copy : (services leader).holds key = true) (removes : faults.localRemoves = true) :
    ∃ after, deleteReplicated leader faults key services = (after, .ok ()) := by
  obtain ⟨bytes, there⟩ := Option.isSome_iff_exists.1 copy
  have path := objectPath_eq s valid
  refine ⟨(deleteReplicated leader faults key services).1, Prod.ext rfl ?_⟩
  simp only [deleteReplicated, ObjectStorage.deleteObject, path, bind, Except.bind, there, pure,
    Except.pure, removes, Bool.not_true, Bool.false_eq_true, if_false]

end

/-- **Deletes.** An acknowledged delete leaves no copy where it came; reads answer not found exactly
as long as they are served too few copies that it left. A delete that comes to every copy is
acknowledged when there is a local one. -/
theorem acknowledged_delete (config : QuorumConfig) (leader : Nat) (faults : DeleteFaults)
    (key : String) (services : Nat → Service s) :
    (∀ after, deleteReplicated leader faults key services = (after, .ok ()) →
      (∀ i, faults.reaches leader i = true → (after i).holds key = false) ∧
      (∀ reads, getReplicated config leader reads after key = .error (.notFound key) ↔
        leftCopies leader faults reads key services < max 1 config.readQuorum) ∧
      ∀ (later : Nat → Service s) (reads : ReadFaults),
        (∀ i, (later i).holds key = true → (after i).holds key = true) →
        leftCopies leader faults reads key services < max 1 config.readQuorum →
        getReplicated config leader reads later key = .error (.notFound key)) ∧
    (ValidKey key → (services leader).holds key = true → faults.localRemoves = true →
      (∀ i, (services i).holds key = true → faults.reaches leader i = true) →
      ∃ after, deleteReplicated leader faults key services = (after, .ok ()) ∧
        ∀ i, (after i).holds key = false) := by
  constructor
  · intro after call
    have gone : ∀ i, faults.reaches leader i = true → (after i).holds key = false := by
      intro i reached
      rw [holds_deleteReplicated call, reached]
      rfl
    have here : faults.reaches leader leader = true := by simp [DeleteFaults.reaches]
    refine ⟨gone, getReplicated_deleted config call, fun later reads unwritten few => ?_⟩
    have missing := (getReplicated_deleted config call reads).2 few
    exact getReplicated_later config (deleteReplicated_ok call).1 reads (gone leader here) unwritten
      missing
  · intro valid copy removes reached
    obtain ⟨after, call⟩ := deleteReplicated_isOk faults valid copy removes
    refine ⟨after, call, fun i => ?_⟩
    rw [holds_deleteReplicated call]
    cases there : (services i).holds key with
    | false => exact Bool.and_false _
    | true =>
      rw [reached i there]
      rfl

/-! ## Runs on one key -/

/-- Every node has a copy of `abc/k`. -/
def sampleCopies (_ : Nat) : Service sampleStorage :=
  Service.fresh sampleStorage (writeFile Fs.empty (sampleStorage.pathOf "abc/k") [1])

theorem sampleCopies_holds (i : Nat) : (sampleCopies i).holds "abc/k" = true := by
  simp [Service.holds, sampleCopies, Service.fresh, read_writeFile]

/-- Node 1 deletes; node 2 is its client. -/
def sampleDelete (arrives : Bool) : DeleteFaults := ⟨[2], fun _ => arrives, true⟩

/-- Node 2 is up. -/
def sampleReads : ReadFaults := ⟨[2], fun _ => true, fun _ => true⟩

omit [Sha256] in
/-- A delete that comes to both nodes: neither has a copy, and the key is not found. -/
theorem acknowledged_delete_sample :
    letI : Sha256 := Sha256.sampled
    ∃ after, deleteReplicated 1 (sampleDelete true) "abc/k" sampleCopies =
        (after, .ok ()) ∧
      (after 2).holds "abc/k" = false ∧
      getReplicated (.withReplicationFactor 2) 1 sampleReads after "abc/k" =
        .error (.notFound "abc/k") := by
  let _ : Sha256 := Sha256.sampled
  have valid : ValidKey "abc/k" := by decide
  have deleted := acknowledged_delete (.withReplicationFactor 2) 1 (sampleDelete true) "abc/k"
    sampleCopies
  obtain ⟨after, call⟩ := deleteReplicated_isOk (sampleDelete true) valid
    (sampleCopies_holds 1) rfl
  obtain ⟨gone, reads, -⟩ := deleted.1 after call
  refine ⟨after, call, gone 2 (by decide), (reads sampleReads).2 ?_⟩
  show leftCopies _ _ _ _ _ < 1
  decide +kernel

omit [Sha256] in
/-- A delete is acknowledged without the other node, whose copy is read afterwards. -/
theorem deleted_object_served :
    ¬ ∀ [Sha256] (s : ObjectStorage) (config : QuorumConfig) (leader : Nat) (faults : DeleteFaults)
      (key : String) (services : Nat → Service s),
      (∀ after, deleteReplicated leader faults key services = (after, .ok ()) →
        ∀ (later : Nat → Service s) (reads : ReadFaults), (∀ i, (later i).fs = (after i).fs) →
          getReplicated config leader reads later key = .error (.notFound key)) ∧
      ((∃ i, (services i).holds key = true) →
        (∀ i, (services i).holds key = true → faults.reaches leader i = true) →
        (deleteReplicated leader faults key services).2 = .error (.notFound key) →
        ∀ i, ((deleteReplicated leader faults key services).1 i).holds key = false) := by
  intro claim
  let _ : Sha256 := Sha256.sampled
  have valid : ValidKey "abc/k" := by decide
  obtain ⟨after, call⟩ := deleteReplicated_isOk (sampleDelete false) valid
    (sampleCopies_holds 1) rfl
  have missing := (claim sampleStorage (.withReplicationFactor 2) 1 (sampleDelete false) "abc/k"
    sampleCopies).1 after call after sampleReads fun _ => rfl
  have few := (getReplicated_deleted _ call sampleReads).1 missing
  have left : leftCopies 1 (sampleDelete false) sampleReads "abc/k" sampleCopies = 1 := by
    decide +kernel
  rw [left] at few
  exact absurd few (by decide)

end Save.Replication
