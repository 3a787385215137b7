import Save.Api.Cluster

/-!
# Strong reads

A read (`handlers/objects/get.rs`) answers with the leader's record and the bytes of
the leader's file, or of another node's when the leader has none. It delivers what
the record says as long as every copy of the object is the one the record describes.
A write keeps that when it reaches every node that has an older copy, and when its
record is applied; a write that leaves an older copy behind, on a node that was not
selected or that missed the commit, is found out only when that node answers a read.
So is a commit that comes after its write has ended and puts an older body in place
of the one that the record describes.

`Cluster.Agrees` is the invariant: every copy of an object is the one that its
record describes. A step keeps it when it leaves no other copy behind, and a read
that finds any copy then answers the right one.
-/

namespace Save.Api
set_option autoImplicit false
open Save.Text Save.Kv Save.Common Save.Metadata Save.Files Save.Storage Save.Run Save.Replication

variable [Sha256] {s : ObjectStorage}

/-- The bytes are the ones the record describes. -/
def Matches (metadata : ObjectMetadata) (bytes : Bytes) : Prop :=
  Sha256.digest bytes = metadata.etag ∧ bytes.length = metadata.size

/-! ## Reads -/

theorem read_of_getObject {fs : Fs} {key : String} {bytes : Bytes}
    (call : s.getObject fs key = .ok bytes) : fs.read (s.pathOf key) = some bytes := by
  by_cases valid : ValidKey key
  · rw [getObject_ok s fs valid] at call
    cases file : fs.read (s.pathOf key) with
    | none => simp [file] at call
    | some found =>
      rw [file] at call
      cases call
      rfl
  · obtain ⟨e, failed⟩ := objectPath_invalid s valid
    rw [ObjectStorage.getObject, failed] at call
    cases call

theorem readFromReplica_some {required : Nat} {faults : ReadFaults} {services : Nat → Service s}
    {key : String} {bytes : Bytes} (clients : List Nat) (attempts : Nat)
    (found : readFromReplica required faults services key clients attempts = some bytes) :
    ∃ i, (services i).fs.read (s.pathOf key) = some bytes := by
  induction clients generalizing attempts with
  | nil => cases found
  | cons i clients ih =>
    rw [readFromReplica] at found
    split at found
    · split at found
      · rename_i read
        split at found
        · cases found
          exact ⟨i, read_of_getObject read⟩
        · exact ih _ found
      · exact ih _ found
    · exact ih _ found

/-- The backend delivers a file of the key, the leader's or another node's. -/
theorem getReplicated_ok {config : QuorumConfig} {leader : Nat} {faults : ReadFaults}
    {services : Nat → Service s} {key : String} {bytes : Bytes}
    (call : getReplicated config leader faults services key = .ok bytes) :
    ∃ i, (services i).fs.read (s.pathOf key) = some bytes := by
  unfold getReplicated at call
  split at call
  · rename_i read
    cases call
    exact ⟨leader, read_of_getObject read⟩
  · split at call
    · rename_i found
      cases call
      exact readFromReplica_some _ _ found
    · cases call
  · cases call

omit [Sha256] in
theorem record_of_getObjectMetadata {db : Store Value} {bucket key : String}
    {metadata : ObjectMetadata} (call : getObjectMetadata db bucket key = .ok metadata) :
    db.get (recordKey (storageKey bucket key)) = some (.object metadata) := by
  rw [← objectDbKey_eq]
  unfold getObjectMetadata at call
  cases check : checkObjectKey key with
  | error e => simp [check, bind, Except.bind] at call
  | ok u =>
    simp only [check, bind, Except.bind] at call
    split at call
    · cases call
      assumption
    · cases call
    · cases call

omit [Sha256] in
/-- What an answered read has found. -/
theorem getObjectFrom_ok {read : String → Except StorageError Bytes} {env : ReadEnv}
    {db : Store Value} {bucket key : String} {response : GetResponse}
    (call : getObjectFrom read env db bucket key = .ok response) :
    ∃ metadata, getObjectMetadata db bucket key = .ok metadata ∧
      read (storageKey bucket key) = .ok response.body ∧
      response.etag = "\"" ++ metadata.etag ++ "\"" ∧
      response.contentLength = toString metadata.size := by
  obtain ⟨-, -, call⟩ := bind_ok call
  obtain ⟨-, -, call⟩ := bind_ok call
  have found : (do
      let metadata ← (getObjectMetadata db bucket key).mapError (getError bucket key)
      let body ← (read (storageKey bucket key)).mapError fun e =>
        .internal ("Storage error: " ++ e.toString)
      return (⟨"\"" ++ metadata.etag ++ "\"", toString metadata.size, metadata.modifiedAt,
        metadata.contentType.getD "application/octet-stream", body⟩ : GetResponse)) =
        Except.ok response := by
    cases strong : env.strong with
    | false => simpa only [strong, Bool.false_eq_true, if_false] using call
    | true =>
      simp only [strong, if_true] at call
      obtain ⟨-, -, call⟩ := bind_ok call
      obtain ⟨-, -, call⟩ := bind_ok call
      exact call
  obtain ⟨metadata, record, found⟩ := bind_ok found
  obtain ⟨body, bytes, same⟩ := bind_ok found
  cases same
  exact ⟨metadata, mapError_eq_ok.1 record, mapError_eq_ok.1 bytes, rfl, rfl⟩

/-! ## The invariant -/

/-- Every copy of an object is the one its record describes. -/
structure Cluster.Agrees (keys : Set String) (c : Cluster s) : Prop where
  known : ∀ key metadata, c.db.get (recordKey key) = some (.object metadata) → key ∈ keys
  copies : ∀ key metadata, c.db.get (recordKey key) = some (.object metadata) →
    ∀ i bytes, (c.services i).fs.read (s.pathOf key) = some bytes → Matches metadata bytes

theorem Cluster.Agrees.fresh (keys : Set String) (services : Nat → Service s) :
    (Cluster.fresh services).Agrees keys := by
  constructor
  · intro key metadata there
    simp [Cluster.fresh] at there
  · intro key metadata there
    simp [Cluster.fresh] at there

/-- A read delivers what its record describes. -/
theorem Cluster.Agrees.read {keys : Set String} {c : Cluster s} (agrees : c.Agrees keys)
    {config : QuorumConfig} {leader : Nat} {faults : ReadFaults} {env : ReadEnv}
    {bucket key : String} {response : GetResponse}
    (call : c.getObject config leader faults env bucket key = .ok response) :
    response.etag = "\"" ++ Sha256.digest response.body ++ "\"" ∧
      response.contentLength = toString response.body.length := by
  obtain ⟨metadata, record, body, etag, size⟩ := getObjectFrom_ok call
  obtain ⟨i, file⟩ := getReplicated_ok body
  obtain ⟨digest, length⟩ := agrees.copies _ _ (record_of_getObjectMetadata record) i _ file
  rw [etag, size, digest, length]
  exact ⟨rfl, rfl⟩

/-! ## Writes -/

/-- The node takes the write in the second phase. -/
def TakesWrite (config : QuorumConfig) (faults : Faults) (r : PutRequest) (c : Cluster s)
    (i : Nat) : Prop :=
  i ∈ selectReplicaNodes faults config.replicationFactor ∧
    Takes (faults.participants i) faults.requestId r.storageKey r.body (c.services i)

/-- The handler gets past its checks and the storage acknowledges the write. -/
def Publishes (config : QuorumConfig) (leader : Nat) (faults : Faults) (r : PutRequest)
    (c : Cluster s) : Prop :=
  r.accepted c.db = true ∧
    (putReplicated config leader faults r.storageKey r.body c.services).2 = .ok ()

/-- A write that publishes its bytes and whose record is applied leaves no other copy: every
node that does not take it has none, or the same bytes by digest and length. A write that
publishes its bytes and whose record is lost has no record, or one that describes them. So has
the object of a file that the commit of an ended write puts in place. -/
def LeavesNoOtherCopy (config : QuorumConfig) (c : Cluster s) : ClusterEvent → Prop
  | .put leader faults (some _) r => Publishes config leader faults r c →
    ∀ i, i ≠ leader → ¬ TakesWrite config faults r c i →
      ∀ bytes, (c.services i).fs.read (s.pathOf r.storageKey) = some bytes →
        Sha256.digest bytes = Sha256.digest r.body ∧ bytes.length = r.body.length
  | .put leader faults none r => Publishes config leader faults r c →
    ∀ metadata, c.db.get (recordKey r.storageKey) = some (.object metadata) →
      Matches metadata r.body
  | .commit i t true => ∀ p, (c.services i).pending.get t = some p →
    ∀ bytes, (c.services i).fs.read p.temp.tempPath = some bytes →
      ∀ key metadata, p.temp.finalPath = s.pathOf key →
        c.db.get (recordKey key) = some (.object metadata) → Matches metadata bytes
  | _ => True

/-- The keys that the requests name. -/
def ClusterEvent.Within (keys : Set String) : ClusterEvent → Prop
  | .put _ _ _ r => r.storageKey ∈ keys
  | .delete _ _ _ bucket key => storageKey bucket key ∈ keys
  | _ => True

section Steps

variable {keys : Set String} {c c' : Cluster s} {config : QuorumConfig}

/-- Records that were there before, over files that have not changed. -/
theorem Cluster.Agrees.mono (agrees : c.Agrees keys)
    (records : ∀ key metadata, c'.db.get (recordKey key) = some (.object metadata) →
      c.db.get (recordKey key) = some (.object metadata))
    (files : ∀ key metadata, c'.db.get (recordKey key) = some (.object metadata) → ∀ i bytes,
      (c'.services i).fs.read (s.pathOf key) = some bytes →
        (c.services i).fs.read (s.pathOf key) = some bytes) : c'.Agrees keys := by
  constructor
  · intro key metadata there
    exact agrees.known key metadata (records key metadata there)
  · intro key metadata there i bytes file
    exact agrees.copies key metadata (records key metadata there) i bytes
      (files key metadata there i bytes file)

/-- Another service with the same object files. -/
theorem Cluster.Agrees.setService (agrees : c.Agrees keys) {i : Nat} {svc : Service s}
    (same : ∀ key, svc.fs.read (s.pathOf key) = (c.services i).fs.read (s.pathOf key)) :
    (c.setService i svc).Agrees keys := by
  refine agrees.mono (fun _ _ there => there) fun key _ _ j bytes file => ?_
  by_cases here : j = i
  · subst here
    rw [← same]
    simpa [Cluster.setService] using file
  · simpa [Cluster.setService, here] using file

/-- A commit changes the file of at most the key that was prepared under its id, to the prepared
bytes. -/
theorem read_commitObject (svc : Service s) (t key : String) :
    (commitObject svc t).1.fs.read (s.pathOf key) = svc.fs.read (s.pathOf key) ∨
      ∃ p, svc.pending.get t = some p ∧ p.temp.finalPath = s.pathOf key ∧
        (commitObject svc t).1.fs.read (s.pathOf key) = svc.fs.read p.temp.tempPath := by
  unfold commitObject
  cases there : svc.pending.get t with
  | none => exact .inl rfl
  | some p =>
    obtain ⟨requestId, key', -, own⟩ := svc.formed t p there
    have temp := (tempOf_ne_pathOf s key' key).symm
    simp only [own, tempObject]
    split
    · rename_i fs moved
      by_cases same : s.pathOf key' = s.pathOf key
      · refine .inr ⟨p, rfl, ?_, ?_⟩
        · rw [own, tempObject]
          exact same
        · rw [own, tempObject, ← same]
          exact Fs.read_rename moved
      · exact .inl (Fs.read_rename_of_ne moved temp (Ne.symm same))
    · exact .inl (svc.fs.read_unlink_of_ne temp)

/-- The commit of a write that has ended. -/
theorem Cluster.Agrees.commit (agrees : c.Agrees keys) {i : Nat} {t : String}
    (alone : LeavesNoOtherCopy config c (.commit i t true)) :
    (c.setService i (commitObject (c.services i) t).1).Agrees keys := by
  refine ⟨agrees.known, fun key metadata there j bytes file => ?_⟩
  by_cases here : j = i
  · subst here
    have file : (commitObject (c.services j) t).1.fs.read (s.pathOf key) = some bytes := by
      simpa [Cluster.setService] using file
    rcases read_commitObject (c.services j) t key with same | ⟨p, pending, final, put⟩
    · exact agrees.copies key metadata there j bytes (same ▸ file)
    · exact alone p pending bytes (put ▸ file) key metadata final there
  · exact agrees.copies key metadata there j bytes (by simpa [Cluster.setService, here] using file)

theorem propose_some {applied : Option DateTime} {command : Command} {db : Store Value}
    (call : c.propose applied command = some db) :
    ∃ now ws, applied = some now ∧ applyCommand now c.db command = .ok ws ∧
      db = applyAll c.db ws := by
  unfold Cluster.propose at call
  split at call
  · cases call
  · rename_i now
    split at call
    · cases call
    · rename_i ws result
      cases call
      exact ⟨now, ws, rfl, result, rfl⟩

/-- The record of a valid key is refused by nobody. -/
theorem propose_lost {applied : Option DateTime} {metadata : ObjectMetadata}
    (valid : ValidKey metadata.key)
    (call : c.propose applied (.putObjectMetadata metadata) = none) : applied = none := by
  cases applied with
  | none => rfl
  | some now =>
    have act : cellAct now (.putObjectMetadata metadata)
        (c.db.get (Command.putObjectMetadata metadata).cell) = some (some (.object metadata)) := by
      simp [cellAct, valid]
    obtain ⟨ws, result, -⟩ := applyCommand_ok act
    simp [Cluster.propose, result] at call

theorem Cluster.Agrees.put (agrees : c.Agrees keys) (distinct : Distinct keys) {leader : Nat}
    {faults : Faults} (self : leader ∉ faults.clients) {applied : Option DateTime} {r : PutRequest}
    (member : r.storageKey ∈ keys)
    (alone : LeavesNoOtherCopy config c (.put leader faults applied r)) :
    (c.putObject config leader faults applied r).Agrees keys := by
  unfold Cluster.putObject
  by_cases accepted : r.accepted c.db = true
  · rw [if_neg (by simp [accepted])]
    have valid : ValidKey r.key := by
      simp only [PutRequest.accepted, Bool.and_eq_true, decide_eq_true_eq] at accepted
      exact accepted.1.2
    have apart : ∀ key, key ∈ keys → key ≠ r.storageKey → s.pathOf key ≠ s.pathOf r.storageKey :=
      fun key there other => distinct.pathOf_ne s there member other
    simp only
    split
    · rename_i failed
      refine agrees.mono (fun _ _ there => there) fun key _ _ i bytes file => ?_
      rwa [read_putReplicated_other (.inr (by rw [failed]; nofun))] at file
    · rename_i stored
      have copy := read_putReplicated self stored
      split
      · rename_i lost
        obtain rfl := propose_lost valid lost
        refine ⟨agrees.known, fun key metadata there i bytes file => ?_⟩
        by_cases same : key = r.storageKey
        · subst same
          rcases copy i with written | ⟨-, -, old⟩
          · obtain rfl := Option.some.inj (written.symm.trans file)
            exact alone ⟨accepted, stored⟩ metadata there
          · exact agrees.copies _ metadata there i bytes (old.symm.trans file)
        · have other := apart key (agrees.known key metadata there) same
          rw [read_putReplicated_other (.inl other)] at file
          exact agrees.copies key metadata there i bytes file
      · rename_i db proposed
        obtain ⟨now, ws, rfl, result, rfl⟩ := propose_some proposed
        have record : ∀ key metadata,
            (applyAll c.db ws).get (recordKey key) = some (.object metadata) →
            (key = r.storageKey ∧ metadata = newMetadata r.bucket r.key r.body none r.now) ∨
            (key ≠ r.storageKey ∧ c.db.get (recordKey key) = some (.object metadata)) := by
          intro key metadata there
          obtain ⟨put, command, rfl, value⟩ | ⟨not, old⟩ := record_of_apply result there
          · cases command
            cases value
            exact .inl ⟨rfl, rfl⟩
          · refine .inr ⟨?_, old⟩
            rintro rfl
            exact not ⟨_, rfl, rfl⟩
        refine ⟨fun key metadata there => ?_, fun key metadata there i bytes file => ?_⟩
        · obtain ⟨rfl, -⟩ | ⟨-, old⟩ := record key metadata there
          · exact member
          · exact agrees.known key metadata old
        · obtain ⟨rfl, rfl⟩ | ⟨other, old⟩ := record key metadata there
          · rcases copy i with written | ⟨away, left, old⟩
            · obtain rfl := Option.some.inj (written.symm.trans file)
              exact ⟨rfl, rfl⟩
            · exact alone ⟨accepted, stored⟩ i away left bytes (old.symm.trans file)
          · have other := apart key (agrees.known key metadata old) other
            rw [read_putReplicated_other (.inl other)] at file
            exact agrees.copies key metadata old i bytes file
  · rw [if_pos (by simpa using accepted)]
    exact agrees

theorem Cluster.Agrees.delete (agrees : c.Agrees keys) (distinct : Distinct keys) {leader : Nat}
    {faults : DeleteFaults} {applied : Option DateTime} {bucket key : String}
    (member : storageKey bucket key ∈ keys) :
    (c.deleteObject leader faults applied bucket key).Agrees keys := by
  unfold Cluster.deleteObject
  split
  · exact agrees
  · split
    · exact agrees
    · split
      · exact agrees
      · rename_i db proposed
        obtain ⟨now, ws, rfl, result, rfl⟩ := propose_some proposed
        have record : ∀ key' v, (applyAll c.db ws).get (recordKey key') = some v →
            key' ≠ storageKey bucket key ∧ c.db.get (recordKey key') = some v := by
          intro key' v there
          obtain ⟨put, command, -, -⟩ | ⟨-, old⟩ := record_of_apply result there
          · cases command
          · refine ⟨?_, old⟩
            rintro rfl
            rw [no_record_of_apply result] at there
            cases there
        refine agrees.mono (fun key' metadata there => (record key' _ there).2) ?_
        intro key' metadata there i bytes file
        obtain ⟨other, old⟩ := record key' _ there
        have apart := distinct.pathOf_ne s (agrees.known key' metadata old) member other
        rwa [read_deleteReplicated apart] at file

theorem Cluster.Agrees.step (agrees : c.Agrees keys) (distinct : Distinct keys)
    {event : ClusterEvent} (within : event.Within keys) (alone : LeavesNoOtherCopy config c event)
    (next : c.step config event = some c') : c'.Agrees keys := by
  cases event with
  | put leader faults applied r =>
    simp only [Cluster.step] at next
    split at next
    · cases next
    · rename_i self
      cases next
      exact agrees.put distinct self within alone
  | delete leader faults applied bucket key =>
    simp only [Cluster.step] at next
    split at next
    · cases next
    · cases next
      exact agrees.delete distinct within
  | command applied command =>
    simp only [Cluster.step] at next
    split at next
    · cases next
    · rename_i other
      cases next
      refine agrees.mono (fun key metadata there => ?_) fun _ _ _ _ _ file => file
      cases proposed : c.propose applied command with
      | none => simpa [proposed] using there
      | some db =>
        obtain ⟨now, ws, -, result, rfl⟩ := propose_some proposed
        simp only [proposed, Option.getD_some] at there
        obtain ⟨put, rfl, -⟩ | ⟨-, old⟩ := record_of_apply result there
        · exact absurd rfl other
        · exact old
  | cleanup i now maxAge =>
    cases next
    exact agrees.setService fun key => read_runCleanups (c.services i) [(now, maxAge)] key
  | prepare i now key requestId data reads =>
    simp only [Cluster.step, Option.ite_none_right_eq_some, Option.some.injEq] at next
    obtain ⟨valid, rfl⟩ := next
    exact agrees.setService fun key' =>
      read_streamPrepareObject (c.services i) now valid requestId data reads key'
  | commit i t renames =>
    cases next
    cases renames with
    | true => exact agrees.commit alone
    | false => exact agrees.setService (abortObject_spec (c.services i) t).2.2
  | abort i t =>
    cases next
    exact agrees.setService (abortObject_spec (c.services i) t).2.2
  | restart i =>
    cases next
    exact agrees.setService fun _ => rfl

end Steps

end Save.Api
