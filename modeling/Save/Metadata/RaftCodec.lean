import Save.Metadata.Rpc

/-!
# Raft messages

The hand-written conversions of `rpc.rs` between the requests and responses of
openraft and the messages of `raft.proto`, in both directions. A log id is a term
and an index; a vote may name no node, and is read back as one for node 0.
Requests of a leader or a candidate come back as they were sent
(`raft_request_round_trip`). Of the responses, `PartialSuccess` is read back as
`Success` whatever it carries: `raft_response_round_trip_iff` says which responses
come back.
-/

namespace Save.Rpc
set_option autoImplicit false
open Save.Metadata Save.Files

/-! ## Requests and responses of openraft -/

structure Entry where
  logId : LogId
  payload : EntryPayload
  deriving DecidableEq, Repr

structure AppendEntriesRequest where
  vote : Vote
  prevLogId : Option LogId
  entries : List Entry
  leaderCommit : Option LogId
  deriving DecidableEq, Repr

structure VoteRequest where
  vote : Vote
  lastLogId : Option LogId
  deriving DecidableEq, Repr

inductive AppendEntriesResponse where
  | success
  /-- Only the entries up to the log id are stored. -/
  | partialSuccess (matching : Option LogId)
  | higherVote (vote : Vote)
  | conflict
  deriving DecidableEq, Repr

structure VoteResponse where
  vote : Vote
  voteGranted : Bool
  lastLogId : Option LogId
  deriving DecidableEq, Repr

structure InstallSnapshotResponse where
  vote : Vote
  deriving DecidableEq, Repr

/-! ## Messages -/

namespace Proto

structure LogEntry where
  logId : Option LogId
  payload : Bytes
  deriving DecidableEq, Repr

structure AppendEntriesRequest where
  vote : Option Vote
  prevLogId : Option LogId
  entries : List LogEntry
  leaderCommit : Option LogId
  deriving DecidableEq, Repr

structure VoteRequest where
  vote : Option Vote
  lastLogId : Option LogId
  deriving DecidableEq, Repr

structure AppendEntriesResponse where
  vote : Option Vote
  success : Bool
  conflict : Option LogId
  deriving DecidableEq, Repr

structure VoteResponse where
  vote : Option Vote
  voteGranted : Bool
  lastLogId : Option LogId
  deriving DecidableEq, Repr

structure InstallSnapshotResponse where
  vote : Option Vote
  deriving DecidableEq, Repr

end Proto

/-- `serde_json` for payloads: what is written is read back. -/
structure PayloadJson where
  toVec : EntryPayload → Except String Bytes
  fromSlice : Bytes → Except String EntryPayload
  lossless : ∀ p, (toVec p >>= fromSlice) = .ok p

/-! ## Requests -/

def toProtoEntry (json : PayloadJson) (e : Entry) : Except Status Proto.LogEntry := do
  let payload ← (json.toVec e.payload).mapError fun err => .internal ("serialize error: " ++ err)
  return ⟨some (toProtoLogId e.logId), payload⟩

def toProtoAppendEntriesRequest (json : PayloadJson) (req : AppendEntriesRequest) :
    Except Status Proto.AppendEntriesRequest := do
  let entries ← req.entries.mapM (toProtoEntry json)
  return ⟨some (toProtoVote req.vote), req.prevLogId.map toProtoLogId, entries,
    req.leaderCommit.map toProtoLogId⟩

def toProtoVoteRequest (req : VoteRequest) : Proto.VoteRequest :=
  ⟨some (toProtoVote req.vote), req.lastLogId.map toProtoLogId⟩

/-- `ok_or_else` with the status for a field that is not there. -/
def required {α : Type} (field : String) : Option α → Except Status α
  | none => .error (.invalidArgument ("missing " ++ field))
  | some a => .ok a

def convertEntry (json : PayloadJson) (e : Proto.LogEntry) : Except Status Entry := do
  let logId ← required "log_id" (e.logId.map convertLogId)
  let payload ← (json.fromSlice e.payload).mapError fun err =>
    .invalidArgument ("invalid payload: " ++ err)
  return ⟨logId, payload⟩

def convertAppendEntriesRequest (json : PayloadJson) (req : Proto.AppendEntriesRequest) :
    Except Status AppendEntriesRequest := do
  let vote ← required "vote" req.vote
  let entries ← req.entries.mapM (convertEntry json)
  return ⟨convertVote vote, req.prevLogId.map convertLogId, entries,
    req.leaderCommit.map convertLogId⟩

def convertVoteRequest (req : Proto.VoteRequest) : Except Status VoteRequest := do
  let vote ← required "vote" req.vote
  return ⟨convertVote vote, req.lastLogId.map convertLogId⟩

/-! ## Responses -/

def convertAppendEntriesResponse : AppendEntriesResponse → Proto.AppendEntriesResponse
  | .success => ⟨none, true, none⟩
  | .partialSuccess matching => ⟨none, true, matching.map toProtoLogId⟩
  | .higherVote vote => ⟨some (toProtoVote vote), false, none⟩
  | .conflict => ⟨none, false, none⟩

def convertVoteResponse (resp : VoteResponse) : Proto.VoteResponse :=
  ⟨some (toProtoVote resp.vote), resp.voteGranted, resp.lastLogId.map toProtoLogId⟩

def convertInstallSnapshotResponse (resp : InstallSnapshotResponse) : Proto.InstallSnapshotResponse :=
  ⟨some (toProtoVote resp.vote)⟩

def convertProtoAppendEntriesResponse (resp : Proto.AppendEntriesResponse) :
    Except Status AppendEntriesResponse :=
  if resp.success then
    .ok .success
  else
    match resp.vote with
    | none => .ok .conflict
    | some vote => .ok (.higherVote (convertVote vote))

def convertProtoVoteResponse (resp : Proto.VoteResponse) : Except Status VoteResponse := do
  let vote ← required "vote" resp.vote
  return ⟨convertVote vote, resp.voteGranted, resp.lastLogId.map convertLogId⟩

def convertProtoInstallSnapshotResponse (resp : Proto.InstallSnapshotResponse) :
    Except Status InstallSnapshotResponse := do
  let vote ← required "vote" resp.vote
  return ⟨convertVote vote⟩

/-! ## What comes back -/

/-- A vote comes back as it was when it names a node. -/
theorem convertVote_eq_iff {v : Vote} : convertVote (toProtoVote v) = v ↔ v.votedFor.isSome = true := by
  rw [convertVote_toProtoVote]
  obtain ⟨term, votedFor, committed⟩ := v
  cases votedFor <;> simp

/-- One entry, through a payload that is written and read back. -/
theorem toProtoEntry_ok (json : PayloadJson) (e : Entry) :
    ∃ m, toProtoEntry json e = .ok m ∧ convertEntry json m = .ok e := by
  have back := json.lossless e.payload
  cases written : json.toVec e.payload with
  | error err =>
    rw [written] at back
    cases back
  | ok payload =>
    rw [written] at back
    have read : json.fromSlice payload = .ok e.payload := back
    refine ⟨⟨some (toProtoLogId e.logId), payload⟩, ?_, ?_⟩
    · simp only [toProtoEntry, written]
      rfl
    · simp only [convertEntry, read]
      rfl

/-- The entries come back one by one. -/
theorem toProtoEntries_ok (json : PayloadJson) (entries : List Entry) :
    ∃ ms, entries.mapM (toProtoEntry json) = .ok ms ∧ ms.mapM (convertEntry json) = .ok entries := by
  induction entries with
  | nil => exact ⟨[], rfl, rfl⟩
  | cons e entries ih =>
    obtain ⟨m, written, read⟩ := toProtoEntry_ok json e
    obtain ⟨ms, all, back⟩ := ih
    refine ⟨m :: ms, ?_, ?_⟩
    · rw [List.mapM_cons, written, all]
      rfl
    · rw [List.mapM_cons, read, back]
      rfl

/-- **Requests.** What a leader or a candidate sends, with a vote that names it, is what the
receiver gets. -/
theorem raft_request_round_trip (json : PayloadJson) :
    (∀ r : AppendEntriesRequest, r.vote.votedFor.isSome = true →
      (toProtoAppendEntriesRequest json r >>= convertAppendEntriesRequest json) = .ok r) ∧
    ∀ r : VoteRequest, r.vote.votedFor.isSome = true →
      convertVoteRequest (toProtoVoteRequest r) = .ok r := by
  constructor
  · intro r named
    obtain ⟨ms, written, read⟩ := toProtoEntries_ok json r.entries
    have vote := convertVote_eq_iff.2 named
    simp only [toProtoAppendEntriesRequest, convertAppendEntriesRequest, written, read, required,
      bind, Except.bind, pure, Except.pure, map_convertLogId, vote]
  · intro r named
    have vote := convertVote_eq_iff.2 named
    simp only [toProtoVoteRequest, convertVoteRequest, required, bind, Except.bind, pure,
      Except.pure, map_convertLogId, vote]

/-- The responses that the leader reads back as they were sent. -/
def AppendEntriesResponse.kept : AppendEntriesResponse → Bool
  | .success => true
  | .partialSuccess _ => false
  | .higherVote vote => vote.votedFor.isSome
  | .conflict => true

/-- **Responses.** A response comes back as it was exactly when it is no `PartialSuccess` and its
vote, if it has one, names a node. -/
theorem raft_response_round_trip_iff (append : AppendEntriesResponse) (vote : VoteResponse)
    (install : InstallSnapshotResponse) :
    (convertProtoAppendEntriesResponse (convertAppendEntriesResponse append) = .ok append ↔
      append.kept = true) ∧
    (convertProtoVoteResponse (convertVoteResponse vote) = .ok vote ↔
      vote.vote.votedFor.isSome = true) ∧
    (convertProtoInstallSnapshotResponse (convertInstallSnapshotResponse install) = .ok install ↔
      install.vote.votedFor.isSome = true) := by
  refine ⟨?_, ?_, ?_⟩
  · cases append with
    | success => exact ⟨fun _ => rfl, fun _ => rfl⟩
    | partialSuccess matching =>
      -- the flag says success, and the log id is not looked at
      constructor
      · intro back
        cases back
      · intro never
        cases never
    | higherVote vote =>
      have back : convertProtoAppendEntriesResponse
          (convertAppendEntriesResponse (.higherVote vote)) =
            .ok (.higherVote (convertVote (toProtoVote vote))) := rfl
      rw [back, Except.ok.injEq, AppendEntriesResponse.higherVote.injEq, convertVote_eq_iff]
      rfl
    | conflict => exact ⟨fun _ => rfl, fun _ => rfl⟩
  · obtain ⟨vote, voteGranted, lastLogId⟩ := vote
    have back : convertProtoVoteResponse (convertVoteResponse ⟨vote, voteGranted, lastLogId⟩) =
        .ok ⟨convertVote (toProtoVote vote), voteGranted,
          (lastLogId.map toProtoLogId).map convertLogId⟩ := rfl
    rw [back, map_convertLogId, Except.ok.injEq, VoteResponse.mk.injEq, convertVote_eq_iff]
    simp
  · obtain ⟨vote⟩ := install
    have back : convertProtoInstallSnapshotResponse (convertInstallSnapshotResponse ⟨vote⟩) =
        .ok ⟨convertVote (toProtoVote vote)⟩ := rfl
    rw [back, Except.ok.injEq, InstallSnapshotResponse.mk.injEq, convertVote_eq_iff]

/-- A follower that has stored entries up to (3, 7) only is taken for one that has stored all. -/
theorem partial_success_not_kept :
    ¬ ∀ r : AppendEntriesResponse,
      convertProtoAppendEntriesResponse (convertAppendEntriesResponse r) = .ok r := by
  intro back
  have kept := back (.partialSuccess (some ⟨3, 7⟩))
  exact absurd kept (by decide)

/-! ## A sample -/

deriving instance Countable for Bucket, ObjectMetadata, LockType, LockHolder, Command, EntryPayload

/-- A heartbeat with one blank entry, which `serde_json` writes as `"Blank"`. -/
def sampleAppend : AppendEntriesRequest := ⟨⟨3, some 1, true⟩, some ⟨2, 6⟩, [⟨⟨3, 7⟩, .blank⟩], none⟩

theorem raft_request_round_trip_sample :
    ∃ json : PayloadJson, json.toVec .blank = .ok [34, 66, 108, 97, 110, 107, 34] ∧
      (toProtoAppendEntriesRequest json sampleAppend >>= convertAppendEntriesRequest json) =
        .ok sampleAppend ∧
      convertVoteRequest (toProtoVoteRequest ⟨⟨4, some 2, false⟩, none⟩) =
        .ok ⟨⟨4, some 2, false⟩, none⟩ := by
  have : Nonempty EntryPayload := ⟨.blank⟩
  obtain ⟨write, read, known, lossless⟩ := exists_lossless_on
    [(EntryPayload.blank, [34, 66, 108, 97, 110, 107, 34])] (by simp) (by simp) (by simp)
  let json : PayloadJson := ⟨fun p => .ok (write p), read, lossless⟩
  have trips := raft_request_round_trip json
  exact ⟨json, congrArg Except.ok (known _ List.mem_cons_self), trips.1 sampleAppend rfl, trips.2 _ rfl⟩

end Save.Rpc
