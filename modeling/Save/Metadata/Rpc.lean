import Save.Lib.Files
import Save.Metadata.StateMachine
import Mathlib.Data.Countable.Basic
import Mathlib.Logic.Equiv.List
import Mathlib.Tactic.DeriveCountable

/-!
# Snapshot transfer

`rpc.rs` and the frame reader of `server.rs`: a chunk of a snapshot leaves the
leader as one gRPC frame and reaches the follower's Raft as one request again.
The two serialisers are third-party and enter as a `Codec`, with the round trips
they promise. The messages have a place for the chunk's offset and for its
`done` mark, and neither side fills or reads it: `snapshot_transfer_iff` says
that the follower's Raft gets what the leader's sent exactly when the snapshot
is one chunk, its vote names a node and its message fits a frame.
-/

namespace Save.Rpc
set_option autoImplicit false
open Save.Metadata Save.Files

/-! ## Requests -/

/-- `openraft::Vote` in single-term-leader mode. -/
structure Vote where
  term : Nat
  votedFor : Option NodeId
  committed : Bool
  deriving DecidableEq, Repr

/-- `openraft::LogId` in single-term-leader mode: a committed leader is a term. -/
structure LogId where
  term : Nat
  index : Nat
  deriving DecidableEq, Repr

structure SnapshotMeta where
  lastLogId : Option LogId
  lastMembership : StoredMembership
  snapshotId : String
  deriving DecidableEq, Repr

structure InstallSnapshotRequest where
  vote : Vote
  info : SnapshotMeta
  offset : Nat
  data : Bytes
  done : Bool
  deriving DecidableEq, Repr

/-! ## Messages -/

namespace Proto

structure Vote where
  term : Nat
  nodeId : Option Nat
  committed : Bool
  deriving DecidableEq, Repr

structure LogId where
  term : Nat
  nodeId : Nat
  index : Nat
  deriving DecidableEq, Repr

structure Membership where
  config : Bytes
  deriving DecidableEq, Repr

structure SnapshotMeta where
  lastLogId : Option LogId
  lastMembership : Option Membership
  snapshotId : String
  deriving DecidableEq, Repr

structure InstallSnapshotRequest where
  vote : Option Vote
  info : Option SnapshotMeta
  offset : Nat
  data : Bytes
  done : Bool
  deriving DecidableEq, Repr

end Proto

inductive Status where
  | invalidArgument (msg : String)
  | resourceExhausted (msg : String)
  | internal (msg : String)
  deriving DecidableEq, Repr

/-- `serde_json` for memberships and `prost` for messages: what is written is read back. -/
structure Codec where
  json : StoredMembership → Bytes
  fromJson : Bytes → Except String StoredMembership
  encode : Proto.InstallSnapshotRequest → Bytes
  decode : Bytes → Except String Proto.InstallSnapshotRequest
  json_lossless : ∀ m, fromJson (json m) = .ok m
  lossless : ∀ m, decode (encode m) = .ok m

/-! ## The sending side -/

def toProtoVote (v : Vote) : Proto.Vote := ⟨v.term, v.votedFor, v.committed⟩

def toProtoLogId (id : LogId) : Proto.LogId := ⟨id.term, 0, id.index⟩

/-- The message `RaftRpcClient::do_install_snapshot` streams. -/
def toProtoInstallSnapshot (codec : Codec) (req : InstallSnapshotRequest) :
    Proto.InstallSnapshotRequest where
  vote := some (toProtoVote req.vote)
  info := some {
    lastLogId := req.info.lastLogId.map toProtoLogId
    lastMembership := some ⟨codec.json req.info.lastMembership⟩
    snapshotId := req.info.snapshotId }
  offset := 0
  data := req.data
  done := true

/-- `u32::to_be_bytes`. -/
def toBeBytes (n : Nat) : Bytes :=
  [UInt8.ofNat (n / 256 / 256 / 256), UInt8.ofNat (n / 256 / 256), UInt8.ofNat (n / 256),
    UInt8.ofNat n]

/-- A gRPC frame as `tonic` writes it: compression flag, length, message. -/
def frame (msg : Bytes) : Except Status Bytes :=
  if msg.length < 2 ^ 32 then
    .ok (0 :: (toBeBytes msg.length ++ msg))
  else
    .error (.resourceExhausted ("Cannot return body with more than 4GB of data but got " ++
      toString msg.length ++ " bytes"))

/-! ## The receiving side -/

/-- `u32::from_be_bytes`. -/
def fromBeBytes (a b c d : UInt8) : Nat :=
  ((a.toNat * 256 + b.toNat) * 256 + c.toNat) * 256 + d.toNat

/-- The loop of `parse_streaming_frames` over what is left of the body. -/
def parseStreamingFrames (codec : Codec) : Bytes → Except Status (List Proto.InstallSnapshotRequest)
  | [] => .ok []
  | _ :: a :: b :: c :: d :: rest =>
    if rest.length < fromBeBytes a b c d then
      .error (.invalidArgument "incomplete grpc frame body")
    else
      match codec.decode (rest.take (fromBeBytes a b c d)) with
      | .error e => .error (.invalidArgument e)
      | .ok req => (parseStreamingFrames codec (rest.drop (fromBeBytes a b c d))).map (req :: ·)
  | _ => .error (.invalidArgument "incomplete grpc frame header")
termination_by body => body.length
decreasing_by
  simp only [List.length_drop, List.length_cons]
  omega

/-- The loop of `RaftRpcServer::do_install_snapshot`: the data of all chunks, vote and meta of
the first that has a meta. -/
def gather : Bytes → Option Proto.SnapshotMeta → Option Proto.Vote →
    List Proto.InstallSnapshotRequest → Bytes × Option Proto.SnapshotMeta × Option Proto.Vote
  | data, info, vote, [] => (data, info, vote)
  | data, none, _, chunk :: chunks => gather (data ++ chunk.data) chunk.info chunk.vote chunks
  | data, some info, vote, chunk :: chunks => gather (data ++ chunk.data) (some info) vote chunks

def convertVote (v : Proto.Vote) : Vote :=
  let nodeId := v.nodeId.getD 0
  if v.committed then ⟨v.term, some nodeId, true⟩ else ⟨v.term, some nodeId, false⟩

def convertLogId (id : Proto.LogId) : LogId := ⟨id.term, id.index⟩

def convertInstallSnapshotRequest (codec : Codec) (vote : Proto.Vote) (info : Proto.SnapshotMeta)
    (data : Bytes) : Except Status InstallSnapshotRequest := do
  let membership ← match info.lastMembership with
    | none => .ok StoredMembership.default
    | some m => (codec.fromJson m.config).mapError fun e =>
      .invalidArgument ("invalid membership: " ++ e)
  return {
    vote := convertVote vote
    info := ⟨info.lastLogId.map convertLogId, membership, info.snapshotId⟩
    offset := 0
    data
    done := true }

/-- The request that `RaftRpcServer::do_install_snapshot` gives to its Raft. -/
def doInstallSnapshot (codec : Codec) (chunks : List Proto.InstallSnapshotRequest) :
    Except Status InstallSnapshotRequest :=
  match gather [] none none chunks with
  | (_, _, none) => .error (.invalidArgument "missing vote")
  | (_, none, some _) => .error (.invalidArgument "missing snapshot meta")
  | (data, some info, some vote) => convertInstallSnapshotRequest codec vote info data

/-- One request from Raft to Raft. -/
def present (codec : Codec) (req : InstallSnapshotRequest) :
    Except Status InstallSnapshotRequest := do
  let body ← frame (codec.encode (toProtoInstallSnapshot codec req))
  let frames ← parseStreamingFrames codec body
  doInstallSnapshot codec frames

/-- A sequence of requests, sent one after the other. -/
def transfer (codec : Codec) (reqs : List InstallSnapshotRequest) :
    Except Status (List InstallSnapshotRequest) :=
  reqs.mapM (present codec)

/-- The requests for a snapshot split into these pieces: consecutive offsets, `done` on the last. -/
def chunks (vote : Vote) (info : SnapshotMeta) : Nat → Bytes → List Bytes → List InstallSnapshotRequest
  | offset, piece, [] => [⟨vote, info, offset, piece, true⟩]
  | offset, piece, next :: rest =>
    ⟨vote, info, offset, piece, false⟩ :: chunks vote info (offset + piece.length) next rest

/-! ## What arrives -/

theorem fromBeBytes_toBeBytes {n : Nat} (small : n < 2 ^ 32) :
    fromBeBytes (UInt8.ofNat (n / 256 / 256 / 256)) (UInt8.ofNat (n / 256 / 256))
      (UInt8.ofNat (n / 256)) (UInt8.ofNat n) = n := by
  simp only [fromBeBytes, UInt8.toNat_ofNat']
  omega

/-- The reader of frames gets back the one message of a frame. -/
theorem parseStreamingFrames_frame {codec : Codec} {m : Proto.InstallSnapshotRequest} {body : Bytes}
    (framed : frame (codec.encode m) = .ok body) : parseStreamingFrames codec body = .ok [m] := by
  unfold frame at framed
  split at framed
  · rename_i small
    cases framed
    simp only [toBeBytes, List.cons_append, List.nil_append]
    rw [parseStreamingFrames, fromBeBytes_toBeBytes small]
    simp only [lt_irrefl, if_false, List.take_length, codec.lossless, List.drop_length]
    rw [parseStreamingFrames]
    rfl
  · cases framed

/-- The request as it is presented: from the start, and the last. -/
def flattened (req : InstallSnapshotRequest) : InstallSnapshotRequest :=
  { req with
    vote := { req.vote with votedFor := some (req.vote.votedFor.getD 0) }
    offset := 0
    done := true }

theorem convertVote_toProtoVote (v : Vote) :
    convertVote (toProtoVote v) = { v with votedFor := some (v.votedFor.getD 0) } := by
  obtain ⟨term, votedFor, committed⟩ := v
  cases committed <;> rfl

theorem map_convertLogId (id : Option LogId) : (id.map toProtoLogId).map convertLogId = id := by
  cases id <;> rfl

theorem doInstallSnapshot_single (codec : Codec) (req : InstallSnapshotRequest) :
    doInstallSnapshot codec [toProtoInstallSnapshot codec req] = .ok (flattened req) := by
  simp only [doInstallSnapshot, gather, toProtoInstallSnapshot, convertInstallSnapshotRequest,
    codec.json_lossless, convertVote_toProtoVote, map_convertLogId, List.nil_append]
  rfl

/-- The message of the request fits a frame. -/
def Fits (codec : Codec) (req : InstallSnapshotRequest) : Prop :=
  (codec.encode (toProtoInstallSnapshot codec req)).length < 2 ^ 32

theorem present_of_fits {codec : Codec} {req : InstallSnapshotRequest} (fits : Fits codec req) :
    present codec req = .ok (flattened req) := by
  have framed : frame (codec.encode (toProtoInstallSnapshot codec req)) = .ok _ := if_pos fits
  simp only [present, framed, bind, Except.bind, parseStreamingFrames_frame framed]
  exact doInstallSnapshot_single codec req

theorem present_of_not_fits {codec : Codec} {req : InstallSnapshotRequest}
    (long : ¬ Fits codec req) : ∃ e, present codec req = .error e := by
  have framed : frame (codec.encode (toProtoInstallSnapshot codec req)) = .error _ := if_neg long
  simp only [present, framed, bind, Except.bind]
  exact ⟨_, rfl⟩

/-- One request arrives as it was sent exactly when it is a whole snapshot. -/
theorem present_eq_iff {codec : Codec} {req : InstallSnapshotRequest} :
    present codec req = .ok req ↔
      req.offset = 0 ∧ req.done = true ∧ req.vote.votedFor.isSome = true ∧ Fits codec req := by
  by_cases fits : Fits codec req
  · rw [present_of_fits fits]
    obtain ⟨⟨term, votedFor, committed⟩, info, offset, data, done⟩ := req
    cases votedFor <;> simp [flattened, fits, eq_comm]
  · obtain ⟨e, failed⟩ := present_of_not_fits fits
    simp [failed, fits]

/-- The requests of a transfer that succeeds are presented one by one. -/
theorem transfer_cons {codec : Codec} {req : InstallSnapshotRequest}
    {reqs : List InstallSnapshotRequest} :
    transfer codec (req :: reqs) = .ok (req :: reqs) ↔
      present codec req = .ok req ∧ transfer codec reqs = .ok reqs := by
  unfold transfer
  rw [List.mapM_cons]
  cases present codec req with
  | error e => simp [bind, Except.bind]
  | ok r =>
    cases reqs.mapM (present codec) with
    | error e => simp [bind, Except.bind]
    | ok rs => simp [bind, Except.bind, pure, Except.pure]

/-- **Snapshot transfer.** However a snapshot is split, the receiving Raft is presented with the
requests that were sent exactly when there is one chunk only, the vote names a node and the
message fits a frame. -/
theorem snapshot_transfer_iff (codec : Codec) (vote : Vote) (info : SnapshotMeta) (piece : Bytes)
    (rest : List Bytes) :
    transfer codec (chunks vote info 0 piece rest) = .ok (chunks vote info 0 piece rest) ↔
      rest = [] ∧ vote.votedFor.isSome = true ∧ Fits codec ⟨vote, info, 0, piece, true⟩ := by
  cases rest with
  | nil =>
    have none_left : transfer codec [] = .ok [] := rfl
    simp only [chunks, transfer_cons, present_eq_iff, none_left, true_and, and_true]
  | cons next rest =>
    -- the first of several chunks is not the last, and arrives as if it were
    simp only [chunks, transfer_cons, present_eq_iff, Bool.false_eq_true, false_and, and_false,
      reduceCtorEq]

/-! ## A sample -/

instance countableByte : Countable UInt8 :=
  Function.Injective.countable (f := UInt8.toNat) fun _ _ same => UInt8.toNat_inj.1 same

instance countableChar : Countable Char :=
  Function.Injective.countable (f := Char.toNat) fun _ _ same => Char.toNat_inj.1 same

instance countableString : Countable String :=
  Function.Injective.countable (f := String.toList) fun _ _ same => String.toList_inj.1 same

deriving instance Countable for Metadata.LeaderId, Metadata.LogId, SaveNode,
  Metadata.Membership, StoredMembership, Proto.Vote, Proto.LogId, Proto.Membership, Proto.SnapshotMeta,
  Proto.InstallSnapshotRequest

/-- Whatever is countable can be written as bytes and read back. -/
theorem exists_lossless (α : Type) [Countable α] [Nonempty α] :
    ∃ (write : α → Bytes) (read : Bytes → Except String α), ∀ a, read (write a) = .ok a := by
  obtain ⟨number, inj⟩ := exists_injective_nat α
  refine ⟨fun a => List.replicate (number a) 0, fun b => .ok (Function.invFun number b.length), ?_⟩
  intro a
  simp only [List.length_replicate, Function.leftInverse_invFun inj a]

theorem find?_of_nodup_map {α β : Type} [DecidableEq β] {f : α → β} {l : List α}
    (distinct : (l.map f).Nodup) {e : α} (member : e ∈ l) :
    l.find? (fun e' => decide (f e' = f e)) = some e := by
  have some : (l.find? fun e' => decide (f e' = f e)).isSome :=
    List.find?_isSome.2 ⟨e, member, decide_eq_true rfl⟩
  obtain ⟨e', there⟩ := Option.isSome_iff_exists.1 some
  have same : f e' = f e := by simpa using List.find?_some there
  rw [there, List.inj_on_of_nodup_map distinct (List.mem_of_find?_eq_some there) member same]

/-- The same, with the bytes of some values given. -/
theorem exists_lossless_on {α : Type} [Countable α] [Nonempty α] [DecidableEq α]
    (known : List (α × Bytes)) (values : (known.map Prod.fst).Nodup) (texts : (known.map Prod.snd).Nodup)
    (plain : ∀ e ∈ known, ∃ b ∈ e.2, b ≠ 0) :
    ∃ (write : α → Bytes) (read : Bytes → Except String α),
      (∀ e ∈ known, write e.1 = e.2) ∧ ∀ a, read (write a) = .ok a := by
  obtain ⟨number, inj⟩ := exists_injective_nat α
  let write : α → Bytes := fun a => ((known.find? fun e => e.1 = a).map Prod.snd).getD
    (List.replicate (number a) 0)
  let read : Bytes → Except String α := fun b => .ok (((known.find? fun e => e.2 = b).map Prod.fst).getD
    (Function.invFun number b.length))
  have written : ∀ e ∈ known, write e.1 = e.2 := by
    intro e member
    simp only [write, find?_of_nodup_map values member, Option.map_some, Option.getD_some]
  refine ⟨write, read, written, fun a => ?_⟩
  cases found : known.find? (fun e => e.1 = a) with
  | none =>
    have zeros : write a = List.replicate (number a) 0 := by simp only [write, found, Option.map_none,
      Option.getD_none]
    have unknown : known.find? (fun e => e.2 = List.replicate (number a) 0) = none := by
      rw [List.find?_eq_none]
      intro e member same
      obtain ⟨b, there, other⟩ := plain e member
      rw [of_decide_eq_true same] at there
      exact other (List.eq_of_mem_replicate there)
    rw [zeros]
    simp only [read, unknown, Option.map_none, Option.getD_none, List.length_replicate,
      Function.leftInverse_invFun inj a]
  | some e =>
    have member := List.mem_of_find?_eq_some found
    obtain rfl : e.1 = a := by simpa using List.find?_some found
    rw [written e member]
    simp only [read, find?_of_nodup_map texts member, Option.map_some, Option.getD_some]

theorem codec_nonempty : Nonempty Codec := by
  have : Nonempty StoredMembership := ⟨.default⟩
  have : Nonempty Proto.InstallSnapshotRequest := ⟨⟨none, none, 0, [], true⟩⟩
  obtain ⟨json, fromJson, json_lossless⟩ := exists_lossless StoredMembership
  obtain ⟨encode, decode, lossless⟩ := exists_lossless Proto.InstallSnapshotRequest
  exact ⟨⟨json, fromJson, encode, decode, json_lossless, lossless⟩⟩

/-- A snapshot of two bytes in two chunks, as sent by leader 1 of term 3. -/
def twoChunks : List InstallSnapshotRequest :=
  chunks ⟨3, some 1, true⟩ ⟨some ⟨3, 7⟩, StoredMembership.default, "7-0"⟩ 0 [1] [[2]]

theorem two_chunks_not_presented :
    Nonempty Codec ∧ ¬ ∃ codec : Codec, transfer codec twoChunks = .ok twoChunks := by
  refine ⟨codec_nonempty, ?_⟩
  rintro ⟨codec, same⟩
  have first := present_eq_iff.1 (transfer_cons.1 same).1
  exact absurd first.2.1 (by decide)

end Save.Rpc
