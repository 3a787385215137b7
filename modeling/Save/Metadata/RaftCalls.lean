import Save.Lib.Calls
import Save.Metadata.Framing
import Save.Metadata.RaftCodec

/-!
# Raft behind its calls

`RaftRpcClient` (`raft/rpc.rs`) sends a request of openraft as one message in a
frame, over a connection that it keeps until a transport error, and reads the answer
as the message of its method; the server of the peer (`raft/server.rs`) finds the
method by its path and gives the request to the openraft of the peer, which is a
parameter. A call is not tried again. `raft_calls_direct`: the peer's openraft is
where direct calls would have taken it, each with what is left of a request by
`arrived`, and a caller sees what is left of the answer by `seen`.
-/

namespace Save.Rpc
set_option autoImplicit false
open Save.Files Save.Run Save.Delivery Save.Calling

variable {W E α β γ : Type}

/-! ## The peer -/

inductive RaftRequest where
  | append (req : AppendEntriesRequest)
  | vote (req : VoteRequest)
  | install (req : InstallSnapshotRequest)
  deriving DecidableEq, Repr

inductive RaftResponse where
  | append (resp : AppendEntriesResponse)
  | vote (resp : VoteResponse)
  | install (resp : InstallSnapshotResponse)
  deriving DecidableEq, Repr

/-- The openraft of a peer: its three calls, an error with its text, and what it does on its own. -/
structure Raft (W E : Type) where
  appendEntries : W → AppendEntriesRequest → W × Except String AppendEntriesResponse
  vote : W → VoteRequest → W × Except String VoteResponse
  installSnapshot : W → InstallSnapshotRequest → W × Except String InstallSnapshotResponse
  step : W → E → Option W

/-- `prost` and `serde_json` for the messages. -/
structure RaftWire where
  payload : PayloadJson
  appendRequest : MessageCodec Proto.AppendEntriesRequest
  appendResponse : MessageCodec Proto.AppendEntriesResponse
  voteRequest : MessageCodec Proto.VoteRequest
  voteResponse : MessageCodec Proto.VoteResponse
  snapshot : Codec
  installResponse : MessageCodec Proto.InstallSnapshotResponse

/-- `tonic::Code`, but for `Ok`. -/
inductive Code where
  | cancelled | unknown | invalidArgument | deadlineExceeded | notFound | alreadyExists
  | permissionDenied | resourceExhausted | failedPrecondition | aborted | outOfRange
  | unimplemented | internal | unavailable | dataLoss | unauthenticated
  deriving DecidableEq, Repr

/-- A `tonic::Status` with any code. -/
structure TonicStatus where
  code : Code
  message : String
  deriving DecidableEq, Repr

def Status.toTonic : Status → TonicStatus
  | .invalidArgument msg => ⟨.invalidArgument, msg⟩
  | .resourceExhausted msg => ⟨.resourceExhausted, msg⟩
  | .internal msg => ⟨.internal, msg⟩

/-- The methods of `RaftRpcServer`: the request as openraft has it, its call, the message of its
response. -/
def rpcServer (w : W) (req : Except Status α) (act : W → α → W × Except String β) (write : β → γ) :
    W × Except Status γ :=
  match req with
  | .error status => (w, .error status)
  | .ok req => ((act w req).1, ((act w req).2.mapError .internal).map write)

/-- A handler with one frame for its request. -/
def handleFrame (request : MessageCodec α) (act : α → W × Except Status β) (response : MessageCodec β)
    (w : W) (body : Bytes) : W × Except TonicStatus Bytes :=
  match parseGrpcFrame body with
  | none => (w, .error ⟨.internal, ""⟩)
  | some (.error status) => (w, .error status.toTonic)
  | some (.ok data) =>
    match request.decode data with
    | .error e => (w, .error ⟨.invalidArgument, e⟩)
    | .ok req => ((act req).1, ((act req).2.mapError Status.toTonic).map (createGrpcResponse response))

section Server
variable (raft : Raft W E) (wire : RaftWire) (w : W) (body : Bytes)

def RaftRpcServer.appendEntries (req : Proto.AppendEntriesRequest) :
    W × Except Status Proto.AppendEntriesResponse :=
  rpcServer w (convertAppendEntriesRequest wire.payload req) raft.appendEntries convertAppendEntriesResponse

def RaftRpcServer.vote (req : Proto.VoteRequest) : W × Except Status Proto.VoteResponse :=
  rpcServer w (convertVoteRequest req) raft.vote convertVoteResponse

def RaftRpcServer.installSnapshotFromFrames (frames : List Proto.InstallSnapshotRequest) :
    W × Except Status Proto.InstallSnapshotResponse :=
  rpcServer w (doInstallSnapshot wire.snapshot frames) raft.installSnapshot convertInstallSnapshotResponse

def handleAppendEntries : W × Except TonicStatus Bytes :=
  handleFrame wire.appendRequest (RaftRpcServer.appendEntries raft wire w) wire.appendResponse w body

def handleVote : W × Except TonicStatus Bytes :=
  handleFrame wire.voteRequest (RaftRpcServer.vote raft w) wire.voteResponse w body

def handleInstallSnapshot : W × Except TonicStatus Bytes :=
  match parseStreamingFrames wire.snapshot body with
  | .error status => (w, .error status.toTonic)
  | .ok frames =>
    ((RaftRpcServer.installSnapshotFromFrames raft wire w frames).1,
      ((RaftRpcServer.installSnapshotFromFrames raft wire w frames).2.mapError Status.toTonic).map
        (createGrpcResponse wire.installResponse))

/-- `call` of `RaftRpcServiceServer`: the handler by the path. -/
def raftCall (path : String) : W × Except TonicStatus Bytes :=
  if path = "/raft.RaftRpc/AppendEntries" then handleAppendEntries raft wire w body
  else if path = "/raft.RaftRpc/Vote" then handleVote raft wire w body
  else if path = "/raft.RaftRpc/InstallSnapshot" then handleInstallSnapshot raft wire w body
  else (w, .error ⟨.unimplemented, "unknown method"⟩)

end Server

/-! ## The client -/

/-- `is_transport_error`: told by the code. -/
def isTransportError (status : TonicStatus) : Bool :=
  match status.code with
  | .unavailable | .cancelled | .deadlineExceeded | .aborted => true
  | _ => false

def RaftRequest.path : RaftRequest → String
  | .append _ => "/raft.RaftRpc/AppendEntries"
  | .vote _ => "/raft.RaftRpc/Vote"
  | .install _ => "/raft.RaftRpc/InstallSnapshot"

def RaftRequest.message (wire : RaftWire) : RaftRequest → Except Status Bytes
  | .append req => (toProtoAppendEntriesRequest wire.payload req).map wire.appendRequest.encode
  | .vote req => .ok (wire.voteRequest.encode (toProtoVoteRequest req))
  | .install req => .ok (wire.snapshot.encode (toProtoInstallSnapshot wire.snapshot req))

def RaftRequest.framed (wire : RaftWire) (q : RaftRequest) : Except Status Bytes := do
  let msg ← q.message wire
  frame msg

/-- The message of a response, and what it converts to. -/
def readWith (codec : MessageCodec α) (convert : α → Except Status β) (msg : Bytes) :
    Except TonicStatus β :=
  match codec.decode msg with
  | .error e => .error ⟨.internal, e⟩
  | .ok m => (convert m).mapError Status.toTonic

def RaftRequest.read (wire : RaftWire) : RaftRequest → Bytes → Except TonicStatus RaftResponse
  | .append _, msg => (readWith wire.appendResponse convertProtoAppendEntriesResponse msg).map .append
  | .vote _, msg => (readWith wire.voteResponse convertProtoVoteResponse msg).map .vote
  | .install _, msg => (readWith wire.installResponse convertProtoInstallSnapshotResponse msg).map .install

/-- The client takes the message out of the frame. -/
def readAnswer (wire : RaftWire) (q : RaftRequest) :
    Except TonicStatus Bytes → Except TonicStatus RaftResponse
  | .error status => .error status
  | .ok body =>
    match parseGrpcFrame body with
    | some (.ok msg) => q.read wire msg
    | some (.error status) => .error status.toTonic
    | none => .error ⟨.internal, ""⟩

/-- A request that cannot be framed does not reach the peer. -/
def serve (raft : Raft W E) (wire : RaftWire) (w : W) (q : RaftRequest) : W × Except TonicStatus Bytes :=
  match q.framed wire with
  | .error status => (w, .error status.toTonic)
  | .ok body => raftCall raft wire w body q.path

/-- `RaftRpcClient` for the peer: a call fails with its first error. -/
def raftPeer (raft : Raft W E) (wire : RaftWire) :
    Endpoint (Desk W (Except TonicStatus Bytes)) E RaftRequest (Except TonicStatus Bytes) RaftResponse
      TonicStatus :=
  ⟨.atomic (serve raft wire) raft.step, 0, readAnswer wire, isTransportError, ⟨.internal, ""⟩, rfl⟩

/-! ## What direct calls would do -/

/-- A vote that names no node arrives as one for node 0. -/
def Vote.named (v : Vote) : Vote := { v with votedFor := some (v.votedFor.getD 0) }

def RaftRequest.arrived : RaftRequest → RaftRequest
  | .append req => .append { req with vote := req.vote.named }
  | .vote req => .vote { req with vote := req.vote.named }
  | .install req => .install (flattened req)

/-- What a caller is told of a response: not which entries are missing. -/
def RaftResponse.seen : RaftResponse → RaftResponse
  | .append .success => .append .success
  | .append (.partialSuccess _) => .append .success
  | .append (.higherVote v) => .append (.higherVote v.named)
  | .append .conflict => .append .conflict
  | .vote resp => .vote { resp with vote := resp.vote.named }
  | .install resp => .install ⟨resp.vote.named⟩

def RaftResponse.message (wire : RaftWire) : RaftResponse → Bytes
  | .append resp => wire.appendResponse.encode (convertAppendEntriesResponse resp)
  | .vote resp => wire.voteResponse.encode (convertVoteResponse resp)
  | .install resp => wire.installResponse.encode (convertInstallSnapshotResponse resp)

def Raft.answer (raft : Raft W E) (w : W) : RaftRequest → W × Except String RaftResponse
  | .append req => ((raft.appendEntries w req).1, (raft.appendEntries w req).2.map .append)
  | .vote req => ((raft.vote w req).1, (raft.vote w req).2.map .vote)
  | .install req => ((raft.installSnapshot w req).1, (raft.installSnapshot w req).2.map .install)

/-- openraft without a transport: its own steps and direct calls. -/
def Raft.direct (raft : Raft W E) (w : W) : E ⊕ RaftRequest → Option W
  | .inl e => raft.step w e
  | .inr q => some (raft.answer w q).1

/-- What the peer's openraft sees of a happening. -/
def presented (wire : RaftWire) :
    Happening E RaftRequest (Except TonicStatus Bytes) → Option (E ⊕ RaftRequest)
  | .took _ q => (q.framed wire).toOption.map fun _ => .inr q.arrived
  | .stepped e => some (.inl e)
  | .answered _ _ => none

/-- What the caller has got is left of what openraft answered to its request, in the state that
direct calls of all that came before lead to. -/
def Heard (raft : Raft W E) (wire : RaftWire) (w : W)
    (log : List (Happening E RaftRequest (Except TonicStatus Bytes))) (slip : Slip) (q : RaftRequest)
    (reply : RaftResponse) : Prop :=
  ∃ before after w' resp, log = before ++ .took slip q :: after ∧
    exec raft.direct w (before.filterMap (presented wire)) = some w' ∧
    (raft.answer w' q.arrived).2 = .ok resp ∧ ((resp.message wire).length < 2 ^ 32 → reply = resp.seen)

/-! ## Through the frames -/

section Frames
variable {raft : Raft W E} {wire : RaftWire} {q : RaftRequest} {w : W}

theorem append_arrives (json : PayloadJson) (r : AppendEntriesRequest) :
    ∃ m, toProtoAppendEntriesRequest json r = .ok m ∧
      convertAppendEntriesRequest json m = .ok { r with vote := r.vote.named } := by
  obtain ⟨ms, written, read⟩ := toProtoEntries_ok json r.entries
  refine ⟨⟨some (toProtoVote r.vote), r.prevLogId.map toProtoLogId, ms, r.leaderCommit.map toProtoLogId⟩,
    ?_, ?_⟩
  · rw [toProtoAppendEntriesRequest, written]
    rfl
  · simp only [convertAppendEntriesRequest, read, required, bind, Except.bind, pure, Except.pure,
      map_convertLogId, convertVote_toProtoVote]
    rfl

theorem vote_arrives (r : VoteRequest) :
    convertVoteRequest (toProtoVoteRequest r) = .ok { r with vote := r.vote.named } := by
  simp only [toProtoVoteRequest, convertVoteRequest, required, bind, Except.bind, pure, Except.pure,
    map_convertLogId, convertVote_toProtoVote]
  rfl

theorem handleFrame_frame {request : MessageCodec α} {act : α → W × Except Status β}
    {response : MessageCodec β} {req : α} (small : (request.encode req).length < 2 ^ 32) :
    handleFrame request act response w (grpcFrame (request.encode req)) =
      ((act req).1, ((act req).2.mapError Status.toTonic).map (createGrpcResponse response)) := by
  rw [handleFrame, parseGrpcFrame_grpcFrame small]
  simp only [request.lossless]

/-- The two conversions behind a call are one. -/
theorem respond_map (out : Except String α) (write : α → β) (response : MessageCodec β)
    (wrap : α → RaftResponse) (same : ∀ a, (wrap a).message wire = response.encode (write a)) :
    (((out.mapError Status.internal).map write).mapError Status.toTonic).map (createGrpcResponse response) =
      ((out.map wrap).mapError fun e => (⟨.internal, e⟩ : TonicStatus)).map
        fun resp => grpcFrame (resp.message wire) := by
  cases out with
  | error e => rfl
  | ok a => exact congrArg Except.ok (congrArg grpcFrame (same a)).symm

/-- A message that fits is framed as it is. -/
theorem framed_ok {msg body : Bytes} (message : q.message wire = .ok msg)
    (framed : q.framed wire = .ok body) : msg.length < 2 ^ 32 ∧ body = grpcFrame msg := by
  have fits : frame msg = .ok body := by
    rw [← framed, RaftRequest.framed, message]
    rfl
  by_cases small : msg.length < 2 ^ 32
  · rw [frame_small small] at fits
    cases fits
    exact ⟨small, rfl⟩
  · rw [frame, if_neg small] at fits
    cases fits

/-- What is framed arrives, and openraft's answer is sent back. -/
theorem serve_framed {body : Bytes} (framed : q.framed wire = .ok body) :
    serve raft wire w q = ((raft.answer w q.arrived).1,
      ((raft.answer w q.arrived).2.mapError fun e => ⟨.internal, e⟩).map
        fun resp => grpcFrame (resp.message wire)) := by
  simp only [serve, framed]
  cases q with
  | append req =>
    obtain ⟨m, written, read⟩ := append_arrives wire.payload req
    have message : (RaftRequest.append req).message wire = .ok (wire.appendRequest.encode m) := by
      rw [RaftRequest.message, written]
      rfl
    obtain ⟨small, rfl⟩ := framed_ok message framed
    simp only [raftCall, RaftRequest.path, if_true, handleAppendEntries, handleFrame_frame small,
      RaftRpcServer.appendEntries, rpcServer, read, RaftRequest.arrived, Raft.answer]
    exact Prod.ext rfl (respond_map _ _ _ _ fun _ => rfl)
  | vote req =>
    obtain ⟨small, rfl⟩ := framed_ok rfl framed
    simp only [raftCall, RaftRequest.path, String.reduceEq, if_true, if_false, handleVote,
      handleFrame_frame small, RaftRpcServer.vote, rpcServer, vote_arrives, RaftRequest.arrived, Raft.answer]
    exact Prod.ext rfl (respond_map _ _ _ _ fun _ => rfl)
  | install req =>
    have message : frame (wire.snapshot.encode (toProtoInstallSnapshot wire.snapshot req)) = .ok body := framed
    simp only [raftCall, RaftRequest.path, String.reduceEq, if_true, if_false, handleInstallSnapshot,
      parseStreamingFrames_frame message, RaftRpcServer.installSnapshotFromFrames, rpcServer,
      doInstallSnapshot_single, RaftRequest.arrived, Raft.answer]
    exact Prod.ext rfl (respond_map _ _ _ _ fun _ => rfl)

theorem exists_of_map {out : Except String α} {f : α → β} {b : β} (mapped : out.map f = .ok b) :
    ∃ a, f a = b := by
  cases out with
  | error e => cases mapped
  | ok a => exact ⟨a, Except.ok.inj mapped⟩

/-- The caller is told what is left of the answer. -/
theorem readAnswer_seen {resp : RaftResponse} (answered : (raft.answer w q.arrived).2 = .ok resp)
    (small : (resp.message wire).length < 2 ^ 32) :
    readAnswer wire q (.ok (grpcFrame (resp.message wire))) = .ok resp.seen := by
  rw [readAnswer, parseGrpcFrame_grpcFrame small]
  cases q with
  | append req =>
    obtain ⟨r, rfl⟩ := exists_of_map answered
    simp only [RaftRequest.read, RaftResponse.message, readWith, wire.appendResponse.lossless]
    cases r with
    | higherVote vote =>
      simp only [convertAppendEntriesResponse, convertProtoAppendEntriesResponse, convertVote_toProtoVote]
      rfl
    | _ => rfl
  | vote req =>
    obtain ⟨r, rfl⟩ := exists_of_map answered
    simp only [RaftRequest.read, RaftResponse.message, readWith, wire.voteResponse.lossless,
      convertVoteResponse, convertProtoVoteResponse, required, bind, Except.bind, convertVote_toProtoVote, map_convertLogId]
    rfl
  | install req =>
    obtain ⟨r, rfl⟩ := exists_of_map answered
    simp only [RaftRequest.read, RaftResponse.message, readWith, wire.installResponse.lossless,
      convertInstallSnapshotResponse, convertProtoInstallSnapshotResponse, required, bind, Except.bind,
      convertVote_toProtoVote]
    rfl

/-! ## Runs -/

theorem serve_state : (serve raft wire w q).1 =
    ((q.framed wire).toOption.map fun _ => (raft.answer w q.arrived).1).getD w := by
  cases framed : q.framed wire with
  | error status => simp only [serve, framed, Except.toOption, Option.map_none, Option.getD_none]
  | ok body => simp only [serve_framed framed, Except.toOption, Option.map_some, Option.getD_some]

/-- The peer's openraft goes as direct calls would take it. -/
theorem direct_of_happen {log : List (Happening E RaftRequest (Except TonicStatus Bytes))}
    {desk desk' : Desk W (Except TonicStatus Bytes)}
    (ran : exec (Server.atomic (serve raft wire) raft.step).happen desk log = some desk') :
    exec raft.direct desk.state (log.filterMap (presented wire)) = some desk'.state := by
  induction log generalizing desk with
  | nil =>
    cases ran
    rfl
  | cons h log ih =>
    obtain ⟨mid, happened, rest⟩ := exec_cons.1 ran
    have later := ih rest
    cases h with
    | took slip q =>
      cases happened
      have here : (Server.atomic (serve raft wire) raft.step).take desk slip q =
        ⟨(serve raft wire desk.state q).1, _⟩ := rfl
      rw [here, serve_state] at later
      rw [List.filterMap_cons, presented]
      cases framed : q.framed wire with
      | error status =>
        rw [framed] at later
        exact later
      | ok body =>
        rw [framed] at later
        exact exec_cons.2 ⟨_, rfl, later⟩
    | stepped e =>
      obtain ⟨state, moved, rfl⟩ := Option.map_eq_some_iff.1 happened
      exact exec_cons.2 ⟨state, moved, later⟩
    | answered slip a =>
      simp only [Server.happen, Option.ite_none_right_eq_some, Option.some.injEq] at happened
      obtain ⟨-, rfl⟩ := happened
      exact later

end Frames

/-- **Direct calls.** In every run of any number of clients of a peer and their calls, over a network
that loses and delays what it likes, while the peer's openraft goes on by itself: it is where direct
calls of what arrived would have taken it; each request is from a call and is presented at most once,
also after the caller has stopped waiting; what a call returns is what is left of the answer that
openraft gave to its request; and no call is stuck. -/
theorem raft_calls_direct (raft : Raft W E) (wire : RaftWire) (w : W)
    {es : List (CallEvent E RaftRequest TonicStatus)}
    {sys : Calls (Desk W (Except TonicStatus Bytes)) E RaftRequest (Except TonicStatus Bytes) RaftResponse
      TonicStatus}
    (ran : exec (Calls.step (raftPeer raft wire)) (.start (.start w)) es = some sys) :
    exec raft.direct w (sys.net.log.filterMap (presented wire)) = some sys.net.server.state ∧
      (∀ slip q, .took slip q ∈ sys.net.log → ∃ c, sys.calls slip.caller = some c ∧ q = c.request) ∧
      ∀ i c, sys.calls i = some c → (executions i sys.net.log).length ≤ 1 ∧
        (∀ reply, c.stage = .returned (.ok reply) →
          Heard raft wire w sys.net.log ⟨i, c.attempt⟩ c.request reply) ∧
        (c.stage ≠ .dropped → sys.CanReturn (raftPeer raft wire) i) := by
  have sound := calls_sound ran
  refine ⟨direct_of_happen sound.net.ran, fun slip q member => ?_, fun i c there => ?_⟩
  · obtain ⟨c, there⟩ := sound.known (slip, q) (List.mem_append_right _ (mem_takings.2 member))
    exact ⟨c, there, (sound.kept there).request slip q member rfl⟩
  · have kept := sound.kept there
    obtain ⟨executed, attempts⟩ := kept.bounded
    have once : c.attempt = 0 := Nat.le_zero.1 attempts
    refine ⟨by omega, fun reply returned => ?_, kept.returns⟩
    obtain ⟨-, a, given, read⟩ := kept.ok reply returned
    obtain ⟨before, q, after, desk, log, reached, served⟩ := Net.Sound.served sound.net given
    have took : .took ⟨i, c.attempt⟩ q ∈ sys.net.log := by
      rw [log]
      simp
    have own : q = c.request := kept.request _ q took rfl
    subst own
    have direct := direct_of_happen reached
    cases framed : c.request.framed wire with
    | error status =>
      -- the call has failed before anything was sent
      simp only [serve, framed] at served
      subst served
      cases read
    | ok body =>
      rw [serve_framed framed] at served
      cases answer : (raft.answer desk.state c.request.arrived).2 with
      | error e =>
        simp only [answer] at served
        subst served
        cases read
      | ok resp =>
        refine ⟨before, after, desk.state, resp, log, direct, answer, fun small => ?_⟩
        simp only [answer] at served
        subst served
        have back := readAnswer_seen answer small
        exact Except.ok.inj (read.symm.trans back)

/-! ## A sample -/

section Sample

deriving instance Countable for Proto.LogEntry, Proto.AppendEntriesRequest, Proto.VoteRequest,
  Proto.AppendEntriesResponse, Proto.VoteResponse, Proto.InstallSnapshotResponse

/-- A candidate of term 4, and its vote as the peer is asked for it. -/
def sampleVote : VoteRequest := ⟨⟨4, some 2, false⟩, none⟩

/-- A peer that has seen no term above its state, and grants its vote. -/
def granting : Raft Nat Unit where
  appendEntries term req := (max term req.vote.term, .ok .conflict)
  vote term req := (max term req.vote.term, .ok ⟨req.vote, true, none⟩)
  installSnapshot term req := (max term req.vote.term, .error "no snapshot")
  step term _ := some term

/-- The request and the response of a granted vote as `prost` writes them. -/
theorem exists_raftWire : ∃ wire : RaftWire,
    wire.voteRequest.encode (toProtoVoteRequest sampleVote) = [10, 4, 8, 4, 16, 2] ∧
      wire.voteResponse.encode (convertVoteResponse ⟨sampleVote.vote, true, none⟩) =
        [10, 4, 8, 4, 16, 2, 16, 1] := by
  have : Nonempty Metadata.EntryPayload := ⟨.blank⟩
  obtain ⟨write, read, lossless⟩ := exists_lossless Metadata.EntryPayload
  obtain ⟨appendRequest, -⟩ := exists_codec (⟨none, none, [], none⟩ : Proto.AppendEntriesRequest) [1] (by simp)
  obtain ⟨appendResponse, -⟩ := exists_codec (⟨none, true, none⟩ : Proto.AppendEntriesResponse) [1] (by simp)
  obtain ⟨voteRequest, request⟩ := exists_codec (toProtoVoteRequest sampleVote) [10, 4, 8, 4, 16, 2] (by simp)
  obtain ⟨voteResponse, response⟩ := exists_codec (convertVoteResponse ⟨sampleVote.vote, true, none⟩)
    [10, 4, 8, 4, 16, 2, 16, 1] (by simp)
  obtain ⟨installResponse, -⟩ := exists_codec (⟨none⟩ : Proto.InstallSnapshotResponse) [1] (by simp)
  obtain ⟨snapshot⟩ := codec_nonempty
  exact ⟨⟨⟨fun p => .ok (write p), read, lossless⟩, appendRequest, appendResponse, voteRequest, voteResponse,
    snapshot, installResponse⟩, request, response⟩

/-- One call for a vote, up to its answer, and one that is given up while its request is under way. -/
def sampleVotes : List (CallEvent Unit RaftRequest TonicStatus) :=
  [.call 0 (.vote sampleVote), .look 0, .lock 0, .connect 0 none, .ready 0 none, .call 0 (.vote sampleVote),
    .look 1, .ready 1 none, .net (.take 0), .drop 1, .net (.take 0), .net (.answer ⟨0, 0⟩)]

theorem raft_calls_sample :
    ∃ (wire : RaftWire) (log : List (Happening Unit RaftRequest (Except TonicStatus Bytes))),
      log.filterMap (presented wire) = [.inr (.vote sampleVote), .inr (.vote sampleVote)] ∧
        Heard granting wire 3 log ⟨0, 0⟩ (.vote sampleVote) (.vote ⟨sampleVote.vote, true, none⟩) := by
  obtain ⟨wire, request, response⟩ := exists_raftWire
  have framed : (RaftRequest.vote sampleVote).framed wire = .ok (grpcFrame [10, 4, 8, 4, 16, 2]) := by
    show frame (wire.voteRequest.encode (toProtoVoteRequest sampleVote)) = _
    rw [request]
    exact frame_small (by decide)
  let p := raftPeer granting wire
  obtain ⟨t, ran, there, log⟩ : ∃ t, exec (Calls.step p) (.start (.start 3)) sampleVotes = some t ∧
      t.calls 0 = some ⟨0, .vote sampleVote, 0, none, .waiting 1⟩ ∧
      t.net.log = [.took ⟨0, 0⟩ (.vote sampleVote), .took ⟨1, 0⟩ (.vote sampleVote),
        .answered ⟨0, 0⟩ (serve granting wire 3 (.vote sampleVote)).2] := ⟨_, rfl, rfl, rfl⟩
  have given : answerTo t.net.log ⟨0, 0⟩ = some (serve granting wire 3 (.vote sampleVote)).2 := by
    rw [log]
    rfl
  have read : p.decode (.vote sampleVote) (serve granting wire 3 (.vote sampleVote)).2 =
      .ok (.vote ⟨sampleVote.vote, true, none⟩) := by
    rw [serve_framed framed]
    have answered : (granting.answer 3 (RaftRequest.vote sampleVote).arrived).2 =
      .ok (.vote ⟨sampleVote.vote, true, none⟩) := rfl
    have small : ((RaftResponse.vote ⟨sampleVote.vote, true, none⟩).message wire).length < 2 ^ 32 := by
      rw [RaftResponse.message, response]
      decide
    exact readAnswer_seen answered small
  let back : Call RaftRequest RaftResponse TonicStatus :=
    ⟨0, .vote sampleVote, 0, none, .returned (.ok (.vote ⟨sampleVote.vote, true, none⟩))⟩
  have last : t.step p (.answer 0) = some (t.put 0 back) := by
    simp only [Calls.step, there, given, read, back]
  have whole : exec (Calls.step p) (.start (.start 3)) (sampleVotes ++ [.answer 0]) =
      some (t.put 0 back) := by
    rw [exec_append, ran]
    exact exec_cons.2 ⟨_, last, rfl⟩
  have now : (t.put 0 back).calls 0 = some back := by
    simp [Calls.put]
  refine ⟨wire, t.net.log, ?_, ((raft_calls_direct granting wire 3 whole).2.2 0 _ now).2.1 _ rfl⟩
  rw [log]
  simp only [List.filterMap_cons, presented, framed, Except.toOption, Option.map_some, List.filterMap_nil]
  rfl

end Sample

end Save.Rpc
