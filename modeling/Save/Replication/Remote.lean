import Save.Replication.Calls
import Save.Replication.Redelivery
import Save.Replication.Deletes
import Save.Replication.Streaming
import Save.Replication.Reader
import Save.Metadata.Framing

/-!
# A participant behind its calls

The gRPC server of `ReplicationService` takes a request apart by its path and
its frame and answers with a frame; the client reads the answer as the message
of its method. Requests run alone, in the order in which they arrive. What the
client functions return is then what the functions of the service returned, in
the state in which the participant was when it ran the last attempt:
`remote_results`.
-/

namespace Save.Replication
set_option autoImplicit false
open Save.Text Save.Kv Save.Common Save.Files Save.Storage Save.Run Save.Delivery Save.Calling Save.Rpc

variable [Sha256] {s : ObjectStorage}

/-! ## The services -/

structure WriteRequest where
  key : String
  data : Bytes
  checksum : String
  requestId : Nat
  deriving DecidableEq, Repr

structure WriteResponse where
  success : Bool
  errorMessage : String
  bytesWritten : Nat
  deriving DecidableEq, Repr

/-- The request of a commit or an abort. -/
structure TempRequest where
  key : String
  tempId : String
  requestId : Nat
  deriving DecidableEq, Repr

structure DeleteRequest where
  key : String
  requestId : Nat
  deriving DecidableEq, Repr

structure ReadRequest where
  key : String
  offset : Nat
  length : Nat
  deriving DecidableEq, Repr

structure ExistsResponse where
  found : Bool
  size : Nat
  checksum : String
  deriving DecidableEq, Repr

structure HealthCheckResponse where
  status : Nat
  message : String
  uptimeSeconds : Nat
  deriving DecidableEq, Repr

/-- The counts of `GetStatsResponse`; its `disk_usage_percent` is 0. -/
structure GetStatsResponse where
  totalObjects : Nat
  totalBytes : Nat
  tempObjects : Nat
  deriving DecidableEq, Repr

/-- `write_object`: without a prepare. -/
def writeObject (svc : Service s) (req : WriteRequest) : Service s × WriteResponse :=
  if req.checksum ≠ "" ∧ Sha256.digest req.data ≠ req.checksum then
    (svc, ⟨false, checksumMismatch req.checksum (Sha256.digest req.data), 0⟩)
  else
    match s.createTempObject req.key with
    | .error e => (svc, ⟨false, e.toString, 0⟩)
    | .ok temp =>
      match (writeFile svc.fs temp.tempPath req.data).rename temp.tempPath temp.finalPath with
      | some fs => ({ svc with fs }, ⟨true, "", req.data.length⟩)
      | none =>
        ({ svc with fs := (writeFile svc.fs temp.tempPath req.data).unlink temp.tempPath },
          ⟨false, noSuchFile.toString, 0⟩)

/-- `object_exists`, with `object_info`. -/
def objectExists (svc : Service s) (key : String) : ExistsResponse :=
  match s.getObject svc.fs key with
  | .ok data => ⟨true, data.length, Sha256.digest data⟩
  | .error _ => ⟨false, 0, ""⟩

/-- `health_check`, so long after the start. -/
def healthCheck (uptime : Nat) : HealthCheckResponse := ⟨0, "", uptime⟩

def getStats (svc : Service s) : GetStatsResponse := ⟨0, 0, svc.pending.entries.length⟩

/-- `read_object`: the file in reads of 64 KiB. -/
def readWhole (svc : Service s) (key : String) : Except StorageError (List ReadObjectResponse) :=
  (s.getObject svc.fs key).map fun data => readObject ⟨data.toChunks (64 * 1024), none⟩

/-- `prost` for the messages. -/
structure Wire where
  writeRequest : MessageCodec WriteRequest
  writeResponse : MessageCodec WriteResponse
  prepareRequest : MessageCodec PrepareRequest
  prepareResponse : MessageCodec PrepareResponse
  chunk : ChunkCodec
  commitRequest : MessageCodec TempRequest
  commitResponse : MessageCodec Response
  abortRequest : MessageCodec TempRequest
  abortResponse : MessageCodec Response
  deleteRequest : MessageCodec DeleteRequest
  deleteResponse : MessageCodec DeleteResponse
  existsRequest : MessageCodec String
  existsResponse : MessageCodec ExistsResponse
  readRequest : MessageCodec ReadRequest
  readResponse : MessageCodec ReadObjectResponse
  healthResponse : MessageCodec HealthCheckResponse
  statsRequest : MessageCodec Unit
  statsResponse : MessageCodec GetStatsResponse

/-- An answer that is no message. -/
inductive Refusal where
  | status (status : Status)
  | notFound (msg : String)
  | unimplemented (msg : String)
  deriving DecidableEq, Repr

variable {α β : Type}

/-- The handlers of the server: the frame, the message, the service, the frame of the response. -/
def handleUnary (request : MessageCodec α) (response : MessageCodec β) (act : α → Service s × β)
    (svc : Service s) (body : Bytes) : Service s × Except Refusal Bytes :=
  match parseGrpcFrame body with
  | none => (svc, .error (.status (.internal "")))
  | some (.error status) => (svc, .error (.status status))
  | some (.ok data) =>
    match request.decode data with
    | .error e => (svc, .error (.status (.invalidArgument e)))
    | .ok req => ((act req).1, .ok (createGrpcResponse response (act req).2))

section Handlers
variable (wire : Wire) (svc : Service s) (now : Nat) (body : Bytes)

def handleWriteObject : Service s × Except Refusal Bytes :=
  handleUnary wire.writeRequest wire.writeResponse (writeObject svc) svc body

def handlePrepareObject : Service s × Except Refusal Bytes :=
  handleUnary wire.prepareRequest wire.prepareResponse (prepareObject svc now) svc body

def handleCommitObject : Service s × Except Refusal Bytes :=
  handleUnary wire.commitRequest wire.commitResponse (fun req => commitObject svc req.tempId) svc body

def handleAbortObject : Service s × Except Refusal Bytes :=
  handleUnary wire.abortRequest wire.abortResponse (fun req => abortObject svc req.tempId) svc body

def handleDeleteObject : Service s × Except Refusal Bytes :=
  handleUnary wire.deleteRequest wire.deleteResponse (fun req => deleteObject svc req.key) svc body

def handleObjectExists : Service s × Except Refusal Bytes :=
  handleUnary wire.existsRequest wire.existsResponse (fun key => (svc, objectExists svc key)) svc body

/-- The answer of `handle_stream_prepare_object` as a frame. -/
def handleStream : Service s × Except Refusal Bytes :=
  match handleStreamPrepareObject wire.chunk svc now body with
  | (svc, .error status) => (svc, .error (.status status))
  | (svc, .ok resp) => (svc, .ok (createGrpcResponse wire.prepareResponse resp))

def handleReadObject : Service s × Except Refusal Bytes :=
  match parseGrpcFrame body with
  | none => (svc, .error (.status (.internal "")))
  | some (.error status) => (svc, .error (.status status))
  | some (.ok data) =>
    match wire.readRequest.decode data with
    | .error e => (svc, .error (.status (.invalidArgument e)))
    | .ok req =>
      match readWhole svc req.key with
      | .ok chunks => (svc, .ok (createGrpcStreamingResponse wire.readResponse chunks))
      | .error (.notFound key) => (svc, .error (.notFound ("Object not found: " ++ key)))
      | .error e => (svc, .error (.status (.internal e.toString)))

/-- The body of a health check is not looked at. -/
def handleHealthCheck : Service s × Except Refusal Bytes :=
  (svc, .ok (createGrpcResponse wire.healthResponse (healthCheck now)))

def handleGetStats : Service s × Except Refusal Bytes :=
  handleUnary wire.statsRequest wire.statsResponse (fun _ => (svc, getStats svc)) svc body

/-- `call`: the handler by the path. -/
def call (path : String) : Service s × Except Refusal Bytes :=
  if path = "/replication.WriteReplica/WriteObject" then handleWriteObject wire svc body
  else if path = "/replication.WriteReplica/PrepareObject" then handlePrepareObject wire svc now body
  else if path = "/replication.WriteReplica/CommitObject" then handleCommitObject wire svc body
  else if path = "/replication.WriteReplica/AbortObject" then handleAbortObject wire svc body
  else if path = "/replication.WriteReplica/StreamPrepareObject" then handleStream wire svc now body
  else if path = "/replication.ReadReplica/ReadObject" then handleReadObject wire svc body
  else if path = "/replication.ReadReplica/ObjectExists" then handleObjectExists wire svc body
  else if path = "/replication.DeleteReplica/DeleteObject" then handleDeleteObject wire svc body
  else if path = "/replication.ReplicationHealth/HealthCheck" then handleHealthCheck wire svc now
  else if path = "/replication.ReplicationHealth/GetStats" then handleGetStats wire svc body
  else (svc, .error (.unimplemented "unknown method"))

end Handlers

/-! ## The client -/

/-- The calls of `ReplicationClient` that `call_unary` makes. -/
inductive UnaryRequest where
  | prepare (req : PrepareRequest)
  | commit (req : TempRequest)
  | abort (req : TempRequest)
  | delete (req : DeleteRequest)
  | lookup (key : String)
  | health
  deriving DecidableEq, Repr

inductive Reply where
  | prepared (resp : PrepareResponse)
  | committed (resp : Response)
  | aborted (resp : Response)
  | deleted (resp : DeleteResponse)
  | info (resp : ExistsResponse)
  | healthy (resp : HealthCheckResponse)
  deriving DecidableEq, Repr

def UnaryRequest.path : UnaryRequest → String
  | .prepare _ => "/replication.WriteReplica/PrepareObject"
  | .commit _ => "/replication.WriteReplica/CommitObject"
  | .abort _ => "/replication.WriteReplica/AbortObject"
  | .delete _ => "/replication.DeleteReplica/DeleteObject"
  | .lookup _ => "/replication.ReadReplica/ObjectExists"
  | .health => "/replication.ReplicationHealth/HealthCheck"

/-- `HealthCheckRequest {}` has no bytes. -/
def UnaryRequest.message (wire : Wire) : UnaryRequest → Bytes
  | .prepare req => wire.prepareRequest.encode req
  | .commit req => wire.commitRequest.encode req
  | .abort req => wire.abortRequest.encode req
  | .delete req => wire.deleteRequest.encode req
  | .lookup key => wire.existsRequest.encode key
  | .health => []

/-- The response is read as the message of the method. -/
def UnaryRequest.read (wire : Wire) : UnaryRequest → Bytes → Except String Reply
  | .prepare _, msg => (wire.prepareResponse.decode msg).map .prepared
  | .commit _, msg => (wire.commitResponse.decode msg).map .committed
  | .abort _, msg => (wire.abortResponse.decode msg).map .aborted
  | .delete _, msg => (wire.deleteResponse.decode msg).map .deleted
  | .lookup _, msg => (wire.existsResponse.decode msg).map .info
  | .health, msg => (wire.healthResponse.decode msg).map .healthy

def Reply.message (wire : Wire) : Reply → Bytes
  | .prepared resp => wire.prepareResponse.encode resp
  | .committed resp => wire.commitResponse.encode resp
  | .aborted resp => wire.abortResponse.encode resp
  | .deleted resp => wire.deleteResponse.encode resp
  | .info resp => wire.existsResponse.encode resp
  | .healthy resp => wire.healthResponse.encode resp

/-- What the service does for the request. -/
def UnaryRequest.perform (svc : Service s) (now : Nat) : UnaryRequest → Service s × Reply
  | .prepare req => ((prepareObject svc now req).1, .prepared (prepareObject svc now req).2)
  | .commit req => ((commitObject svc req.tempId).1, .committed (commitObject svc req.tempId).2)
  | .abort req => ((abortObject svc req.tempId).1, .aborted (abortObject svc req.tempId).2)
  | .delete req => ((deleteObject svc req.key).1, .deleted (deleteObject svc req.key).2)
  | .lookup key => (svc, .info (objectExists svc key))
  | .health => (svc, .healthy (healthCheck now))

/-- `prepare_object` of the client. -/
def prepareResult (resp : PrepareResponse) : Except StorageError String :=
  if resp.success then .ok resp.tempId else .error (.io resp.errorMessage)

/-- `commit_object` and `abort_object` of the client. -/
def unitResult (resp : Response) : Except StorageError Unit :=
  if resp.success then .ok () else .error (.io resp.errorMessage)

/-- `delete_object` of the client. -/
def deleteResult (resp : DeleteResponse) : Except StorageError Bool :=
  if resp.success then .ok resp.wasPresent else .error (.io resp.errorMessage)

/-! ## The two together -/

/-- A participant and the seconds since its start. -/
structure Host (s : ObjectStorage) where
  service : Service s
  now : Nat

inductive HostEvent where
  | tick (seconds : Nat)
  | cleanup (maxAge : Nat)
  | restart
  deriving DecidableEq, Repr

def Host.step (host : Host s) : HostEvent → Option (Host s)
  | .tick seconds => some { host with now := host.now + seconds }
  | .cleanup maxAge => some { host with service := (cleanupStalePrepares host.service host.now maxAge).1 }
  | .restart => some ⟨.fresh s host.service.fs, 0⟩

/-- The request arrives as a frame. -/
def Host.serve (wire : Wire) (host : Host s) (q : UnaryRequest) : Host s × Except Refusal Bytes :=
  match frame (q.message wire) with
  | .error status => (host, .error (.status status))
  | .ok body =>
    ({ host with service := (call wire host.service host.now body q.path).1 },
      (call wire host.service host.now body q.path).2)

/-- The client takes the message out of the frame; `text` is how `tonic` shows a refusal. -/
def readAnswer (wire : Wire) (text : Refusal → String) (q : UnaryRequest) :
    Except Refusal Bytes → Except String Reply
  | .error refusal => .error (text refusal)
  | .ok body =>
    match parseGrpcFrame body with
    | some (.ok msg) => q.read wire msg
    | some (.error status) => .error (text (.status status))
    | none => .error ""

/-- `ReplicationClient` for the participant. -/
def participant (s : ObjectStorage) (wire : Wire) (text : Refusal → String) (maxRetries : Nat) :
    Endpoint (Desk (Host s) (Except Refusal Bytes)) HostEvent UnaryRequest (Except Refusal Bytes) Reply String :=
  replica (.atomic (Host.serve wire) Host.step) maxRetries (readAnswer wire text)

/-! ## Through the frames -/

theorem handleUnary_frame {request : MessageCodec α} {response : MessageCodec β} {act : α → Service s × β}
    {svc : Service s} {req : α} (small : (request.encode req).length < 2 ^ 32) :
    handleUnary request response act svc (grpcFrame (request.encode req)) =
      ((act req).1, .ok (createGrpcResponse response (act req).2)) := by
  rw [handleUnary, parseGrpcFrame_grpcFrame small]
  simp only [request.lossless]

/-- What is refused changes nothing. -/
def Unchanged (svc : Service s) (run : Service s × Except Refusal Bytes) : Prop :=
  ∀ refusal, run.2 = .error refusal → run.1 = svc

theorem Unchanged.ite {svc : Service s} {c : Prop} [Decidable c] {run run' : Service s × Except Refusal Bytes}
    (first : Unchanged svc run) (second : Unchanged svc run') : Unchanged svc (if c then run else run') := by
  split
  · exact first
  · exact second

theorem handleUnary_unchanged (request : MessageCodec α) (response : MessageCodec β)
    (act : α → Service s × β) (svc : Service s) (body : Bytes) :
    Unchanged svc (handleUnary request response act svc body) := by
  intro refusal refused
  unfold handleUnary at refused ⊢
  split
  · rfl
  · rfl
  · rename_i data parsed
    split
    · rfl
    · rename_i req decoded
      simp only [parsed, decoded] at refused
      cases refused

variable {wire : Wire} {svc : Service s} {now : Nat}

theorem handleReadObject_unchanged (body : Bytes) : Unchanged svc (handleReadObject wire svc body) := by
  intro refusal refused
  unfold handleReadObject
  split
  · rfl
  · rfl
  · split
    · rfl
    · split <;> rfl

theorem handleStream_unchanged (body : Bytes) : Unchanged svc (handleStream wire svc now body) := by
  intro refusal refused
  unfold handleStream handleStreamPrepareObject at refused ⊢
  cases parsed : parseChunks wire.chunk body with
  | error status => rfl
  | ok chunks =>
    simp only [parsed] at refused
    cases refused

/-- A request with an unknown path, a broken frame or an unreadable message changes nothing. -/
theorem call_unchanged (body : Bytes) (path : String) : Unchanged svc (call wire svc now body path) := by
  have unary {α β : Type} (request : MessageCodec α) (response : MessageCodec β) (act : α → Service s × β) :
      Unchanged svc (handleUnary request response act svc body) := handleUnary_unchanged _ _ _ svc body
  have health : Unchanged svc (handleHealthCheck wire svc now) := fun _ _ => rfl
  have unknown : Unchanged svc (svc, .error (.unimplemented "unknown method")) := fun _ _ => rfl
  unfold call
  -- one path after the other
  refine .ite (unary _ _ _) (.ite (unary _ _ _) (.ite (unary _ _ _) (.ite (unary _ _ _) ?_)))
  refine .ite (handleStream_unchanged body) (.ite (handleReadObject_unchanged body) ?_)
  exact .ite (unary _ _ _) (.ite (unary _ _ _) (.ite health (.ite (unary _ _ _) unknown)))

/-- The message of the request and of every reply to it fits a frame. -/
def UnaryRequest.Fits (s : ObjectStorage) (wire : Wire) (q : UnaryRequest) : Prop :=
  (q.message wire).length < 2 ^ 32 ∧
    ∀ (svc : Service s) now, ((q.perform svc now).2.message wire).length < 2 ^ 32

/-- A request that arrives is performed. -/
theorem serve_perform {q : UnaryRequest} (fits : q.Fits s wire) (host : Host s) :
    host.serve wire q = ({ host with service := (q.perform host.service host.now).1 },
      .ok (grpcFrame ((q.perform host.service host.now).2.message wire))) := by
  have small := fits.1
  rw [Host.serve, frame_small small]
  have performed : call wire host.service host.now (grpcFrame (q.message wire)) q.path =
      ((q.perform host.service host.now).1, .ok (grpcFrame ((q.perform host.service host.now).2.message wire))) := by
    cases q with
    | prepare req =>
      simp only [call, UnaryRequest.path, String.reduceEq, if_true, if_false]
      exact handleUnary_frame small
    | commit req =>
      simp only [call, UnaryRequest.path, String.reduceEq, if_true, if_false]
      exact handleUnary_frame small
    | abort req =>
      simp only [call, UnaryRequest.path, String.reduceEq, if_true, if_false]
      exact handleUnary_frame small
    | delete req =>
      simp only [call, UnaryRequest.path, String.reduceEq, if_true, if_false]
      exact handleUnary_frame small
    | lookup key =>
      simp only [call, UnaryRequest.path, String.reduceEq, if_true, if_false]
      exact handleUnary_frame small
    | health =>
      simp only [call, UnaryRequest.path, String.reduceEq, if_true, if_false]
      rfl
  simp only [performed]

/-- The client reads what the service answered. -/
theorem readAnswer_perform {q : UnaryRequest} (fits : q.Fits s wire) (text : Refusal → String)
    (svc : Service s) (now : Nat) :
    readAnswer wire text q (.ok (grpcFrame ((q.perform svc now).2.message wire))) = .ok (q.perform svc now).2 := by
  rw [readAnswer, parseGrpcFrame_grpcFrame (fits.2 svc now)]
  cases q with
  | prepare req => simp [UnaryRequest.read, UnaryRequest.perform, Reply.message, wire.prepareResponse.lossless, Except.map]
  | commit req => simp [UnaryRequest.read, UnaryRequest.perform, Reply.message, wire.commitResponse.lossless, Except.map]
  | abort req => simp [UnaryRequest.read, UnaryRequest.perform, Reply.message, wire.abortResponse.lossless, Except.map]
  | delete req => simp [UnaryRequest.read, UnaryRequest.perform, Reply.message, wire.deleteResponse.lossless, Except.map]
  | lookup key => simp [UnaryRequest.read, UnaryRequest.perform, Reply.message, wire.existsResponse.lossless, Except.map]
  | health => simp [UnaryRequest.read, UnaryRequest.perform, Reply.message, wire.healthResponse.lossless, Except.map]

/-! ## What a result says -/

/-- What the result of a client function says of the service before and after its request. -/
def UnaryRequest.Done (now : Nat) (before after : Service s) : UnaryRequest → Reply → Prop
  | .prepare req, .prepared resp => ∀ t, prepareResult resp = .ok t →
    t = tempId req.requestId req.key ∧ Accepted req ∧
      after.pending.get t = some ⟨tempObject s req.key, req.checksum, now⟩
  | .commit req, .committed resp => unitResult resp = .ok () →
    ∃ p data, before.pending.get req.tempId = some p ∧ before.fs.read p.temp.tempPath = some data ∧
      after.fs.read p.temp.finalPath = some data ∧ after.pending.get req.tempId = none
  | .abort req, .aborted resp => unitResult resp = .ok () ∧ after.pending.get req.tempId = none
  | .delete req, .deleted resp => ∀ was, deleteResult resp = .ok was →
    was = before.holds req.key ∧ after.holds req.key = false
  | .lookup key, .info resp => after = before ∧ (ValidKey key → resp.found = before.holds key)
  | .health, .healthy _ => after = before
  | _, _ => False

theorem prepareObject_ok {req : PrepareRequest} {t : String}
    (ok : prepareResult (prepareObject svc now req).2 = .ok t) : t = tempId req.requestId req.key ∧
      Accepted req ∧ (prepareObject svc now req).1.pending.get t =
        some ⟨tempObject s req.key, req.checksum, now⟩ := by
  by_cases accepted : Accepted req
  · have there := get_prepareObject svc now accepted
    rw [(prepareObject_accepted svc now accepted).1] at ok
    cases ok
    exact ⟨rfl, accepted, there⟩
  · exfalso
    have failed : (prepareObject svc now req).2.success = false := by
      unfold prepareObject
      split
      · rfl
      · rename_i checked
        split
        · rfl
        · rename_i temp call
          have valid : ValidKey req.key := by
            by_contra invalid
            obtain ⟨e, none⟩ := createTempObject_invalid s invalid
            rw [none] at call
            cases call
          refine absurd ⟨?_, valid⟩ accepted
          by_contra other
          exact checked (not_or.1 other)
    rw [prepareResult, failed] at ok
    cases ok

theorem commitObject_ok {t : String} (ok : unitResult (commitObject svc t).2 = .ok ()) :
    ∃ p data, svc.pending.get t = some p ∧ svc.fs.read p.temp.tempPath = some data ∧
      (commitObject svc t).1.fs.read p.temp.finalPath = some data := by
  unfold commitObject at ok ⊢
  cases there : svc.pending.get t with
  | none =>
    simp only [there] at ok
    cases ok
  | some p =>
    cases call : svc.fs.rename p.temp.tempPath p.temp.finalPath with
    | none =>
      simp only [there, call] at ok
      cases ok
    | some fs =>
      obtain ⟨i, named, -⟩ := Fs.rename_eq_some call
      have file : svc.fs.read p.temp.tempPath = some (svc.fs.data i) := congrArg (Option.map svc.fs.data) named
      refine ⟨p, svc.fs.data i, rfl, file, ?_⟩
      simp only [call]
      exact (Fs.read_rename call).trans file

theorem deleteObject_ok {key : String} {was : Bool} (ok : deleteResult (deleteObject svc key).2 = .ok was) :
    was = svc.holds key ∧ (deleteObject svc key).1.holds key = false := by
  by_cases valid : ValidKey key
  · refine ⟨?_, holds_deleteObject valid svc⟩
    have path := objectPath_eq s valid
    unfold deleteObject ObjectStorage.deleteObject at ok
    simp only [path, getObject_holds valid svc, bind, Except.bind] at ok
    cases there : svc.fs.read (s.pathOf key) with
    | none =>
      simp only [there] at ok
      cases ok
      simp [Service.holds, there]
    | some data =>
      simp only [there] at ok
      cases ok
      simp [Service.holds, there, Except.toBool, pure, Except.pure]
  · exfalso
    have failed : ∃ msg, s.deleteObject svc.fs key = .error (.invalidKey msg) := by
      cases check : validateObjectKey key with
      | ok u => exact absurd check valid
      | error e =>
        refine ⟨e.toString, ?_⟩
        rw [ObjectStorage.deleteObject, ObjectStorage.objectPath, objectId, check]
        rfl
    obtain ⟨msg, failed⟩ := failed
    simp only [deleteObject, failed] at ok
    cases ok

theorem perform_done (svc : Service s) (now : Nat) (q : UnaryRequest) :
    q.Done now svc (q.perform svc now).1 (q.perform svc now).2 := by
  cases q with
  | prepare req => exact fun t ok => prepareObject_ok ok
  | commit req =>
    intro ok
    obtain ⟨p, data, there, file, written⟩ := commitObject_ok ok
    exact ⟨p, data, there, file, written, commitObject_removes svc req.tempId⟩
  | abort req =>
    obtain ⟨answer, pending, -⟩ := abortObject_spec svc req.tempId
    refine ⟨?_, ?_⟩
    · rw [answer]
      rfl
    · show (abortObject svc req.tempId).1.pending.get req.tempId = none
      rw [pending, get_delete, if_pos rfl]
  | delete req => exact fun was ok => deleteObject_ok ok
  | lookup key =>
    refine ⟨rfl, fun valid => ?_⟩
    simp only [objectExists, getObject_holds valid svc, Service.holds]
    cases svc.fs.read (s.pathOf key) <;> rfl
  | health => rfl

/-! ## Runs -/

/-- The participant takes the last request of the call and answers it with `reply`. -/
def Answered (wire : Wire) (host : Host s) (log : List (Happening HostEvent UnaryRequest (Except Refusal Bytes)))
    (slip : Slip) (q : UnaryRequest) (reply : Reply) : Prop :=
  ∃ before after w w', log = before ++ .took slip q :: after ∧
    exec (Server.atomic (Host.serve wire) Host.step).happen (.start host) before = some w ∧
    exec (Server.atomic (Host.serve wire) Host.step).happen (.start host) (before ++ [.took slip q]) = some w' ∧
    q.Done w.state.now w.state.service w'.state.service reply

/-- **Results.** In every run of any number of clients and calls over a network that loses and delays
what it likes, with clean-ups and restarts of the participant: a call is performed at most once an
attempt, and what it returns is what the participant answered to its last attempt, with what that
says of the participant before and after. -/
theorem remote_results (wire : Wire) (text : Refusal → String) (maxRetries : Nat) (host : Host s)
    {es : List (CallEvent HostEvent UnaryRequest String)}
    {sys : Calls (Desk (Host s) (Except Refusal Bytes)) HostEvent UnaryRequest (Except Refusal Bytes) Reply String}
    (ran : exec (Calls.step (participant s wire text maxRetries)) (.start (.start host)) es = some sys)
    {i : Nat} {c : Call UnaryRequest Reply String} (there : sys.calls i = some c) (fits : c.request.Fits s wire) :
    (executions i sys.net.log).length ≤ maxRetries + 1 ∧
      ∀ reply, c.stage = .returned (.ok reply) →
        Answered wire host sys.net.log ⟨i, c.attempt⟩ c.request reply := by
  have sound := calls_sound ran
  have kept := sound.kept there
  obtain ⟨executed, attempts⟩ := kept.bounded
  refine ⟨executed.trans (Nat.succ_le_succ attempts), fun reply returned => ?_⟩
  obtain ⟨-, a, given, read⟩ := kept.ok reply returned
  obtain ⟨before, q, after, w, log, reached, served⟩ := Net.Sound.served sound.net given
  have took : .took ⟨i, c.attempt⟩ q ∈ sys.net.log := by
    rw [log]
    simp
  have own : q = c.request := kept.request _ q took rfl
  subst own
  rw [serve_perform fits] at served
  subst served
  have same : Except.ok (c.request.perform w.state.service w.state.now).2 = Except.ok reply :=
    (readAnswer_perform fits text _ _).symm.trans read
  cases same
  refine ⟨before, after, w, (Server.atomic (Host.serve wire) Host.step).take w ⟨i, c.attempt⟩ c.request, log,
    reached, ?_, ?_⟩
  · rw [exec_append, reached]
    rfl
  · show c.request.Done w.state.now w.state.service (w.state.serve wire c.request).1.service _
    rw [serve_perform fits]
    exact perform_done w.state.service w.state.now c.request

/-! ## A sample -/

section Sample
omit [Sha256]

deriving instance Countable for WriteRequest, WriteResponse, PrepareRequest, PrepareResponse, TempRequest,
  Response, DeleteRequest, DeleteResponse, ExistsResponse, ReadRequest, ReadObjectResponse,
  HealthCheckResponse, GetStatsResponse

def sampleAbort : TempRequest := ⟨"abc/k", "1:abc/k", 1⟩

/-- An abort and its answer as `prost` writes them. -/
theorem exists_wire : ∃ wire : Wire,
    wire.abortRequest.encode sampleAbort =
      [10, 5, 97, 98, 99, 47, 107, 18, 7, 49, 58, 97, 98, 99, 47, 107, 24, 1] ∧
    wire.abortResponse.encode ⟨true, ""⟩ = [8, 1] := by
  obtain ⟨writeRequest, -⟩ := exists_codec (⟨"", [], "", 0⟩ : WriteRequest) [1] (by simp)
  obtain ⟨writeResponse, -⟩ := exists_codec (⟨true, "", 0⟩ : WriteResponse) [1] (by simp)
  obtain ⟨prepareRequest, -⟩ := exists_codec (⟨"", [], "", 0⟩ : PrepareRequest) [1] (by simp)
  obtain ⟨prepareResponse, -⟩ := exists_codec (⟨true, "", ""⟩ : PrepareResponse) [1] (by simp)
  obtain ⟨chunk, -⟩ := exists_sampleCodec
  obtain ⟨commitRequest, -⟩ := exists_codec (⟨"", "", 0⟩ : TempRequest) [1] (by simp)
  obtain ⟨commitResponse, -⟩ := exists_codec (⟨true, ""⟩ : Response) [1] (by simp)
  obtain ⟨abortRequest, request⟩ := exists_codec sampleAbort
    [10, 5, 97, 98, 99, 47, 107, 18, 7, 49, 58, 97, 98, 99, 47, 107, 24, 1] (by simp)
  obtain ⟨abortResponse, response⟩ := exists_codec (⟨true, ""⟩ : Response) [8, 1] (by simp)
  obtain ⟨deleteRequest, -⟩ := exists_codec (⟨"", 0⟩ : DeleteRequest) [1] (by simp)
  obtain ⟨deleteResponse, -⟩ := exists_codec (⟨true, "", true⟩ : DeleteResponse) [1] (by simp)
  obtain ⟨existsRequest, -⟩ := exists_codec "" [1] (by simp)
  obtain ⟨existsResponse, -⟩ := exists_codec (⟨true, 0, ""⟩ : ExistsResponse) [1] (by simp)
  obtain ⟨readRequest, -⟩ := exists_codec (⟨"", 0, 0⟩ : ReadRequest) [1] (by simp)
  obtain ⟨readResponse, -⟩ := exists_codec (⟨[], true, 0⟩ : ReadObjectResponse) [1] (by simp)
  obtain ⟨healthResponse, -⟩ := exists_codec (⟨0, "", 0⟩ : HealthCheckResponse) [1] (by simp)
  obtain ⟨statsRequest, -⟩ := exists_codec () [1] (by simp)
  obtain ⟨statsResponse, -⟩ := exists_codec (⟨0, 0, 0⟩ : GetStatsResponse) [1] (by simp)
  exact ⟨⟨writeRequest, writeResponse, prepareRequest, prepareResponse, chunk, commitRequest, commitResponse,
    abortRequest, abortResponse, deleteRequest, deleteResponse, existsRequest, existsResponse, readRequest,
    readResponse, healthResponse, statsRequest, statsResponse⟩, request, response⟩

/-- One call of an abort, without trouble. -/
def sampleCall : List (CallEvent HostEvent UnaryRequest String) :=
  [.call 0 (.abort sampleAbort), .look 0, .lock 0, .connect 0 none, .ready 0 none, .net (.take 0),
    .net (.answer ⟨0, 0⟩)]

theorem remote_abort_sample :
    let _ : Sha256 := Sha256.sampled
    let host : Host sampleStorage := ⟨.empty sampleStorage, 0⟩
    ∃ (wire : Wire) (log : List (Happening HostEvent UnaryRequest (Except Refusal Bytes))),
      (executions 0 log).length ≤ 1 ∧
        Answered wire host log ⟨0, 0⟩ (.abort sampleAbort) (.aborted ⟨true, ""⟩) := by
  intro _ host
  obtain ⟨wire, request, response⟩ := exists_wire
  have performed : ∀ (svc : Service sampleStorage) now,
      ((UnaryRequest.abort sampleAbort).perform svc now).2 = .aborted ⟨true, ""⟩ := fun svc now =>
    congrArg Reply.aborted (abortObject_spec svc sampleAbort.tempId).1
  have fits : (UnaryRequest.abort sampleAbort).Fits sampleStorage wire := by
    refine ⟨?_, fun svc now => ?_⟩
    · rw [UnaryRequest.message, request]
      decide
    · rw [performed, Reply.message, response]
      decide
  let p := participant sampleStorage wire (fun _ => "") 0
  obtain ⟨t, ran, there, given⟩ : ∃ t, exec (Calls.step p) (.start (.start host)) sampleCall = some t ∧
      t.calls 0 = some ⟨0, .abort sampleAbort, 0, none, .waiting 1⟩ ∧
      answerTo t.net.log ⟨0, 0⟩ = some (host.serve wire (.abort sampleAbort)).2 := ⟨_, rfl, rfl, rfl⟩
  have read : p.decode (.abort sampleAbort) (host.serve wire (.abort sampleAbort)).2 = .ok (.aborted ⟨true, ""⟩) := by
    rw [serve_perform fits]
    exact (readAnswer_perform fits (fun _ => "") host.service host.now).trans
      (congrArg Except.ok (performed host.service host.now))
  have last : t.step p (.answer 0) =
      some (t.put 0 ⟨0, .abort sampleAbort, 0, none, .returned (.ok (.aborted ⟨true, ""⟩))⟩) := by
    simp only [Calls.step, there, given, read]
  have whole : exec (Calls.step p) (.start (.start host)) (sampleCall ++ [.answer 0]) =
      some (t.put 0 ⟨0, .abort sampleAbort, 0, none, .returned (.ok (.aborted ⟨true, ""⟩))⟩) := by
    rw [exec_append, ran]
    exact exec_cons.2 ⟨_, last, rfl⟩
  obtain ⟨bounded, answered⟩ := remote_results wire (fun _ => "") 0 host whole (Function.update_self _ _ _) fits
  exact ⟨wire, _, bounded, answered _ rfl⟩

end Sample

end Save.Replication
