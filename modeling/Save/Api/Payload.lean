import Save.Api.Auth
import Save.Api.Hashing
import Save.Api.Multipart

/-!
# Signatures and payloads

`put_object` (`objects/put.rs`) and `upload_part` (`multipart/part.rs`) behind
`validate_sigv4`. The signature is over the payload hash that a header names; the
handlers are given the body and no header, and hash what they receive for the etag.
Nothing compares the two hashes. `payload_unbound`: the check is the same for every
body, and an answer of success carries, and records, the digest of the body that was
received.

`put_object` is modelled here with the stream it reads, since its etag and its size
are those that `HashingReader::finalize` returns after `write_temp_object`.
-/

namespace Save.Api
set_option autoImplicit false
open Save.Text Save.Kv Save.Common Save.Metadata Save.Files Save.Readers Save.Storage Save.Run

variable [Sha256] [HmacSha256]

/-- The etag header of an answer. -/
def quotedEtag (etag : String) : String := "\"" ++ etag ++ "\""

/-- A call of `put_object` whose body arrives piece by piece. -/
structure StreamedPut where
  bucket : String
  key : String
  stream : List StreamItem
  /-- The bucket cache knows the bucket. -/
  cached : Bool
  now : DateTime

def StreamedPut.body (p : StreamedPut) : Bytes := (p.stream.map StreamItem.bytes).flatten

def StreamedPut.storageKey (p : StreamedPut) : String := Api.storageKey p.bucket p.key

/-- `put_object` between its operations. -/
inductive StreamedStage where
  | locking
  | checking
  /-- `write_temp_object` is at `stage`; it reads the body through the hashing reader. -/
  | streaming (reader : HashingReader StreamReader) (stage : TempStage)
  /-- `finalize` has returned the etag, `commit_object` is at `stage`. -/
  | committing (etag : String) (metadata : ObjectMetadata) (stage : Stage)
  /-- The storage commit has returned; the Raft write comes next. -/
  | writing (etag : String) (metadata : ObjectMetadata)
  | done (etag : String)
  deriving DecidableEq

/-- One operation of `put_object`, when it succeeds; which one matters only while the temp file is
written. -/
def StreamedPut.step (s : ObjectStorage) (p : StreamedPut) :
    Node × StreamedStage → TempEvent → Option (Node × StreamedStage)
  | (node, .locking), _ =>
    if (validateBucketName p.bucket).toBool && (validateObjectKey p.key).toBool then
      some (node, .checking)
    else none
  | (node, .checking), _ =>
    if p.cached || (getBucket node.db p.bucket).toBool then
      some (node, .streaming (.new ⟨[], p.stream⟩) .start)
    else none
  | (node, .streaming reader stage), e =>
    match stage with
    | .written t =>
      let (etag, size) := reader.finalize
      some (node, .committing etag
        ⟨p.bucket, p.key, size.toNat, etag, none, p.now, p.now, []⟩ (.written t))
    | _ =>
      (TempWrite.step s p.storageKey ⟨node.fs, reader, stage⟩ e).map fun w =>
        ({ node with fs := w.fs }, .streaming w.reader w.stage)
  | (node, .committing etag metadata stage), _ =>
    if stage = .committed then some (node, .writing etag metadata)
    else
      (s.advance p.storageKey [] 0 node.fs stage).map fun next =>
        ({ node with fs := next.1 }, .committing etag metadata next.2)
  | (node, .writing etag metadata), _ =>
    match putObjectMetadata metadata with
    | .error _ => none
    | .ok ws => some ({ node with db := applyAll node.db ws }, .done etag)
  | (_, .done _), _ => none

/-- `put_object` behind the check, over the operations `events`: the node and the etag of an
answer of success. -/
def putServed (env : AuthEnv) (s : ObjectStorage) (r : HttpRequest) (p : StreamedPut) (node : Node)
    (events : List TempEvent) : Option (Node × String) :=
  match validateSigv4 env r with
  | .error _ => none
  | .ok _ =>
    match exec (p.step s) (node, .locking) events with
    | some (node', .done etag) => some (node', quotedEtag etag)
    | _ => none

/-- `upload_part` behind the check. -/
def partServed (env : AuthEnv) (s : ObjectStorage) (r : HttpRequest) (p : PartRequest) (node : Node)
    (ns : List Nat) : Option (Node × String) :=
  match validateSigv4 env r with
  | .error _ => none
  | .ok _ =>
    match exec (uploadPartStep s { p with body := r.body }) (node, .looking) ns with
    | some (node', .done etag) => some (node', quotedEtag etag)
    | _ => none

/-- The check does not look at the body. -/
theorem validateSigv4_body (env : AuthEnv) (r : HttpRequest) (body : Bytes) :
    validateSigv4 env { r with body } = validateSigv4 env r := rfl

/-! ## `put_object` -/

section Handlers
omit [HmacSha256]

variable {s : ObjectStorage}

/-- What the call makes of the body: the reader has hashed what the temp file holds, and the etag and
the record that follow are of the whole body. -/
def StreamedPut.Sound (p : StreamedPut) (state : Node × StreamedStage) : Prop :=
  match state.2 with
  | .streaming reader stage =>
    TempWrite.Sound (HashingReader.Hashes (fun (r : StreamReader) left => r.left = left) p.body)
      p.body ⟨state.1.fs, reader, stage⟩
  | .committing etag metadata _ =>
    etag = Sha256.digest p.body ∧ metadata = newMetadata p.bucket p.key p.body none p.now
  | .writing etag metadata =>
    etag = Sha256.digest p.body ∧ metadata = newMetadata p.bucket p.key p.body none p.now
  | .done etag => etag = Sha256.digest p.body ∧
      state.1.db.get (objectDbKey p.bucket p.key) =
        some (.object (newMetadata p.bucket p.key p.body none p.now))
  | _ => True

/-- While the body is read, an operation is one of `write_temp_object`, or `finalize` after it. -/
theorem StreamedPut.step_streaming {p : StreamedPut} {node : Node}
    {reader : HashingReader StreamReader} {stage : TempStage} {e : TempEvent}
    {next : Node × StreamedStage} (step : p.step s (node, .streaming reader stage) e = some next) :
    (∃ t, stage = .written t ∧ next = (node, .committing reader.finalize.1
      ⟨p.bucket, p.key, reader.finalize.2.toNat, reader.finalize.1, none, p.now, p.now, []⟩
      (.written t))) ∨
    ∃ w, TempWrite.step s p.storageKey ⟨node.fs, reader, stage⟩ e = some w ∧
      next = ({ node with fs := w.fs }, .streaming w.reader w.stage) := by
  simp only [StreamedPut.step] at step
  split at step
  · rename_i t
    exact .inl ⟨t, rfl, (Option.some.inj step).symm⟩
  · obtain ⟨w, taken, same⟩ := Option.map_eq_some_iff.1 step
    exact .inr ⟨w, taken, same.symm⟩

theorem StreamedPut.sound_step {p : StreamedPut} {state next : Node × StreamedStage} {e : TempEvent}
    (sound : p.Sound state) (step : p.step s state e = some next) : p.Sound next := by
  obtain ⟨node, stage⟩ := state
  cases stage with
  | locking =>
    simp only [StreamedPut.step, Option.ite_none_right_eq_some, Option.some.injEq] at step
    obtain ⟨-, rfl⟩ := step
    trivial
  | checking =>
    simp only [StreamedPut.step, Option.ite_none_right_eq_some, Option.some.injEq] at step
    obtain ⟨-, rfl⟩ := step
    exact HashingReader.hashes_new (List.nil_append p.body)
  | streaming reader stage =>
    rcases StreamedPut.step_streaming step with ⟨t, rfl, rfl⟩ | ⟨w, taken, rfl⟩
    · obtain ⟨-, last, fits⟩ := sound
      obtain ⟨etag, size⟩ := last.finalize fits
      refine ⟨etag, ?_⟩
      rw [etag, size]
      rfl
    · exact TempWrite.Sound.step (HashingReader.delivers StreamReader.delivers) sound taken
  | committing etag metadata stage =>
    simp only [StreamedPut.step] at step
    split at step
    · cases step
      exact sound
    · obtain ⟨later, -, rfl⟩ := Option.map_eq_some_iff.1 step
      exact sound
  | writing etag metadata =>
    obtain ⟨digest, rfl⟩ := sound
    simp only [StreamedPut.step] at step
    split at step
    · cases step
    · rename_i ws call
      cases step
      obtain rfl := putObjectMetadata_eq call
      refine ⟨digest, ?_⟩
      rw [get_applyAll_put]
      exact if_pos rfl
  | done etag => cases step

/-! ## `upload_part` -/

/-- What `upload_part` has received is of the body, and so is what it has recorded. -/
def PartReceived (r : PartRequest) (state : Node × PartStage) : Prop :=
  match state.2 with
  | .receiving _ acc => acc <+: r.body
  | .recording acc => acc = r.body
  | .done etag => etag = Sha256.digest r.body ∧
      state.1.db.get (partKey r.bucket r.key r.uploadId r.partNumber) =
        some (.part ⟨r.partNumber, Sha256.digest r.body, r.body.length⟩)
  | _ => True

theorem uploadPartStep_received {r : PartRequest} {state next : Node × PartStage} {n : Nat}
    (received : PartReceived r state) (step : uploadPartStep s r state n = some next) :
    PartReceived r next := by
  obtain ⟨node, stage⟩ := state
  obtain ⟨node', stage'⟩ := next
  have made := uploadPartStep_cases step
  have kept : stage'.Received r.body := by
    refine made.received ?_
    cases stage with
    | done etag => exact received.1
    | _ => exact received
  cases made with
  | @record acc ws call =>
    obtain rfl := recordPart_eq call
    obtain rfl : acc = r.body := received
    exact ⟨rfl, by rw [get_applyAll_put, if_pos rfl]⟩
  | _ => exact kept

end Handlers

/-- **Payloads.** The check passes or refuses a request whatever its body; a write that is answered
with success is answered with, and has recorded, the digest of the body it received. -/
theorem payload_unbound (env : AuthEnv) (s : ObjectStorage) (r : HttpRequest) (node : Node) :
    (∀ body, validateSigv4 env { r with body } = validateSigv4 env r) ∧
    (∀ (p : StreamedPut) (events : List TempEvent) (node' : Node) (etag : String), p.body = r.body →
      putServed env s r p node events = some (node', etag) →
        etag = quotedEtag (Sha256.digest r.body) ∧
        node'.db.get (objectDbKey p.bucket p.key) =
          some (.object (newMetadata p.bucket p.key r.body none p.now))) ∧
    ∀ (p : PartRequest) (ns : List Nat) (node' : Node) (etag : String),
      partServed env s r p node ns = some (node', etag) →
        etag = quotedEtag (Sha256.digest r.body) ∧
        node'.db.get (partKey p.bucket p.key p.uploadId p.partNumber) =
          some (.part ⟨p.partNumber, Sha256.digest r.body, r.body.length⟩) := by
  refine ⟨validateSigv4_body env r, fun p events node' etag given served => ?_,
    fun p ns node' etag served => ?_⟩
  · unfold putServed at served
    split at served
    · cases served
    · split at served
      · rename_i etag done ran
        cases served
        have start : p.Sound (node, .locking) := trivial
        have sound := exec_invariant_always (fun _ _ _ => StreamedPut.sound_step) start ran
        obtain ⟨digest, stored⟩ := sound
        rw [given] at digest stored
        exact ⟨congrArg quotedEtag digest, stored⟩
      · cases served
  · unfold partServed at served
    split at served
    · cases served
    · split at served
      · rename_i done ran
        cases served
        have start : PartReceived { p with body := r.body } (node, .looking) := trivial
        have received := exec_invariant_always (fun _ _ _ => uploadPartStep_received) start ran
        exact ⟨congrArg quotedEtag received.1, received.2⟩
      · cases served

/-- A put that is accepted and runs to its end is answered with success. -/
theorem putServed_of_done {env : AuthEnv} {s : ObjectStorage} {r : HttpRequest} {p : StreamedPut}
    {node : Node} {events : List TempEvent} {info : AuthInfo} {etag : String}
    (accepted : validateSigv4 env r = .ok info)
    (ran : (exec (p.step s) (node, .locking) events).map Prod.snd = some (.done etag)) :
    ∃ node', putServed env s r p node events = some (node', quotedEtag etag) := by
  obtain ⟨⟨node', stage⟩, ran, same⟩ := Option.map_eq_some_iff.1 ran
  obtain rfl : stage = .done etag := same
  exact ⟨node', by simp [putServed, accepted, ran]⟩

/-- A put whose body of one byte arrives between two pending polls. -/
def sampleStreamedPut (byte : UInt8) : StreamedPut :=
  ⟨"abc", "k", [.pending, .chunk [byte], .pending], true, 9⟩

/-- The temp file is created, filled behind the polls, flushed and synced; then the commit and the
record. -/
def sampleStreamedEvents : List TempEvent :=
  [.next, .next, .next, .next, .poll 8, .poll 8, .write 0, .restart, .poll 8, .poll 8, .store 0,
    .next, .next, .next, .next, .next, .next, .next, .next]

omit [Sha256] [HmacSha256] in
theorem sample_served (byte : UInt8) (small : byte = 1 ∨ byte = 2) :
    ∃ node', @putServed sampleSha256 sampleHmac sampleAuthEnv sampleStorage
      { sampleRequest with body := [byte] } (sampleStreamedPut byte) ⟨Store.empty, Fs.empty⟩
      sampleStreamedEvents = some (node', quotedEtag (sampleSha256.digest [byte])) := by
  let _ := sampleSha256
  let _ := sampleHmac
  refine putServed_of_done (sample_accepted rfl sampleRequest_canonical) ?_
  rcases small with rfl | rfl
  · decide +kernel
  · decide +kernel

omit [Sha256] [HmacSha256] in
theorem payload_unbound_sample :
    ∃ node' : Node, node'.db.get (objectDbKey "abc" "k") =
      some (.object (@newMetadata sampleSha256 "abc" "k" [2] none 9)) := by
  let _ := sampleSha256
  let _ := sampleHmac
  obtain ⟨node', served⟩ := sample_served 2 (.inr rfl)
  exact ⟨node', ((payload_unbound _ _ _ _).2.1 (sampleStreamedPut 2) _ _ _ rfl served).2⟩

omit [Sha256] [HmacSha256] in
/-- Two bodies are stored under one signature, and under the hash of one of them. -/
theorem payloads_share_signature :
    ¬ ∀ [Sha256] [HmacSha256] (env : AuthEnv) (s : ObjectStorage) (r : HttpRequest) (info : AuthInfo)
      (p : StreamedPut) (node : Node) (events : List TempEvent) (stream : List StreamItem)
      (body : Bytes), validateSigv4 env r = .ok info → "x-amz-content-sha256" ∈ info.signedHeaders →
      isDigest r.contentSha256 = true → p.body = r.body → { p with stream }.body = body →
      (putServed env s r p node events).isSome = true →
      (putServed env s { r with body } { p with stream } node events).isSome = true →
      r.body = body := by
  intro claim
  let _ := sampleSha256
  let _ := sampleHmac
  obtain ⟨_, first⟩ := sample_served 1 (.inl rfl)
  obtain ⟨_, second⟩ := sample_served 2 (.inr rfl)
  have same := claim sampleAuthEnv sampleStorage { sampleRequest with body := [1] } sampleInfo
    (sampleStreamedPut 1) ⟨Store.empty, Fs.empty⟩ sampleStreamedEvents (sampleStreamedPut 2).stream
    [2] (sample_accepted rfl sampleRequest_canonical) (by decide +kernel) (by decide +kernel) rfl rfl
    (Option.isSome_of_eq_some first) (Option.isSome_of_eq_some second)
  exact absurd same (by decide)

end Save.Api
