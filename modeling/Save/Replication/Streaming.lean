import Save.Metadata.Rpc
import Save.Replication.Quorum

/-!
# Streamed prepares

`ReplicationClient::stream_prepare_object` sends a file as it reads it: the key
and the request id travel with the first piece, the checksum in a marker behind
the last. `handle_stream_prepare_object` cuts the body into frames and stops where
it finds no whole frame. An empty file has no first piece, so its key does not
travel (`stream_agrees_iff`); a body that is cut anywhere behind its first frame
is taken for a shorter file without a checksum (`truncated_refused_iff`).
-/

namespace Save.Replication
set_option autoImplicit false
open Save.Text Save.Kv Save.Common Save.Files Save.Storage
open Save.Rpc (Status frame toBeBytes fromBeBytes fromBeBytes_toBeBytes)

/-! ## Pieces -/

/-- The pieces in which a file may be read: none is empty, none is larger than the buffer. -/
def ReadAs (data : Bytes) (pieces : List Bytes) : Prop :=
  pieces.flatten = data ∧ ∀ p ∈ pieces, p ≠ [] ∧ p.length ≤ 64 * 1024

theorem ReadAs.eq_nil {data : Bytes} {pieces : List Bytes} (reads : ReadAs data pieces) :
    pieces = [] ↔ data = [] := by
  constructor
  · intro none
    rw [← reads.1, none]
    rfl
  · intro empty
    by_contra some
    obtain ⟨p, ps, rfl⟩ := List.exists_cons_of_ne_nil some
    have first := (reads.2 p List.mem_cons_self).1
    have all := reads.1
    rw [empty, List.flatten_cons, List.append_eq_nil_iff] at all
    exact first all.1

deriving instance Countable for PrepareChunk

variable [Sha256] {s : ObjectStorage}

/-- The streamed prepare of a file and the plain one are answered with the id of the request, and
leave the same temp file. -/
structure StreamAgrees (svc : Service s) (now : Nat) (key : String) (requestId : Nat) (data : Bytes)
    (pieces : List Bytes) : Prop where
  streamed : (streamPrepareObject svc now
    (streamChunks key requestId (Sha256.digest data) pieces)).2 = ⟨true, "", tempId requestId key⟩
  plain : (prepareObject svc now ⟨key, data, Sha256.digest data, requestId⟩).2 =
    ⟨true, "", tempId requestId key⟩
  file : (streamPrepareObject svc now
      (streamChunks key requestId (Sha256.digest data) pieces)).1.fs.read (s.tempOf key) =
    (prepareObject svc now ⟨key, data, Sha256.digest data, requestId⟩).1.fs.read (s.tempOf key)

/-- **Streamed prepares.** They agree with plain ones exactly for files that are not empty. -/
theorem stream_agrees_iff (svc : Service s) (now : Nat) {key : String} (valid : ValidKey key)
    (requestId : Nat) {data : Bytes} {pieces : List Bytes} (reads : ReadAs data pieces) :
    StreamAgrees svc now key requestId data pieces ↔ data ≠ [] := by
  constructor
  · intro agrees empty
    have streamed := agrees.streamed
    rw [reads.eq_nil.2 empty] at streamed
    cases streamed
  · intro nonempty
    obtain ⟨p, ps, rfl⟩ := List.exists_cons_of_ne_nil fun none => nonempty (reads.eq_nil.1 none)
    have same := streamPrepareObject_pieces svc now valid requestId reads.1
    have accepted : Accepted ⟨key, data, Sha256.digest data, requestId⟩ := ⟨.inr rfl, valid⟩
    have answer := (prepareObject_accepted svc now accepted).1
    refine ⟨?_, answer, ?_⟩
    · rw [same]
      exact answer
    · rw [same]

omit [Sha256] in
theorem stream_agrees_sample :
    letI : Sha256 := Sha256.sampled
    StreamAgrees (Service.empty sampleStorage) 0 "abc/k" 7 [1, 2] [[1], [2]] := by
  let _ : Sha256 := Sha256.sampled
  have valid : ValidKey "abc/k" := by decide
  have reads : ReadAs [1, 2] [[1], [2]] := ⟨rfl, by decide⟩
  exact (stream_agrees_iff _ 0 valid 7 reads).2 (by decide)

omit [Sha256] in
/-- An empty file is refused where the plain prepare takes it. -/
theorem empty_stream_disagrees :
    ¬ ∀ [Sha256] (s : ObjectStorage) (svc : Service s) (now : Nat) (key : String) (requestId : Nat)
      (data : Bytes) (pieces : List Bytes), ValidKey key → ReadAs data pieces →
      StreamAgrees svc now key requestId data pieces := by
  intro claim
  let _ : Sha256 := Sha256.sampled
  have valid : ValidKey "abc/k" := by decide
  have reads : ReadAs [] [] := ⟨rfl, by simp⟩
  have agrees := claim sampleStorage (Service.empty sampleStorage) 0 "abc/k" 7 [] [] valid reads
  cases agrees.streamed

/-! ## Frames -/

/-- `prost` for the chunks: what is written is read back. -/
structure ChunkCodec where
  encode : PrepareChunk → Bytes
  decode : Bytes → Except String PrepareChunk
  lossless : ∀ m, decode (encode m) = .ok m

/-- The body of a stream of messages. -/
def frames (codec : ChunkCodec) : List PrepareChunk → Except Status Bytes
  | [] => .ok []
  | m :: ms => do
    let first ← frame (codec.encode m)
    let rest ← frames codec ms
    return first ++ rest

/-- The loop of `handle_stream_prepare_object` over what is left of the body. -/
def parseChunks (codec : ChunkCodec) : Bytes → Except Status (List PrepareChunk)
  | _ :: a :: b :: c :: d :: rest =>
    if rest.length < fromBeBytes a b c d then .ok []
    else
      match codec.decode (rest.take (fromBeBytes a b c d)) with
      | .error e => .error (.invalidArgument e)
      | .ok chunk => (parseChunks codec (rest.drop (fromBeBytes a b c d))).map (chunk :: ·)
  | _ => .ok []
termination_by body => body.length
decreasing_by
  simp only [List.length_drop, List.length_cons]
  omega

def handleStreamPrepareObject (codec : ChunkCodec) (svc : Service s) (now : Nat) (body : Bytes) :
    Service s × Except Status PrepareResponse :=
  match parseChunks codec body with
  | .error e => (svc, .error e)
  | .ok chunks =>
    let run := streamPrepareObject svc now chunks
    (run.1, .ok run.2)

/-- The answer is a success. -/
def answersSuccess : Except Status PrepareResponse → Bool
  | .ok response => response.success
  | .error _ => false

section Frames
omit [Sha256]

variable {codec : ChunkCodec}

theorem frame_eq {msg body : Bytes} (framed : frame msg = .ok body) :
    msg.length < 2 ^ 32 ∧ body = 0 :: (toBeBytes msg.length ++ msg) := by
  unfold frame at framed
  split at framed
  · rename_i small
    cases framed
    exact ⟨small, rfl⟩
  · cases framed

/-- A whole frame, and then what is behind it. -/
theorem parseChunks_frame {m : PrepareChunk} {first : Bytes}
    (framed : frame (codec.encode m) = .ok first) (rest : Bytes) :
    parseChunks codec (first ++ rest) = (parseChunks codec rest).map (m :: ·) := by
  obtain ⟨small, rfl⟩ := frame_eq framed
  simp only [toBeBytes, List.cons_append, List.nil_append]
  rw [parseChunks, fromBeBytes_toBeBytes small, if_neg (by simp), List.take_left, codec.lossless,
    List.drop_left]

/-- Less than a whole frame is left alone. -/
theorem parseChunks_short {m : PrepareChunk} {first pre : Bytes}
    (framed : frame (codec.encode m) = .ok first) (cut : pre <+: first)
    (short : pre.length < first.length) : parseChunks codec pre = .ok [] := by
  obtain ⟨small, rfl⟩ := frame_eq framed
  by_cases header : pre.length < 5
  · match pre, header with
    | [], _ | [_], _ | [_, _], _ | [_, _, _], _ | [_, _, _, _], _ => simp [parseChunks]
  · -- the header is whole, and tells a length that is not there
    have five : 5 ≤ pre.length := Nat.le_of_not_lt header
    obtain ⟨rest, whole⟩ := cut
    match pre, five with
    | x :: a :: b :: c :: d :: tail, _ =>
      simp only [toBeBytes, List.cons_append, List.nil_append, List.cons.injEq] at whole
      obtain ⟨-, rfl, rfl, rfl, rfl, body⟩ := whole
      have less : tail.length < (codec.encode m).length := by
        simpa [toBeBytes] using short
      rw [parseChunks, fromBeBytes_toBeBytes small, if_pos less]

/-- A body that is cut short is read as its first messages, and not as all of them. The first is
among them when its frame is whole. -/
theorem parseChunks_cut {ms : List PrepareChunk} {body pre : Bytes} (framed : frames codec ms = .ok body)
    (cut : pre <+: body) (short : pre.length < body.length) :
    ∃ k < ms.length, parseChunks codec pre = .ok (ms.take k) ∧
      ∀ m ∈ ms.head?, (k = 0 ↔ pre.length < 5 + (codec.encode m).length) := by
  induction ms generalizing body pre with
  | nil =>
    cases framed
    exact absurd short (Nat.not_lt_zero _)
  | cons m ms ih =>
    cases one : frame (codec.encode m) with
    | error e =>
      rw [frames, one] at framed
      cases framed
    | ok first =>
      cases more : frames codec ms with
      | error e =>
        rw [frames, one, more] at framed
        cases framed
      | ok rest =>
        rw [frames, one, more] at framed
        cases framed
        have size : first.length = 5 + (codec.encode m).length := by
          obtain ⟨-, rfl⟩ := frame_eq one
          simp [toBeBytes]
          omega
        by_cases whole : pre.length < first.length
        · have within : pre <+: first :=
            List.prefix_of_prefix_length_le cut (List.prefix_append _ _) whole.le
          refine ⟨0, by simp, parseChunks_short one within whole, ?_⟩
          intro m' same
          cases same
          rw [← size]
          exact ⟨fun _ => whole, fun _ => rfl⟩
        · have behind : first <+: pre :=
            List.prefix_of_prefix_length_le (List.prefix_append _ _) cut (Nat.le_of_not_lt whole)
          obtain ⟨tail, rfl⟩ := behind
          have later : tail <+: rest := (List.prefix_append_right_inj first).1 cut
          obtain ⟨k, less, parsed, -⟩ := ih more later (by simpa using short)
          refine ⟨k + 1, by simpa using less, ?_, ?_⟩
          · rw [parseChunks_frame one, parsed]
            rfl
          · intro m' same
            cases same
            rw [← size]
            exact ⟨fun never => by omega, fun never => absurd never whole⟩

end Frames

/-! ## Streams that are cut short -/

omit [Sha256] in
/-- The messages of the pieces alone carry no checksum. -/
theorem expectedChecksum_pieces (key : String) (requestId : Nat) (p : Bytes) (ps : List Bytes) :
    expectedChecksum (⟨key, requestId, p, false, ""⟩ :: ps.map fun p => ⟨"", 0, p, false, ""⟩) = "" := by
  unfold expectedChecksum
  rw [List.foldl_cons]
  simp only [Bool.false_eq_true, false_and, if_false]
  induction ps with
  | nil => rfl
  | cons p ps ih =>
    rw [List.map_cons, List.foldl_cons]
    simpa using ih

/-- Without the marker the pieces that are there are taken for the file. -/
theorem streamPrepareObject_unmarked (svc : Service s) (now : Nat) (key : String) (requestId : Nat)
    (p : Bytes) (ps : List Bytes) :
    (streamPrepareObject svc now
      (⟨key, requestId, p, false, ""⟩ :: ps.map fun p => ⟨"", 0, p, false, ""⟩)).2.success = true ↔
      ValidKey key := by
  rw [streamPrepareObject_cons, expectedChecksum_pieces]
  unfold streamPrepareData
  by_cases valid : ValidKey key
  · have named : key ≠ "" := by
      rintro rfl
      exact absurd valid (by decide)
    simp only [if_neg named, createTempObject_ok (s := s) valid]
    rw [if_neg (by simp)]
    exact ⟨fun _ => valid, fun _ => rfl⟩
  · refine ⟨fun success => ?_, fun valid' => absurd valid' valid⟩
    exfalso
    split at success
    · cases success
    · obtain ⟨e, refused⟩ := createTempObject_invalid s valid
      simp only [refused] at success
      cases success

omit [Sha256] in
/-- The first messages of a stream, short of all. -/
theorem take_streamChunks (key : String) (requestId : Nat) (checksum : String) (p : Bytes)
    (ps : List Bytes) {k : Nat} (less : k + 1 < (streamChunks key requestId checksum (p :: ps)).length) :
    (streamChunks key requestId checksum (p :: ps)).take (k + 1) =
      ⟨key, requestId, p, false, ""⟩ :: (ps.take k).map fun p => ⟨"", 0, p, false, ""⟩ := by
  rw [streamChunks_cons] at less ⊢
  have within : k ≤ ps.length := by
    simp only [List.length_cons, List.length_append, List.length_map, List.length_nil] at less
    omega
  rw [List.take_succ_cons, List.take_append_of_le_length (by simpa using within), List.map_take]

/-- **Truncated streams.** The stream of a file, cut anywhere before its end, is refused exactly when
the file is empty, the key is not accepted or the cut is inside the first frame. -/
theorem truncated_refused_iff (codec : ChunkCodec) (svc : Service s) (now : Nat) {key : String}
    {requestId : Nat} {checksum : String} {pieces : List Bytes} {body pre : Bytes}
    (framed : frames codec (streamChunks key requestId checksum pieces) = .ok body)
    (cut : pre <+: body) (short : pre.length < body.length) :
    answersSuccess (handleStreamPrepareObject codec svc now pre).2 = false ↔
      pieces = [] ∨ ¬ ValidKey key ∨
        ∃ p ∈ pieces.head?, pre.length < 5 + (codec.encode ⟨key, requestId, p, false, ""⟩).length := by
  obtain ⟨k, less, parsed, first⟩ := parseChunks_cut framed cut short
  have answer : (handleStreamPrepareObject codec svc now pre).2 =
      .ok (streamPrepareObject svc now ((streamChunks key requestId checksum pieces).take k)).2 := by
    simp only [handleStreamPrepareObject, parsed]
  rw [answer]
  cases pieces with
  | nil =>
    -- the marker is the only message, and is not whole
    obtain rfl : k = 0 := by simpa [streamChunks] using less
    exact ⟨fun _ => .inl rfl, fun _ => rfl⟩
  | cons p ps =>
    have start := first _ (by rw [streamChunks_cons]; rfl)
    cases k with
    | zero =>
      refine ⟨fun _ => .inr (.inr ⟨p, rfl, start.1 rfl⟩), fun _ => rfl⟩
    | succ k =>
      have behind : ¬ pre.length < 5 + (codec.encode ⟨key, requestId, p, false, ""⟩).length :=
        fun within => absurd (start.2 within) (Nat.succ_ne_zero k)
      rw [take_streamChunks key requestId checksum p ps less]
      have taken := streamPrepareObject_unmarked svc now key requestId p (ps.take k)
      simp only [answersSuccess]
      rw [← Bool.not_eq_true, taken]
      constructor
      · exact fun invalid => .inr (.inl invalid)
      · rintro (never | invalid | ⟨p', same, within⟩)
        · cases never
        · exact invalid
        · cases same
          exact absurd within behind

/-! ## A sample -/

section Sample
omit [Sha256]

/-- A file of one byte. -/
def sampleFirst : PrepareChunk := ⟨"abc/k", 7, [1], false, ""⟩

def sampleMarker : PrepareChunk :=
  ⟨"", 0, [], true, "4bf5122f344554c53bde2ebb8cd2b7e3d1600ad631c385a5d7cce23c7785459a"⟩

/-- The two messages as `prost` writes them. -/
def sampleMessages : List (PrepareChunk × Bytes) :=
  [(sampleFirst, [10, 5, 97, 98, 99, 47, 107, 16, 7, 26, 1, 1]),
   (sampleMarker, [32, 1, 42, 64] ++ utf8 sampleMarker.checksum)]

/-- The frame of the first. -/
def sampleFrame : Bytes := [0, 0, 0, 0, 12, 10, 5, 97, 98, 99, 47, 107, 16, 7, 26, 1, 1]

def sampleBody : Bytes := sampleFrame ++ ([0, 0, 0, 0, 68, 32, 1, 42, 64] ++ utf8 sampleMarker.checksum)

theorem exists_sampleCodec : ∃ codec : ChunkCodec, ∀ e ∈ sampleMessages, codec.encode e.1 = e.2 := by
  have : Nonempty PrepareChunk := ⟨sampleMarker⟩
  obtain ⟨write, read, known, lossless⟩ := Rpc.exists_lossless_on sampleMessages (by decide)
    (by decide +kernel) (by decide +kernel)
  exact ⟨⟨write, read, lossless⟩, known⟩

variable {codec : ChunkCodec} (known : ∀ e ∈ sampleMessages, codec.encode e.1 = e.2)
include known

theorem frame_sampleFirst : frame (codec.encode sampleFirst) = .ok sampleFrame := by
  have first : codec.encode sampleFirst = [10, 5, 97, 98, 99, 47, 107, 16, 7, 26, 1, 1] :=
    known _ List.mem_cons_self
  rw [first]
  rfl

theorem frames_sample : frames codec [sampleFirst, sampleMarker] = .ok sampleBody := by
  have marker : codec.encode sampleMarker = [32, 1, 42, 64] ++ utf8 sampleMarker.checksum :=
    known _ (List.mem_cons_of_mem _ List.mem_cons_self)
  have framed : frame (codec.encode sampleMarker) =
      .ok ([0, 0, 0, 0, 68, 32, 1, 42, 64] ++ utf8 sampleMarker.checksum) := by
    rw [marker]
    decide +kernel
  simp only [frames, frame_sampleFirst known, framed, bind, Except.bind, pure, Except.pure,
    List.append_nil, sampleBody]

end Sample

omit [Sha256] in
theorem truncated_refused_sample :
    letI : Sha256 := Sha256.sampled
    ∃ codec : ChunkCodec, (∀ e ∈ sampleMessages, codec.encode e.1 = e.2) ∧
      ∀ n < 17, answersSuccess (handleStreamPrepareObject codec (Service.empty sampleStorage) 0
        (sampleBody.take n)).2 = false := by
  let _ : Sha256 := Sha256.sampled
  obtain ⟨codec, known⟩ := exists_sampleCodec
  have size : sampleBody.length = 90 := by decide +kernel
  refine ⟨codec, known, fun n inside => ?_⟩
  have taken : (sampleBody.take n).length = n := by
    rw [List.length_take, size]
    omega
  have sent : frames codec (streamChunks "abc/k" 7 _ [[1]]) = .ok sampleBody := frames_sample known
  refine (truncated_refused_iff codec (Service.empty sampleStorage) 0 sent
    (List.take_prefix n _) ?_).2 (.inr (.inr ⟨[1], rfl, ?_⟩))
  · rw [taken, size]
    omega
  · have first : codec.encode sampleFirst = [10, 5, 97, 98, 99, 47, 107, 16, 7, 26, 1, 1] :=
      known _ List.mem_cons_self
    show _ < 5 + (codec.encode sampleFirst).length
    rw [first, taken]
    exact inside

omit [Sha256] in
/-- A stream that is cut before its marker is acknowledged without its checksum. -/
theorem truncated_stream_accepted :
    ¬ ∀ [Sha256] (codec : ChunkCodec) (s : ObjectStorage) (svc : Service s) (now : Nat) (key : String)
      (requestId : Nat) (checksum : String) (pieces : List Bytes) (body pre : Bytes),
      frames codec (streamChunks key requestId checksum pieces) = .ok body → pre <+: body →
      pre.length < body.length → answersSuccess (handleStreamPrepareObject codec svc now pre).2 = false := by
  intro claim
  let _ : Sha256 := Sha256.sampled
  obtain ⟨codec, known⟩ := exists_sampleCodec
  have refused := claim codec sampleStorage (Service.empty sampleStorage) 0 "abc/k" 7 _ [[1]] sampleBody
    sampleFrame (frames_sample known) (List.prefix_append _ _) (by decide +kernel)
  have read : parseChunks codec sampleFrame = .ok [sampleFirst] := by
    have parsed := parseChunks_frame (frame_sampleFirst known) []
    have none_left : parseChunks codec [] = .ok [] := by simp [parseChunks]
    rw [List.append_nil, none_left] at parsed
    exact parsed
  simp only [handleStreamPrepareObject, read] at refused
  exact absurd refused (by decide +kernel)

end Save.Replication
