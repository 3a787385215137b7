import Save.Metadata.Rpc

/-!
# gRPC frames

`parse_streaming_frames` (`raft/server.rs`) and `parse_grpc_frame` (`grpc.rs`) with
the offsets and the index checks of the source, where `none` is an index out of
range, against the frames that `create_grpc_streaming_response` writes.
`framesFrom_eq` takes the offsets away: the loop is the reader of what is left of
the body, so no index is ever out of range, and the rest is about that reader.
-/

namespace Save.Rpc
set_option autoImplicit false
open Save.Files

variable {α : Type}

/-- `prost` for one type of message: what is written is read back. -/
structure MessageCodec (α : Type) where
  encode : α → Bytes
  decode : Bytes → Except String α
  lossless : ∀ m, decode (encode m) = .ok m

/-! ## Writing -/

/-- One frame: no compression, the length as a `u32`, the message. -/
def grpcFrame (msg : Bytes) : Bytes := 0 :: (toBeBytes (msg.length % 2 ^ 32) ++ msg)

/-- The body of `create_grpc_response`. -/
def createGrpcResponse (codec : MessageCodec α) (msg : α) : Bytes := grpcFrame (codec.encode msg)

/-- The body of `create_grpc_streaming_response`. -/
def createGrpcStreamingResponse (codec : MessageCodec α) : List α → Bytes
  | [] => []
  | msg :: msgs => grpcFrame (codec.encode msg) ++ createGrpcStreamingResponse codec msgs

/-! ## Reading -/

def headerLen : Nat := 5

/-- `&body[start..end]`. -/
def slice (body : Bytes) (start stop : Nat) : Option Bytes :=
  if start ≤ stop ∧ stop ≤ body.length then some ((body.drop start).take (stop - start)) else none

/-- `u32::from_be_bytes` of the four bytes behind the flag at `offset`. -/
def lengthAt (body : Bytes) (offset : Nat) : Option Nat := do
  let _compression ← body[offset]?
  let a ← body[offset + 1]?
  let b ← body[offset + 2]?
  let c ← body[offset + 3]?
  let d ← body[offset + 4]?
  return fromBeBytes a b c d

def parseGrpcFrame (body : Bytes) : Option (Except Status Bytes) :=
  if body.length < headerLen then
    some (.error (.invalidArgument "incomplete grpc frame header"))
  else do
    let len ← lengthAt body 0
    if body.length < headerLen + len then
      return .error (.invalidArgument "incomplete grpc frame body")
    else
      let data ← slice body headerLen (headerLen + len)
      return .ok data

/-- The loop of `parse_streaming_frames`. -/
def framesFrom (decode : Bytes → Except String α) (body : Bytes) (offset : Nat) (frames : List α) :
    Option (Except Status (List α)) :=
  if offset < body.length then
    if body.length - offset < headerLen then
      some (.error (.invalidArgument "incomplete grpc frame header"))
    else
      match lengthAt body offset with
      | none => none
      | some len =>
        if body.length - offset < headerLen + len then
          some (.error (.invalidArgument "incomplete grpc frame body"))
        else
          match slice body (offset + headerLen) (offset + headerLen + len) with
          | none => none
          | some data =>
            match decode data with
            | .error e => some (.error (.invalidArgument e))
            | .ok req => framesFrom decode body (offset + (headerLen + len)) (frames ++ [req])
  else some (.ok frames)
termination_by body.length - offset
decreasing_by
  simp only [headerLen]
  omega

/-- `parse_streaming_frames`. -/
def parseStreaming (decode : Bytes → Except String α) (body : Bytes) :
    Option (Except Status (List α)) :=
  framesFrom decode body 0 []

/-- The same over what is left of the body. -/
def parseRest (decode : Bytes → Except String α) : Bytes → Except Status (List α)
  | [] => .ok []
  | _ :: a :: b :: c :: d :: rest =>
    if rest.length < fromBeBytes a b c d then
      .error (.invalidArgument "incomplete grpc frame body")
    else
      match decode (rest.take (fromBeBytes a b c d)) with
      | .error e => .error (.invalidArgument e)
      | .ok req => (parseRest decode (rest.drop (fromBeBytes a b c d))).map (req :: ·)
  | _ => .error (.invalidArgument "incomplete grpc frame header")
termination_by body => body.length
decreasing_by
  simp only [List.length_drop, List.length_cons]
  omega

/-- A snapshot's chunks are read so. -/
theorem parseStreamingFrames_eq (codec : Codec) (body : Bytes) :
    parseStreamingFrames codec body = parseRest codec.decode body := by
  fun_induction parseRest codec.decode body with
  | case1 => rw [parseStreamingFrames]
  | case2 flag a b c d rest short => rw [parseStreamingFrames, if_pos short]
  | case3 flag a b c d rest long e failed =>
    rw [parseStreamingFrames, if_neg long]
    simp only [failed]
  | case4 flag a b c d rest long req decoded ih =>
    rw [parseStreamingFrames, if_neg long]
    simp only [decoded, ih]
  | case5 body nonempty short => rw [parseStreamingFrames]; exact nonempty; exact short

/-! ## No index is out of range -/

section

variable {decode : Bytes → Except String α} {body tail : Bytes} {offset len : Nat}
  {flag a b c d : UInt8}

theorem exists_header (long : ¬ body.length < headerLen) :
    ∃ flag a b c d tail, body = flag :: a :: b :: c :: d :: tail := by
  match body, long with
  | flag :: a :: b :: c :: d :: tail, _ => exact ⟨flag, a, b, c, d, tail, rfl⟩
  | [], long | [_], long | [_, _], long | [_, _, _], long | [_, _, _, _], long =>
    exact absurd (by simp [headerLen]) long

theorem parseRest_short (nonempty : body ≠ []) (short : body.length < headerLen) :
    parseRest decode body = .error (.invalidArgument "incomplete grpc frame header") := by
  rw [parseRest]
  · exact nonempty
  · rintro flag a b c d tail rfl
    simp only [List.length_cons, headerLen] at short
    omega

theorem lengthAt_eq (left : body.drop offset = flag :: a :: b :: c :: d :: tail) :
    lengthAt body offset = some (fromBeBytes a b c d) := by
  have at_offset (i : Nat) : body[offset + i]? = (body.drop offset)[i]? := List.getElem?_drop.symm
  have first := at_offset 0
  rw [Nat.add_zero] at first
  simp [lengthAt, first, at_offset, left]

theorem length_of_drop (left : body.drop offset = flag :: a :: b :: c :: d :: tail) :
    body.length - offset = headerLen + tail.length := by
  have length := congrArg List.length left
  simp only [List.length_drop, List.length_cons] at length
  simp only [headerLen]
  omega

theorem drop_header (left : body.drop offset = flag :: a :: b :: c :: d :: tail) :
    body.drop (offset + headerLen) = tail := by
  rw [← List.drop_drop, left]
  rfl

theorem slice_eq (left : body.drop offset = flag :: a :: b :: c :: d :: tail)
    (fits : ¬ body.length - offset < headerLen + len) :
    slice body (offset + headerLen) (offset + headerLen + len) = some (tail.take len) := by
  have bounds : offset + headerLen ≤ offset + headerLen + len ∧
      offset + headerLen + len ≤ body.length := by
    have header : 0 < headerLen := by decide
    omega
  rw [slice, if_pos bounds, drop_header left, Nat.add_sub_cancel_left]

/-- The loop is the reader of what is left, behind the frames it has. -/
theorem framesFrom_eq (decode : Bytes → Except String α) (body : Bytes) (offset : Nat)
    (frames : List α) :
    framesFrom decode body offset frames =
      some ((parseRest decode (body.drop offset)).map (frames ++ ·)) := by
  -- with a whole header, what is left shows its five bytes
  have header {offset : Nat} (long : ¬ body.length - offset < headerLen) :
      ∃ flag a b c d tail, body.drop offset = flag :: a :: b :: c :: d :: tail :=
    exists_header (by rwa [List.length_drop])
  fun_induction framesFrom decode body offset frames with
  | case1 offset frames more short =>
    rw [parseRest_short]
    · rfl
    · exact List.ne_nil_of_length_pos (by rw [List.length_drop]; omega)
    · rwa [List.length_drop]
  | case2 offset frames more long none =>
    obtain ⟨flag, a, b, c, d, tail, left⟩ := header long
    rw [lengthAt_eq left] at none
    cases none
  | case3 offset frames more long len found short =>
    obtain ⟨flag, a, b, c, d, tail, left⟩ := header long
    rw [lengthAt_eq left] at found
    cases found
    rw [length_of_drop left] at short
    rw [left, parseRest, if_pos (by omega)]
    rfl
  | case4 offset frames more long len found fits none =>
    obtain ⟨flag, a, b, c, d, tail, left⟩ := header long
    rw [slice_eq left fits] at none
    cases none
  | case5 offset frames more long len found fits data sliced e failed =>
    obtain ⟨flag, a, b, c, d, tail, left⟩ := header long
    rw [lengthAt_eq left] at found
    cases found
    rw [slice_eq left fits] at sliced
    cases sliced
    rw [length_of_drop left] at fits
    rw [left, parseRest, if_neg (by omega)]
    simp only [failed]
    rfl
  | case6 offset frames more long len found fits data sliced req decoded ih =>
    obtain ⟨flag, a, b, c, d, tail, left⟩ := header long
    rw [lengthAt_eq left] at found
    cases found
    rw [slice_eq left fits] at sliced
    cases sliced
    have next : body.drop (offset + (headerLen + fromBeBytes a b c d)) =
        tail.drop (fromBeBytes a b c d) := by
      rw [← Nat.add_assoc, ← List.drop_drop, drop_header left]
    rw [length_of_drop left] at fits
    rw [ih, next, left, parseRest, if_neg (by omega)]
    simp only [decoded]
    cases parseRest decode (tail.drop (fromBeBytes a b c d)) <;> simp [Except.map]
  | case7 offset frames done =>
    rw [List.drop_eq_nil_of_le (Nat.le_of_not_lt done), parseRest]
    simp [Except.map]

theorem parseStreaming_eq (decode : Bytes → Except String α) (body : Bytes) :
    parseStreaming decode body = some (parseRest decode body) := by
  rw [parseStreaming, framesFrom_eq, List.drop_zero]
  cases parseRest decode body <;> rfl

/-- One frame of a body, or what is missing of it. -/
theorem parseGrpcFrame_eq (body : Bytes) :
    parseGrpcFrame body = some (match body with
      | _ :: a :: b :: c :: d :: rest =>
        if rest.length < fromBeBytes a b c d then
          .error (.invalidArgument "incomplete grpc frame body")
        else .ok (rest.take (fromBeBytes a b c d))
      | _ => .error (.invalidArgument "incomplete grpc frame header")) := by
  unfold parseGrpcFrame
  by_cases short : body.length < headerLen
  · rw [if_pos short]
    split
    · simp only [List.length_cons, headerLen] at short
      omega
    · rfl
  · obtain ⟨flag, a, b, c, d, tail, rfl⟩ := exists_header short
    have left : (flag :: a :: b :: c :: d :: tail).drop 0 = flag :: a :: b :: c :: d :: tail := rfl
    have length := length_of_drop left
    rw [Nat.sub_zero] at length
    rw [if_neg short, lengthAt_eq left]
    simp only [Option.bind_eq_bind, Option.bind_some]
    rw [length]
    by_cases cut : tail.length < fromBeBytes a b c d
    · rw [if_pos (by omega), if_pos cut]
      rfl
    · have fits : ¬ (flag :: a :: b :: c :: d :: tail).length - 0 <
          headerLen + fromBeBytes a b c d := by
        rw [Nat.sub_zero, length]
        omega
      have data := slice_eq left fits
      rw [Nat.zero_add] at data
      rw [if_neg (by omega), if_neg cut, data]
      rfl

end

theorem parseGrpcFrame_grpcFrame {msg : Bytes} (small : msg.length < 2 ^ 32) :
    parseGrpcFrame (grpcFrame msg) = some (.ok msg) := by
  rw [parseGrpcFrame_eq, grpcFrame, Nat.mod_eq_of_lt small]
  simp [toBeBytes, fromBeBytes_toBeBytes small]

theorem frame_small {msg : Bytes} (small : msg.length < 2 ^ 32) : frame msg = .ok (grpcFrame msg) := by
  rw [frame, if_pos small, grpcFrame, Nat.mod_eq_of_lt small]

/-! ## What is written is read back -/

section

variable (codec : MessageCodec α) {msgs : List α} {msg : α}

/-- The lengths of the messages fit their fields. -/
def LengthsFit (msgs : List α) : Prop := ∀ msg ∈ msgs, (codec.encode msg).length < 2 ^ 32

variable {codec}

theorem parseRest_frame (small : (codec.encode msg).length < 2 ^ 32) (rest : Bytes) :
    parseRest codec.decode (grpcFrame (codec.encode msg) ++ rest) =
      (parseRest codec.decode rest).map (msg :: ·) := by
  rw [grpcFrame, Nat.mod_eq_of_lt small]
  simp only [toBeBytes, List.cons_append, List.nil_append]
  rw [parseRest, fromBeBytes_toBeBytes small, if_neg (by simp), List.take_left, List.drop_left]
  simp only [codec.lossless]

theorem parseRest_frames (fits : LengthsFit codec msgs) (rest : Bytes) :
    parseRest codec.decode (createGrpcStreamingResponse codec msgs ++ rest) =
      (parseRest codec.decode rest).map (msgs ++ ·) := by
  induction msgs with
  | nil =>
    rw [createGrpcStreamingResponse, List.nil_append]
    cases parseRest codec.decode rest <;> rfl
  | cons msg msgs ih =>
    have later := ih fun m member => fits m (List.mem_cons_of_mem _ member)
    rw [createGrpcStreamingResponse, List.append_assoc,
      parseRest_frame (fits msg List.mem_cons_self), later]
    cases parseRest codec.decode rest <;> rfl

/-- A frame that is cut has no whole header, or less than the header says. -/
theorem cut_frame {p : Bytes} (small : (codec.encode msg).length < 2 ^ 32)
    (cut : p <+: grpcFrame (codec.encode msg)) (shorter : p ≠ grpcFrame (codec.encode msg)) :
    p.length < headerLen ∨ ∃ flag a b c d tail, p = flag :: a :: b :: c :: d :: tail ∧
      tail.length < fromBeBytes a b c d := by
  have frame : grpcFrame (codec.encode msg) = 0 :: (toBeBytes (codec.encode msg).length ++
      codec.encode msg) := by
    rw [grpcFrame, Nat.mod_eq_of_lt small]
  by_cases short : p.length < headerLen
  · exact .inl short
  · obtain ⟨flag, a, b, c, d, tail, rfl⟩ := exists_header short
    rw [frame] at cut shorter
    simp only [toBeBytes, List.cons_append, List.nil_append, List.cons_prefix_cons] at cut
    obtain ⟨rfl, rfl, rfl, rfl, rfl, start⟩ := cut
    refine .inr ⟨_, _, _, _, _, tail, rfl, ?_⟩
    rw [fromBeBytes_toBeBytes small]
    refine lt_of_le_of_ne start.length_le fun same => shorter ?_
    rw [start.eq_of_length same]
    rfl

theorem parseRest_cut {p : Bytes} (small : (codec.encode msg).length < 2 ^ 32)
    (cut : p <+: grpcFrame (codec.encode msg)) (nonempty : p ≠ [])
    (shorter : p ≠ grpcFrame (codec.encode msg)) :
    ∃ status, parseRest codec.decode p = .error status := by
  rcases cut_frame small cut shorter with short | ⟨flag, a, b, c, d, tail, rfl, less⟩
  · exact ⟨_, parseRest_short nonempty short⟩
  · rw [parseRest, if_pos less]
    exact ⟨_, rfl⟩

theorem parseGrpcFrame_cut {p : Bytes} (small : (codec.encode msg).length < 2 ^ 32)
    (cut : p <+: grpcFrame (codec.encode msg)) (shorter : p ≠ grpcFrame (codec.encode msg)) :
    ∃ status, parseGrpcFrame p = some (.error status) := by
  rcases cut_frame small cut shorter with short | ⟨flag, a, b, c, d, tail, rfl, less⟩
  · rw [parseGrpcFrame, if_pos short]
    exact ⟨_, rfl⟩
  · rw [parseGrpcFrame_eq]
    exact ⟨_, congrArg some (if_pos less)⟩

/-- A start of a body is whole frames, or ends in a frame that is cut. -/
theorem prefix_cases {p : Bytes} (cut : p <+: createGrpcStreamingResponse codec msgs) :
    (∃ k, p = createGrpcStreamingResponse codec (msgs.take k)) ∨
    ∃ before msg q, before ++ [msg] <+: msgs ∧ p = createGrpcStreamingResponse codec before ++ q ∧
      q <+: grpcFrame (codec.encode msg) ∧ q ≠ [] ∧ q ≠ grpcFrame (codec.encode msg) := by
  induction msgs generalizing p with
  | nil => exact .inl ⟨0, List.prefix_nil.1 cut⟩
  | cons msg msgs ih =>
    rw [createGrpcStreamingResponse] at cut
    rcases List.prefix_or_prefix_of_prefix cut (List.prefix_append _ _) with inside | ⟨rest, rfl⟩
    · by_cases empty : p = []
      · exact .inl ⟨0, empty⟩
      · by_cases whole : p = grpcFrame (codec.encode msg)
        · exact .inl ⟨1, by simp [whole, createGrpcStreamingResponse]⟩
        · exact .inr ⟨[], msg, p, by simp, rfl, inside, empty, whole⟩
    · rcases ih ((List.prefix_append_right_inj _).1 cut) with
        ⟨k, rfl⟩ | ⟨before, next, q, start, rfl, inside, nonempty, shorter⟩
      · exact .inl ⟨k + 1, by rw [List.take_succ_cons, createGrpcStreamingResponse]⟩
      · refine .inr ⟨msg :: before, next, q, ?_, ?_, inside, nonempty, shorter⟩
        · rw [List.cons_append, List.prefix_cons_inj]
          exact start
        · rw [createGrpcStreamingResponse, List.append_assoc]

theorem parseRest_prefix (fits : LengthsFit codec msgs) {p : Bytes}
    (cut : p <+: createGrpcStreamingResponse codec msgs)
    (inside : ∀ k, p ≠ createGrpcStreamingResponse codec (msgs.take k)) :
    ∃ status, parseRest codec.decode p = .error status := by
  rcases prefix_cases cut with ⟨k, whole⟩ | ⟨before, msg, q, start, rfl, within, nonempty, shorter⟩
  · exact absurd whole (inside k)
  · have members : ∀ m ∈ before ++ [msg], (codec.encode m).length < 2 ^ 32 :=
      fun m member => fits m (start.subset member)
    have fitsBefore : LengthsFit codec before :=
      fun m member => members m (List.mem_append_left _ member)
    have small := members msg (List.mem_append_right _ List.mem_cons_self)
    obtain ⟨status, refused⟩ := parseRest_cut small within nonempty shorter
    rw [parseRest_frames fitsBefore, refused]
    exact ⟨status, rfl⟩

end

/-- **Frames.** The frames that are written are read back; a start of them that ends inside a frame is
an error, as is one of a single frame; and on no bytes at all is an index out of range. -/
theorem framing_round_trip (codec : MessageCodec α) :
    (∀ msgs, LengthsFit codec msgs →
      parseStreaming codec.decode (createGrpcStreamingResponse codec msgs) = some (.ok msgs) ∧
      ∀ p, p <+: createGrpcStreamingResponse codec msgs →
        (∀ k, p ≠ createGrpcStreamingResponse codec (msgs.take k)) →
        ∃ status, parseStreaming codec.decode p = some (.error status)) ∧
    (∀ msg, (codec.encode msg).length < 2 ^ 32 →
      parseGrpcFrame (createGrpcResponse codec msg) = some (.ok (codec.encode msg)) ∧
      ∀ p, p <+: createGrpcResponse codec msg → p ≠ createGrpcResponse codec msg →
        ∃ status, parseGrpcFrame p = some (.error status)) ∧
    ∀ (decode : Bytes → Except String α) (body : Bytes),
      (parseStreaming decode body).isSome = true ∧ (parseGrpcFrame body).isSome = true := by
  refine ⟨fun msgs fits => ⟨?_, fun p cut inside => ?_⟩, fun msg small => ⟨?_, fun p cut shorter => ?_⟩,
    fun decode body => ⟨?_, ?_⟩⟩
  · have whole := parseRest_frames fits []
    rw [List.append_nil, parseRest] at whole
    rw [parseStreaming_eq, whole]
    simp [Except.map]
  · obtain ⟨status, refused⟩ := parseRest_prefix fits cut inside
    exact ⟨status, by rw [parseStreaming_eq, refused]⟩
  · rw [parseGrpcFrame_eq, createGrpcResponse, grpcFrame, Nat.mod_eq_of_lt small]
    simp [toBeBytes, fromBeBytes_toBeBytes small]
  · exact parseGrpcFrame_cut small cut shorter
  · rw [parseStreaming_eq]
    rfl
  · rw [parseGrpcFrame_eq]
    rfl

/-- A message with one flag as `prost` writes it: nothing when it is not set. -/
def flagCodec : MessageCodec Bool where
  encode flag := if flag then [8, 1] else []
  decode msg :=
    if msg = [] then .ok false
    else if msg = [8, 1] then .ok true
    else .error "failed to decode Protobuf message"
  lossless flag := by cases flag <;> rfl

theorem framing_round_trip_sample :
    createGrpcStreamingResponse flagCodec [true, false, true] =
        [0, 0, 0, 0, 2, 8, 1, 0, 0, 0, 0, 0, 0, 0, 0, 0, 2, 8, 1] ∧
      parseStreaming flagCodec.decode (createGrpcStreamingResponse flagCodec [true, false, true]) =
        some (.ok [true, false, true]) :=
  ⟨rfl, ((framing_round_trip flagCodec).1 [true, false, true] (by simp [LengthsFit, flagCodec])).1⟩

/-- Some codec writes the one message as given. -/
theorem exists_codec [Countable α] [DecidableEq α] (m : α) (text : Bytes) (plain : ∃ b ∈ text, b ≠ 0) :
    ∃ codec : MessageCodec α, codec.encode m = text := by
  have : Nonempty α := ⟨m⟩
  obtain ⟨write, read, known, lossless⟩ := exists_lossless_on [(m, text)] (by simp) (by simp) (by simpa using plain)
  exact ⟨⟨write, read, lossless⟩, known _ List.mem_cons_self⟩

end Save.Rpc
