import Save.Storage.TempWrite

/-!
# The digest of an upload

`put_object` wraps the body in a `HashingReader` (`handlers/objects/put.rs`), which
hashes the part of the caller's buffer that lies between its lengths before and
after a poll, and takes etag and size from it once `write_temp_object` has returned.
They are those of the bytes in the temp file, which are the body, for every body,
split and schedule (`put_digest_exact`).
-/

namespace Save.Api
set_option autoImplicit false
open Save.Files Save.Readers Save.Storage Save.Run

/-! ## The reader -/

structure HashingReader (R : Type) where
  inner : R
  /-- What has gone into the `Sha256`. -/
  hasher : Bytes
  size : UInt64
  deriving DecidableEq

variable {R : Type}

def HashingReader.new (inner : R) : HashingReader R := ⟨inner, [], 0⟩

def HashingReader.finalize [Sha256] (r : HashingReader R) : String × UInt64 :=
  (Sha256.digest r.hasher, r.size)

def HashingReader.pollRead [AsyncRead R] (r : HashingReader R) (buf : ReadBuf) :
    HashingReader R × ReadBuf × Poll :=
  let beforeLen := buf.filled.length
  match AsyncRead.pollRead r.inner buf with
  | (inner, buf, .ready (.ok _)) =>
    let afterLen := buf.filled.length
    let newData := (buf.filled.take afterLen).drop beforeLen
    (⟨inner, r.hasher ++ newData, r.size + UInt64.ofNat (afterLen - beforeLen)⟩, buf, .ready (.ok ()))
  | (inner, buf, .ready (.error msg)) => ({ r with inner }, buf, .ready (.error msg))
  | (inner, buf, .pending) => ({ r with inner }, buf, .pending)

instance [AsyncRead R] : AsyncRead (HashingReader R) := ⟨HashingReader.pollRead⟩

/-! ## What it has hashed -/

variable {Left : R → Bytes → Prop} {body : Bytes}

/-- The reader has hashed the body up to what its inner reader has left. -/
structure HashingReader.Hashes (Left : R → Bytes → Prop) (body : Bytes) (r : HashingReader R)
    (left : Bytes) : Prop where
  inner : Left r.inner left
  hashed : r.hasher ++ left = body
  size : r.size = UInt64.ofNat r.hasher.length

theorem HashingReader.hashes_new {inner : R} (here : Left inner body) :
    Hashes Left body (.new inner) body := ⟨here, rfl, rfl⟩

/-- It delivers what its inner reader does, and hashes it on the way. -/
theorem HashingReader.delivers [AsyncRead R] (delivers : Delivers Left) :
    Delivers (Hashes Left body) where
  ready := by
    intro r left buf here ready
    have whenReady := delivers.ready r.inner left buf here.inner
    simp only [AsyncRead.pollRead, HashingReader.pollRead] at ready ⊢
    generalize AsyncRead.pollRead r.inner buf = answer at whenReady ready ⊢
    obtain ⟨inner, buf', _ | _ | _⟩ := answer
    · cases ready
    · cases ready
    · obtain ⟨new, rest, split, added, later, ended⟩ := whenReady rfl
      -- the slice between the lengths before and after the poll
      have slice : (buf'.filled.take buf'.filled.length).drop buf.filled.length = new := by
        rw [List.take_length, added, List.drop_left]
      have grown : buf'.filled.length - buf.filled.length = new.length := by
        rw [added, List.length_append, Nat.add_sub_cancel_left]
      refine ⟨new, rest, split, added, ⟨later, ?_, ?_⟩, ended⟩
      · simp only [slice]
        rw [List.append_assoc, ← split, here.hashed]
      · simp only [slice, grown]
        rw [List.length_append, UInt64.ofNat_add, here.size]
  pending := by
    intro r left buf here pending
    have whenPending := delivers.pending r.inner left buf here.inner
    simp only [AsyncRead.pollRead, HashingReader.pollRead] at pending ⊢
    generalize AsyncRead.pollRead r.inner buf = answer at whenPending pending ⊢
    obtain ⟨inner, buf', _ | _ | _⟩ := answer
    · obtain ⟨same, later⟩ := whenPending rfl
      exact ⟨same, later, here.hashed, here.size⟩
    · cases pending
    · cases pending

/-- At the end, `finalize` returns the digest and the length of the body. -/
theorem HashingReader.Hashes.finalize [Sha256] {r : HashingReader R} (last : Hashes Left body r [])
    (fits : body.length ≤ maxFileLength) :
    r.finalize.1 = Sha256.digest body ∧ r.finalize.2.toNat = body.length := by
  have hashed : r.hasher = body := by
    rw [← last.hashed, List.append_nil]
  have small : body.length < 2 ^ 64 := Nat.lt_of_le_of_lt fits (by decide)
  refine ⟨congrArg Sha256.digest hashed, ?_⟩
  rw [HashingReader.finalize, last.size, hashed, UInt64.toNat_ofNat_of_lt' small]

/-! ## An upload -/

/-- When the temp file of an upload is written, its bytes are the body, and what `finalize` returns is
their digest and their length. -/
theorem put_digest_exact [Sha256] [AsyncRead R] (delivers : Delivers Left) (s : ObjectStorage)
    (key : String) (fs : Fs) {body : Bytes} {inner : R} (here : Left inner body)
    {events : List TempEvent} {w : TempWrite (HashingReader R)}
    (ran : exec (TempWrite.step s key) ⟨fs, .new inner, .start⟩ events = some w) {t : TempObject}
    (written : w.stage = .written t) :
    ∃ bytes, w.fs.read t.tempPath = some bytes ∧ bytes = body ∧
      w.reader.finalize.1 = Sha256.digest bytes ∧ w.reader.finalize.2.toNat = bytes.length := by
  obtain ⟨content, last, fits⟩ := TempWrite.written_file (HashingReader.delivers delivers)
    (HashingReader.hashes_new here) ran written
  exact ⟨body, content, rfl, last.finalize fits⟩

/-- Three bytes in two chunks, behind an empty one and between pending polls. -/
def sampleStream : StreamReader :=
  ⟨[], [.pending, .chunk [1, 2], .chunk [], .pending, .chunk [3]]⟩

/-- The samples and the digest of these bytes. -/
def streamDigest (b : Bytes) : String :=
  if b = [1, 2, 3] then "039058c6f2c0cb492c533b0a4d14ef77cc0f78abccced5287d84a1a2011cfb81"
  else Sha256.sample b

theorem streamDigest_form (b : Bytes) :
    (streamDigest b).toList.length = 64 ∧ ∀ c ∈ (streamDigest b).toList, hexChar c = true := by
  unfold streamDigest
  split
  · exact (isDigest_iff _).1 (by decide +kernel)
  · exact Sha256.sample_form b

@[reducible] def sampleStreamDigest : Sha256 :=
  ⟨streamDigest, fun b => (streamDigest_form b).1, fun b => (streamDigest_form b).2⟩

/-- The first byte is taken before the last chunk is read behind the two. -/
def sampleSchedule : List TempEvent :=
  [.next, .next, .poll 2, .poll 2, .write 0, .poll 3, .poll 4, .write 1, .store 0, .restart, .poll 1,
    .next, .store 5, .next, .next]

theorem put_digest_sample :
    ∃ w, @exec _ _ (@TempWrite.step sampleStreamDigest _ _ sampleStorage "abc/k")
        ⟨.empty, .new sampleStream, .start⟩ sampleSchedule = some w ∧
      w.fs.read ["data", "temp",
        "a74642e4165c62ea85d1004f1f6b02c40b68017e16f6631ceefc306ee265e11b.tmp"] = some [1, 2, 3] ∧
      @HashingReader.finalize _ sampleStreamDigest w.reader =
        ("039058c6f2c0cb492c533b0a4d14ef77cc0f78abccced5287d84a1a2011cfb81", 3) := by
  let _ := sampleStreamDigest
  let start : TempWrite (HashingReader StreamReader) := ⟨.empty, .new sampleStream, .start⟩
  obtain ⟨w, ran, stage⟩ : ∃ w, exec (TempWrite.step sampleStorage "abc/k") start sampleSchedule =
      some w ∧ w.stage = .written ⟨["data", "temp",
        "a74642e4165c62ea85d1004f1f6b02c40b68017e16f6631ceefc306ee265e11b.tmp"], ["data", "objects",
        "a7", "a74642e4165c62ea85d1004f1f6b02c40b68017e16f6631ceefc306ee265e11b"]⟩ := by
    rw [← Option.map_eq_some_iff]
    decide +kernel
  obtain ⟨bytes, content, rfl, digest, size⟩ := put_digest_exact StreamReader.delivers sampleStorage
    "abc/k" .empty (show sampleStream.left = [1, 2, 3] from rfl) ran stage
  refine ⟨w, ran, content, Prod.ext digest ?_⟩
  exact UInt64.toNat_inj.1 size

end Save.Api
