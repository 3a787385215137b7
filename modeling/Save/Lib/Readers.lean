import Save.Lib.Files

/-!
# Asynchronous readers

A reader is polled with a buffer that may be partly filled; what it reads goes
behind what is there. `Delivers` is the contract under which polls, whatever their
buffers and however many of them are pending, hand out a text of bytes piece by
piece. A reader over a stream of chunks meets it for every split of the bytes into
chunks (`StreamReader.delivers`).
-/

namespace Save.Readers
set_option autoImplicit false
open Save.Files

/-- A buffer that is filled from its start. -/
structure ReadBuf where
  filled : Bytes
  capacity : Nat
  fits : filled.length ≤ capacity

def ReadBuf.remaining (buf : ReadBuf) : Nat := buf.capacity - buf.filled.length

/-- Adds what there is room for. -/
def ReadBuf.putSlice (buf : ReadBuf) (bytes : Bytes) : ReadBuf where
  filled := buf.filled ++ bytes.take buf.remaining
  capacity := buf.capacity
  fits := by
    have := buf.fits
    simp only [List.length_append, List.length_take, ReadBuf.remaining]
    omega

inductive Poll where
  | pending
  | ready (result : Except String Unit)
  deriving DecidableEq

class AsyncRead (R : Type) where
  pollRead : R → ReadBuf → R × ReadBuf × Poll

/-- `Left r left`: the reader `r` has the bytes `left` still to deliver. A poll that is ready appends
the next of them, and none only at their end or without room; a pending one appends nothing. What a
reader does with a buffer when it fails, and after that, is left open. -/
structure Delivers {R : Type} [AsyncRead R] (Left : R → Bytes → Prop) : Prop where
  ready : ∀ r left (buf : ReadBuf), Left r left → (AsyncRead.pollRead r buf).2.2 = .ready (.ok ()) →
    ∃ new rest, left = new ++ rest ∧ (AsyncRead.pollRead r buf).2.1.filled = buf.filled ++ new ∧
      Left (AsyncRead.pollRead r buf).1 rest ∧ (new = [] → buf.remaining = 0 ∨ left = [])
  pending : ∀ r left (buf : ReadBuf), Left r left → (AsyncRead.pollRead r buf).2.2 = .pending →
    (AsyncRead.pollRead r buf).2.1.filled = buf.filled ∧ Left (AsyncRead.pollRead r buf).1 left

/-! ## A reader over a stream of chunks -/

/-- What polling the stream gives. -/
inductive StreamItem where
  | pending
  | chunk (bytes : Bytes)
  | error (msg : String)
  deriving DecidableEq

def StreamItem.bytes : StreamItem → Bytes
  | .chunk bytes => bytes
  | _ => []

structure StreamReader where
  /-- What is left of the current chunk. -/
  chunk : Bytes
  stream : List StreamItem
  deriving DecidableEq

/-- Polls the stream up to a chunk that is not empty. -/
def pollChunk : List StreamItem → StreamReader × Poll
  | [] => (⟨[], []⟩, .ready (.ok ()))
  | .pending :: rest => (⟨[], rest⟩, .pending)
  | .error msg :: rest => (⟨[], rest⟩, .ready (.error msg))
  | .chunk bytes :: rest => if bytes = [] then pollChunk rest else (⟨bytes, rest⟩, .ready (.ok ()))

def StreamReader.pollFillBuf (r : StreamReader) : StreamReader × Poll :=
  if r.chunk = [] then pollChunk r.stream else (r, .ready (.ok ()))

def StreamReader.pollRead (r : StreamReader) (buf : ReadBuf) : StreamReader × ReadBuf × Poll :=
  if buf.remaining = 0 then (r, buf, .ready (.ok ()))
  else
    match r.pollFillBuf with
    | (r, .pending) => (r, buf, .pending)
    | (r, .ready (.error msg)) => (r, buf, .ready (.error msg))
    | (r, .ready (.ok _)) =>
      ({ r with chunk := r.chunk.drop buf.remaining }, buf.putSlice r.chunk, .ready (.ok ()))

instance : AsyncRead StreamReader := ⟨StreamReader.pollRead⟩

/-- The bytes that are still to come. -/
def StreamReader.left (r : StreamReader) : Bytes := r.chunk ++ (r.stream.map StreamItem.bytes).flatten

theorem pollChunk_left (stream : List StreamItem) :
    (pollChunk stream).1.left = (stream.map StreamItem.bytes).flatten := by
  fun_induction pollChunk stream with
  | case1 => rfl
  | case2 rest => rfl
  | case3 msg rest => rfl
  | case4 rest ih => rw [ih]; rfl
  | case5 bytes rest filled => rfl

theorem pollChunk_chunk {stream : List StreamItem} (ready : (pollChunk stream).2 = .ready (.ok ()))
    (empty : (pollChunk stream).1.chunk = []) : (pollChunk stream).1.left = [] := by
  revert ready empty
  fun_induction pollChunk stream with
  | case1 => exact fun _ _ => rfl
  | case2 rest => nofun
  | case3 msg rest => nofun
  | case4 rest ih => exact ih
  | case5 bytes rest filled => exact fun _ empty => absurd empty filled

theorem StreamReader.pollFillBuf_left (r : StreamReader) : r.pollFillBuf.1.left = r.left := by
  unfold pollFillBuf
  split
  · rename_i empty
    rw [pollChunk_left, StreamReader.left, empty, List.nil_append]
  · rfl

/-- An empty chunk means the end. -/
theorem StreamReader.pollFillBuf_chunk {r : StreamReader} (ready : r.pollFillBuf.2 = .ready (.ok ()))
    (empty : r.pollFillBuf.1.chunk = []) : r.pollFillBuf.1.left = [] := by
  unfold pollFillBuf at ready empty ⊢
  split at ready
  · rename_i none
    rw [if_pos none] at empty ⊢
    exact pollChunk_chunk ready empty
  · rename_i some
    rw [if_neg some] at empty
    exact absurd empty some

/-- Every split of a body into chunks, with pending polls between them, delivers the body. -/
theorem StreamReader.delivers : Delivers fun (r : StreamReader) left => r.left = left where
  ready := by
    rintro r left buf rfl ready
    have same := r.pollFillBuf_left
    have atEnd := StreamReader.pollFillBuf_chunk (r := r)
    simp only [AsyncRead.pollRead, StreamReader.pollRead] at ready ⊢
    by_cases full : buf.remaining = 0
    · simp only [if_pos full]
      exact ⟨[], r.left, rfl, (List.append_nil _).symm, rfl, fun _ => .inl full⟩
    · simp only [if_neg full] at ready ⊢
      generalize r.pollFillBuf = filled at same atEnd ready ⊢
      obtain ⟨r', _ | _ | _⟩ := filled
      · cases ready
      · cases ready
      · refine ⟨r'.chunk.take buf.remaining, _, ?_, rfl, rfl, fun none => .inr ?_⟩
        · rw [← same, StreamReader.left, StreamReader.left, ← List.append_assoc,
            List.take_append_drop]
        · rw [← same]
          exact atEnd rfl ((List.take_eq_nil_iff.1 none).resolve_left full)
  pending := by
    rintro r left buf rfl pending
    have same := r.pollFillBuf_left
    simp only [AsyncRead.pollRead, StreamReader.pollRead] at pending ⊢
    by_cases full : buf.remaining = 0
    · rw [if_pos full] at pending
      cases pending
    · simp only [if_neg full] at pending ⊢
      generalize r.pollFillBuf = filled at same pending ⊢
      obtain ⟨r', _ | _ | _⟩ := filled
      · exact ⟨rfl, same⟩
      · cases pending
      · cases pending

end Save.Readers
