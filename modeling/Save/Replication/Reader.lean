import Save.Lib.Files
import Save.Lib.Run

/-!
# Reading from a replica

`ReplicationService::read_object` (`replication/service.rs`) turns a file into
responses, and `StreamingReader` (`replication/client.rs`) turns responses into
bytes: a task takes the responses off the stream and puts their bytes into a channel
of four places, the consumer polls with buffers of any size. Every run of the two
ends with what the stream says (`Reader.Sound`), whatever the buffers and the
interleaving. A read error on the replica is logged, the chunk before it is marked
as the last one, and the reader takes what there is for the file: `remote_read_iff`.
-/

namespace Save.Replication
set_option autoImplicit false
open Save.Files Save.Run

/-! ## The replica -/

structure ReadObjectResponse where
  chunk : Bytes
  isLast : Bool
  totalSize : Nat
  deriving DecidableEq, Repr

/-- What the reads of the file return: pieces, and then the end of the file or an error. -/
structure FileRead where
  pieces : List Bytes
  failed : Option String

/-- The reads are of a file with this content. -/
def FileRead.Of (data : Bytes) (r : FileRead) : Prop :=
  (∀ p ∈ r.pieces, p ≠ [] ∧ p.length ≤ 64 * 1024) ∧
    match r.failed with
    | none => r.pieces.flatten = data
    | some _ => r.pieces.flatten <+: data

/-- The loop of `read_object`. -/
def readLoop (failed : Option String) : List ReadObjectResponse → List Bytes → List ReadObjectResponse
  | chunks, [] =>
    match failed with
    | none => if chunks.isEmpty then [⟨[], true, 0⟩] else chunks
    | some _ => chunks
  | chunks, p :: ps => readLoop failed (chunks ++ [⟨p, false, 0⟩]) ps

def setTotalSize (total : Nat) : List ReadObjectResponse → List ReadObjectResponse
  | [] => []
  | first :: rest => { first with totalSize := total } :: rest

def setLast : List ReadObjectResponse → List ReadObjectResponse
  | [] => []
  | [last] => [{ last with isLast := true }]
  | first :: rest => first :: setLast rest

/-- `read_object`, once the file is open. -/
def readObject (r : FileRead) : List ReadObjectResponse :=
  setLast (setTotalSize r.pieces.flatten.length (readLoop r.failed [] r.pieces))

/-! ## The reader -/

/-- What `stream.message()` returns, one after the other: all responses, or some of them and then a
transport error. -/
def deliver (responses : List ReadObjectResponse) :
    Option (Nat × String) → List (Except String ReadObjectResponse)
  | none => responses.map .ok
  | some (n, e) => (responses.take n).map .ok ++ [.error e]

structure Reader where
  stream : List (Except String ReadObjectResponse)
  /-- The task runs; the channel closes with it. -/
  sending : Bool
  channel : List (Except String Bytes)
  buffer : Bytes
  /-- The bytes the consumer has got. -/
  taken : Bytes
  /-- How reading has ended for the consumer. -/
  ended : Option (Except String Unit)

def Reader.start (stream : List (Except String ReadObjectResponse)) : Reader :=
  ⟨stream, true, [], [], [], none⟩

inductive ReaderEvent where
  /-- The task takes the next message. -/
  | send
  /-- The consumer polls with room for `n + 1` bytes. -/
  | poll (n : Nat)

def Reader.step (r : Reader) : ReaderEvent → Option Reader
  | .send =>
    if r.sending then
      match r.stream with
      | [] => some { r with sending := false }
      | .ok message :: rest =>
        if message.chunk = [] then some { r with stream := rest, sending := !message.isLast }
        else if r.channel.length < 4 then
          some { r with
            stream := rest
            sending := !message.isLast
            channel := r.channel ++ [.ok message.chunk] }
        else none
      | .error e :: rest =>
        if r.channel.length < 4 then
          some { r with stream := rest, sending := false, channel := r.channel ++ [.error e] }
        else none
    else none
  | .poll n =>
    if r.ended.isSome then none
    else if r.buffer ≠ [] then
      some { r with taken := r.taken ++ r.buffer.take (n + 1), buffer := r.buffer.drop (n + 1) }
    else
      match r.channel with
      | .ok data :: channel =>
        some { r with
          channel
          taken := r.taken ++ data.take (n + 1)
          buffer := data.drop (n + 1)
          -- no bytes mean the end to the consumer
          ended := if data = [] then some (.ok ()) else none }
      | .error e :: channel => some { r with channel, ended := some (.error e) }
      | [] => if r.sending then none else some { r with ended := some (.ok ()) }

/-- The steps of the task and the consumer, with what each has found. -/
inductive Reads (r : Reader) : ReaderEvent → Reader → Prop where
  | close (sending : r.sending = true) (stream : r.stream = []) :
      Reads r .send { r with sending := false }
  | skip {message : ReadObjectResponse} {rest : List (Except String ReadObjectResponse)}
      (sending : r.sending = true) (stream : r.stream = .ok message :: rest)
      (empty : message.chunk = []) :
      Reads r .send { r with stream := rest, sending := !message.isLast }
  | push {message : ReadObjectResponse} {rest : List (Except String ReadObjectResponse)}
      (sending : r.sending = true) (stream : r.stream = .ok message :: rest)
      (filled : message.chunk ≠ []) :
      Reads r .send { r with
        stream := rest
        sending := !message.isLast
        channel := r.channel ++ [.ok message.chunk] }
  | pushError {e : String} {rest : List (Except String ReadObjectResponse)}
      (sending : r.sending = true) (stream : r.stream = .error e :: rest) :
      Reads r .send { r with stream := rest, sending := false, channel := r.channel ++ [.error e] }
  | buffered (n : Nat) (going : r.ended = none) (left : r.buffer ≠ []) :
      Reads r (.poll n)
        { r with taken := r.taken ++ r.buffer.take (n + 1), buffer := r.buffer.drop (n + 1) }
  | receive (n : Nat) {data : Bytes} {channel : List (Except String Bytes)} (going : r.ended = none)
      (empty : r.buffer = []) (queued : r.channel = .ok data :: channel) :
      Reads r (.poll n) { r with
        channel
        taken := r.taken ++ data.take (n + 1)
        buffer := data.drop (n + 1)
        ended := if data = [] then some (.ok ()) else none }
  | fail (n : Nat) {e : String} {channel : List (Except String Bytes)} (going : r.ended = none)
      (empty : r.buffer = []) (queued : r.channel = .error e :: channel) :
      Reads r (.poll n) { r with channel, ended := some (.error e) }
  | finish (n : Nat) (going : r.ended = none) (empty : r.buffer = []) (queued : r.channel = [])
      (stopped : r.sending = false) : Reads r (.poll n) { r with ended := some (.ok ()) }

theorem Reader.step_cases {r r' : Reader} {e : ReaderEvent} (step : r.step e = some r') :
    Reads r e r' := by
  cases e with
  | send =>
    simp only [Reader.step] at step
    split at step
    · rename_i sending
      split at step
      · rename_i stream
        cases step
        exact .close sending stream
      · rename_i message rest stream
        split at step
        · rename_i empty
          cases step
          exact .skip sending stream empty
        · rename_i filled
          split at step
          · cases step
            exact .push sending stream filled
          · cases step
      · rename_i e rest stream
        split at step
        · cases step
          exact .pushError sending stream
        · cases step
    · cases step
  | poll n =>
    simp only [Reader.step] at step
    split at step
    · cases step
    · rename_i open_
      have going : r.ended = none := by simpa using open_
      split at step
      · rename_i left
        cases step
        exact .buffered n going left
      · rename_i used
        have empty : r.buffer = [] := by simpa using used
        split at step
        · rename_i data channel queued
          cases step
          exact .receive n going empty queued
        · rename_i e channel queued
          cases step
          exact .fail n going empty queued
        · rename_i queued
          split at step
          · cases step
          · rename_i stopped
            cases step
            exact .finish n going empty queued (eq_false_of_ne_true stopped)

/-- When reading ends normally, it has got the whole content. -/
def Reader.AllOrError (data : Bytes) (r : Reader) : Prop := r.ended = some (.ok ()) → r.taken = data

/-! ## Every run reaches its end -/

def streamWork : Except String ReadObjectResponse → Nat
  | .ok message => 2 + message.chunk.length
  | .error _ => 2

def channelWork : Except String Bytes → Nat
  | .ok data => 1 + data.length
  | .error _ => 1

def totalWork {α : Type} (work : α → Nat) : List α → Nat
  | [] => 0
  | a :: rest => work a + totalWork work rest

theorem totalWork_append {α : Type} (work : α → Nat) (first rest : List α) :
    totalWork work (first ++ rest) = totalWork work first + totalWork work rest := by
  induction first with
  | nil => simp [totalWork]
  | cons a first ih =>
    simp only [List.cons_append, totalWork, ih]
    omega

/-- What is left to do. -/
def Reader.work (r : Reader) : Nat :=
  totalWork streamWork r.stream + totalWork channelWork r.channel + r.buffer.length +
    (if r.sending then 1 else 0) + (if r.ended.isSome then 0 else 1)

theorem Reader.step_work (r : Reader) (e : ReaderEvent) (r' : Reader) (step : r.step e = some r') :
    r'.work < r.work := by
  have flag : ∀ b : Bool, (if b = true then 1 else 0) ≤ 1 := by
    intro b
    cases b <;> simp
  have left : ∀ b : Bool, (if b = true then 0 else 1) ≤ 1 := by
    intro b
    cases b <;> simp
  cases Reader.step_cases step with
  | close sending stream =>
    simp only [Reader.work, sending, if_true, Bool.false_eq_true, if_false]
    omega
  | @skip message rest sending stream empty =>
    have last := flag (!message.isLast)
    simp only [Reader.work, stream, totalWork, streamWork, sending, if_true]
    omega
  | @push message rest sending stream filled =>
    have last := flag (!message.isLast)
    simp only [Reader.work, stream, totalWork, streamWork, totalWork_append, channelWork, sending,
      if_true]
    omega
  | pushError sending stream =>
    simp only [Reader.work, stream, totalWork, streamWork, totalWork_append, channelWork, sending,
      if_true, Bool.false_eq_true, if_false]
    omega
  | buffered n going filled =>
    have length := List.length_pos_iff.2 filled
    simp only [Reader.work, List.length_drop]
    omega
  | @receive n data channel going empty queued =>
    have ended := left (if data = [] then some (.ok ()) else none : Option (Except String Unit)).isSome
    simp only [Reader.work, queued, totalWork, channelWork, empty, List.length_drop, List.length_nil,
      going, Option.isSome_none, Bool.false_eq_true, if_false]
    omega
  | fail n going empty queued =>
    simp only [Reader.work, queued, totalWork, channelWork, going, Option.isSome_some,
      Option.isSome_none, Bool.false_eq_true, if_true, if_false]
    omega
  | finish n going empty queued stopped =>
    simp only [Reader.work, going, Option.isSome_some, Option.isSome_none, Bool.false_eq_true, if_true,
      if_false]
    omega

/-- As long as reading has not ended, the task or the consumer can go on. -/
theorem Reader.moves (r : Reader) (going : ¬ r.ended.isSome = true) : ∃ e r', r.step e = some r' := by
  by_cases ready : r.buffer ≠ [] ∨ r.channel ≠ [] ∨ r.sending = false
  · refine ⟨.poll 0, ?_⟩
    simp only [Reader.step, if_neg going]
    split
    · exact ⟨_, rfl⟩
    · rename_i empty
      split
      · exact ⟨_, rfl⟩
      · exact ⟨_, rfl⟩
      · rename_i none
        have stopped : r.sending = false := by
          rcases ready with buffer | channel | stopped
          · exact absurd buffer empty
          · exact absurd none channel
          · exact stopped
        simp [stopped]
  · simp only [not_or, not_not, Bool.not_eq_false] at ready
    obtain ⟨-, none, sending⟩ := ready
    refine ⟨.send, ?_⟩
    simp only [Reader.step, sending, if_true, none, List.length_nil, Nat.zero_lt_succ]
    split
    · exact ⟨_, rfl⟩
    · split
      · exact ⟨_, rfl⟩
      · exact ⟨_, rfl⟩
    · exact ⟨_, rfl⟩

/-! ## What every run ends with -/

/-- What the task sends into the channel. -/
def pumped : List (Except String ReadObjectResponse) → List (Except String Bytes)
  | [] => []
  | .ok message :: rest =>
    (if message.chunk = [] then [] else [.ok message.chunk]) ++
      if message.isLast then [] else pumped rest
  | .error e :: _ => [.error e]

/-- What a consumer gets out of the channel, and how it ends. -/
def outcome : List (Except String Bytes) → Bytes × Except String Unit
  | [] => ([], .ok ())
  | .ok data :: rest => (data ++ (outcome rest).1, (outcome rest).2)
  | .error e :: _ => ([], .error e)

/-- What is, or will be, in the channel. -/
def Reader.pending (r : Reader) : List (Except String Bytes) :=
  r.channel ++ if r.sending then pumped r.stream else []

structure Reader.Sound (total : Bytes × Except String Unit) (r : Reader) : Prop where
  filled : ∀ data, .ok data ∈ r.channel → data ≠ []
  going : r.ended = none →
    total = (r.taken ++ (r.buffer ++ (outcome r.pending).1), (outcome r.pending).2)
  ended : ∀ result, r.ended = some result → total = (r.taken, result)

section Sound

variable {total : Bytes × Except String Unit} {r r' : Reader}

/-- The task moves bytes from the stream to the channel. -/
theorem Reader.step_send (step : r.step .send = some r') :
    r'.pending = r.pending ∧ r'.taken = r.taken ∧ r'.buffer = r.buffer ∧ r'.ended = r.ended ∧
      ∀ data, .ok data ∈ r'.channel → .ok data ∈ r.channel ∨ data ≠ [] := by
  cases Reader.step_cases step with
  | close sending stream => exact ⟨by simp [Reader.pending, stream, pumped], rfl, rfl, rfl, fun _ => .inl⟩
  | @skip message rest sending stream empty =>
    refine ⟨?_, rfl, rfl, rfl, fun _ => .inl⟩
    simp only [Reader.pending, stream, sending, pumped, if_pos empty, List.nil_append, if_true]
    cases message.isLast <;> simp
  | @push message rest sending stream filled =>
    refine ⟨?_, rfl, rfl, rfl, fun data member => ?_⟩
    · simp only [Reader.pending, stream, sending, pumped, if_neg filled, if_true, List.append_assoc]
      cases message.isLast <;> simp
    · rcases List.mem_append.1 member with old | new
      · exact .inl old
      · cases List.mem_singleton.1 new
        exact .inr filled
  | pushError sending stream =>
    refine ⟨?_, rfl, rfl, rfl, fun data member => ?_⟩
    · simp [Reader.pending, stream, sending, pumped]
    · rcases List.mem_append.1 member with old | new
      · exact .inl old
      · cases List.mem_singleton.1 new

/-- What the consumer gets, or ends with, was coming. -/
theorem Reader.Sound.poll {n : Nat} (sound : r.Sound total) (step : r.step (.poll n) = some r') :
    r'.Sound total := by
  cases Reader.step_cases step with
  | buffered _ going left =>
    have before := sound.going going
    refine ⟨sound.filled, fun _ => ?_, fun result finished => ?_⟩
    · show total = (r.taken ++ r.buffer.take (n + 1) ++ (r.buffer.drop (n + 1) ++ _), _)
      rw [List.append_assoc, ← List.append_assoc (r.buffer.take _), List.take_append_drop]
      exact before
    · rw [going] at finished
      cases finished
  | @receive _ data channel going empty queued =>
    have before := sound.going going
    have filled : data ≠ [] := sound.filled data (by rw [queued]; exact List.mem_cons_self)
    refine ⟨fun b member => ?_, fun _ => ?_, fun result finished => ?_⟩
    · exact sound.filled b (by rw [queued]; exact List.mem_cons_of_mem _ member)
    · rw [before, empty]
      simp only [Reader.pending, queued, List.cons_append, outcome, List.nil_append,
        List.append_assoc]
      rw [← List.append_assoc (data.take (n + 1)), List.take_append_drop]
    · simp only [if_neg filled] at finished
      cases finished
  | @fail _ e channel going empty queued =>
    refine ⟨fun b member => ?_, fun never => ?_, fun result finished => ?_⟩
    · exact sound.filled b (by rw [queued]; exact List.mem_cons_of_mem _ member)
    · cases never
    · cases finished
      rw [sound.going going, empty]
      simp [Reader.pending, queued, outcome]
  | finish _ going empty queued stopped =>
    refine ⟨sound.filled, fun never => ?_, fun result finished => ?_⟩
    · cases never
    · cases finished
      rw [sound.going going, empty]
      simp [Reader.pending, queued, stopped, outcome]

theorem Reader.Sound.step {e : ReaderEvent} (sound : r.Sound total) (step : r.step e = some r') :
    r'.Sound total := by
  cases e with
  | send =>
    obtain ⟨pending, taken, buffer, ended, new⟩ := Reader.step_send step
    refine ⟨fun data member => ?_, fun going => ?_, fun result finished => ?_⟩
    · rcases new data member with old | filled
      · exact sound.filled data old
      · exact filled
    · rw [pending, taken, buffer]
      exact sound.going (ended ▸ going)
    · rw [taken]
      exact sound.ended result (ended ▸ finished)
  | poll n => exact sound.poll step

/-- However reader and consumer take turns, reading ends with what the stream says. -/
theorem Reader.ended_eq {stream : List (Except String ReadObjectResponse)} {events : List ReaderEvent}
    {result : Except String Unit} (ran : exec Reader.step (Reader.start stream) events = some r)
    (finished : r.ended = some result) : outcome (pumped stream) = (r.taken, result) := by
  have start : (Reader.start stream).Sound (outcome (pumped stream)) := by
    refine ⟨by simp [Reader.start], fun _ => ?_, fun result never => ?_⟩
    · simp [Reader.start, Reader.pending]
    · cases never
  have sound := exec_invariant_always (I := Reader.Sound (outcome (pumped stream)))
    (fun r e r' sound step => sound.step step) start ran
  exact sound.ended result finished

end Sound

/-! ## The responses of a file -/

theorem readLoop_eq (failed : Option String) (chunks : List ReadObjectResponse) (pieces : List Bytes) :
    readLoop failed chunks pieces =
      if failed = none ∧ chunks = [] ∧ pieces = [] then [⟨[], true, 0⟩]
      else chunks ++ pieces.map fun p => ⟨p, false, 0⟩ := by
  induction pieces generalizing chunks with
  | nil =>
    cases failed with
    | none => cases chunks <;> simp [readLoop]
    | some e => simp [readLoop]
  | cons p ps ih =>
    rw [readLoop, ih, if_neg (by simp), if_neg (by simp)]
    simp

theorem setLast_append (init : List ReadObjectResponse) (last : ReadObjectResponse) :
    setLast (init ++ [last]) = init ++ [{ last with isLast := true }] := by
  induction init with
  | nil => rfl
  | cons first init ih =>
    cases init with
    | nil => rfl
    | cons second init =>
      rw [List.cons_append, List.cons_append]
      show first :: setLast (second :: (init ++ [last])) = _
      rw [← List.cons_append, ih]
      rfl

/-- A response that is sent on and is not the last. -/
def ReadObjectResponse.inner (message : ReadObjectResponse) : Prop :=
  message.chunk ≠ [] ∧ message.isLast = false

/-- Responses before the last pass through. -/
theorem outcome_pumped_append {init : List ReadObjectResponse}
    (inner : ∀ message ∈ init, message.inner) (rest : List (Except String ReadObjectResponse)) :
    outcome (pumped (init.map .ok ++ rest)) =
      ((init.map ReadObjectResponse.chunk).flatten ++ (outcome (pumped rest)).1,
        (outcome (pumped rest)).2) := by
  induction init with
  | nil => rfl
  | cons message init ih =>
    obtain ⟨filled, more⟩ := inner message List.mem_cons_self
    have later := ih fun m member => inner m (List.mem_cons_of_mem _ member)
    simp only [List.map_cons, List.cons_append, pumped, if_neg filled, more, Bool.false_eq_true,
      if_false, List.nil_append, outcome, later, List.flatten_cons, List.append_assoc]

/-- The responses of a file: the last one is marked, whether or not the file has ended there. -/
theorem readObject_cases {data : Bytes} {r : FileRead} (reads : r.Of data) :
    (r.pieces = [] ∧ readObject r = if r.failed = none then [⟨[], true, 0⟩] else []) ∨
    ∃ init last, readObject r = init ++ [last] ∧ (∀ message ∈ init, message.inner) ∧
      last.chunk ≠ [] ∧ last.isLast = true ∧
      (init.map ReadObjectResponse.chunk).flatten ++ last.chunk = r.pieces.flatten := by
  rcases List.eq_nil_or_concat r.pieces with none | ⟨ps, p, pieces⟩
  · refine .inl ⟨none, ?_⟩
    unfold readObject
    rw [readLoop_eq, none]
    cases r.failed <;> simp [setTotalSize, setLast]
  · refine .inr ?_
    have pieces : r.pieces = ps ++ [p] := by simpa using pieces
    have filled : ∀ q ∈ ps ++ [p], q ≠ [] := fun q member => (reads.1 q (pieces ▸ member)).1
    unfold readObject
    rw [readLoop_eq, if_neg (by simp [pieces])]
    generalize r.pieces.flatten.length = total
    rw [pieces, List.nil_append, List.map_append]
    cases ps with
    | nil =>
      refine ⟨[], ⟨p, true, total⟩, rfl, by simp, filled p (by simp), rfl, by simp⟩
    | cons q ps =>
      refine ⟨⟨q, false, total⟩ :: ps.map (fun p => ⟨p, false, 0⟩), ⟨p, true, 0⟩, ?_, ?_,
        filled p (by simp), rfl, ?_⟩
      · show setLast ((⟨q, false, total⟩ :: ps.map fun p => ⟨p, false, 0⟩) ++ [⟨p, false, 0⟩]) = _
        rw [setLast_append]
      · intro message member
        rcases List.mem_cons.1 member with rfl | member
        · exact ⟨filled q (by simp), rfl⟩
        · obtain ⟨p', there, rfl⟩ := List.mem_map.1 member
          exact ⟨filled p' (by simp [there]), rfl⟩
      · simp [Function.comp_def]

/-- The transport fails before the last response has arrived. -/
def Interrupted (responses : List ReadObjectResponse) : Option (Nat × String) → Prop
  | none => False
  | some (n, _) => n < responses.length ∨ responses = []

/-- Without a piece there is the marker of an empty file, or nothing after a failed read. -/
theorem outcome_deliver_nil (failed : Option String) (transport : Option (Nat × String)) :
    let responses : List ReadObjectResponse := if failed = none then [⟨[], true, 0⟩] else []
    (Interrupted responses transport →
      ∃ e, (outcome (pumped (deliver responses transport))).2 = .error e) ∧
    (¬ Interrupted responses transport →
      outcome (pumped (deliver responses transport)) = ([], .ok ())) := by
  cases transport with
  | none =>
    refine ⟨fun never => never.elim, fun _ => ?_⟩
    cases failed <;> simp [deliver, pumped, outcome]
  | some cut =>
    obtain ⟨n, e⟩ := cut
    cases failed with
    | none =>
      cases n with
      | zero => exact ⟨fun _ => ⟨e, rfl⟩, fun never => absurd (.inl (by simp)) never⟩
      | succ n =>
        refine ⟨fun never => ?_, fun _ => by simp [deliver, pumped, outcome]⟩
        rcases never with never | never
        · simp at never
        · simp at never
    | some error =>
      refine ⟨fun _ => ⟨e, ?_⟩, fun never => absurd (.inr (by simp)) never⟩
      simp [deliver, pumped, outcome]

/-- With pieces the last response is the one that counts. -/
theorem outcome_deliver_concat {init : List ReadObjectResponse} {last : ReadObjectResponse}
    (inner : ∀ message ∈ init, message.inner) (filled : last.chunk ≠ []) (marked : last.isLast = true)
    (transport : Option (Nat × String)) :
    (Interrupted (init ++ [last]) transport →
      ∃ e, (outcome (pumped (deliver (init ++ [last]) transport))).2 = .error e) ∧
    (¬ Interrupted (init ++ [last]) transport →
      outcome (pumped (deliver (init ++ [last]) transport)) =
        ((init.map ReadObjectResponse.chunk).flatten ++ last.chunk, .ok ())) := by
  have whole : ∀ rest, outcome (pumped ((init ++ [last]).map .ok ++ rest)) =
      ((init.map ReadObjectResponse.chunk).flatten ++ last.chunk, .ok ()) := by
    intro rest
    rw [List.map_append, List.append_assoc, outcome_pumped_append inner]
    simp [pumped, filled, marked, outcome]
  cases transport with
  | none =>
    refine ⟨fun never => never.elim, fun _ => ?_⟩
    have ends := whole []
    rw [List.append_nil] at ends
    exact ends
  | some cut =>
    obtain ⟨n, e⟩ := cut
    constructor
    · rintro (early | never)
      · -- none of the responses that arrive is the last
        have within : n ≤ init.length := by
          rw [List.length_append, List.length_singleton] at early
          omega
        have arrived : (init ++ [last]).take n = init.take n := List.take_append_of_le_length within
        refine ⟨e, ?_⟩
        simp only [deliver, arrived]
        rw [outcome_pumped_append fun m member => inner m (List.mem_of_mem_take member)]
        rfl
      · simp at never
    · intro late
      have all_there : (init ++ [last]).length ≤ n := Nat.le_of_not_lt fun early => late (.inl early)
      simp only [deliver, List.take_of_length_le all_there]
      exact whole [.error e]

/-- A stream that is interrupted ends in its error, any other with the pieces that were read. -/
theorem outcome_deliver {data : Bytes} {r : FileRead} (reads : r.Of data)
    (transport : Option (Nat × String)) :
    (Interrupted (readObject r) transport →
      ∃ e, (outcome (pumped (deliver (readObject r) transport))).2 = .error e) ∧
    (¬ Interrupted (readObject r) transport →
      outcome (pumped (deliver (readObject r) transport)) = (r.pieces.flatten, .ok ())) := by
  rcases readObject_cases reads with
    ⟨none, responses⟩ | ⟨init, last, responses, inner, filled, marked, all⟩
  · rw [responses, none]
    exact outcome_deliver_nil r.failed transport
  · rw [responses, ← all]
    exact outcome_deliver_concat inner filled marked transport

/-- **Remote reads.** Reading ends; it never ends normally short of the content exactly when no read
on the replica fails before the whole file is read, or the transport fails before the last
response. -/
theorem remote_read_iff {data : Bytes} {r : FileRead} (reads : r.Of data)
    (transport : Option (Nat × String)) :
    (∀ events sys, exec Reader.step (Reader.start (deliver (readObject r) transport)) events = some sys →
      events.length ≤ (Reader.start (deliver (readObject r) transport)).work ∧
      ∃ more last, exec Reader.step sys more = some last ∧ last.ended.isSome = true) ∧
    ((∀ events sys, exec Reader.step (Reader.start (deliver (readObject r) transport)) events = some sys →
      sys.AllOrError data) ↔
      r.pieces.flatten = data ∨ Interrupted (readObject r) transport) := by
  have ends := outcome_deliver reads transport
  generalize deliver (readObject r) transport = stream at ends ⊢
  refine ⟨fun events sys ran => ⟨?_, exec_reaches Reader.step_work Reader.moves sys⟩, ?_, ?_⟩
  · have length := exec_length_le Reader.step_work ran
    omega
  · intro always
    by_cases interrupted : Interrupted (readObject r) transport
    · exact .inr interrupted
    · -- a run to the end, which ends normally with the pieces
      have total := ends.2 interrupted
      obtain ⟨events, sys, ran, reached⟩ := exec_reaches Reader.step_work Reader.moves (Reader.start stream)
      obtain ⟨result, finished⟩ := Option.isSome_iff_exists.1 reached
      have outcome := Reader.ended_eq ran finished
      rw [total, Prod.mk.injEq] at outcome
      have normal : sys.ended = some (.ok ()) := by rw [finished, outcome.2]
      exact .inl (outcome.1.trans (always events sys ran normal))
  · intro safe events sys ran finished
    have outcome := Reader.ended_eq ran finished
    by_cases interrupted : Interrupted (readObject r) transport
    · obtain ⟨e, failed⟩ := ends.1 interrupted
      rw [outcome] at failed
      cases failed
    · rw [ends.2 interrupted, Prod.mk.injEq] at outcome
      rw [← outcome.1]
      exact safe.resolve_right interrupted

/-! ## A sample -/

/-- Two bytes in two reads. -/
def sampleWhole : FileRead := ⟨[[1], [2]], none⟩

/-- The second read fails. -/
def sampleTorn : FileRead := ⟨[[1]], some "Input/output error (os error 5)"⟩

theorem remote_read_sample :
    ∃ sys, exec Reader.step (Reader.start (deliver (readObject sampleWhole) none))
        [.send, .poll 0, .send, .poll 7, .poll 0] = some sys ∧ sys.ended = some (.ok ()) ∧
      sys.taken = [1, 2] := by
  have seen : (exec Reader.step (Reader.start (deliver (readObject sampleWhole) none))
      [.send, .poll 0, .send, .poll 7, .poll 0]).map Reader.ended = some (some (.ok ())) := by
    decide
  obtain ⟨sys, ran, finished⟩ := Option.map_eq_some_iff.1 seen
  have reads : sampleWhole.Of [1, 2] := ⟨by decide, rfl⟩
  have all := (remote_read_iff reads none).2.2 (.inl rfl)
  exact ⟨sys, ran, finished, all _ sys ran finished⟩

/-- A read error on the replica looks like the end of the file to the reader. -/
theorem torn_read_ends_normally :
    ¬ ∀ (data : Bytes) (r : FileRead), r.Of data → ∀ events sys,
      exec Reader.step (Reader.start (deliver (readObject r) none)) events = some sys →
      sys.AllOrError data := by
  intro claim
  have reads : sampleTorn.Of [1, 2] := ⟨by decide, [2], rfl⟩
  have seen : (exec Reader.step (Reader.start (deliver (readObject sampleTorn) none))
      [.send, .poll 0, .poll 0]).map (fun sys => (sys.ended, sys.taken)) =
        some (some (.ok ()), [1]) := by
    decide
  obtain ⟨sys, ran, observed⟩ := Option.map_eq_some_iff.1 seen
  rw [Prod.mk.injEq] at observed
  have all := claim [1, 2] sampleTorn reads _ sys ran observed.1
  rw [observed.2] at all
  exact absurd all (by decide)

end Save.Replication
