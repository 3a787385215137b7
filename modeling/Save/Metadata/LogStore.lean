import Save.Lib.Kv
import Save.Lib.Run
import Save.Metadata.StateMachine

/-!
# The Raft log store

`log_store.rs` and the log half of `storage.rs`. Entries are stored one by one
under their index, beside two cells, `last_log_id` and `last_purged_log_id`,
that truncation and purge work out their ranges from. `SpecLog` is the log as
openraft thinks of it: the entries appended and neither truncated nor purged
since. `log_refines` says that reading any range of the store reads that log.

`Represents` is the invariant: the entries of the abstract log are numbered without
a gap and lie in the store under their indices, nothing else does, and the cells say
where the log was purged and at which index it ends. Each of the three operations
has a lemma of its own, and reads are answered from the invariant alone.
-/

namespace Save.Metadata
set_option autoImplicit false
open Save.Run

/-- `u64` values are below this. -/
def u64Size : Nat := 2 ^ 64

/-- `LogStore::index_to_key`: the eight bytes of the index, high byte first. -/
def indexToKey (index : Nat) : List Nat := (List.range 8).reverse.map fun i => index / 256 ^ i % 256

/-- The `raft_log` column family, and the two log ids kept in `raft_state`. -/
structure LogStore where
  log : List Nat → Option Entry
  lastLogId : Option LogId
  lastPurgedLogId : Option LogId

def LogStore.empty : LogStore := ⟨fun _ => none, none, none⟩

structure LogState where
  lastPurgedLogId : Option LogId
  lastLogId : Option LogId
  deriving DecidableEq, Repr

def LogStore.getLogState (s : LogStore) : LogState := ⟨s.lastPurgedLogId, s.lastLogId⟩

/-- `std::ops::Bound<u64>`. -/
inductive Bound where
  | included (n : Nat)
  | excluded (n : Nat)
  | unbounded
  deriving DecidableEq, Repr

/-- Addition of one to a `u64`, as a release build does it. -/
def u64Succ (n : Nat) : Nat := (n + 1) % u64Size

def Bound.start : Bound → Nat
  | .included n => n
  | .excluded n => u64Succ n
  | .unbounded => 0

/-- One past the last index; `u64::MAX` where there is no bound. -/
def Bound.stop : Bound → Nat
  | .included n => u64Succ n
  | .excluded n => n
  | .unbounded => u64Size - 1

/-- `LogStore::get_entries`. -/
def LogStore.getEntries (s : LogStore) (low high : Bound) : List Entry :=
  (List.range' low.start (high.stop - low.start)).filterMap fun index => s.log (indexToKey index)

def LogStore.put (s : LogStore) (e : Entry) : LogStore :=
  { s with log := Function.update s.log (indexToKey e.logId.index) (some e) }

def LogStore.deleteIndex (s : LogStore) (index : Nat) : LogStore :=
  { s with log := Function.update s.log (indexToKey index) none }

/-- `LogStore::append`. -/
def LogStore.append (s : LogStore) (entries : List Entry) : LogStore :=
  let s := entries.foldl LogStore.put s
  match entries.getLast? with
  | some e => { s with lastLogId := some e.logId }
  | none => s

/-- `LogStore::delete_range`, over `start..=end`. -/
def LogStore.deleteRange (s : LogStore) (start stop : Nat) : LogStore :=
  (List.range' start (stop + 1 - start)).foldl LogStore.deleteIndex s

/-- `Storage::delete_conflict_logs_since`. -/
def LogStore.deleteConflictLogsSince (s : LogStore) (logId : LogId) : LogStore :=
  match s.getLogState.lastLogId with
  | none => s
  | some last =>
    let s := s.deleteRange logId.index last.index
    if logId.index > 0 then { s with lastLogId := some ⟨logId.leaderId, logId.index - 1⟩ }
    else { s with lastLogId := none }

/-- `Storage::purge_logs_upto`. -/
def LogStore.purgeLogsUpto (s : LogStore) (logId : LogId) : LogStore :=
  let start := match s.getLogState.lastPurgedLogId with
    | some id => u64Succ id.index
    | none => 0
  { s.deleteRange start logId.index with lastPurgedLogId := some logId }

inductive LogOp where
  | append (entries : List Entry)
  | truncate (logId : LogId)
  | purge (logId : LogId)
  deriving DecidableEq, Repr

def LogStore.step (s : LogStore) : LogOp → LogStore
  | .append entries => s.append entries
  | .truncate logId => s.deleteConflictLogsSince logId
  | .purge logId => s.purgeLogsUpto logId

/-! ## The log itself -/

/-- The entries that are in the log, and the id of the last purge. -/
structure SpecLog where
  entries : List Entry
  purged : Option LogId
  deriving DecidableEq, Repr

def SpecLog.empty : SpecLog := ⟨[], none⟩

def SpecLog.step (a : SpecLog) : LogOp → SpecLog
  | .append entries => { a with entries := a.entries ++ entries }
  | .truncate logId =>
    { a with entries := a.entries.filter fun e => decide (e.logId.index < logId.index) }
  | .purge logId =>
    ⟨a.entries.filter fun e => decide (logId.index < e.logId.index), some logId⟩

/-- The id of the last entry, or of the last purge when there is no entry. -/
def SpecLog.last (a : SpecLog) : Option LogId :=
  match a.entries.getLast? with
  | some e => some e.logId
  | none => a.purged

/-- Entries numbered one after the other from `n`. -/
def contiguous : Nat → List Entry → Bool
  | _, [] => true
  | n, e :: es => e.logId.index == n && contiguous (n + 1) es

/-- What openraft asks of a log store: entries continue the log, a truncation is at an
entry of the log, and purges do not go back. Indexes are `u64`. -/
def SpecLog.allows (a : SpecLog) : LogOp → Bool
  | .append entries =>
    match entries with
    | [] => true
    | e :: _ =>
      contiguous e.logId.index entries && entries.all (fun e => decide (e.logId.index < u64Size)) &&
        a.last.all fun last => e.logId.index == last.index + 1
  | .truncate logId => a.entries.any fun e => e.logId == logId
  | .purge logId =>
    decide (logId.index < u64Size) && a.purged.all fun p => decide (p.index ≤ logId.index)

/-- A store together with the log it should hold. -/
structure Logged where
  spec : SpecLog
  store : LogStore

def Logged.empty : Logged := ⟨SpecLog.empty, LogStore.empty⟩

def Logged.step (l : Logged) (op : LogOp) : Option Logged :=
  if l.spec.allows op then some ⟨l.spec.step op, l.store.step op⟩ else none

/-- An index is at or after a start bound. -/
def Bound.startsBefore : Bound → Nat → Bool
  | .included n, index => decide (n ≤ index)
  | .excluded n, index => decide (n < index)
  | .unbounded, _ => true

/-- An index is at or before an end bound. -/
def Bound.endsAfter : Bound → Nat → Bool
  | .included n, index => decide (index ≤ n)
  | .excluded n, index => decide (index < n)
  | .unbounded, _ => true

/-- An index is in the range. -/
def Bound.covers (low high : Bound) (index : Nat) : Bool :=
  low.startsBefore index && high.endsAfter index

/-! ## Keys and single operations -/

/-- Numbers with the same digits are the same. -/
theorem eq_of_digits {base : Nat} (n : Nat) {i j : Nat} (first : i < base ^ n) (second : j < base ^ n)
    (same : ∀ k < n, i / base ^ k % base = j / base ^ k % base) : i = j := by
  induction n generalizing i j with
  | zero =>
    rw [Nat.pow_zero] at first second
    omega
  | succ n ih =>
    rw [Nat.pow_succ'] at first second
    have low : i % base = j % base := by simpa using same 0 (Nat.succ_pos n)
    have high : i / base = j / base := by
      refine ih (Nat.div_lt_of_lt_mul first) (Nat.div_lt_of_lt_mul second) fun k small => ?_
      have digit := same (k + 1) (Nat.succ_lt_succ small)
      rwa [Nat.pow_succ', ← Nat.div_div_eq_div_mul, ← Nat.div_div_eq_div_mul] at digit
    rw [← Nat.div_add_mod i base, ← Nat.div_add_mod j base, low, high]

/-- Different indexes have different keys. -/
theorem indexToKey_inj {i j : Nat} (first : i < u64Size) (second : j < u64Size) :
    indexToKey i = indexToKey j ↔ i = j := by
  refine ⟨fun same => ?_, fun same => same ▸ rfl⟩
  have bytes : u64Size = 256 ^ 8 := by decide
  rw [bytes] at first second
  apply eq_of_digits 8 first second
  intro k small
  exact List.map_inj_left.1 same k (by simpa using small)

theorem log_put (s : LogStore) {e : Entry} {i : Nat} (small : e.logId.index < u64Size)
    (small' : i < u64Size) :
    (s.put e).log (indexToKey i) = if e.logId.index = i then some e else s.log (indexToKey i) := by
  simp only [LogStore.put, Function.update_apply, indexToKey_inj small' small, eq_comm]

/-- An entry is read where it is put; entries of one call have different indexes. -/
theorem log_puts {es : List Entry} (ordered : es.Pairwise fun a b => a.logId.index < b.logId.index)
    (small : ∀ e ∈ es, e.logId.index < u64Size) (s : LogStore) {i : Nat} (small' : i < u64Size)
    (e : Entry) :
    (es.foldl LogStore.put s).log (indexToKey i) = some e ↔
      (e ∈ es ∧ e.logId.index = i) ∨
        ((∀ e' ∈ es, e'.logId.index ≠ i) ∧ s.log (indexToKey i) = some e) := by
  induction es generalizing s with
  | nil => simp
  | cons first es ih =>
    obtain ⟨below, ordered⟩ := List.pairwise_cons.1 ordered
    rw [List.foldl_cons, ih ordered (fun e' member => small e' (List.mem_cons_of_mem _ member)),
      log_put s (small first List.mem_cons_self) small']
    by_cases here : first.logId.index = i
    · have rest : ∀ e' ∈ es, e'.logId.index ≠ i := by
        intro e' member
        have := below e' member
        omega
      rw [if_pos here]
      constructor
      · rintro (⟨member, index⟩ | ⟨-, same⟩)
        · exact .inl ⟨List.mem_cons_of_mem _ member, index⟩
        · cases same
          exact .inl ⟨List.mem_cons_self, here⟩
      · rintro (⟨member, index⟩ | ⟨none_here, -⟩)
        · rcases List.mem_cons.1 member with rfl | member
          · exact .inr ⟨rest, rfl⟩
          · exact absurd index (rest e member)
        · exact absurd here (none_here first List.mem_cons_self)
    · rw [if_neg here]
      simp only [List.mem_cons, forall_eq_or_imp, ne_eq, here, not_false_eq_true, true_and]
      constructor
      · rintro (⟨member, index⟩ | old)
        · exact .inl ⟨.inr member, index⟩
        · exact .inr old
      · rintro (⟨rfl | member, index⟩ | old)
        · exact absurd index here
        · exact .inl ⟨member, index⟩
        · exact .inr old

/-- A delete of a range deletes exactly the indexes in it. -/
theorem log_deleteRange (s : LogStore) (start : Nat) {stop i : Nat} (small : stop < u64Size)
    (small' : i < u64Size) :
    (s.deleteRange start stop).log (indexToKey i) =
      if start ≤ i ∧ i ≤ stop then none else s.log (indexToKey i) := by
  have deletes : ∀ (js : List Nat) (s : LogStore), (∀ j ∈ js, j < u64Size) →
      (js.foldl LogStore.deleteIndex s).log (indexToKey i) =
        if i ∈ js then none else s.log (indexToKey i) := by
    intro js
    induction js with
    | nil => intro s _; rfl
    | cons j js ih =>
      intro s bounded
      rw [List.foldl_cons, ih _ fun j' member => bounded j' (List.mem_cons_of_mem _ member)]
      simp only [LogStore.deleteIndex, Function.update_apply,
        indexToKey_inj small' (bounded j List.mem_cons_self), List.mem_cons]
      by_cases here : i = j <;> by_cases later : i ∈ js <;> simp [here, later]
  rw [LogStore.deleteRange, deletes]
  · have range : i ∈ List.range' start (stop + 1 - start) ↔ start ≤ i ∧ i ≤ stop := by
      rw [List.mem_range'_1]
      omega
    simp only [range]
  · intro j member
    rw [List.mem_range'_1] at member
    omega

theorem foldl_put_cells (es : List Entry) (s : LogStore) :
    (es.foldl LogStore.put s).lastLogId = s.lastLogId ∧
      (es.foldl LogStore.put s).lastPurgedLogId = s.lastPurgedLogId := by
  induction es generalizing s with
  | nil => exact ⟨rfl, rfl⟩
  | cons e es ih => exact ih (s.put e)

theorem deleteRange_cells (s : LogStore) (start stop : Nat) :
    (s.deleteRange start stop).lastLogId = s.lastLogId ∧
      (s.deleteRange start stop).lastPurgedLogId = s.lastPurgedLogId := by
  have deletes : ∀ (js : List Nat) (s : LogStore),
      (js.foldl LogStore.deleteIndex s).lastLogId = s.lastLogId ∧
        (js.foldl LogStore.deleteIndex s).lastPurgedLogId = s.lastPurgedLogId := by
    intro js
    induction js with
    | nil => intro s; exact ⟨rfl, rfl⟩
    | cons j js ih => intro s; exact ih (s.deleteIndex j)
  exact deletes _ s

/-! ## Contiguous entries -/

theorem contiguous_cons {n : Nat} {e : Entry} {es : List Entry} :
    contiguous n (e :: es) = true ↔ e.logId.index = n ∧ contiguous (n + 1) es = true := by
  simp [contiguous]

theorem contiguous_append {n : Nat} {es es' : List Entry} :
    contiguous n (es ++ es') = true ↔
      contiguous n es = true ∧ contiguous (n + es.length) es' = true := by
  induction es generalizing n with
  | nil => simp [contiguous]
  | cons e es ih =>
    rw [List.cons_append, contiguous_cons, contiguous_cons, ih, and_assoc, List.length_cons,
      Nat.add_comm es.length 1, Nat.add_assoc]

theorem contiguous_take {n : Nat} {es : List Entry} (numbered : contiguous n es = true) (k : Nat) :
    contiguous n (es.take k) = true := by
  rw [← List.take_append_drop k es] at numbered
  exact (contiguous_append.1 numbered).1

theorem contiguous_drop {n : Nat} {es : List Entry} (numbered : contiguous n es = true) (k : Nat) :
    contiguous (n + (es.take k).length) (es.drop k) = true := by
  rw [← List.take_append_drop k es] at numbered
  exact (contiguous_append.1 numbered).2

theorem contiguous_index {n : Nat} {es : List Entry} (numbered : contiguous n es = true) {e : Entry}
    (member : e ∈ es) : n ≤ e.logId.index ∧ e.logId.index < n + es.length := by
  induction es generalizing n with
  | nil => cases member
  | cons first es ih =>
    obtain ⟨here, later⟩ := contiguous_cons.1 numbered
    rw [List.length_cons]
    rcases List.mem_cons.1 member with rfl | member
    · omega
    · have := ih later member
      omega

theorem contiguous_pairwise {n : Nat} {es : List Entry} (numbered : contiguous n es = true) :
    es.Pairwise fun a b => a.logId.index < b.logId.index := by
  induction es generalizing n with
  | nil => exact List.Pairwise.nil
  | cons first es ih =>
    obtain ⟨here, later⟩ := contiguous_cons.1 numbered
    refine List.pairwise_cons.2 ⟨fun e member => ?_, ih later⟩
    have := contiguous_index later member
    omega

/-- The last of numbered entries has the last number. -/
theorem contiguous_getLast {n : Nat} {es : List Entry} (numbered : contiguous n es = true) {e : Entry}
    (last : es.getLast? = some e) : e.logId.index + 1 = n + es.length := by
  obtain ⟨init, rfl⟩ := List.getLast?_eq_some_iff.1 last
  obtain ⟨-, here⟩ := contiguous_append.1 numbered
  have index := (contiguous_cons.1 here).1
  simp only [List.length_append, List.length_cons, List.length_nil]
  omega

/-- Cutting numbered entries at an index: what is below, and what is not. -/
theorem contiguous_below {n : Nat} {es : List Entry} (numbered : contiguous n es = true) (i : Nat) :
    es.filter (fun e => decide (e.logId.index < i)) = es.take (i - n) := by
  induction es generalizing n with
  | nil => simp
  | cons e es ih =>
    obtain ⟨here, later⟩ := contiguous_cons.1 numbered
    rw [List.filter_cons, ih later]
    by_cases below : e.logId.index < i
    · rw [if_pos (by simpa using below), show i - n = (i - (n + 1)) + 1 by omega, List.take_succ_cons]
    · rw [if_neg (by simpa using below), show i - n = 0 by omega, show i - (n + 1) = 0 by omega]
      simp

theorem contiguous_above {n : Nat} {es : List Entry} (numbered : contiguous n es = true) (i : Nat) :
    es.filter (fun e => decide (i < e.logId.index)) = es.drop (i + 1 - n) := by
  induction es generalizing n with
  | nil => simp
  | cons e es ih =>
    obtain ⟨here, later⟩ := contiguous_cons.1 numbered
    rw [List.filter_cons, ih later]
    by_cases above : i < e.logId.index
    · rw [if_pos (by simpa using above), show i + 1 - n = 0 by omega,
        show i + 1 - (n + 1) = 0 by omega]
      simp
    · rw [if_neg (by simpa using above), show i + 1 - n = (i + 1 - (n + 1)) + 1 by omega,
        List.drop_succ_cons]

/-! ## The store holds the log -/

structure Represents (a : SpecLog) (s : LogStore) : Prop where
  numbered : ∃ n, contiguous n a.entries = true
  small : ∀ e ∈ a.entries, e.logId.index < u64Size
  stored : ∀ i e, i < u64Size →
    (s.log (indexToKey i) = some e ↔ e ∈ a.entries ∧ e.logId.index = i)
  purged : s.lastPurgedLogId = a.purged
  above : ∀ p, a.purged = some p → ∀ e ∈ a.entries, p.index < e.logId.index
  /-- The index in the cell is right; the rest of the id may not be. -/
  last : ∀ e, a.entries.getLast? = some e →
    ∃ id, s.lastLogId = some id ∧ id.index = e.logId.index

theorem Represents.empty : Represents SpecLog.empty LogStore.empty where
  numbered := ⟨0, rfl⟩
  small e member := by cases member
  stored i e small := by simp [LogStore.empty, SpecLog.empty]
  purged := rfl
  above p same := by cases same
  last e same := by cases same

theorem SpecLog.last_cons {a : SpecLog} {e : Entry} (last : a.entries.getLast? = some e) :
    a.last = some e.logId := by
  simp [SpecLog.last, last]

theorem SpecLog.last_nil {a : SpecLog} (nothing : a.entries = []) : a.last = a.purged := by
  simp [SpecLog.last, nothing]

/-- New entries continue the numbers of the log and lie above the last purge. -/
theorem Represents.continues {a : SpecLog} {s : LogStore} (held : Represents a s) {first : Entry}
    (next : ∀ id, a.last = some id → first.logId.index = id.index + 1) :
    (∃ n, contiguous n a.entries = true ∧ (a.entries ≠ [] → first.logId.index = n + a.entries.length)) ∧
      (∀ p, a.purged = some p → p.index < first.logId.index) := by
  obtain ⟨n, numbered⟩ := held.numbered
  cases last : a.entries.getLast? with
  | none =>
    have nothing : a.entries = [] := List.getLast?_eq_none_iff.1 last
    refine ⟨⟨n, numbered, fun some_there => absurd nothing some_there⟩, fun p same => ?_⟩
    have := next p ((a.last_nil nothing).trans same)
    omega
  | some e =>
    have follows := next _ (a.last_cons last)
    have index := contiguous_getLast numbered last
    refine ⟨⟨n, numbered, fun _ => by omega⟩, fun p same => ?_⟩
    have := held.above p same e (List.mem_of_getLast? last)
    omega

theorem Represents.append {a : SpecLog} {s : LogStore} (held : Represents a s) {entries : List Entry}
    (allowed : a.allows (.append entries) = true) :
    Represents (a.step (.append entries)) (s.append entries) := by
  cases entries with
  | nil => simpa [SpecLog.step, LogStore.append] using held
  | cons first rest =>
    simp only [SpecLog.allows, Bool.and_eq_true, List.all_eq_true, decide_eq_true_eq,
      Option.all_eq_true, beq_iff_eq] at allowed
    obtain ⟨⟨numbered', small'⟩, next⟩ := allowed
    obtain ⟨⟨n, numbered, joined⟩, clear⟩ := held.continues next
    have ordered' := contiguous_pairwise numbered'
    have apart : ∀ e ∈ a.entries, ∀ e' ∈ first :: rest, e.logId.index < e'.logId.index := by
      intro e member e' member'
      have := contiguous_index numbered member
      have := contiguous_index numbered' member'
      have := joined (List.ne_nil_of_mem member)
      omega
    obtain ⟨lastCell, purgedCell⟩ := foldl_put_cells (first :: rest) s
    obtain ⟨final, final_eq⟩ : ∃ e, (first :: rest).getLast? = some e :=
      ⟨_, List.getLast?_eq_some_getLast (List.cons_ne_nil _ _)⟩
    have store : s.append (first :: rest) =
        { (first :: rest).foldl LogStore.put s with lastLogId := some final.logId } := by
      simp only [LogStore.append, final_eq]
    rw [store]
    refine ⟨?_, ?_, fun i e small => ?_, purgedCell.trans held.purged, ?_, ?_⟩
    · by_cases nothing : a.entries = []
      · exact ⟨first.logId.index, by simpa [SpecLog.step, nothing] using numbered'⟩
      · refine ⟨n, contiguous_append.2 ⟨numbered, ?_⟩⟩
        rw [← joined nothing]
        exact numbered'
    · intro e member
      rcases List.mem_append.1 member with member | member
      · exact held.small e member
      · exact small' e member
    · simp only [log_puts ordered' small' s small, held.stored i e small, SpecLog.step,
        List.mem_append]
      constructor
      · rintro (⟨member, index⟩ | ⟨-, member, index⟩)
        · exact ⟨.inr member, index⟩
        · exact ⟨.inl member, index⟩
      · rintro ⟨member | member, index⟩
        · refine .inr ⟨fun e' member' => ?_, member, index⟩
          have := apart e member e' member'
          omega
        · exact .inl ⟨member, index⟩
    · intro p same e member
      rcases List.mem_append.1 member with member | member
      · exact held.above p same e member
      · have := contiguous_index numbered' member
        have := clear p same
        omega
    · intro e last
      have ends : e = final := by
        simp only [SpecLog.step, List.getLast?_append, final_eq, Option.some_or] at last
        exact (Option.some.inj last).symm
      exact ⟨final.logId, rfl, by rw [ends]⟩

/-- What is stored after a range is deleted. -/
theorem Represents.stored_outside {a : SpecLog} {s : LogStore} (held : Represents a s) {lo hi : Nat}
    {kept : List Entry}
    (outside : ∀ e, e ∈ kept ↔ e ∈ a.entries ∧ ¬ (lo ≤ e.logId.index ∧ e.logId.index ≤ hi))
    {i : Nat} (small : i < u64Size) (e : Entry) :
    (if lo ≤ i ∧ i ≤ hi then none else s.log (indexToKey i)) = some e ↔
      e ∈ kept ∧ e.logId.index = i := by
  rw [outside]
  split
  · rename_i inside
    constructor
    · intro read
      cases read
    · rintro ⟨⟨-, out⟩, rfl⟩
      exact absurd inside out
  · rename_i out
    rw [held.stored i e small]
    constructor
    · rintro ⟨there, rfl⟩
      exact ⟨⟨there, out⟩, rfl⟩
    · rintro ⟨⟨there, -⟩, index⟩
      exact ⟨there, index⟩

theorem Represents.truncate {a : SpecLog} {s : LogStore} (held : Represents a s) {logId : LogId}
    (allowed : a.allows (.truncate logId) = true) :
    Represents (a.step (.truncate logId)) (s.deleteConflictLogsSince logId) := by
  simp only [SpecLog.allows, List.any_eq_true, beq_iff_eq] at allowed
  obtain ⟨cut, member, rfl⟩ := allowed
  obtain ⟨n, numbered⟩ := held.numbered
  obtain ⟨final, final_eq⟩ : ∃ e, a.entries.getLast? = some e :=
    ⟨_, List.getLast?_eq_some_getLast (List.ne_nil_of_mem member)⟩
  obtain ⟨cell, cell_eq, cell_index⟩ := held.last final final_eq
  have end_index := contiguous_getLast numbered final_eq
  have bounded : cell.index < u64Size := by
    rw [cell_index]
    exact held.small final (List.mem_of_getLast? final_eq)
  obtain ⟨-, purgedCell⟩ := deleteRange_cells s cut.logId.index cell.index
  -- whichever way the cell is rewritten, the entries and its index are these
  have log : ∀ i, i < u64Size → (s.deleteConflictLogsSince cut.logId).log (indexToKey i) =
      if cut.logId.index ≤ i ∧ i ≤ cell.index then none else s.log (indexToKey i) := by
    intro i small
    rw [← log_deleteRange s _ bounded small]
    simp only [LogStore.deleteConflictLogsSince, LogStore.getLogState, cell_eq]
    split <;> rfl
  have purged : (s.deleteConflictLogsSince cut.logId).lastPurgedLogId = s.lastPurgedLogId := by
    rw [← purgedCell]
    simp only [LogStore.deleteConflictLogsSince, LogStore.getLogState, cell_eq]
    split <;> rfl
  have kept : ∀ {e}, e ∈ (a.step (.truncate cut.logId)).entries ↔
      e ∈ a.entries ∧ e.logId.index < cut.logId.index := by
    intro e
    simp [SpecLog.step, List.mem_filter]
  refine ⟨⟨n, ?_⟩, fun e there => held.small e (kept.1 there).1, fun i e small => ?_,
    purged.trans held.purged, fun p same e there => held.above p same e (kept.1 there).1,
    fun e last => ?_⟩
  · simp only [SpecLog.step]
    rw [contiguous_below numbered]
    exact contiguous_take numbered _
  · rw [log i small]
    refine held.stored_outside (fun e => kept.trans (and_congr_right fun there => ?_)) small e
    have := contiguous_index numbered there
    omega
  · have there := (kept.1 (List.mem_of_getLast? last))
    have positive : cut.logId.index > 0 := by omega
    refine ⟨⟨cut.logId.leaderId, cut.logId.index - 1⟩, ?_, ?_⟩
    · simp only [LogStore.deleteConflictLogsSince, LogStore.getLogState, cell_eq, if_pos positive]
    · -- the entries left are numbered up to just below the cut
      have cut_index := contiguous_index numbered member
      simp only [SpecLog.step, contiguous_below numbered] at last
      have index := contiguous_getLast (contiguous_take numbered _) last
      rw [List.length_take] at index
      simp only
      omega

theorem Represents.purge {a : SpecLog} {s : LogStore} (held : Represents a s) {logId : LogId}
    (allowed : a.allows (.purge logId) = true) :
    Represents (a.step (.purge logId)) (s.purgeLogsUpto logId) := by
  simp only [SpecLog.allows, Bool.and_eq_true, decide_eq_true_eq, Option.all_eq_true] at allowed
  obtain ⟨bounded, -⟩ := allowed
  obtain ⟨n, numbered⟩ := held.numbered
  obtain ⟨start, start_eq⟩ : ∃ start, start = match s.getLogState.lastPurgedLogId with
      | some id => u64Succ id.index
      | none => 0 := ⟨_, rfl⟩
  have store : s.purgeLogsUpto logId =
      { s.deleteRange start logId.index with lastPurgedLogId := some logId } := by
    rw [start_eq]
    rfl
  -- nothing is stored at or below the last purge, so the range reaches all it should
  have reaches : ∀ e ∈ a.entries, start ≤ e.logId.index := by
    intro e member
    rw [start_eq, LogStore.getLogState, held.purged]
    cases last : a.purged with
    | none => exact Nat.zero_le _
    | some p =>
      have above := held.above p last e member
      have wrap : u64Succ p.index ≤ p.index + 1 := Nat.mod_le _ _
      simp only
      omega
  have kept : ∀ {e}, e ∈ (a.step (.purge logId)).entries ↔
      e ∈ a.entries ∧ logId.index < e.logId.index := by
    intro e
    simp [SpecLog.step, List.mem_filter]
  obtain ⟨lastCell, -⟩ := deleteRange_cells s start logId.index
  rw [store]
  refine ⟨?_, fun e there => held.small e (kept.1 there).1, fun i e small => ?_, rfl, ?_, ?_⟩
  · simp only [SpecLog.step]
    rw [contiguous_above numbered]
    exact ⟨_, contiguous_drop numbered _⟩
  · simp only [log_deleteRange s start bounded small]
    refine held.stored_outside (fun e => kept.trans (and_congr_right fun there => ?_)) small e
    have := reaches e there
    omega
  · intro p same e there
    cases same
    exact (kept.1 there).2
  · intro e last
    have there := List.mem_of_getLast? last
    simp only [SpecLog.step, contiguous_above numbered] at last
    have whole : a.entries.getLast? = some e := by
      rw [← List.take_append_drop (logId.index + 1 - n) a.entries, List.getLast?_append, last]
      rfl
    obtain ⟨id, cell, index⟩ := held.last e whole
    exact ⟨id, lastCell.trans cell, index⟩

theorem Represents.step {a : SpecLog} {s : LogStore} (held : Represents a s) {op : LogOp}
    (allowed : a.allows op = true) : Represents (a.step op) (s.step op) := by
  cases op with
  | append entries => exact held.append allowed
  | truncate logId => exact held.truncate allowed
  | purge logId => exact held.purge allowed

theorem Represents.run {ops : List LogOp} {l : Logged}
    (ran : exec Logged.step Logged.empty ops = some l) : Represents l.spec l.store := by
  refine exec_invariant_always (I := fun l => Represents l.spec l.store) ?_ Represents.empty ran
  intro l op l' held step
  simp only [Logged.step] at step
  split at step
  · rename_i allowed
    cases step
    exact held.step allowed
  · cases step

/-! ## Reading a range -/

/-- The index in a bound, if any, is below `u64::MAX`. -/
def Bound.Small : Bound → Prop
  | .included n => n < u64Size - 1
  | .excluded n => n < u64Size - 1
  | .unbounded => True

instance : DecidablePred Bound.Small
  | .included n => inferInstanceAs (Decidable (n < u64Size - 1))
  | .excluded n => inferInstanceAs (Decidable (n < u64Size - 1))
  | .unbounded => inferInstanceAs (Decidable True)

/-- Every index that an operation names is below `u64::MAX`. -/
def LogOp.Small : LogOp → Prop
  | .append entries => ∀ e ∈ entries, e.logId.index < u64Size - 1
  | .truncate logId => logId.index < u64Size - 1
  | .purge logId => logId.index < u64Size - 1

instance : DecidablePred LogOp.Small
  | .append entries => inferInstanceAs (Decidable (∀ e ∈ entries, e.logId.index < u64Size - 1))
  | .truncate logId => inferInstanceAs (Decidable (logId.index < u64Size - 1))
  | .purge logId => inferInstanceAs (Decidable (logId.index < u64Size - 1))

theorem Bound.covers_iff {low high : Bound} (small : low.Small) (small' : high.Small) {i : Nat}
    (below : i < u64Size - 1) :
    low.covers high i = true ↔ low.start ≤ i ∧ i < high.stop := by
  have succ : ∀ n, n < u64Size - 1 → u64Succ n = n + 1 := by
    intro n less
    exact Nat.mod_eq_of_lt (by omega)
  have start : low.startsBefore i = true ↔ low.start ≤ i := by
    cases low with
    | included n => simp [Bound.startsBefore, Bound.start]
    | excluded n =>
      simp only [Bound.startsBefore, Bound.start, succ n small, decide_eq_true_eq]
      omega
    | unbounded => simp [Bound.startsBefore, Bound.start]
  have stop : high.endsAfter i = true ↔ i < high.stop := by
    cases high with
    | included n =>
      simp only [Bound.endsAfter, Bound.stop, succ n small', decide_eq_true_eq]
      omega
    | excluded n => simp [Bound.endsAfter, Bound.stop]
    | unbounded => simp [Bound.endsAfter, Bound.stop, below]
  rw [Bound.covers, Bool.and_eq_true, start, stop]

theorem Bound.stop_le {b : Bound} (small : b.Small) : b.stop ≤ u64Size - 1 := by
  cases b with
  | included n => exact Nat.le_sub_one_of_lt (Nat.mod_lt _ (by decide))
  | excluded n => exact Nat.le_of_lt small
  | unbounded => exact le_rfl

/-- A store that has the entries below `bound` under their indexes reads every range below it. -/
theorem getEntries_of_stored {entries : List Entry} {s : LogStore} {n bound : Nat}
    (numbered : contiguous n entries = true)
    (stored : ∀ i e, i < bound →
      (s.log (indexToKey i) = some e ↔ e ∈ entries ∧ e.logId.index = i))
    {low high : Bound} (below : high.stop ≤ bound) :
    s.getEntries low high =
      entries.filter fun e => decide (low.start ≤ e.logId.index ∧ e.logId.index < high.stop) := by
  have inside : ∀ i, i ∈ List.range' low.start (high.stop - low.start) ↔
      low.start ≤ i ∧ i < high.stop := by
    intro i
    rw [List.mem_range'_1]
    omega
  refine Kv.eq_of_sorted (fun e : Entry => e.logId.index) ?_ ((contiguous_pairwise numbered).filter _)
    fun e => ?_
  · rw [LogStore.getEntries, List.pairwise_filterMap]
    refine List.Pairwise.imp_of_mem ?_ List.pairwise_lt_range'
    intro i j first second less e read e' read'
    have := (inside i).1 first
    have := (inside j).1 second
    have := ((stored i e (by omega)).1 read).2
    have := ((stored j e' (by omega)).1 read').2
    omega
  · rw [LogStore.getEntries, List.mem_filterMap, List.mem_filter, decide_eq_true_eq]
    constructor
    · rintro ⟨i, member, read⟩
      have range := (inside i).1 member
      obtain ⟨there, rfl⟩ := (stored i e (by omega)).1 read
      exact ⟨there, range⟩
    · rintro ⟨there, range⟩
      exact ⟨e.logId.index, (inside _).2 range, (stored _ e (by omega)).2 ⟨there, rfl⟩⟩

/-- The range between two bounds, index by index. -/
theorem Bound.filter_covers {entries : List Entry} {low high : Bound} (small : low.Small)
    (small' : high.Small) (fit : ∀ e ∈ entries, e.logId.index < u64Size - 1) :
    (entries.filter fun e => decide (low.start ≤ e.logId.index ∧ e.logId.index < high.stop)) =
      entries.filter fun e => low.covers high e.logId.index := by
  refine List.filter_congr fun e member => ?_
  rw [Bool.eq_iff_iff, decide_eq_true_eq, Bound.covers_iff small small' (fit e member)]

/-- A range of the store is that range of the log. -/
theorem Represents.getEntries {a : SpecLog} {s : LogStore} (held : Represents a s)
    (small : ∀ e ∈ a.entries, e.logId.index < u64Size - 1) {low high : Bound} (lowSmall : low.Small)
    (highSmall : high.Small) :
    s.getEntries low high = a.entries.filter fun e => low.covers high e.logId.index := by
  obtain ⟨n, numbered⟩ := held.numbered
  rw [getEntries_of_stored numbered (fun i e less => held.stored i e (by omega))
    (Bound.stop_le highSmall), Bound.filter_covers lowSmall highSmall small]

theorem small_run {ops : List LogOp} {l l' : Logged} (small : ∀ op ∈ ops, op.Small)
    (start : ∀ e ∈ l.spec.entries, e.logId.index < u64Size - 1)
    (ran : exec Logged.step l ops = some l') :
    ∀ e ∈ l'.spec.entries, e.logId.index < u64Size - 1 := by
  refine exec_invariant (I := fun l => ∀ e ∈ l.spec.entries, e.logId.index < u64Size - 1)
    (P := fun _ op => op.Small) ?_ start (along_of_mem (fun op member _ => small op member) l) ran
  intro l op l' kept small step e member
  simp only [Logged.step] at step
  split at step
  · cases step
    cases op with
    | append entries =>
      rcases List.mem_append.1 member with old | new
      · exact kept e old
      · exact small e new
    | truncate logId => exact kept e (List.mem_filter.1 member).1
    | purge logId => exact kept e (List.mem_filter.1 member).1
  · cases step

/-- **The log store holds the log.** After any operations openraft may make, reading any
range returns exactly the entries of the log in that range, each once and in order. -/
theorem log_refines (ops : List LogOp) {l : Logged}
    (ran : exec Logged.step Logged.empty ops = some l) (small : ∀ op ∈ ops, op.Small)
    (low high : Bound) (lowSmall : low.Small) (highSmall : high.Small) :
    l.store.getEntries low high = l.spec.entries.filter (fun e => low.covers high e.logId.index) ∧
      l.spec.entries.Pairwise fun e e' => e.logId.index < e'.logId.index := by
  have held := Represents.run ran
  obtain ⟨n, numbered⟩ := held.numbered
  refine ⟨held.getEntries (small_run small ?_ ran) lowSmall highSmall, contiguous_pairwise numbered⟩
  intro e member
  cases member

/-- A blank entry. -/
def blankEntry (term index : Nat) : Entry := ⟨⟨⟨term, 1⟩, index⟩, .blank⟩

/-- An entry is truncated and replaced by the next leader's, and the first one purged. -/
def sampleOps : List LogOp :=
  [.append [blankEntry 1 1, blankEntry 1 2, blankEntry 1 3], .truncate ⟨⟨1, 1⟩, 3⟩,
    .append [blankEntry 2 3], .purge ⟨⟨1, 1⟩, 1⟩]

theorem log_refines_sample :
    ∃ l, exec Logged.step Logged.empty sampleOps = some l ∧
      l.store.getEntries (.excluded 1) .unbounded = [blankEntry 1 2, blankEntry 2 3] := by
  refine ⟨_, rfl, (log_refines sampleOps rfl ?_ (.excluded 1) .unbounded (by decide) trivial).1⟩
  intro op member
  simp only [sampleOps, List.mem_cons, List.not_mem_nil, or_false] at member
  rcases member with rfl | rfl | rfl | rfl
  · decide
  · decide
  · decide
  · decide

end Save.Metadata
