import Save.Metadata.LogStore

/-!
# Crashes in the Raft log

`append_to_log`, `delete_conflict_logs_since` and `purge_logs_upto` (`raft/storage.rs`,
over `raft/log_store.rs`) write the log entry by entry and the cell that names its end,
or the last purge, last. A node that starts again reads the entries between the two
cells (`LogStore.recovered`). Entries of an unfinished append lie above the end, where
nothing reads them and later appends write over them; an unfinished truncation
or purge leaves a hole below it. `log_survives_crashes` says exactly which
crashes leave the log as it was before the operation or as it is after it.
-/

namespace Save.Metadata
set_option autoImplicit false
open Save.Run

/-- A single write of a log operation. -/
inductive LogWrite where
  | put (e : Entry)
  | delete (index : Nat)
  | lastLogId (id : Option LogId)
  | lastPurgedLogId (id : LogId)
  deriving DecidableEq, Repr

def LogWrite.apply (s : LogStore) : LogWrite → LogStore
  | .put e => s.put e
  | .delete index => s.deleteIndex index
  | .lastLogId id => { s with lastLogId := id }
  | .lastPurgedLogId id => { s with lastPurgedLogId := some id }

def LogStore.applyAll (s : LogStore) (ws : List LogWrite) : LogStore := ws.foldl LogWrite.apply s

/-- The deletes of `delete_range`. -/
def rangeDeletes (start stop : Nat) : List LogWrite :=
  (List.range' start (stop + 1 - start)).map .delete

/-- The first index a purge deletes. -/
def LogStore.purgeStart (s : LogStore) : Nat :=
  match s.getLogState.lastPurgedLogId with
  | some id => u64Succ id.index
  | none => 0

/-- The writes of an operation, in order. -/
def LogStore.writes (s : LogStore) : LogOp → List LogWrite
  | .append entries =>
    entries.map .put ++ (entries.getLast?.map fun e => LogWrite.lastLogId (some e.logId)).toList
  | .truncate logId =>
    match s.getLogState.lastLogId with
    | none => []
    | some last =>
      rangeDeletes logId.index last.index ++
        [.lastLogId (if logId.index > 0 then some ⟨logId.leaderId, logId.index - 1⟩ else none)]
  | .purge logId => rangeDeletes s.purgeStart logId.index ++ [.lastPurgedLogId logId]

/-- One past the last index of the log: that of the last log id or of the last purge. -/
def LogStore.stop (s : LogStore) : Nat := max (position s.lastLogId) (position s.lastPurgedLogId)

/-- What a node that starts finds between the last purge and the end of the log. -/
def LogStore.recovered (s : LogStore) : List Entry :=
  s.getEntries (.included (position s.lastPurgedLogId)) (.excluded s.stop)

def SpecLog.stop (a : SpecLog) : Nat := position a.purged + a.entries.length

/-- What openraft asks of an operation, on a log that is numbered from 0. -/
def SpecLog.admits (a : SpecLog) (op : LogOp) : Bool :=
  a.allows op && decide op.Small &&
    match op with
    | .append (e :: _) => e.logId.index == a.stop
    | _ => true

inductive LogEvent where
  | op (op : LogOp)
  /-- The node crashes after `n` writes of the operation, and starts again. -/
  | crash (op : LogOp) (n : Nat)
  deriving DecidableEq, Repr

/-- The store after the first `n` writes of an operation. -/
def LogStore.crashed (s : LogStore) (op : LogOp) (n : Nat) : LogStore :=
  s.applyAll ((s.writes op).take n)

/-- An operation counts as done when all its writes are made. -/
def Logged.event (l : Logged) : LogEvent → Option Logged
  | .op op => if l.spec.admits op then some ⟨l.spec.step op, l.store.step op⟩ else none
  | .crash op n =>
    if l.spec.admits op then
      some ⟨if (l.store.writes op).length ≤ n then l.spec.step op else l.spec, l.store.crashed op n⟩
    else none

/-- A node that starts from `s` finds the log `a`: its entries between the two cells, every range of
them below the end, the id of the last purge and the index of the last id. -/
structure Shows (a : SpecLog) (s : LogStore) : Prop where
  entries : s.recovered = a.entries
  range : ∀ low high : Bound, low.Small → high.Small → high.stop ≤ a.stop →
    s.getEntries low high = a.entries.filter fun e => low.covers high e.logId.index
  purged : s.lastPurgedLogId = a.purged
  last : a.entries ≠ [] → s.lastLogId.map LogId.index = a.entries.getLast?.map fun e => e.logId.index
  stop : s.stop = a.stop

/-- A truncation is not begun or is finished; so is a purge, unless the log is empty. -/
def CrashSafe (l : Logged) : LogEvent → Prop
  | .op _ => True
  | .crash (.append _) _ => True
  | .crash (.truncate logId) n => n = 0 ∨ (l.store.writes (.truncate logId)).length ≤ n
  | .crash (.purge logId) n =>
    n = 0 ∨ (l.store.writes (.purge logId)).length ≤ n ∨ l.spec.entries = []

instance (l : Logged) (event : LogEvent) : Decidable (CrashSafe l event) :=
  match event with
  | .op _ | .crash (.append _) _ => .isTrue trivial
  | .crash (.truncate _) _ | .crash (.purge _) _ => inferInstanceAs (Decidable (_ ∨ _))

/-! ## The writes of an operation -/

theorem applyAll_append_log (s : LogStore) (ws ws' : List LogWrite) :
    s.applyAll (ws ++ ws') = (s.applyAll ws).applyAll ws' := List.foldl_append

theorem applyAll_puts (s : LogStore) (entries : List Entry) :
    s.applyAll (entries.map .put) = entries.foldl LogStore.put s := by
  rw [LogStore.applyAll, List.foldl_map]
  rfl

theorem applyAll_rangeDeletes (s : LogStore) (start stop : Nat) :
    s.applyAll (rangeDeletes start stop) = s.deleteRange start stop := by
  rw [LogStore.applyAll, rangeDeletes, List.foldl_map]
  rfl

/-- All the writes together are the operation. -/
theorem applyAll_writes (s : LogStore) (op : LogOp) : s.applyAll (s.writes op) = s.step op := by
  cases op with
  | append entries =>
    simp only [LogStore.writes, applyAll_append_log, applyAll_puts, LogStore.step, LogStore.append]
    cases entries.getLast? <;> rfl
  | truncate logId =>
    simp only [LogStore.writes, LogStore.step, LogStore.deleteConflictLogsSince]
    cases s.getLogState.lastLogId with
    | none => rfl
    | some last =>
      simp only [applyAll_append_log, applyAll_rangeDeletes]
      by_cases positive : logId.index > 0
      · rw [if_pos positive, if_pos positive]
        rfl
      · rw [if_neg positive, if_neg positive]
        rfl
  | purge logId =>
    simp only [LogStore.writes, applyAll_append_log, applyAll_rangeDeletes, LogStore.step]
    rfl

theorem crashed_all {s : LogStore} {op : LogOp} {n : Nat} (all : (s.writes op).length ≤ n) :
    s.crashed op n = s.step op := by
  rw [LogStore.crashed, List.take_of_length_le all, applyAll_writes]

/-! ## The invariant -/

/-- The store holds the log below its end; above it there may be entries of appends that
were not finished. -/
structure Recovers (a : SpecLog) (s : LogStore) : Prop where
  numbered : contiguous (position a.purged) a.entries = true
  small : a.stop ≤ u64Size - 1
  stored : ∀ i e, i < a.stop →
    (s.log (indexToKey i) = some e ↔ e ∈ a.entries ∧ e.logId.index = i)
  purged : s.lastPurgedLogId = a.purged
  stop : s.stop = a.stop

theorem Recovers.empty : Recovers SpecLog.empty LogStore.empty where
  numbered := rfl
  small := Nat.zero_le _
  stored i _ below := absurd below (Nat.not_lt_zero i)
  purged := rfl
  stop := rfl

section Recovers

variable {a : SpecLog} {s : LogStore}

theorem Recovers.index (held : Recovers a s) {e : Entry} (member : e ∈ a.entries) :
    position a.purged ≤ e.logId.index ∧ e.logId.index < a.stop :=
  contiguous_index held.numbered member

/-- The cell of the last id is that of the last entry, when there is one. -/
theorem Recovers.cell (held : Recovers a s) (some_there : a.entries ≠ []) :
    position s.lastLogId = a.stop := by
  have stop := held.stop
  have purged : position s.lastPurgedLogId = position a.purged := congrArg position held.purged
  have positive := List.length_pos_of_ne_nil some_there
  unfold LogStore.stop at stop
  unfold SpecLog.stop at stop ⊢
  omega

/-- Every range below the end is that range of the log. -/
theorem Recovers.range (held : Recovers a s) {low high : Bound} (lowSmall : low.Small)
    (highSmall : high.Small) (below : high.stop ≤ a.stop) :
    s.getEntries low high = a.entries.filter fun e => low.covers high e.logId.index := by
  have bounded := held.small
  rw [getEntries_of_stored held.numbered held.stored below]
  refine Bound.filter_covers lowSmall highSmall fun e member => ?_
  have := held.index member
  omega

/-- A node that starts finds the log. -/
theorem Recovers.shows (held : Recovers a s) : Shows a s where
  entries := by
    rw [LogStore.recovered, held.purged, held.stop,
      getEntries_of_stored held.numbered held.stored le_rfl, List.filter_eq_self]
    intro e member
    exact decide_eq_true (held.index member)
  range low high := held.range
  purged := held.purged
  last := by
    intro some_there
    have cell := held.cell some_there
    obtain ⟨final, last⟩ : ∃ e, a.entries.getLast? = some e :=
      ⟨_, List.getLast?_eq_some_getLast some_there⟩
    have index := contiguous_getLast held.numbered last
    have positive := List.length_pos_of_ne_nil some_there
    cases stored : s.lastLogId with
    | none =>
      have nothing : position s.lastLogId = 0 := by rw [stored]; rfl
      unfold SpecLog.stop at cell
      omega
    | some id =>
      have here : position s.lastLogId = id.index + 1 := by rw [stored]; rfl
      rw [last]
      unfold SpecLog.stop at cell
      simp only [Option.map_some, Option.some.injEq]
      omega
  stop := held.stop

/-- Other entries below the end, or other cells, are all that a node that starts would see. -/
theorem Recovers.congr (held : Recovers a s) {s' : LogStore}
    (log : ∀ i, i < a.stop → s'.log (indexToKey i) = s.log (indexToKey i))
    (last : s'.lastLogId = s.lastLogId) (purged : s'.lastPurgedLogId = s.lastPurgedLogId) :
    Recovers a s' where
  numbered := held.numbered
  small := held.small
  stored i e below := by
    rw [log i below]
    exact held.stored i e below
  purged := purged.trans held.purged
  stop := by
    rw [← held.stop, LogStore.stop, LogStore.stop, last, purged]

/-! ## Appends -/

/-- Entries above the end are not seen. -/
theorem log_puts_below {es : List Entry} {i stop : Nat} (above : ∀ e ∈ es, stop ≤ e.logId.index)
    (small : ∀ e ∈ es, e.logId.index < u64Size) (below : i < stop) (bounded : stop ≤ u64Size - 1) :
    (es.foldl LogStore.put s).log (indexToKey i) = s.log (indexToKey i) := by
  induction es generalizing s with
  | nil => rfl
  | cons e es ih =>
    rw [List.foldl_cons, ih (fun e' member => above e' (List.mem_cons_of_mem _ member))
      (fun e' member => small e' (List.mem_cons_of_mem _ member)),
      log_put s (small e List.mem_cons_self) (by omega)]
    have := above e List.mem_cons_self
    rw [if_neg (by omega)]

/-- A first entry numbers all the entries of an append. -/
theorem append_admits {first : Entry} {rest : List Entry}
    (admitted : a.admits (.append (first :: rest)) = true) :
    contiguous a.stop (first :: rest) = true ∧
      ∀ e ∈ first :: rest, e.logId.index < u64Size - 1 := by
  simp only [SpecLog.admits, SpecLog.allows, Bool.and_eq_true, beq_iff_eq] at admitted
  obtain ⟨⟨⟨⟨numbered, -⟩, -⟩, small⟩, start⟩ := admitted
  rw [start] at numbered
  exact ⟨numbered, of_decide_eq_true small⟩

/-- Numbered entries have every number there is between the first and the last. -/
theorem contiguous_covers {n i : Nat} {es : List Entry} (numbered : contiguous n es = true)
    (low : n ≤ i) (high : i < n + es.length) : ∃ e ∈ es, e.logId.index = i := by
  induction es generalizing n with
  | nil =>
    rw [List.length_nil] at high
    omega
  | cons e es ih =>
    obtain ⟨here, later⟩ := contiguous_cons.1 numbered
    rw [List.length_cons] at high
    by_cases first : n = i
    · exact ⟨e, List.mem_cons_self, here.trans first⟩
    · obtain ⟨e', member, index⟩ := ih later (by omega) (by omega)
      exact ⟨e', List.mem_cons_of_mem _ member, index⟩

/-- Some of the entries of an append, without the cell. -/
theorem Recovers.puts (held : Recovers a s) {es : List Entry} (numbered : contiguous a.stop es = true)
    (small : ∀ e ∈ es, e.logId.index < u64Size - 1) (n : Nat) :
    Recovers a ((es.take n).foldl LogStore.put s) := by
  obtain ⟨last, purged⟩ := foldl_put_cells (es.take n) s
  refine held.congr (fun i below => ?_) last purged
  have above : ∀ e ∈ es.take n, a.stop ≤ e.logId.index := by
    intro e member
    exact (contiguous_index numbered (List.mem_of_mem_take member)).1
  have fit : ∀ e ∈ es.take n, e.logId.index < u64Size := by
    intro e member
    have := small e (List.mem_of_mem_take member)
    omega
  exact log_puts_below above fit below held.small

theorem Recovers.append (held : Recovers a s) {entries : List Entry}
    (admitted : a.admits (.append entries) = true) :
    Recovers (a.step (.append entries)) (s.step (.append entries)) := by
  cases entries with
  | nil => simpa [SpecLog.step, LogStore.step, LogStore.append] using held
  | cons first rest =>
    obtain ⟨numbered, small⟩ := append_admits admitted
    obtain ⟨-, purgedCell⟩ := foldl_put_cells (first :: rest) s
    obtain ⟨final, final_eq⟩ : ∃ e, (first :: rest).getLast? = some e :=
      ⟨_, List.getLast?_eq_some_getLast (List.cons_ne_nil _ _)⟩
    have end_index := contiguous_getLast numbered final_eq
    have store : s.step (.append (first :: rest)) =
        { (first :: rest).foldl LogStore.put s with lastLogId := some final.logId } := by
      simp only [LogStore.step, LogStore.append, final_eq]
    have stop : (a.step (.append (first :: rest))).stop = a.stop + (first :: rest).length := by
      simp only [SpecLog.step, SpecLog.stop, List.length_append]
      omega
    have bounded := small final (List.mem_of_getLast? final_eq)
    rw [store]
    refine ⟨contiguous_append.2 ⟨held.numbered, numbered⟩, by omega, fun i e below => ?_,
      purgedCell.trans held.purged, ?_⟩
    · have smaller : i < u64Size := by omega
      have puts := log_puts (contiguous_pairwise numbered)
        (fun e member => by have := small e member; omega) s smaller e
      simp only [puts, SpecLog.step, List.mem_append]
      constructor
      · rintro (⟨member, index⟩ | ⟨none_here, read⟩)
        · exact ⟨.inr member, index⟩
        · -- an index that the append does not write is below the old end
          have old : i < a.stop := by
            by_contra late
            obtain ⟨e', member, index⟩ := contiguous_covers numbered (i := i) (by omega) (by omega)
            exact none_here e' member index
          obtain ⟨member, index⟩ := (held.stored i e old).1 read
          exact ⟨.inl member, index⟩
      · rintro ⟨member | member, index⟩
        · have range := held.index member
          refine .inr ⟨fun e' member' => ?_, (held.stored i e (by omega)).2 ⟨member, index⟩⟩
          have := contiguous_index numbered member'
          omega
        · exact .inl ⟨member, index⟩
    · have purged : position s.lastPurgedLogId ≤ a.stop := by
        rw [held.purged]
        exact Nat.le_add_right _ _
      have cell : position (some final.logId) = final.logId.index + 1 := rfl
      change max (position (some final.logId))
        (position ((first :: rest).foldl LogStore.put s).lastPurgedLogId) = _
      rw [purgedCell, cell, stop]
      omega

/-! ## Truncations -/

/-- What a truncation asks: its entry, the end it reads, and the cell it writes. -/
theorem Recovers.truncation (held : Recovers a s) {logId : LogId}
    (admitted : a.admits (.truncate logId) = true) :
    position a.purged ≤ logId.index ∧ logId.index < a.stop ∧
      (∃ cut ∈ a.entries, cut.logId = logId) ∧ ∃ last, s.lastLogId = some last ∧ last.index + 1 = a.stop := by
  simp only [SpecLog.admits, SpecLog.allows, Bool.and_eq_true, List.any_eq_true, beq_iff_eq] at admitted
  obtain ⟨⟨⟨cut, member, rfl⟩, -⟩, -⟩ := admitted
  have range := held.index member
  have cell := held.cell (List.ne_nil_of_mem member)
  cases last : s.lastLogId with
  | none =>
    have nothing : position s.lastLogId = 0 := by rw [last]; rfl
    omega
  | some id =>
    have here : position s.lastLogId = id.index + 1 := by rw [last]; rfl
    exact ⟨range.1, range.2, ⟨cut, member, rfl⟩, id, rfl, by omega⟩

theorem truncated_stop (numbered : contiguous (position a.purged) a.entries = true) {logId : LogId}
    (low : position a.purged ≤ logId.index) (high : logId.index < a.stop) :
    (a.step (.truncate logId)).stop = logId.index := by
  simp only [SpecLog.stop] at high
  simp only [SpecLog.step, SpecLog.stop, contiguous_below numbered, List.length_take]
  omega

theorem Recovers.truncate (held : Recovers a s) {logId : LogId}
    (admitted : a.admits (.truncate logId) = true) :
    Recovers (a.step (.truncate logId)) (s.step (.truncate logId)) := by
  obtain ⟨low, high, -, last, cell, end_index⟩ := held.truncation admitted
  have stop := truncated_stop held.numbered low high
  have bounded := held.small
  obtain ⟨-, purgedCell⟩ := deleteRange_cells s logId.index last.index
  have deletes : ∀ i, i < logId.index →
      (s.deleteRange logId.index last.index).log (indexToKey i) = s.log (indexToKey i) := by
    intro i below
    rw [log_deleteRange s _ (by omega) (by omega), if_neg (by omega)]
  -- the cell names the index below the cut, if there is one
  obtain ⟨id, store, index⟩ : ∃ id, s.step (.truncate logId) =
      { s.deleteRange logId.index last.index with lastLogId := id } ∧ position id = logId.index := by
    simp only [LogStore.step, LogStore.deleteConflictLogsSince, LogStore.getLogState, cell]
    by_cases positive : logId.index > 0
    · rw [if_pos positive]
      exact ⟨_, rfl, Nat.sub_add_cancel positive⟩
    · rw [if_neg positive]
      exact ⟨_, rfl, by rw [position]; omega⟩
  rw [store]
  refine ⟨?_, by omega, fun i e below => ?_, purgedCell.trans held.purged, ?_⟩
  · simp only [SpecLog.step]
    rw [contiguous_below held.numbered]
    exact contiguous_take held.numbered _
  · rw [stop] at below
    simp only [deletes i below, held.stored i e (by omega), SpecLog.step, List.mem_filter,
      decide_eq_true_eq]
    constructor
    · rintro ⟨member, rfl⟩
      exact ⟨⟨member, below⟩, rfl⟩
    · rintro ⟨⟨member, -⟩, index⟩
      exact ⟨member, index⟩
  · change max (position id) (position (s.deleteRange logId.index last.index).lastPurgedLogId) = _
    rw [purgedCell, held.purged, stop, index]
    omega

/-! ## Purges -/

/-- A purge starts after the last one. -/
theorem Recovers.purgeStart (held : Recovers a s) : s.purgeStart = position a.purged := by
  have bounded := held.small
  simp only [SpecLog.stop] at bounded
  rw [LogStore.purgeStart, LogStore.getLogState, held.purged]
  cases last : a.purged with
  | none => rfl
  | some p =>
    rw [last] at bounded
    have here : position (some p) = p.index + 1 := rfl
    have size : 0 < u64Size := by decide
    exact Nat.mod_eq_of_lt (by omega)

theorem purge_admits {logId : LogId} (admitted : a.admits (.purge logId) = true) :
    logId.index < u64Size - 1 ∧ position a.purged ≤ logId.index + 1 := by
  simp only [SpecLog.admits, SpecLog.allows, Bool.and_eq_true, Option.all_eq_true,
    decide_eq_true_eq] at admitted
  obtain ⟨⟨⟨-, forward⟩, small⟩, -⟩ := admitted
  refine ⟨small, ?_⟩
  cases last : a.purged with
  | none => exact Nat.zero_le _
  | some p =>
    have := forward p last
    change p.index + 1 ≤ logId.index + 1
    omega

theorem purged_stop (numbered : contiguous (position a.purged) a.entries = true) {logId : LogId}
    (forward : position a.purged ≤ logId.index + 1) :
    (a.step (.purge logId)).stop = max (logId.index + 1) a.stop := by
  have here : position (some logId) = logId.index + 1 := rfl
  simp only [SpecLog.step, SpecLog.stop, contiguous_above numbered, List.length_drop, here]
  omega

theorem Recovers.purge (held : Recovers a s) {logId : LogId}
    (admitted : a.admits (.purge logId) = true) :
    Recovers (a.step (.purge logId)) (s.step (.purge logId)) := by
  obtain ⟨small, forward⟩ := purge_admits admitted
  have stop := purged_stop held.numbered forward
  have bounded := held.small
  have here : position (some logId) = logId.index + 1 := rfl
  obtain ⟨lastCell, -⟩ := deleteRange_cells s s.purgeStart logId.index
  have store : s.step (.purge logId) =
      { s.deleteRange s.purgeStart logId.index with lastPurgedLogId := some logId } := rfl
  rw [store]
  refine ⟨?_, by omega, fun i e below => ?_, rfl, ?_⟩
  · simp only [SpecLog.step]
    rw [contiguous_above held.numbered, here]
    have rest := contiguous_drop held.numbered (logId.index + 1 - position a.purged)
    rw [List.length_take] at rest
    by_cases short : logId.index + 1 - position a.purged ≤ a.entries.length
    · rwa [Nat.min_eq_left short, Nat.add_sub_cancel' forward] at rest
    · rw [List.drop_eq_nil_of_le (by omega)]
      rfl
  · rw [stop] at below
    simp only [log_deleteRange s _ (show logId.index < u64Size by omega) (show i < u64Size by omega),
      held.purgeStart, SpecLog.step, List.mem_filter, decide_eq_true_eq]
    by_cases inside : position a.purged ≤ i ∧ i ≤ logId.index
    · rw [if_pos inside]
      constructor
      · intro read
        cases read
      · rintro ⟨⟨-, later⟩, index⟩
        omega
    · rw [if_neg inside]
      constructor
      · intro read
        have old : i < a.stop := by
          by_contra late
          have : position a.purged ≤ a.stop := Nat.le_add_right _ _
          omega
        obtain ⟨member, index⟩ := (held.stored i e old).1 read
        have := held.index member
        exact ⟨⟨member, by omega⟩, index⟩
      · rintro ⟨⟨member, -⟩, index⟩
        have := held.index member
        exact (held.stored i e (by omega)).2 ⟨member, index⟩
  · have before := held.stop
    rw [LogStore.stop, held.purged] at before
    change max (position (s.deleteRange s.purgeStart logId.index).lastLogId) (position (some logId)) = _
    rw [lastCell, here, stop]
    omega

theorem Recovers.step (held : Recovers a s) {op : LogOp} (admitted : a.admits op = true) :
    Recovers (a.step op) (s.step op) := by
  cases op with
  | append entries => exact held.append admitted
  | truncate logId => exact held.truncate admitted
  | purge logId => exact held.purge admitted

/-! ## Crashes -/

theorem crashed_append {entries : List Entry} {n : Nat}
    (unfinished : n < (s.writes (.append entries)).length) :
    s.crashed (.append entries) n = (entries.take n).foldl LogStore.put s := by
  cases last : entries.getLast? with
  | none =>
    rw [List.getLast?_eq_none_iff] at last
    subst last
    exact absurd unfinished (Nat.not_lt_zero n)
  | some e =>
    have writes : s.writes (.append entries) = entries.map .put ++ [.lastLogId (some e.logId)] := by
      simp only [LogStore.writes, last]
      rfl
    rw [writes, List.length_append, List.length_map, List.length_singleton] at unfinished
    rw [LogStore.crashed, writes, List.take_append_of_le_length (by rw [List.length_map]; omega),
      ← List.map_take, applyAll_puts]

/-- A write of an entry or of nothing in its place. -/
def LogWrite.IsEntry : LogWrite → Prop
  | .put _ | .delete _ => True
  | .lastLogId _ | .lastPurgedLogId _ => False

theorem applyAll_entries (ws : List LogWrite) (entries : ∀ w ∈ ws, w.IsEntry) (s : LogStore) :
    (s.applyAll ws).lastLogId = s.lastLogId := by
  induction ws generalizing s with
  | nil => rfl
  | cons w ws ih =>
    have later := ih (fun w member => entries w (List.mem_cons_of_mem _ member)) (w.apply s)
    refine later.trans ?_
    have first := entries w List.mem_cons_self
    cases w with
    | put e | delete index => rfl
    | lastLogId id | lastPurgedLogId id => exact first.elim

/-- The cells come behind the entries, in one write. -/
theorem writes_split (s : LogStore) (op : LogOp) : ∃ entries cells, s.writes op = entries ++ cells ∧
    cells.length ≤ 1 ∧ ∀ w ∈ entries, w.IsEntry := by
  have deletes : ∀ start stop, ∀ w ∈ rangeDeletes start stop, w.IsEntry := by
    intro start stop w member
    obtain ⟨i, -, rfl⟩ := List.mem_map.1 member
    trivial
  cases op with
  | append entries =>
    refine ⟨entries.map .put, _, rfl, ?_, fun w member => ?_⟩
    · cases entries.getLast? <;> simp
    · obtain ⟨e, -, rfl⟩ := List.mem_map.1 member
      trivial
  | truncate logId =>
    simp only [LogStore.writes]
    cases s.getLogState.lastLogId with
    | none => exact ⟨[], [], rfl, Nat.zero_le _, by simp⟩
    | some last => exact ⟨_, _, rfl, le_rfl, deletes logId.index last.index⟩
  | purge logId => exact ⟨_, _, rfl, le_rfl, deletes s.purgeStart logId.index⟩

/-- An operation that is cut off leaves the cell of the last id. -/
theorem crashed_lastLogId {op : LogOp} {n : Nat} (unfinished : n < (s.writes op).length) :
    (s.crashed op n).lastLogId = s.lastLogId := by
  obtain ⟨entries, cells, writes, short, only⟩ := writes_split s op
  rw [writes, List.length_append] at unfinished
  rw [LogStore.crashed, writes, List.take_append_of_le_length (by omega)]
  exact applyAll_entries _ (fun w member => only w (List.mem_of_mem_take member)) s

/-- The first deletes of a range, before whatever is written after them. -/
theorem applyAll_take_deletes (start stop n : Nat) (w : LogWrite)
    (unfinished : n < (rangeDeletes start stop ++ [w]).length) :
    s.applyAll ((rangeDeletes start stop ++ [w]).take n) =
      (List.range' start n).foldl LogStore.deleteIndex s := by
  simp only [rangeDeletes, List.length_append, List.length_map, List.length_range',
    List.length_singleton] at unfinished
  have first : (List.range' start (stop + 1 - start)).take n = List.range' start n :=
    List.take_range'_of_length_ge (by omega)
  have fits : n ≤ (rangeDeletes start stop).length := by
    rw [rangeDeletes, List.length_map, List.length_range']
    omega
  rw [List.take_append_of_le_length fits, rangeDeletes, ← List.map_take, first, LogStore.applyAll,
    List.foldl_map]
  rfl

/-- Deleting `n` indexes from `start` on. -/
theorem log_deletes (start n : Nat) {i : Nat} (small : start + n ≤ u64Size) (small' : i < u64Size) :
    ((List.range' start n).foldl LogStore.deleteIndex s).log (indexToKey i) =
      if start ≤ i ∧ i < start + n then none else s.log (indexToKey i) := by
  cases n with
  | zero =>
    rw [if_neg (by omega)]
    rfl
  | succ n =>
    have same : (List.range' start (n + 1)).foldl LogStore.deleteIndex s =
        s.deleteRange start (start + n) := by
      rw [LogStore.deleteRange, show start + n + 1 - start = n + 1 by omega]
    rw [same, log_deleteRange s start (by omega) small']
    have bounds : (start ≤ i ∧ i ≤ start + n) ↔ (start ≤ i ∧ i < start + (n + 1)) := by omega
    simp only [bounds]

theorem deletes_cells (start n : Nat) :
    ((List.range' start n).foldl LogStore.deleteIndex s).lastLogId = s.lastLogId ∧
      ((List.range' start n).foldl LogStore.deleteIndex s).lastPurgedLogId = s.lastPurgedLogId := by
  have same : (List.range' start n).foldl LogStore.deleteIndex s = s.applyAll (rangeDeletes start
      (start + n - 1)) ∨ n = 0 := by
    cases n with
    | zero => exact .inr rfl
    | succ n =>
      left
      rw [applyAll_rangeDeletes, LogStore.deleteRange,
        show start + (n + 1) - 1 + 1 - start = n + 1 by omega]
  rcases same with same | rfl
  · rw [same, applyAll_rangeDeletes]
    exact deleteRange_cells s _ _
  · exact ⟨rfl, rfl⟩

/-- An entry of the log is deleted and the cells are as before: a node that starts misses it. -/
theorem Recovers.hole (held : Recovers a s) {start n : Nat} {e : Entry} (member : e ∈ a.entries)
    (inside : start ≤ e.logId.index ∧ e.logId.index < start + n) (small : start + n ≤ u64Size) :
    ((List.range' start n).foldl LogStore.deleteIndex s).recovered ≠ a.entries := by
  intro same
  obtain ⟨last, purged⟩ := deletes_cells (s := s) start n
  have range := held.index member
  have bounded := held.small
  rw [← same, LogStore.recovered, LogStore.getEntries, List.mem_filterMap] at member
  obtain ⟨i, between, read⟩ := member
  rw [purged, held.purged, LogStore.stop, last, purged, ← LogStore.stop, held.stop,
    List.mem_range'_1] at between
  have low : position a.purged ≤ a.stop := Nat.le_add_right _ _
  have below : i < a.stop := by
    simp only [Bound.start, Bound.stop] at between
    omega
  rw [log_deletes start n small (by omega)] at read
  split at read
  · cases read
  · rename_i outside
    have index := ((held.stored i e below).1 read).2
    omega

theorem Recovers.crash (held : Recovers a s) {op : LogOp} {n : Nat} (admitted : a.admits op = true)
    (safe : CrashSafe ⟨a, s⟩ (.crash op n)) :
    Recovers (if (s.writes op).length ≤ n then a.step op else a) (s.crashed op n) := by
  by_cases all : (s.writes op).length ≤ n
  · rw [if_pos all, crashed_all all]
    exact held.step admitted
  · rw [if_neg all]
    have unfinished : n < (s.writes op).length := by omega
    cases op with
    | append entries =>
      rw [crashed_append unfinished]
      cases entries with
      | nil => exact absurd unfinished (Nat.not_lt_zero n)
      | cons first rest =>
        obtain ⟨numbered, small⟩ := append_admits admitted
        exact held.puts numbered small n
    | truncate logId =>
      rcases safe with rfl | done
      · exact held
      · exact absurd done all
    | purge logId =>
      rcases safe with rfl | done | nothing
      · exact held
      · exact absurd done all
      · -- the log is empty, and what is deleted lies above it
        rw [LogStore.crashed, LogStore.writes, applyAll_take_deletes _ _ _ _ unfinished,
          held.purgeStart]
        obtain ⟨last, purged⟩ := deletes_cells (s := s) (position a.purged) n
        refine held.congr (fun i below => ?_) last purged
        have bounded := held.small
        have stop : a.stop = position a.purged := by
          rw [SpecLog.stop, nothing]
          rfl
        have small := (purge_admits admitted).1
        rw [LogStore.writes, rangeDeletes, held.purgeStart] at unfinished
        simp only [List.length_append, List.length_map, List.length_range', List.length_singleton]
          at unfinished
        rw [log_deletes _ _ (by omega) (by omega), if_neg (by omega)]

/-- Any other crash leaves a log that is neither the one before nor the one after. -/
theorem Recovers.harmful (held : Recovers a s) {op : LogOp} {n : Nat} (admitted : a.admits op = true)
    (harmful : ¬ CrashSafe ⟨a, s⟩ (.crash op n)) :
    ¬ Shows a (s.crashed op n) ∧ ¬ Shows (a.step op) (s.crashed op n) := by
  cases op with
  | append entries => exact absurd trivial harmful
  | truncate logId =>
    simp only [CrashSafe, not_or, not_le] at harmful
    obtain ⟨begun, unfinished⟩ := harmful
    obtain ⟨low, high, ⟨cut, member, rfl⟩, last, cell, end_index⟩ := held.truncation admitted
    have bounded := held.small
    have writes : s.writes (.truncate cut.logId) = rangeDeletes cut.logId.index last.index ++
        [.lastLogId (if cut.logId.index > 0 then some ⟨cut.logId.leaderId, cut.logId.index - 1⟩
          else none)] := by
      simp only [LogStore.writes, LogStore.getLogState, cell]
    rw [writes] at unfinished
    rw [LogStore.crashed, writes, applyAll_take_deletes _ _ _ _ unfinished]
    simp only [rangeDeletes, List.length_append, List.length_map, List.length_range',
      List.length_singleton] at unfinished
    obtain ⟨same, purged⟩ := deletes_cells (s := s) cut.logId.index n
    refine ⟨fun shows => held.hole member (by omega) (by omega) shows.entries, fun shows => ?_⟩
    have stop := shows.stop
    rw [LogStore.stop, same, purged, ← LogStore.stop, held.stop,
      truncated_stop held.numbered low high] at stop
    omega
  | purge logId =>
    simp only [CrashSafe, not_or, not_le] at harmful
    obtain ⟨begun, unfinished, some_there⟩ := harmful
    obtain ⟨small, forward⟩ := purge_admits admitted
    rw [LogStore.writes] at unfinished
    rw [LogStore.crashed, LogStore.writes, applyAll_take_deletes _ _ _ _ unfinished, held.purgeStart]
    simp only [rangeDeletes, held.purgeStart, List.length_append, List.length_map,
      List.length_range', List.length_singleton] at unfinished
    obtain ⟨-, purged⟩ := deletes_cells (s := s) (position a.purged) n
    obtain ⟨first, member, index⟩ := contiguous_covers held.numbered le_rfl
      (Nat.lt_add_of_pos_right (List.length_pos_of_ne_nil some_there))
    refine ⟨fun shows => held.hole member (by omega) (by omega) shows.entries, fun shows => ?_⟩
    have again : a.purged = some logId := by
      rw [← held.purged, ← purged]
      exact shows.purged
    have here : position a.purged = logId.index + 1 := by rw [again]; rfl
    omega

end Recovers

/-! ## Runs with crashes -/

theorem Recovers.event {l l' : Logged} {event : LogEvent} (held : Recovers l.spec l.store)
    (safe : CrashSafe l event) (step : l.event event = some l') : Recovers l'.spec l'.store := by
  cases event with
  | op op =>
    simp only [Logged.event] at step
    split at step
    · rename_i admitted
      cases step
      exact held.step admitted
    · cases step
  | crash op n =>
    simp only [Logged.event] at step
    split at step
    · rename_i admitted
      cases step
      exact held.crash admitted safe
    · cases step

/-- **The log and crashes, exactly.** After any run of operations and harmless crashes a node
finds the log: what was appended and neither truncated nor purged, an unfinished append not
counting. A crash is harmless just when the node then finds the log, and the last log id, from
before the operation or from after it. -/
theorem log_survives_crashes (events : List LogEvent) {l : Logged}
    (safe : Along Logged.event CrashSafe Logged.empty events)
    (ran : exec Logged.event Logged.empty events = some l) :
    Shows l.spec l.store ∧ ∀ op n, l.spec.admits op = true →
      (CrashSafe l (.crash op n) ↔
        (Shows l.spec (l.store.crashed op n) ∧
          (l.store.crashed op n).lastLogId = l.store.lastLogId) ∨
        (Shows (l.spec.step op) (l.store.crashed op n) ∧
          (l.store.crashed op n).lastLogId = (l.store.step op).lastLogId)) := by
  have held : Recovers l.spec l.store :=
    exec_invariant (I := fun l => Recovers l.spec l.store)
      (fun _ _ _ held safe step => held.event safe step) Recovers.empty safe ran
  refine ⟨held.shows, fun op n admitted => ⟨fun harmless => ?_, fun shows => ?_⟩⟩
  · have after := (held.crash admitted harmless).shows
    split at after
    · rename_i all
      exact .inr ⟨after, by rw [crashed_all all]⟩
    · rename_i cut
      exact .inl ⟨after, crashed_lastLogId (by omega)⟩
  · by_contra harmful
    obtain ⟨before, after⟩ := held.harmful admitted harmful
    exact shows.elim (fun h => before h.1) fun h => after h.1

/-- An append of three entries that is cut off after two, and the next leader's entry in
their place. -/
def tornAppend : List LogEvent :=
  [.op (.append [blankEntry 1 0]),
    .crash (.append [blankEntry 1 1, blankEntry 1 2, blankEntry 1 3]) 2,
    .op (.append [blankEntry 2 1])]

theorem tornAppend_survives : ∃ l, exec Logged.event Logged.empty tornAppend = some l ∧
    l.store.recovered = [blankEntry 1 0, blankEntry 2 1] ∧
    l.store.getEntries (.included 0) (.excluded 4) = [blankEntry 1 0, blankEntry 2 1, blankEntry 1 2] ∧
    Shows l.spec l.store := by
  exact ⟨_, rfl, by decide, by decide, (log_survives_crashes tornAppend (by decide) rfl).1⟩

end Save.Metadata
