import Save.Metadata.LogStore

/-!
# What the log store says about its log

openraft asks `get_log_state` (`raft/log_store.rs`) for the last log id after a
restart. The cell it reads is written by append and truncation and left alone by
purge. Truncation makes up the id below the cut from the leader of the entry that is
cut off, and a purge past the end leaves the cell on an entry that is gone.
`log_state_truthful` says for which operations the cell still names the end of the
log.
-/

namespace Save.Metadata
set_option autoImplicit false
open Save.Run

/-- The log id right below a truncation: that of the entry before, or of the last purge. -/
def SpecLog.below (a : SpecLog) (logId : LogId) : Option LogId := (a.step (.truncate logId)).last

/-- What the cell will say is so: the log id below a truncation has the leader of the
entry truncated, and a purge that leaves no entry is at the end of the log. -/
def SpecLog.CellFits (a : SpecLog) : LogOp → Prop
  | .append _ => True
  | .truncate logId =>
    0 < logId.index → a.below logId = some ⟨logId.leaderId, logId.index - 1⟩
  | .purge logId =>
    (∀ e ∈ a.entries, e.logId.index ≤ logId.index) → a.last = some logId

instance (a : SpecLog) : DecidablePred a.CellFits
  | .append _ => inferInstanceAs (Decidable True)
  | .truncate logId =>
    inferInstanceAs (Decidable (0 < logId.index →
      a.below logId = some ⟨logId.leaderId, logId.index - 1⟩))
  | .purge logId =>
    inferInstanceAs (Decidable ((∀ e ∈ a.entries, e.logId.index ≤ logId.index) →
      a.last = some logId))

/-- `get_log_state` names the end of the log and the last purge. -/
def Logged.Truthful (l : Logged) : Prop :=
  l.store.getLogState = ⟨l.spec.purged, l.spec.last⟩

theorem truthful_iff {l : Logged} (held : Represents l.spec l.store) :
    l.Truthful ↔ l.store.lastLogId = l.spec.last := by
  simp [Logged.Truthful, LogStore.getLogState, held.purged]

theorem lastLogId_append (a : SpecLog) (s : LogStore) (entries : List Entry)
    (before : s.lastLogId = a.last) :
    (s.append entries).lastLogId = (a.step (.append entries)).last := by
  obtain ⟨cell, -⟩ := foldl_put_cells entries s
  simp only [LogStore.append, SpecLog.step, SpecLog.last, List.getLast?_append]
  cases last : entries.getLast? with
  | none =>
    have nothing : entries = [] := List.getLast?_eq_none_iff.1 last
    simpa [nothing, SpecLog.last] using before
  | some e => rfl

/-- Truncation: the cell is right exactly when the leader it takes over is. -/
theorem lastLogId_truncate {a : SpecLog} {s : LogStore} (held : Represents a s) {logId : LogId}
    (allowed : a.allows (.truncate logId) = true) :
    (s.deleteConflictLogsSince logId).lastLogId = a.below logId ↔ a.CellFits (.truncate logId) := by
  simp only [SpecLog.allows, List.any_eq_true, beq_iff_eq] at allowed
  obtain ⟨cut, member, rfl⟩ := allowed
  obtain ⟨final, final_eq⟩ : ∃ e, a.entries.getLast? = some e :=
    ⟨_, List.getLast?_eq_some_getLast (List.ne_nil_of_mem member)⟩
  obtain ⟨cell, cell_eq, -⟩ := held.last final final_eq
  simp only [LogStore.deleteConflictLogsSince, LogStore.getLogState, cell_eq, SpecLog.CellFits]
  by_cases positive : cut.logId.index > 0
  · rw [if_pos positive]
    exact ⟨fun same _ => same.symm, fun fits => (fits positive).symm⟩
  · rw [if_neg positive]
    -- at index 0 nothing is below, not even a purge
    have nothing : (a.step (.truncate cut.logId)).entries = [] := by
      simp only [SpecLog.step, List.filter_eq_nil_iff, decide_eq_true_eq]
      omega
    have unpurged : a.purged = none := by
      cases purged : a.purged with
      | none => rfl
      | some p =>
        have := held.above p purged cut member
        omega
    have none_below : a.below cut.logId = none := (SpecLog.last_nil nothing).trans unpurged
    exact ⟨fun _ more => absurd more positive, fun _ => none_below.symm⟩

/-- Purge: the cell stays, and is right exactly when an entry is left or it is the purge's. -/
theorem lastLogId_purge {a : SpecLog} {s : LogStore} (held : Represents a s) {logId : LogId}
    (before : s.lastLogId = a.last) :
    (s.purgeLogsUpto logId).lastLogId = (a.step (.purge logId)).last ↔ a.CellFits (.purge logId) := by
  have cell : (s.purgeLogsUpto logId).lastLogId = a.last :=
    (deleteRange_cells s _ logId.index).1.trans before
  obtain ⟨n, numbered⟩ := held.numbered
  rw [cell]
  cases left : (a.step (.purge logId)).entries.getLast? with
  | none =>
    have nothing : (a.step (.purge logId)).entries = [] := List.getLast?_eq_none_iff.1 left
    have all : ∀ e ∈ a.entries, e.logId.index ≤ logId.index := by
      intro e member
      by_contra above
      have there : e ∈ (a.step (.purge logId)).entries :=
        List.mem_filter.2 ⟨member, by simpa using above⟩
      rw [nothing] at there
      cases there
    rw [SpecLog.last_nil nothing]
    exact ⟨fun same _ => same, fun fits => fits all⟩
  | some e =>
    have kept := List.mem_filter.1 (List.mem_of_getLast? left)
    have whole : a.entries.getLast? = some e := by
      simp only [SpecLog.step, contiguous_above numbered] at left
      rw [← List.take_append_drop (logId.index + 1 - n) a.entries, List.getLast?_append, left]
      rfl
    rw [SpecLog.last_cons left, SpecLog.last_cons whole]
    refine ⟨fun _ all => ?_, fun _ => rfl⟩
    have := all e kept.1
    have := of_decide_eq_true kept.2
    omega

/-- From a truthful state, an operation leads to a truthful state exactly when it fits. -/
theorem truthful_step_iff {l : Logged} (held : Represents l.spec l.store) (truthful : l.Truthful)
    {op : LogOp} (allowed : l.spec.allows op = true) :
    Logged.Truthful ⟨l.spec.step op, l.store.step op⟩ ↔ l.spec.CellFits op := by
  have before := (truthful_iff held).1 truthful
  rw [truthful_iff (held.step allowed)]
  cases op with
  | append entries =>
    exact ⟨fun _ => trivial, fun _ => lastLogId_append l.spec l.store entries before⟩
  | truncate logId => exact lastLogId_truncate held allowed
  | purge logId => exact lastLogId_purge held before

/-- **Log state.** As long as each operation fits the cell, `get_log_state` names the last
entry stored, or the last purge when none is stored, and the last purge. -/
theorem log_state_truthful (ops : List LogOp) {l : Logged}
    (fits : Along Logged.step (fun l op => l.spec.CellFits op) Logged.empty ops)
    (ran : exec Logged.step Logged.empty ops = some l) : l.Truthful := by
  have both : Represents l.spec l.store ∧ l.Truthful := by
    refine exec_invariant (I := fun l => Represents l.spec l.store ∧ l.Truthful) ?_
      ⟨Represents.empty, rfl⟩ fits ran
    rintro l op l' ⟨held, truthful⟩ fit step
    simp only [Logged.step] at step
    split at step
    · rename_i allowed
      cases step
      exact ⟨held.step allowed, (truthful_step_iff held truthful allowed).2 fit⟩
    · cases step
  exact both.2

theorem log_state_sample :
    ∃ l, exec Logged.step Logged.empty sampleOps = some l ∧
      l.store.getLogState = ⟨some ⟨⟨1, 1⟩, 1⟩, some ⟨⟨2, 1⟩, 3⟩⟩ := by
  refine ⟨_, rfl, log_state_truthful sampleOps ?_ rfl⟩
  refine ⟨trivial, ?_⟩
  rintro _ ⟨⟩
  refine ⟨fun _ => by decide, ?_⟩
  rintro _ ⟨⟩
  refine ⟨trivial, ?_⟩
  rintro _ ⟨⟩
  exact ⟨by decide, fun _ _ => trivial⟩

/-- Entries of two terms, the last one truncated: the cell has the wrong term. -/
theorem truncate_wrong_term :
    ∃ l, exec Logged.step Logged.empty
        [.append [blankEntry 1 1, blankEntry 1 2, blankEntry 2 3], .truncate ⟨⟨2, 1⟩, 3⟩] = some l ∧
      ¬ l.Truthful := by
  refine ⟨_, rfl, fun truthful => ?_⟩
  have cell := congrArg LogState.lastLogId truthful
  exact absurd cell (by decide)

end Save.Metadata
