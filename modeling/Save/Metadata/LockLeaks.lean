import Save.Metadata.LockManager

/-!
# Locks that are never released

Only a guard's drop releases a lock (`lock.rs`), and the guard is made after the command
that takes the lock is applied: an acquisition that times out or is cancelled in
between leaves the lock taken, as does a release task whose write fails.
`locks_released`: in every run without crashes in which neither happens
(`Accounted`), nothing is locked once no task and no release is left.

The invariant (`LockSystem.Covered`) is the balance: whoever has a lock, or will
have it when a command in flight is committed, has a task or a release in flight. It
is what a step outside of `Accounted` breaks.
-/

namespace Save.Metadata
set_option autoImplicit false
open Save.Kv Save.Run

/-- The holder has the lock at the end of the log, or may get it from a command in flight. -/
def LockSystem.Traced (sys : LockSystem) (k : String) (h : LockHolder) : Prop :=
  Holding (lockRecord k sys.log) h ∨ ∃ op ∈ sys.inFlight, ∃ l, op.Acquires k l h

/-- An acquisition, a guard or a release task of the lock, other than the `i`-th task. -/
def LockSystem.TaskOf (sys : LockSystem) (k : String) (h : LockHolder) (i : Option Nat) : Prop :=
  ∃ j t, some j ≠ i ∧ sys.tasks j = some t ∧ t.lock = k ∧ t.holder = h

/-- A release is among the commands. -/
def Released (k : String) (h : LockHolder) (ops : List LockOp) : Prop := ∃ op ∈ ops, op.Releases k h

/-- No guard, no acquisition, no release task and no release in flight. -/
def LockSystem.Quiet (sys : LockSystem) : Prop :=
  (∀ i, sys.tasks i = none) ∧ ∀ k h, ¬ Released k h sys.inFlight

/-- When all is quiet, a node that has applied the log has an empty lock table. -/
def LockSystem.NothingLocked (sys : LockSystem) : Prop :=
  sys.Quiet → ∀ node, sys.applied node = sys.log.length → sys.table node = Store.empty

/-- A lock that is taken or may yet be does not lose the last one to release it: a task ends,
or a release is lost or takes effect before a late acquisition, only when another is left. -/
def Accounted (sys : LockSystem) : LockEvent → Prop
  | .stop i => ∀ t, sys.tasks i = some t → sys.Traced t.lock t.holder →
    sys.TaskOf t.lock t.holder (some i) ∨ Released t.lock t.holder sys.inFlight
  | .commit j => ∀ op k h, sys.inFlight[j]? = some op → op.Releases k h →
    (∃ op ∈ sys.inFlight, ∃ l, op.Acquires k l h) →
      sys.TaskOf k h none ∨ Released k h (sys.inFlight.eraseIdx j)
  | .lose j => ∀ op k h, sys.inFlight[j]? = some op → op.Releases k h → sys.Traced k h →
    sys.TaskOf k h none ∨ Released k h (sys.inFlight.eraseIdx j)
  | _ => True

/-! ## The invariant -/

/-- Whatever is taken or may yet be has a task or a release in flight. -/
def LockSystem.Covered (sys : LockSystem) : Prop :=
  ∀ k h, sys.Traced k h → sys.TaskOf k h none ∨ Released k h sys.inFlight

theorem LockSystem.Covered.nothingLocked {sys : LockSystem} (covered : sys.Covered) :
    sys.NothingLocked := by
  rintro ⟨idle, silent⟩ node reached
  apply Store.ext
  intro k
  rw [LockSystem.table, reached, List.take_length, lockTable_get, get_empty]
  cases record : lockRecord k sys.log with
  | none => rfl
  | some s =>
    -- a record has a holder, and somebody has to release it
    obtain ⟨h, there⟩ := List.exists_mem_of_ne_nil _ (lockRecord_valid record).held
    rcases covered k h (.inl ⟨s, record, there⟩) with ⟨i, t, -, found, -⟩ | release
    · rw [idle i] at found
      cases found
    · exact absurd release (silent k h)

/-! ## Steps -/

section Steps

variable {sys sys' : LockSystem} {i j : Nat} {t : LockTask} {k : String} {h : LockHolder}

theorem mem_inFlight_cases {op : LockOp} {ops : List LockOp} (member : op ∈ ops) (j : Nat) :
    ops[j]? = some op ∨ op ∈ ops.eraseIdx j := by
  obtain ⟨n, bound, rfl⟩ := List.mem_iff_getElem.1 member
  by_cases same : n = j
  · subst same
    exact .inl (List.getElem?_eq_getElem bound)
  · exact .inr (List.mem_eraseIdx_iff_getElem?.2 ⟨n, same, List.getElem?_eq_getElem bound⟩)

/-- A release among the commands is the one taken out or is left. -/
theorem Released.eraseIdx {ops : List LockOp} (release : Released k h ops) (j : Nat) :
    (∃ op, ops[j]? = some op ∧ op.Releases k h) ∨ Released k h (ops.eraseIdx j) := by
  obtain ⟨op, member, releases⟩ := release
  rcases mem_inFlight_cases member j with taken | left
  · exact .inl ⟨op, taken, releases⟩
  · exact .inr ⟨op, left, releases⟩

/-- More tasks, and the same commands. -/
theorem LockSystem.Covered.more (covered : sys.Covered) (log : sys'.log = sys.log)
    (inFlight : sys'.inFlight = sys.inFlight)
    (tasks : ∀ k h, sys.TaskOf k h none → sys'.TaskOf k h none) : sys'.Covered := by
  intro k h traced
  rw [LockSystem.Traced, log, inFlight] at traced
  rw [inFlight]
  exact (covered k h traced).imp_left (tasks k h)

/-- A task keeps its lock and its holder. -/
theorem LockSystem.TaskOf.setStage (found : sys.tasks i = some t) (stage : LockStage)
    (task : sys.TaskOf k h none) : (sys.setStage i t stage).TaskOf k h none := by
  obtain ⟨j, u, other, there, lock, holder⟩ := task
  by_cases same : j = i
  · subst same
    rw [found] at there
    cases there
    exact ⟨j, { t with stage }, other, Function.update_self .., lock, holder⟩
  · exact ⟨j, u, other, (Function.update_of_ne same ..).trans there, lock, holder⟩

theorem LockSystem.Covered.setStage (covered : sys.Covered) (found : sys.tasks i = some t)
    (stage : LockStage) : (sys.setStage i t stage).Covered :=
  covered.more rfl rfl fun _ _ task => task.setStage found stage

/-- A task proposes a command of its own lock. -/
theorem LockSystem.Covered.propose (covered : sys.Covered) (found : sys.tasks i = some t)
    {op : LockOp} (own : ∀ k l h, op.Acquires k l h → t.lock = k ∧ t.holder = h) :
    LockSystem.Covered { sys with inFlight := sys.inFlight ++ [op] } := by
  intro k h traced
  have before : sys.Traced k h ∨ sys.TaskOf k h none := by
    rcases traced with holding | ⟨op', member, l, acquires⟩
    · exact .inl (.inl holding)
    · rcases List.mem_append.1 member with member | member
      · exact .inl (.inr ⟨op', member, l, acquires⟩)
      · rw [List.mem_singleton] at member
        subst member
        obtain ⟨lock, holder⟩ := own k l h acquires
        exact .inr ⟨i, t, Option.some_ne_none i, found, lock, holder⟩
  rcases before with traced | task
  · rcases covered k h traced with task | ⟨op', member, releases⟩
    · exact .inl task
    · exact .inr ⟨op', List.mem_append_left _ member, releases⟩
  · exact .inl task

theorem LockSystem.Covered.stop (covered : sys.Covered) (accounted : Accounted sys (.stop i))
    (found : sys.tasks i = some t) :
    LockSystem.Covered { sys with tasks := Function.update sys.tasks i none } := by
  intro k h traced
  have rest : ∀ {k h}, sys.TaskOf k h (some i) →
      LockSystem.TaskOf { sys with tasks := Function.update sys.tasks i none } k h none := by
    rintro k h ⟨j, u, other, there, lock, holder⟩
    have other : j ≠ i := fun same => other (congrArg some same)
    exact ⟨j, u, Option.some_ne_none j, (Function.update_of_ne other ..).trans there, lock, holder⟩
  rcases covered k h traced with ⟨j, u, -, there, rfl, rfl⟩ | release
  · by_cases same : j = i
    · subst same
      exact (accounted u there traced).imp_left rest
    · exact .inl (rest ⟨j, u, fun eq => same (Option.some.inj eq), there, rfl, rfl⟩)
  · exact .inr release

theorem LockSystem.Covered.commit (covered : sys.Covered) (accounted : Accounted sys (.commit j))
    {op : LockOp} (found : sys.inFlight[j]? = some op) :
    LockSystem.Covered { sys with log := sys.log ++ [op], inFlight := sys.inFlight.eraseIdx j } := by
  intro k h traced
  have before : sys.Traced k h := by
    rcases traced with holding | ⟨op', member, acquires⟩
    · rw [lockRecord_append] at holding
      rcases holding_on.1 holding with holding | ⟨l, acquires⟩
      · exact .inl holding
      · exact .inr ⟨op, List.mem_of_getElem? found, l, acquires⟩
    · exact .inr ⟨op', List.mem_of_mem_eraseIdx member, acquires⟩
  rcases covered k h before with task | release
  · exact .inl task
  · rcases release.eraseIdx j with ⟨op', taken, releases⟩ | left
    · rw [found] at taken
      cases taken
      -- the release has taken effect: only an acquisition still in flight is left of it
      rcases traced with holding | ⟨op', member, acquires⟩
      · rw [lockRecord_append] at holding
        exact absurd holding (holding_on.2.2 releases)
      · exact accounted op k h found releases ⟨op', List.mem_of_mem_eraseIdx member, acquires⟩
    · exact .inr left

theorem LockSystem.Covered.lose (covered : sys.Covered) (accounted : Accounted sys (.lose j)) :
    LockSystem.Covered { sys with inFlight := sys.inFlight.eraseIdx j } := by
  intro k h traced
  have before : sys.Traced k h := by
    rcases traced with holding | ⟨op, member, acquires⟩
    · exact .inl holding
    · exact .inr ⟨op, List.mem_of_mem_eraseIdx member, acquires⟩
  rcases covered k h before with task | release
  · exact .inl task
  · rcases release.eraseIdx j with ⟨op, taken, releases⟩ | left
    · exact accounted op k h taken releases before
    · exact .inr left

theorem LockSystem.Covered.step (covered : sys.Covered) (numbered : sys.Numbered) {event : LockEvent}
    (accounted : Accounted sys event) (up : ∀ node, event ≠ .crash node)
    (move : LockMove sys event sys') : sys'.Covered := by
  cases move with
  | acquire node bucket key lockType =>
    refine covered.more rfl rfl ?_
    rintro k h ⟨j, t, other, there, lock, holder⟩
    have old : j ≠ sys.next := (numbered j t there).ne
    exact ⟨j, t, other, (Function.update_of_ne old ..).trans there, lock, holder⟩
  | check found => exact covered.setStage found _
  | proposeAcquire found =>
    refine covered.propose found ?_
    rintro k l h ⟨lock, -, holder⟩
    exact ⟨lock, holder⟩
  | proposeRelease found =>
    refine covered.propose found ?_
    rintro k l h ⟨⟩
  | guard found => exact covered.setStage found _
  | retry found => exact covered.setStage found _
  | drop found => exact covered.setStage found _
  | stop found => exact covered.stop accounted found
  | commit found => exact covered.commit accounted found
  | lose j => exact covered.lose accounted
  | apply behind => exact covered.more rfl rfl fun _ _ task => task
  | crash node => exact absurd rfl (up node)

end Steps

/-- **No leaked locks.** In every run without crashes in which no lock that is taken or may
yet be loses the last one to release it, nothing is locked once all is quiet. -/
theorem locks_released (events : List LockEvent) {sys : LockSystem}
    (up : ∀ node, LockEvent.crash node ∉ events)
    (accounted : Along LockSystem.step Accounted LockSystem.start events)
    (ran : exec LockSystem.step LockSystem.start events = some sys) : sys.NothingLocked := by
  have running : Along LockSystem.step (fun _ event => ∀ node, event ≠ LockEvent.crash node)
      LockSystem.start events :=
    along_of_mem (fun _ member _ node same => up node (by rwa [same] at member)) _
  have covered : sys.Covered ∧ sys.Numbered := by
    refine exec_invariant (I := fun sys => sys.Covered ∧ sys.Numbered) ?_ ?_
      (along_and accounted running) ran
    · rintro sys event sys' ⟨covered, numbered⟩ ⟨accounted, up⟩ step
      have move := LockSystem.step_cases step
      exact ⟨covered.step numbered accounted up move, numbered.step move⟩
    · refine ⟨?_, fun i t there => by cases there⟩
      rintro k h (⟨s, record, -⟩ | ⟨op, member, -⟩)
      · cases record
      · cases member
  exact covered.1.nothingLocked

/-- A lock is taken and released. -/
def releaseRun : List LockEvent :=
  [.acquire 1 "abc" "k" .read, .check 0, .propose 0, .commit 0, .apply 1, .verify 0, .drop 0,
    .propose 0, .commit 0, .apply 1, .stop 0]

theorem releaseRun_unlocks :
    ∃ sys, exec LockSystem.step LockSystem.start releaseRun = some sys ∧ sys.Quiet ∧
      sys.table 1 = Store.empty := by
  have quiet : ∀ sys, exec LockSystem.step LockSystem.start releaseRun = some sys → sys.Quiet := by
    rintro _ ⟨⟩
    refine ⟨fun i => by cases i <;> rfl, ?_⟩
    rintro k h ⟨op, member, -⟩
    cases member
  refine ⟨_, rfl, quiet _ rfl, ?_⟩
  refine locks_released releaseRun (by simp [releaseRun]) ?_ rfl (quiet _ rfl) 1 rfl
  refine ⟨trivial, ?_⟩
  rintro _ ⟨⟩
  refine ⟨trivial, ?_⟩
  rintro _ ⟨⟩
  refine ⟨trivial, ?_⟩
  rintro _ ⟨⟩
  refine ⟨?_, ?_⟩
  · rintro op k h ⟨⟩ ⟨⟩
  rintro _ ⟨⟩
  refine ⟨trivial, ?_⟩
  rintro _ ⟨⟩
  refine ⟨trivial, ?_⟩
  rintro _ ⟨⟩
  refine ⟨trivial, ?_⟩
  rintro _ ⟨⟩
  refine ⟨trivial, ?_⟩
  rintro _ ⟨⟩
  refine ⟨?_, ?_⟩
  · rintro op k h - - ⟨op', member, l, acquires⟩
    cases List.mem_singleton.1 member
    cases acquires
  rintro _ ⟨⟩
  refine ⟨trivial, ?_⟩
  rintro _ ⟨⟩
  refine ⟨?_, fun _ _ => trivial⟩
  rintro t ⟨⟩ (⟨s, record, -⟩ | ⟨op, member, -⟩)
  · cases record
  · cases member

/-- An acquisition times out while its command is in flight. -/
def timeoutRun : List LockEvent :=
  [.acquire 1 "abc" "k" .write, .check 0, .propose 0, .stop 0, .commit 0, .apply 1]

/-- The late command takes the lock for nobody. -/
theorem timeout_leaks_lock :
    ∃ sys, exec LockSystem.step LockSystem.start timeoutRun = some sys ∧ ¬ sys.NothingLocked := by
  refine ⟨_, rfl, fun unlocked => ?_⟩
  have silent : ∀ k h, ¬ Released k h [] := by
    rintro k h ⟨op, member, -⟩
    cases member
  have empty := unlocked ⟨fun i => by cases i <;> rfl, silent⟩ 1 rfl
  have stored := congrArg (fun db => db.get (lockKey "abc" "k")) empty
  exact absurd stored (by decide)

end Save.Metadata
