import Save.Metadata.LockManager

/-!
# Exclusion of write guards

A restarted node counts its holder ids (`next_holder` of `lock.rs`) from 0 again,
while the replicated table and the commands in flight still know the ids of its
earlier life: a new acquisition may find itself "already holding", and an old
release may take its lock away. `write_guard_exclusive`: in every run in which no
acquisition gets an id that an earlier one has left traces of (`Unused`), a write
guard excludes every other guard of the object, on every node.

The invariant gives for each active task a point of the log at which its id was not
in the record, and behind which only the task's own acquisitions name the id
(`LockTask.Owns`). Two guards of one object are then two holders of one record, and
the record of a write lock has one.
-/

namespace Save.Metadata
set_option autoImplicit false
open Save.Kv Save.Run

/-- An acquisition under way or a live guard. -/
def LockTask.Active (t : LockTask) : Prop := t.stage ≠ .releasing

/-- Whenever a write guard for an object is alive, no other guard for it is. -/
def LockSystem.Exclusive (sys : LockSystem) : Prop :=
  ∀ i j t u, sys.tasks i = some t → sys.tasks j = some u → t.stage = .held → u.stage = .held →
    t.lockType = .write → t.bucket = u.bucket → t.key = u.key → i = j

/-- Nothing is left of an earlier use of the id that an acquisition gets: no task of it,
no command in flight or still to be applied by the node, and it is not in the node's table. -/
def Unused (sys : LockSystem) : LockEvent → Prop
  | .acquire node bucket key _ =>
    let holder : LockHolder := ⟨node, sys.counter node⟩
    let k := lockKey bucket key
    (∀ i t, sys.tasks i = some t → t.lock = k → t.holder ≠ holder) ∧
      (∀ op ∈ sys.inFlight ++ sys.log.drop (sys.applied node), ¬ op.Names k holder) ∧
      ¬ HeldBy (sys.table node) bucket key holder
  | _ => True

/-! ## The invariant -/

/-- The commands with the task's id are its own acquisitions, from a point of the log at
which the id was not in the record. -/
structure LockTask.Owns (t : LockTask) (sys : LockSystem) (p : Nat) : Prop where
  reached : p ≤ sys.applied t.node
  absent : ¬ Holding (lockRecord t.lock (sys.log.take p)) t.holder
  committed : ∀ op ∈ sys.log.drop p, op.Names t.lock t.holder → op.Acquires t.lock t.lockType t.holder
  proposed : ∀ op ∈ sys.inFlight, op.Names t.lock t.holder → op.Acquires t.lock t.lockType t.holder

structure LockSystem.Sound (sys : LockSystem) : Prop where
  applied : ∀ node, sys.applied node ≤ sys.log.length
  owns : ∀ i t, sys.tasks i = some t → t.Active → ∃ p, t.Owns sys p
  held : ∀ i t, sys.tasks i = some t → t.stage = .held →
    Holding (lockRecord t.lock (sys.log.take (sys.applied t.node))) t.holder
  distinct : ∀ i j t u, sys.tasks i = some t → sys.tasks j = some u → t.Active → t.lock = u.lock →
    t.holder = u.holder → i = j

/-- An id that is not named by a release is in no release. -/
theorem not_releases {k : String} {h : LockHolder} {l : LockType} {op : LockOp}
    (own : op.Names k h → op.Acquires k l h) : ¬ op.Releases k h := by
  intro releases
  cases op with
  | acquire bucket key l' h' => exact releases
  | release bucket key h' => exact own releases

/-- What the task holds at some point of the log it holds at the end. -/
theorem LockTask.Owns.holding {t : LockTask} {sys : LockSystem} {p : Nat} (owns : t.Owns sys p)
    {q : Nat} (later : p ≤ q) (there : Holding (lockRecord t.lock (sys.log.take q)) t.holder)
    {r : Nat} (after : q ≤ r) : Holding (lockRecord t.lock (sys.log.take r)) t.holder := by
  have split : sys.log.take r = sys.log.take q ++ (sys.log.take r).drop q := by
    conv_lhs => rw [← List.take_append_drop q (sys.log.take r)]
    rw [List.take_take, Nat.min_eq_left after]
  rw [split, lockRecord_append]
  refine holding_foldl there fun op member => not_releases (owns.committed op ?_)
  have tail : op ∈ sys.log.drop q := by
    rw [List.drop_take] at member
    exact List.mem_of_mem_take member
  rw [show q = p + (q - p) by omega, ← List.drop_drop] at tail
  exact List.mem_of_mem_drop tail

/-- A write guard's record at the end of the log is a write record. -/
theorem LockTask.Owns.writesAlone {t : LockTask} {sys : LockSystem} {p : Nat} (owns : t.Owns sys p) :
    WritesAlone t.lockType t.holder (lockRecord t.lock sys.log) := by
  rw [← List.take_append_drop p sys.log, lockRecord_append]
  refine writesAlone_foldl ?_ owns.committed
  intro s record there
  exact absurd ⟨s, record, there⟩ owns.absent

theorem LockSystem.Sound.exclusive {sys : LockSystem} (sound : sys.Sound) : sys.Exclusive := by
  intro i j t u found found' held held' exclusive bucket key
  have lock : t.lock = u.lock := by simp only [LockTask.lock, bucket, key]
  have active : t.Active := by simp [LockTask.Active, held]
  have active' : u.Active := by simp [LockTask.Active, held']
  obtain ⟨p, owns⟩ := sound.owns i t found active
  obtain ⟨p', owns'⟩ := sound.owns j u found' active'
  have first := owns.holding owns.reached (sound.held i t found held) (sound.applied t.node)
  have second := owns'.holding owns'.reached (sound.held j u found' held') (sound.applied u.node)
  rw [List.take_length] at first second
  rw [← lock] at second
  obtain ⟨s, record, there⟩ := first
  obtain ⟨s', record', there'⟩ := second
  rw [record] at record'
  cases record'
  -- a write record has one holder
  have kind := owns.writesAlone s record there exclusive
  obtain ⟨only, holders⟩ := (lockRecord_valid record).single kind
  rw [holders, List.mem_singleton] at there there'
  exact sound.distinct i j t u found found' active lock (there.trans there'.symm)

/-! ## Steps -/

section Steps

variable {sys sys' : LockSystem} {i : Nat} {t : LockTask}

/-- A task moves on: an acquisition that is not released yet, or a guard that is dropped. -/
theorem LockSystem.Sound.setStage (sound : sys.Sound) (found : sys.tasks i = some t)
    {stage : LockStage} (active : stage ≠ .releasing → t.Active)
    (holding : stage = .held →
      Holding (lockRecord t.lock (sys.log.take (sys.applied t.node))) t.holder) :
    (sys.setStage i t stage).Sound := by
  refine ⟨sound.applied, ?_, ?_, ?_⟩
  · intro j u there live
    rcases update_tasks there with ⟨rfl, same⟩ | ⟨-, there⟩
    · cases same
      obtain ⟨p, owns⟩ := sound.owns j t found (active live)
      exact ⟨p, owns.reached, owns.absent, owns.committed, owns.proposed⟩
    · obtain ⟨p, owns⟩ := sound.owns j u there live
      exact ⟨p, owns.reached, owns.absent, owns.committed, owns.proposed⟩
  · intro j u there live
    rcases update_tasks there with ⟨rfl, same⟩ | ⟨-, there⟩
    · cases same
      exact holding live
    · exact sound.held j u there live
  · intro j j' u u' there there' live lock holder
    rcases update_tasks there with ⟨rfl, same⟩ | ⟨-, old⟩
    · cases same
      rcases update_tasks there' with ⟨rfl, -⟩ | ⟨-, there'⟩
      · rfl
      · exact sound.distinct j j' t u' found there' (active live) lock holder
    · rcases update_tasks there' with ⟨rfl, same⟩ | ⟨-, there'⟩
      · cases same
        exact sound.distinct j j' u t old found live lock holder
      · exact sound.distinct j j' u u' old there' live lock holder

theorem LockSystem.Sound.acquire (sound : sys.Sound) {node : NodeId} {bucket key : String}
    {lockType : LockType} (unused : Unused sys (.acquire node bucket key lockType))
    {counter : NodeId → Nat} :
    LockSystem.Sound { sys with
      counter
      tasks := Function.update sys.tasks sys.next
        (some ⟨node, bucket, key, lockType, ⟨node, sys.counter node⟩, .checking⟩)
      next := sys.next + 1 } := by
  obtain ⟨tasks, commands, absent⟩ := unused
  refine ⟨sound.applied, ?_, ?_, ?_⟩
  · intro j u there live
    rcases update_tasks there with ⟨rfl, same⟩ | ⟨-, there⟩
    · cases same
      refine ⟨sys.applied node, le_rfl, ?_, ?_, ?_⟩
      · rintro ⟨s, record, there⟩
        refine absent ⟨s, ?_, there⟩
        rw [LockSystem.table, lockTable_read]
        exact congrArg Except.ok record
      · intro op member named
        exact absurd named (commands op (List.mem_append_right _ member))
      · intro op member named
        exact absurd named (commands op (List.mem_append_left _ member))
    · obtain ⟨p, owns⟩ := sound.owns j u there live
      exact ⟨p, owns.reached, owns.absent, owns.committed, owns.proposed⟩
  · intro j u there live
    rcases update_tasks there with ⟨rfl, same⟩ | ⟨-, there⟩
    · cases same
      cases live
    · exact sound.held j u there live
  · intro j j' u u' there there' live lock holder
    rcases update_tasks there with ⟨rfl, same⟩ | ⟨-, there⟩
    · cases same
      rcases update_tasks there' with ⟨rfl, -⟩ | ⟨-, there'⟩
      · rfl
      · exact absurd holder.symm (tasks j' u' there' lock.symm)
    · rcases update_tasks there' with ⟨rfl, same⟩ | ⟨-, there'⟩
      · cases same
        exact absurd holder (tasks j u there lock)
      · exact sound.distinct j j' u u' there there' live lock holder

/-- A task proposes its own command. -/
theorem LockSystem.Sound.propose (sound : sys.Sound) (found : sys.tasks i = some t) {op : LockOp}
    (named : ∀ k h, op.Names k h → t.lock = k ∧ t.holder = h)
    (own : t.Active → op.Acquires t.lock t.lockType t.holder) :
    LockSystem.Sound { sys with inFlight := sys.inFlight ++ [op] } := by
  refine ⟨sound.applied, ?_, sound.held, sound.distinct⟩
  intro j u there live
  obtain ⟨p, owns⟩ := sound.owns j u there live
  refine ⟨p, owns.reached, owns.absent, owns.committed, fun op' member names => ?_⟩
  rcases List.mem_append.1 member with member | member
  · exact owns.proposed op' member names
  · rw [List.mem_singleton] at member
    subst member
    obtain ⟨lock, holder⟩ := named _ _ names
    obtain rfl := sound.distinct j i u t there found live lock.symm holder.symm
    rw [there] at found
    cases found
    exact own live

theorem LockSystem.Sound.commit (sound : sys.Sound) {j : Nat} {op : LockOp}
    (found : sys.inFlight[j]? = some op) :
    LockSystem.Sound { sys with log := sys.log ++ [op], inFlight := sys.inFlight.eraseIdx j } := by
  have before : ∀ node, (sys.log ++ [op]).take (sys.applied node) = sys.log.take (sys.applied node) :=
    fun node => List.take_append_of_le_length (sound.applied node)
  refine ⟨fun node => ?_, fun i t there live => ?_, fun i t there live => ?_,
    sound.distinct⟩
  · have := sound.applied node
    simp only [List.length_append, List.length_cons, List.length_nil]
    omega
  · obtain ⟨p, owns⟩ := sound.owns i t there live
    have short : p ≤ sys.log.length := owns.reached.trans (sound.applied t.node)
    refine ⟨p, owns.reached, ?_, ?_, ?_⟩
    · simp only [List.take_append_of_le_length short]
      exact owns.absent
    · intro op' member names
      simp only [List.drop_append_of_le_length short, List.mem_append, List.mem_singleton] at member
      rcases member with member | rfl
      · exact owns.committed op' member names
      · exact owns.proposed op' (List.mem_of_getElem? found) names
    · exact fun op' member => owns.proposed op' (List.mem_of_mem_eraseIdx member)
  · simp only [before]
    exact sound.held i t there live

theorem LockSystem.Sound.lose (sound : sys.Sound) (j : Nat) :
    LockSystem.Sound { sys with inFlight := sys.inFlight.eraseIdx j } := by
  refine ⟨sound.applied, fun i t there live => ?_, sound.held, sound.distinct⟩
  obtain ⟨p, owns⟩ := sound.owns i t there live
  exact ⟨p, owns.reached, owns.absent, owns.committed,
    fun op member => owns.proposed op (List.mem_of_mem_eraseIdx member)⟩

theorem LockSystem.Sound.apply (sound : sys.Sound) {node : NodeId}
    (behind : sys.applied node < sys.log.length) :
    LockSystem.Sound { sys with
      applied := Function.update sys.applied node (sys.applied node + 1) } := by
  have grows : ∀ node', sys.applied node' ≤
      Function.update sys.applied node (sys.applied node + 1) node' := by
    intro node'
    by_cases same : node' = node
    · subst same
      rw [Function.update_self]
      omega
    · rw [Function.update_of_ne same]
  refine ⟨fun node' => ?_, fun i t there live => ?_, fun i t there live => ?_,
    sound.distinct⟩
  · by_cases same : node' = node
    · subst same
      simp only [Function.update_self]
      omega
    · simp only [Function.update_of_ne same]
      exact sound.applied node'
  · obtain ⟨p, owns⟩ := sound.owns i t there live
    exact ⟨p, owns.reached.trans (grows t.node), owns.absent, owns.committed, owns.proposed⟩
  · obtain ⟨p, owns⟩ := sound.owns i t there (by simp [LockTask.Active, live])
    exact owns.holding owns.reached (sound.held i t there live) (grows t.node)

/-- Tasks that end, and counters, leave the rest as it is. -/
theorem LockSystem.Sound.fewer (sound : sys.Sound) {tasks : Nat → Option LockTask}
    {counter : NodeId → Nat} (fewer : ∀ i t, tasks i = some t → sys.tasks i = some t) :
    LockSystem.Sound { sys with tasks, counter } where
  applied := sound.applied
  owns i t there live := by
    obtain ⟨p, owns⟩ := sound.owns i t (fewer i t there) live
    exact ⟨p, owns.reached, owns.absent, owns.committed, owns.proposed⟩
  held i t there live := sound.held i t (fewer i t there) live
  distinct i j t u there there' live lock holder :=
    sound.distinct i j t u (fewer i t there) (fewer j u there') live lock holder

theorem LockSystem.Sound.step (sound : sys.Sound) {event : LockEvent} (unused : Unused sys event)
    (move : LockMove sys event sys') : sys'.Sound := by
  cases move with
  | acquire node bucket key lockType => exact sound.acquire unused
  | check found stage =>
    refine sound.setStage found (fun _ => by simp [LockTask.Active, stage]) ?_
    intro never
    cases never
  | proposeAcquire found =>
    refine sound.propose found ?_ fun _ => ⟨rfl, rfl, rfl⟩
    rintro k h ⟨lock, holder⟩
    exact ⟨lock, holder⟩
  | proposeRelease found stage =>
    refine sound.propose found ?_ fun live => absurd stage live
    rintro k h ⟨lock, holder⟩
    exact ⟨lock, holder⟩
  | guard found stage there =>
    rename_i t
    refine sound.setStage found (fun _ => by simp [LockTask.Active, stage]) fun _ => ?_
    unfold acquiredLocally at there
    rw [LockSystem.table, lockTable_read] at there
    cases record : lockRecord (lockKey t.bucket t.key) (sys.log.take (sys.applied t.node)) with
    | none =>
      rw [record] at there
      cases there
    | some s =>
      rw [record] at there
      exact ⟨s, record, isHeldBy_iff.1 there⟩
  | retry found stage =>
    refine sound.setStage found (fun _ => by simp [LockTask.Active, stage]) ?_
    intro never
    cases never
  | drop found =>
    refine sound.setStage found (fun never => absurd rfl never) ?_
    intro never
    cases never
  | stop found =>
    refine sound.fewer fun j u there => ?_
    rcases update_tasks there with ⟨-, never⟩ | ⟨-, there⟩
    · cases never
    · exact there
  | commit found => exact sound.commit found
  | lose j => exact sound.lose j
  | apply behind => exact sound.apply behind
  | crash node => exact sound.fewer fun j u there => (Option.filter_eq_some_iff.1 there).1

end Steps

theorem LockSystem.start_sound : LockSystem.start.Sound where
  applied node := le_rfl
  owns i t there := by cases there
  held i t there := by cases there
  distinct i j t u there := by cases there

/-- **Exclusion.** In every run in which no acquisition gets an id that an earlier one has
left traces of, a write guard excludes every other guard of the object. -/
theorem write_guard_exclusive (events : List LockEvent) {sys : LockSystem}
    (unused : Along LockSystem.step Unused LockSystem.start events)
    (ran : exec LockSystem.step LockSystem.start events = some sys) : sys.Exclusive := by
  have sound : sys.Sound :=
    exec_invariant (fun _ _ _ sound unused step => sound.step unused (LockSystem.step_cases step))
      LockSystem.start_sound unused ran
  exact sound.exclusive

/-- Node 1 takes a write lock. Node 2 has not heard of it, and has an acquisition of the same object
committed behind the first. -/
def writeRun : List LockEvent :=
  [.acquire 1 "abc" "k" .write, .check 0, .propose 0, .commit 0, .apply 1, .verify 0,
    .acquire 2 "abc" "k" .read, .check 1, .propose 1, .commit 0, .apply 2, .apply 2, .verify 1]

/-- The writer has its guard, and the reader goes on waiting. -/
theorem writeRun_guards :
    ∃ sys, exec LockSystem.step LockSystem.start writeRun = some sys ∧
      (sys.tasks 0).map LockTask.stage = some .held ∧ (sys.tasks 1).map LockTask.stage = some .checking ∧
      sys.Exclusive := by
  have ends : (exec LockSystem.step LockSystem.start writeRun).map
      (fun sys => ((sys.tasks 0).map LockTask.stage, (sys.tasks 1).map LockTask.stage)) =
        some (some .held, some .checking) := by
    decide +kernel
  obtain ⟨sys, ran, stages⟩ := Option.map_eq_some_iff.1 ends
  obtain ⟨held, checking⟩ := Prod.mk.inj stages
  refine ⟨sys, ran, held, checking, write_guard_exclusive writeRun ?_ ran⟩
  refine ⟨⟨?_, ?_, ?_⟩, ?_⟩
  · intro i t there
    cases there
  · intro op member
    cases member
  · rintro ⟨s, read, -⟩
    cases read
  rintro _ ⟨⟩
  refine ⟨trivial, fun _ checked => ⟨trivial, fun _ proposed => ⟨trivial, fun _ committed => ⟨trivial,
    fun _ applied => ⟨trivial, fun mid verified => ⟨?_, fun _ _ => ⟨trivial, fun _ _ => ⟨trivial,
    fun _ _ => ⟨trivial, fun _ _ => ⟨trivial, fun _ _ => ⟨trivial, fun _ _ => ⟨trivial,
    fun _ _ => trivial⟩⟩⟩⟩⟩⟩⟩⟩⟩⟩⟩⟩
  cases checked
  cases proposed
  cases committed
  cases applied
  cases verified
  refine ⟨fun i t there _ => ?_, fun op member => ?_, ?_⟩
  · cases i with
    | zero =>
      cases there
      decide
    | succ i => cases there
  · obtain rfl : op = .acquire "abc" "k" .write ⟨1, 0⟩ := List.mem_singleton.1 member
    rintro ⟨-, same⟩
    exact absurd same (by decide)
  · rintro ⟨s, read, -⟩
    cases read

/-- A reader's node restarts, writes, and reads at the same time. -/
def restartRun : List LockEvent :=
  [.acquire 1 "abc" "k" .read, .check 0, .propose 0, .commit 0, .apply 1, .verify 0, .crash 1,
    .acquire 1 "abc" "k" .write, .check 1, .propose 1, .commit 0, .apply 1, .verify 1,
    .acquire 1 "abc" "k" .read, .check 2, .propose 2, .commit 0, .apply 1, .verify 2]

/-- The writer gets the crashed reader's id and is "already holding" its read lock, which
the next reader joins. -/
theorem restarted_writer_shares_lock :
    ∃ sys, exec LockSystem.step LockSystem.start restartRun = some sys ∧ ¬ sys.Exclusive := by
  refine ⟨_, rfl, fun exclusive => ?_⟩
  exact absurd (exclusive 1 2 _ _ rfl rfl rfl rfl rfl rfl rfl) (by decide)

end Save.Metadata
