import Save.Metadata.LockLeaks
import Mathlib.Data.List.InsertIdx

/-!
# Waiting for a lock

An acquisition of `acquire_lock_internal` (`lock.rs`) looks at its node's table again
and again until the lock is free; nothing wakes it up and nothing queues it. What it
writes, and what the task of a dropped guard writes, goes through `write_with_retry`
(`raft/node.rs`): an attempt that is answered with `ForwardToLeader` is followed by
another, up to six in all, and whoever has none left gives up.

`waiting_acquisition_can_finish`: as long as no lock has leaked (`Releasable`), every
acquisition under way that has not lost the command of its last attempt can still get
its guard. It takes the delivery of what the tasks propose and the end of the guards
that are in its way, and no task has to give up.
-/

namespace Save.Metadata
set_option autoImplicit false
open Save.Kv Save.Run

/-! ## Attempts -/

/-- The first attempt, and `max_retries` of `write`. -/
def maxAttempts : Nat := 1 + 5

/-- The command that a task writes. -/
def LockTask.writes (t : LockTask) : Option LockOp :=
  match t.stage with
  | .writing => some t.acquireOp
  | .releasing => some t.releaseOp
  | _ => none

/-- The lock managers with the attempts of `write_with_retry`, which are numbered. -/
structure LockWriters where
  locks : LockSystem
  /-- The commands in flight, each with its attempt. -/
  flying : List (Nat × LockOp)
  /-- The commands of the log, each with its attempt. -/
  committed : List (Nat × LockOp)
  /-- How many attempts the write of a task has made. -/
  attempts : Nat → Nat
  /-- The attempt that the write of a task waits for. -/
  waiting : Nat → Option Nat
  made : Nat

def LockWriters.start : LockWriters := ⟨.start, [], [], fun _ => 0, fun _ => none, 0⟩

/-- A task begins to write. -/
def LockWriters.begin (sys : LockWriters) (locks : LockSystem) (i : Nat) : LockWriters :=
  { sys with
    locks
    attempts := Function.update sys.attempts i 0
    waiting := Function.update sys.waiting i none }

/-- The attempts whose commands the node has applied. -/
def LockWriters.answered (sys : LockWriters) (node : NodeId) : List Nat :=
  (sys.committed.take (sys.locks.applied node)).map Prod.fst

inductive WriteEvent where
  | lock (event : LockEvent)
  /-- An attempt that is not the last is answered with `ForwardToLeader`. -/
  | refused (i : Nat)

def LockWriters.step (sys : LockWriters) : WriteEvent → Option LockWriters
  | .refused i => do
    let t ← sys.locks.tasks i
    let n ← sys.waiting i
    if sys.attempts i < maxAttempts ∧ n ∉ sys.answered t.node then
      some { sys with waiting := Function.update sys.waiting i none }
    else none
  | .lock event => do
    let locks ← sys.locks.step event
    match event with
    | .check i => some (sys.begin locks i)
    | .drop i => some (sys.begin locks i)
    | .propose i => do
      let t ← sys.locks.tasks i
      let op ← t.writes
      if sys.waiting i = none ∧ sys.attempts i < maxAttempts then
        some { sys with
          locks
          flying := sys.flying ++ [(sys.made, op)]
          attempts := Function.update sys.attempts i (sys.attempts i + 1)
          waiting := Function.update sys.waiting i (some sys.made)
          made := sys.made + 1 }
      else none
    | .verify i => do
      let t ← sys.locks.tasks i
      let n ← sys.waiting i
      if n ∈ sys.answered t.node then some { sys with locks } else none
    | .commit j => do
      let sent ← sys.flying[j]?
      some { sys with locks, flying := sys.flying.eraseIdx j, committed := sys.committed ++ [sent] }
    | .lose j => some { sys with locks, flying := sys.flying.eraseIdx j }
    | _ => some { sys with locks }

/-- What the nodes do on their own: nobody begins, gives up or crashes, and nothing is lost. -/
def LockEvent.Delivers : LockEvent → Prop
  | .acquire _ _ _ _ | .stop _ | .lose _ | .crash _ => False
  | .check _ | .propose _ | .verify _ | .drop _ | .commit _ | .apply _ => True

def WriteEvent.Delivers : WriteEvent → Prop
  | .lock event => event.Delivers
  | .refused _ => True

/-- The command of the attempt is neither in flight nor in the log. -/
def LockWriters.Lost (sys : LockWriters) (n : Nat) : Prop := n ∉ (sys.flying ++ sys.committed).map Prod.fst

/-- The write of the task has an attempt left, or one that is not lost. -/
def LockWriters.Open (sys : LockWriters) (i : Nat) : Prop :=
  ∀ n, sys.waiting i = some n → sys.Lost n → sys.attempts i < maxAttempts

/-- The task waits for no attempt, or for one that has not been committed, and it has another. -/
def LockWriters.MayRetry (sys : LockWriters) (i : Nat) : Prop :=
  ∀ n, sys.waiting i = some n → n ∉ sys.committed.map Prod.fst ∧ sys.attempts i < maxAttempts

/-- An acquisition that is under way. -/
def LockWriters.Trying (sys : LockWriters) (i : Nat) (t : LockTask) : Prop :=
  t.stage = .checking ∨ t.stage = .writing ∧ sys.Open i

/-- The task can still write a release: it has not begun to, or has an attempt left for it. -/
def LockWriters.CanRelease (sys : LockWriters) (i : Nat) (t : LockTask) : Prop :=
  match t.stage with
  | .checking => True
  | .writing => sys.Open i
  | .held => True
  | .releasing => sys.MayRetry i

/-- No lock has leaked: whatever is taken or may yet be has a task that can release it, or a release
in flight. -/
def LockWriters.Releasable (sys : LockWriters) : Prop :=
  ∀ k h, sys.locks.Traced k h →
    (∃ i t, sys.locks.tasks i = some t ∧ t.lock = k ∧ t.holder = h ∧ sys.CanRelease i t) ∨
      Released k h sys.locks.inFlight

/-! ## The invariant -/

/-- The attempts of a task carry what it writes, and one that waits for nothing has another. -/
structure LockWriters.Sane (sys : LockWriters) (i : Nat) (op : LockOp) : Prop where
  own : ∀ n, sys.waiting i = some n →
    n < sys.made ∧ ∀ sent ∈ sys.flying ++ sys.committed, sent.1 = n → sent.2 = op
  idle : sys.waiting i = none → sys.attempts i < maxAttempts

structure LockWriters.Inv (sys : LockWriters) : Prop where
  flying : sys.flying.map Prod.snd = sys.locks.inFlight
  committed : sys.committed.map Prod.snd = sys.locks.log
  applied : ∀ node, sys.locks.applied node ≤ sys.locks.log.length
  numbered : ∀ sent ∈ sys.flying ++ sys.committed, sent.1 < sys.made
  sane : ∀ i t op, sys.locks.tasks i = some t → t.writes = some op → sys.Sane i op

section Invariant

variable {sys sys' : LockWriters} {i : Nat} {t : LockTask} {op : LockOp}

/-- A task that has just begun to write. -/
theorem LockWriters.sane_begin (waits : sys.waiting i = none) (first : sys.attempts i = 0) :
    sys.Sane i op where
  own n some_n := by
    rw [waits] at some_n
    cases some_n
  idle _ := by
    rw [first]
    decide

/-- Fewer commands, and the same attempts. -/
theorem LockWriters.Sane.frame (sane : sys.Sane i op) (waiting : sys'.waiting i = sys.waiting i)
    (attempts : sys'.attempts i = sys.attempts i) (made : sys.made ≤ sys'.made)
    (sent : ∀ s ∈ sys'.flying ++ sys'.committed, s ∈ sys.flying ++ sys.committed ∨ sys.made ≤ s.1) :
    sys'.Sane i op where
  own n waits := by
    rw [waiting] at waits
    obtain ⟨below, own⟩ := sane.own n waits
    refine ⟨below.trans_le made, fun s member same => ?_⟩
    rcases sent s member with old | new
    · exact own s old same
    · omega
  idle waits := by
    rw [attempts]
    exact sane.idle (waiting ▸ waits)

/-- The tasks change, and the attempts of those that write do not, but for one that begins. -/
theorem LockWriters.Inv.retask (inv : sys.Inv) {locks : LockSystem}
    (flying : locks.inFlight = sys.locks.inFlight) (log : locks.log = sys.locks.log)
    (applied : ∀ node, locks.applied node ≤ locks.log.length)
    (tasks : ∀ i t, locks.tasks i = some t → t.writes.isSome = true → sys.locks.tasks i = some t) :
    LockWriters.Inv { sys with locks } where
  flying := inv.flying.trans flying.symm
  committed := inv.committed.trans log.symm
  applied := applied
  numbered := inv.numbered
  sane i t op found writes := by
    have sane := inv.sane i t op (tasks i t found (by rw [writes]; rfl)) writes
    exact sane.frame rfl rfl le_rfl fun sent member => .inl member

theorem LockWriters.Inv.begin (inv : sys.Inv) {t' : LockTask} :
    (sys.begin { sys.locks with tasks := Function.update sys.locks.tasks i (some t') } i).Inv where
  flying := inv.flying
  committed := inv.committed
  applied := inv.applied
  numbered := inv.numbered
  sane j u op found writes := by
    rcases update_tasks found with ⟨rfl, -⟩ | ⟨other, found⟩
    · exact sane_begin (Function.update_self ..) (Function.update_self ..)
    · exact (inv.sane j u op found writes).frame (Function.update_of_ne other ..)
        (Function.update_of_ne other ..) le_rfl fun sent member => .inl member

theorem LockWriters.Inv.propose (inv : sys.Inv) (found : sys.locks.tasks i = some t)
    (writes : t.writes = some op) (left : sys.attempts i < maxAttempts) :
    LockWriters.Inv { sys with
      locks := { sys.locks with inFlight := sys.locks.inFlight ++ [op] }
      flying := sys.flying ++ [(sys.made, op)]
      attempts := Function.update sys.attempts i (sys.attempts i + 1)
      waiting := Function.update sys.waiting i (some sys.made)
      made := sys.made + 1 } where
  flying := by
    show (sys.flying ++ [(sys.made, op)]).map Prod.snd = sys.locks.inFlight ++ [op]
    rw [List.map_append, inv.flying]
    rfl
  committed := inv.committed
  applied := inv.applied
  numbered sent member := by
    simp only [List.mem_append, List.mem_singleton] at member
    rcases member with (old | rfl) | old
    · exact (inv.numbered sent (List.mem_append_left _ old)).trans (Nat.lt_succ_self _)
    · exact Nat.lt_succ_self _
    · exact (inv.numbered sent (List.mem_append_right _ old)).trans (Nat.lt_succ_self _)
  sane j u op' there writes' := by
    by_cases same : j = i
    · subst same
      obtain rfl : t = u := Option.some.inj (found.symm.trans there)
      obtain rfl : op = op' := Option.some.inj (writes.symm.trans writes')
      refine ⟨fun n waits => ?_, fun waits => ?_⟩
      · simp only [Function.update_self, Option.some.injEq] at waits
        subst waits
        refine ⟨Nat.lt_succ_self _, fun sent member same => ?_⟩
        simp only [List.mem_append, List.mem_singleton] at member
        rcases member with (old | rfl) | old
        · exact absurd same (inv.numbered sent (List.mem_append_left _ old)).ne
        · rfl
        · exact absurd same (inv.numbered sent (List.mem_append_right _ old)).ne
      · simp only [Function.update_self, reduceCtorEq] at waits
    · refine (inv.sane j u op' there writes').frame (Function.update_of_ne same ..)
        (Function.update_of_ne same ..) (Nat.le_succ _) fun sent member => ?_
      simp only [List.mem_append, List.mem_singleton] at member ⊢
      rcases member with (old | rfl) | old
      · exact .inl (.inl old)
      · exact .inr le_rfl
      · exact .inl (.inr old)

theorem LockWriters.Inv.commit (inv : sys.Inv) {j : Nat} {sent : Nat × LockOp}
    (found : sys.flying[j]? = some sent) :
    LockWriters.Inv { sys with
      locks := { sys.locks with
        log := sys.locks.log ++ [sent.2]
        inFlight := sys.locks.inFlight.eraseIdx j }
      flying := sys.flying.eraseIdx j
      committed := sys.committed ++ [sent] } := by
  have before : ∀ s ∈ sys.flying.eraseIdx j ++ (sys.committed ++ [sent]),
      s ∈ sys.flying ++ sys.committed := by
    intro s member
    simp only [List.mem_append, List.mem_singleton] at member ⊢
    rcases member with left | old | rfl
    · exact .inl (List.mem_of_mem_eraseIdx left)
    · exact .inr old
    · exact .inl (List.mem_of_getElem? found)
  constructor
  case flying =>
    show (sys.flying.eraseIdx j).map Prod.snd = sys.locks.inFlight.eraseIdx j
    rw [← inv.flying, List.eraseIdx_map]
  case committed =>
    show (sys.committed ++ [sent]).map Prod.snd = sys.locks.log ++ [sent.2]
    rw [List.map_append, inv.committed]
    rfl
  case applied =>
    intro node
    exact (inv.applied node).trans (by simp)
  case numbered => exact fun s member => inv.numbered s (before s member)
  case sane =>
    intro i t op there writes
    exact (inv.sane i t op there writes).frame rfl rfl le_rfl fun s member => .inl (before s member)

theorem LockWriters.Inv.lose (inv : sys.Inv) (j : Nat) :
    LockWriters.Inv { sys with
      locks := { sys.locks with inFlight := sys.locks.inFlight.eraseIdx j }
      flying := sys.flying.eraseIdx j } := by
  have before : ∀ s ∈ sys.flying.eraseIdx j ++ sys.committed, s ∈ sys.flying ++ sys.committed := by
    intro s member
    rcases List.mem_append.1 member with left | old
    · exact List.mem_append_left _ (List.mem_of_mem_eraseIdx left)
    · exact List.mem_append_right _ old
  constructor
  case flying =>
    show (sys.flying.eraseIdx j).map Prod.snd = sys.locks.inFlight.eraseIdx j
    rw [← inv.flying, List.eraseIdx_map]
  case committed => exact inv.committed
  case applied => exact inv.applied
  case numbered => exact fun s member => inv.numbered s (before s member)
  case sane =>
    intro i t op there writes
    exact (inv.sane i t op there writes).frame rfl rfl le_rfl fun s member => .inl (before s member)

theorem LockWriters.Inv.refused (inv : sys.Inv) (left : sys.attempts i < maxAttempts) :
    LockWriters.Inv { sys with waiting := Function.update sys.waiting i none } where
  flying := inv.flying
  committed := inv.committed
  applied := inv.applied
  numbered := inv.numbered
  sane j u op there writes := by
    by_cases same : j = i
    · subst same
      refine ⟨fun n waits => ?_, fun _ => left⟩
      simp only [Function.update_self, reduceCtorEq] at waits
    · exact (inv.sane j u op there writes).frame (Function.update_of_ne same ..) rfl le_rfl
        fun sent member => .inl member

theorem applied_le_step {sys sys' : LockSystem} {event : LockEvent}
    (applied : ∀ node, sys.applied node ≤ sys.log.length) (move : LockMove sys event sys') :
    ∀ node, sys'.applied node ≤ sys'.log.length := by
  cases move with
  | commit found => exact fun node => (applied node).trans (by simp)
  | @apply behindNode behind =>
    intro node
    by_cases same : node = behindNode
    · subst same
      simp only [Function.update_self]
      omega
    · simpa only [Function.update_of_ne same] using applied node
  | _ => exact applied

/-- A task in another stage that writes nothing. -/
theorem LockWriters.Inv.pause (inv : sys.Inv) {t' : LockTask} (silent : t'.writes = none) :
    LockWriters.Inv { sys with
      locks := { sys.locks with tasks := Function.update sys.locks.tasks i (some t') } } := by
  refine inv.retask rfl rfl inv.applied fun j u there writes => ?_
  rcases update_tasks there with ⟨-, same⟩ | ⟨-, there⟩
  · cases same
    rw [silent] at writes
    cases writes
  · exact there

theorem LockWriters.Inv.step (inv : sys.Inv) {event : WriteEvent} (step : sys.step event = some sys') :
    sys'.Inv := by
  cases event with
  | refused i =>
    obtain ⟨t, -, step⟩ := Option.bind_eq_some_iff.1 step
    obtain ⟨n, -, step⟩ := Option.bind_eq_some_iff.1 step
    split at step
    · rename_i guards
      cases step
      exact inv.refused guards.1
    · cases step
  | lock event =>
    obtain ⟨locks, moved, step⟩ := Option.bind_eq_some_iff.1 step
    have move := LockSystem.step_cases moved
    have applied := applied_le_step inv.applied move
    cases move with
    | acquire node bucket key lockType =>
      cases step
      refine inv.retask rfl rfl applied fun j u there writes => ?_
      rcases update_tasks there with ⟨-, same⟩ | ⟨-, there⟩
      · cases same
        cases writes
      · exact there
    | check found =>
      cases step
      exact inv.begin
    | drop found =>
      cases step
      exact inv.begin
    | proposeAcquire found stage =>
      obtain ⟨u, there, step⟩ := Option.bind_eq_some_iff.1 step
      obtain ⟨op, writes, step⟩ := Option.bind_eq_some_iff.1 step
      cases found.symm.trans there
      rw [LockTask.writes, stage] at writes
      cases writes
      split at step
      · rename_i guards
        cases step
        exact inv.propose found (by rw [LockTask.writes, stage]) guards.2
      · cases step
    | proposeRelease found stage =>
      obtain ⟨u, there, step⟩ := Option.bind_eq_some_iff.1 step
      obtain ⟨op, writes, step⟩ := Option.bind_eq_some_iff.1 step
      cases found.symm.trans there
      rw [LockTask.writes, stage] at writes
      cases writes
      split at step
      · rename_i guards
        cases step
        exact inv.propose found (by rw [LockTask.writes, stage]) guards.2
      · cases step
    | guard found =>
      obtain ⟨u, -, step⟩ := Option.bind_eq_some_iff.1 step
      obtain ⟨n, -, step⟩ := Option.bind_eq_some_iff.1 step
      split at step
      · cases step
        exact inv.pause rfl
      · cases step
    | retry found =>
      obtain ⟨u, -, step⟩ := Option.bind_eq_some_iff.1 step
      obtain ⟨n, -, step⟩ := Option.bind_eq_some_iff.1 step
      split at step
      · cases step
        exact inv.pause rfl
      · cases step
    | stop found =>
      cases step
      refine inv.retask rfl rfl applied fun j u there writes => ?_
      rcases update_tasks there with ⟨-, same⟩ | ⟨-, there⟩
      · cases same
      · exact there
    | @commit j op found =>
      obtain ⟨sent, there, step⟩ := Option.bind_eq_some_iff.1 step
      cases step
      have same : sent.2 = op := by
        rw [← inv.flying, List.getElem?_map, there] at found
        exact Option.some.inj found
      subst same
      exact inv.commit there
    | lose j =>
      cases step
      exact inv.lose j
    | apply behind =>
      cases step
      exact inv.retask rfl rfl applied fun j u there _ => there
    | crash node =>
      cases step
      exact inv.retask rfl rfl applied fun j u there _ => (Option.filter_eq_some_iff.1 there).1

theorem LockWriters.Inv.start : LockWriters.start.Inv where
  flying := rfl
  committed := rfl
  applied _ := le_rfl
  numbered sent member := by cases member
  sane i t op found _ := by cases found

end Invariant

/-! ## Ways -/

/-- There is a way from one state to the other on which nobody gives up. -/
def LockWriters.Reaches (sys sys' : LockWriters) : Prop :=
  ∃ events : List WriteEvent, (∀ e ∈ events, e.Delivers) ∧ exec LockWriters.step sys events = some sys'

/-- Nothing is in flight, and whatever is taken has a task that can release it. -/
structure LockWriters.Settled (sys : LockWriters) : Prop where
  inv : sys.Inv
  silent : sys.flying = []
  releasable : ∀ k h, Holding (lockRecord k sys.locks.log) h →
    ∃ i t, sys.locks.tasks i = some t ∧ t.lock = k ∧ t.holder = h ∧ sys.CanRelease i t

/-- A way to a settled state on which one task moves. -/
structure LockWriters.Way (i : Nat) (sys sys' : LockWriters) : Prop where
  reaches : sys.Reaches sys'
  settled : sys'.Settled
  tasks : ∀ j, j ≠ i → sys'.locks.tasks j = sys.locks.tasks j
  waiting : ∀ j, j ≠ i → sys'.waiting j = sys.waiting j
  attempts : ∀ j, j ≠ i → sys'.attempts j = sys.attempts j
  committed : ∀ n ∈ sys.committed.map Prod.fst, n ∈ sys'.committed.map Prod.fst

/-- The record of the task's lock at the end of the log. -/
def LockWriters.record (sys : LockWriters) (t : LockTask) : Option LockState :=
  lockRecord t.lock sys.locks.log

/-- How many hold the lock. -/
def holderCount (s : Option LockState) : Nat := (s.map fun s => s.holders.length).getD 0

section Ways

variable {sys sys' sys'' : LockWriters} {i : Nat} {t : LockTask} {op : LockOp}

theorem LockWriters.Reaches.refl (sys : LockWriters) : sys.Reaches sys :=
  ⟨[], fun _ member => absurd member List.not_mem_nil, rfl⟩

theorem LockWriters.Reaches.trans (first : sys.Reaches sys') (second : sys'.Reaches sys'') :
    sys.Reaches sys'' := by
  obtain ⟨es, ordinary, ran⟩ := first
  obtain ⟨es', ordinary', ran'⟩ := second
  refine ⟨es ++ es', fun e member => ?_, ?_⟩
  · rcases List.mem_append.1 member with here | there
    · exact ordinary e here
    · exact ordinary' e there
  · rw [exec_append, ran]
    exact ran'

theorem LockWriters.Reaches.step {event : WriteEvent} (step : sys.step event = some sys')
    (delivers : event.Delivers) : sys.Reaches sys' := by
  refine ⟨[event], fun e member => ?_, exec_cons.2 ⟨sys', step, rfl⟩⟩
  rw [List.mem_singleton.1 member]
  exact delivers

theorem LockWriters.Settled.stay (settled : sys.Settled) (i : Nat) : sys.Way i sys :=
  ⟨.refl sys, settled, fun _ _ => rfl, fun _ _ => rfl, fun _ _ => rfl, fun _ => id⟩

theorem LockWriters.Way.trans (first : sys.Way i sys') (second : sys'.Way i sys'') : sys.Way i sys'' where
  reaches := first.reaches.trans second.reaches
  settled := second.settled
  tasks j other := (second.tasks j other).trans (first.tasks j other)
  waiting j other := (second.waiting j other).trans (first.waiting j other)
  attempts j other := (second.attempts j other).trans (first.attempts j other)
  committed n member := second.committed n (first.committed n member)

/-- What a task can still do does not change with the others, as long as its own attempts do not. -/
theorem LockWriters.CanRelease.frame (can : sys.CanRelease i t) (waiting : sys'.waiting i = sys.waiting i)
    (attempts : sys'.attempts i = sys.attempts i) (lost : ∀ n, sys'.Lost n → sys.Lost n)
    (late : t.stage = .releasing → ∀ n, sys.waiting i = some n → n ∈ sys'.committed.map Prod.fst →
      n ∈ sys.committed.map Prod.fst) : sys'.CanRelease i t := by
  unfold LockWriters.CanRelease at can ⊢
  cases stage : t.stage with
  | checking => trivial
  | held => trivial
  | writing =>
    simp only [stage] at can ⊢
    intro n waits gone
    rw [attempts]
    exact can n (waiting ▸ waits) (lost n gone)
  | releasing =>
    simp only [stage] at can ⊢
    intro n waits
    rw [waiting] at waits
    obtain ⟨out, left⟩ := can n waits
    exact ⟨fun there => out (late stage n waits there), attempts ▸ left⟩

end Ways

/-! ## Delivery -/

section Delivery

variable {sys : LockWriters}

/-- The command to commit next: an acquisition if there is one. -/
theorem exists_next (flying : sys.flying ≠ []) :
    ∃ (j : Nat) (sent : Nat × LockOp), sys.flying[j]? = some sent ∧ ∀ k h, sent.2.Releases k h →
      ∀ other ∈ sys.flying, ∀ l, ¬ other.2.Acquires k l h := by
  by_cases acquires : ∃ sent ∈ sys.flying, ∃ k l h, sent.2.Acquires k l h
  · obtain ⟨sent, member, k, l, h, takes⟩ := acquires
    obtain ⟨j, there⟩ := List.mem_iff_getElem?.1 member
    refine ⟨j, sent, there, fun k' h' releases => ?_⟩
    cases command : sent.2 with
    | acquire b b' l' h'' =>
      rw [command] at releases
      exact releases.elim
    | release b b' h'' =>
      rw [command] at takes
      exact takes.elim
  · obtain ⟨sent, rest, list⟩ := List.exists_cons_of_ne_nil flying
    refine ⟨0, sent, by rw [list]; rfl, fun k h _ other member l takes => ?_⟩
    exact acquires ⟨other, member, k, l, h, takes⟩

/-- The state when the command has been committed. -/
def LockWriters.commit (sys : LockWriters) (j : Nat) (sent : Nat × LockOp) : LockWriters :=
  { sys with
    locks := { sys.locks with
      log := sys.locks.log ++ [sent.2]
      inFlight := sys.locks.inFlight.eraseIdx j }
    flying := sys.flying.eraseIdx j
    committed := sys.committed ++ [sent] }

theorem step_commit (inv : sys.Inv) {j : Nat} {sent : Nat × LockOp} (found : sys.flying[j]? = some sent) :
    sys.step (.lock (.commit j)) = some (sys.commit j sent) := by
  have command : sys.locks.inFlight[j]? = some sent.2 := by
    rw [← inv.flying, List.getElem?_map, found]
    rfl
  simp [LockWriters.step, LockSystem.step, command, found, LockWriters.commit]

/-- A commit loses no attempt. -/
theorem lost_commit {j : Nat} {sent : Nat × LockOp} (found : sys.flying[j]? = some sent) {n : Nat}
    (lost : (sys.commit j sent).Lost n) : sys.Lost n := by
  intro there
  refine lost ?_
  obtain ⟨s, member, rfl⟩ := List.mem_map.1 there
  refine List.mem_map.2 ⟨s, ?_, rfl⟩
  simp only [LockWriters.commit, List.mem_append, List.mem_singleton] at member ⊢
  rcases member with flying | old
  · obtain ⟨m, bound, rfl⟩ := List.mem_iff_getElem.1 flying
    by_cases same : m = j
    · subst same
      rw [List.getElem?_eq_getElem bound, Option.some.injEq] at found
      exact .inr (.inr found)
    · exact .inl (List.mem_eraseIdx_iff_getElem?.2 ⟨m, same, List.getElem?_eq_getElem bound⟩)
  · exact .inr (.inl old)

theorem LockWriters.Releasable.commit (releasable : sys.Releasable) (inv : sys.Inv) {j : Nat}
    {sent : Nat × LockOp} (found : sys.flying[j]? = some sent)
    (last : ∀ k h, sent.2.Releases k h → ∀ other ∈ sys.flying, ∀ l, ¬ other.2.Acquires k l h) :
    (sys.commit j sent).Releasable := by
  have command : sys.locks.inFlight[j]? = some sent.2 := by
    rw [← inv.flying, List.getElem?_map, found]
    rfl
  intro k h traced
  have before : sys.locks.Traced k h := by
    rcases traced with holding | ⟨op, member, acquires⟩
    · simp only [LockWriters.commit, lockRecord_append] at holding
      rcases holding_on.1 holding with holding | ⟨l, acquires⟩
      · exact .inl holding
      · exact .inr ⟨sent.2, List.mem_of_getElem? command, l, acquires⟩
    · exact .inr ⟨op, List.mem_of_mem_eraseIdx member, acquires⟩
  -- a release that is committed leaves nothing of its lock
  have other : ¬ sent.2.Releases k h := by
    intro releases
    rcases traced with holding | ⟨op, member, l, acquires⟩
    · simp only [LockWriters.commit, lockRecord_append] at holding
      exact absurd holding (holding_on.2.2 releases)
    · have flying : op ∈ sys.flying.map Prod.snd := inv.flying ▸ List.mem_of_mem_eraseIdx member
      obtain ⟨other, there, rfl⟩ := List.mem_map.1 flying
      exact last k h releases other there l acquires
  rcases releasable k h before with ⟨i, t, task, lock, holder, can⟩ | release
  · refine .inl ⟨i, t, task, lock, holder, can.frame rfl rfl (fun n => lost_commit found) ?_⟩
    intro stage n waits there
    have writes : t.writes = some t.releaseOp := by rw [LockTask.writes, stage]
    simp only [LockWriters.commit, List.map_append, List.map_cons, List.map_nil, List.mem_append,
      List.mem_singleton] at there
    rcases there with old | same
    · exact old
    · have own := ((inv.sane i t _ task writes).own n waits).2 sent
        (List.mem_append_left _ (List.mem_of_getElem? found)) same.symm
      rw [own] at other
      exact absurd ⟨lock, holder⟩ other
  · rcases release.eraseIdx j with ⟨op, taken, releases⟩ | left
    · rw [command, Option.some.injEq] at taken
      exact absurd (taken ▸ releases) other
    · exact .inr left

/-- Everything in flight arrives. -/
theorem LockWriters.Releasable.settle (releasable : sys.Releasable) (inv : sys.Inv) :
    ∃ sys' : LockWriters, sys.Reaches sys' ∧ sys'.Settled ∧ sys'.locks.tasks = sys.locks.tasks ∧
      sys'.waiting = sys.waiting ∧ sys'.attempts = sys.attempts ∧ ∀ n, sys'.Lost n → sys.Lost n := by
  induction count : sys.flying.length generalizing sys with
  | zero =>
    have silent : sys.flying = [] := List.length_eq_zero_iff.1 count
    refine ⟨sys, .refl sys, ⟨inv, silent, fun k h holding => ?_⟩, rfl, rfl, rfl, fun _ => id⟩
    rcases releasable k h (.inl holding) with task | ⟨op, member, -⟩
    · exact task
    · rw [← inv.flying, silent] at member
      cases member
  | succ m ih =>
    have flying : sys.flying ≠ [] := by
      intro none
      rw [none] at count
      cases count
    obtain ⟨j, sent, found, last⟩ := exists_next flying
    have bound : j < sys.flying.length := (List.getElem?_eq_some_iff.1 found).1
    have shorter : (sys.commit j sent).flying.length = m := by
      simp only [LockWriters.commit, List.length_eraseIdx, bound, if_true]
      omega
    obtain ⟨sys', way, settled, tasks, waiting, attempts, lost⟩ :=
      ih (releasable.commit inv found last) (inv.commit found) shorter
    exact ⟨sys', (Reaches.step (step_commit inv found) trivial).trans way, settled, tasks, waiting, attempts,
      fun n gone => lost_commit found (lost n gone)⟩

/-- The nodes have applied so much. -/
def LockWriters.reach (sys : LockWriters) (applied : NodeId → Nat) : LockWriters :=
  { sys with locks := { sys.locks with applied } }

/-- A node applies the rest of the log. -/
theorem LockWriters.Settled.catchUp (settled : sys.Settled) (i : Nat) (node : NodeId) :
    ∃ applied, sys.Way i (sys.reach applied) ∧ applied node = sys.locks.log.length := by
  induction left : sys.locks.log.length - sys.locks.applied node generalizing sys with
  | zero =>
    have reached := settled.inv.applied node
    exact ⟨sys.locks.applied, settled.stay i, by omega⟩
  | succ m ih =>
    have behind : sys.locks.applied node < sys.locks.log.length := by omega
    have step : sys.step (.lock (.apply node)) = some (sys.reach
        (Function.update sys.locks.applied node (sys.locks.applied node + 1))) := by
      simp [LockWriters.step, LockSystem.step, behind, LockWriters.reach]
    have after : (sys.reach (Function.update sys.locks.applied node (sys.locks.applied node + 1))).Settled :=
      ⟨settled.inv.step step, settled.silent, settled.releasable⟩
    obtain ⟨applied, way, reached⟩ := ih after (by
      simp only [LockWriters.reach, Function.update_self]
      omega)
    refine ⟨applied, ?_, reached⟩
    exact LockWriters.Way.trans ⟨.step step trivial, after, fun _ _ => rfl, fun _ _ => rfl, fun _ _ => rfl,
      fun _ => id⟩ way

end Delivery

/-! ## One task -/

section Task

variable {sys sys' : LockWriters} {i : Nat} {t t' : LockTask} {op : LockOp}

/-- A step of one task that commits nothing. -/
theorem LockWriters.Settled.move (settled : sys.Settled) {event : WriteEvent}
    (step : sys.step event = some sys') (delivers : event.Delivers)
    (found : sys.locks.tasks i = some t) (found' : sys'.locks.tasks i = some t')
    (lock : t'.lock = t.lock) (holder : t'.holder = t.holder) (can : sys'.CanRelease i t')
    (log : sys'.locks.log = sys.locks.log) (flying : sys'.flying = sys.flying)
    (committed : sys'.committed = sys.committed)
    (tasks : ∀ j, j ≠ i → sys'.locks.tasks j = sys.locks.tasks j)
    (waiting : ∀ j, j ≠ i → sys'.waiting j = sys.waiting j)
    (attempts : ∀ j, j ≠ i → sys'.attempts j = sys.attempts j) : sys.Way i sys' := by
  refine ⟨.step step delivers, ⟨settled.inv.step step, flying.trans settled.silent, ?_⟩, tasks, waiting,
    attempts, fun n member => committed ▸ member⟩
  intro k h holding
  rw [log] at holding
  obtain ⟨j, u, there, rfl, rfl, still⟩ := settled.releasable k h holding
  by_cases same : j = i
  · subst same
    obtain rfl : t = u := Option.some.inj (found.symm.trans there)
    exact ⟨j, t', found', lock, holder, can⟩
  · refine ⟨j, u, (tasks j same).trans there, rfl, rfl, still.frame (waiting j same) (attempts j same)
      (fun n lost => ?_) fun _ n _ member => committed ▸ member⟩
    rwa [LockWriters.Lost, flying, committed] at lost

/-- A task that waits for no attempt makes one. -/
theorem canRelease_idle (idle : sys.waiting i = none) : sys.CanRelease i t := by
  unfold LockWriters.CanRelease
  split
  · trivial
  · intro n waits
    rw [idle] at waits
    cases waits
  · trivial
  · intro n waits
    rw [idle] at waits
    cases waits

/-- A task begins to write, by `check` or by `drop`. -/
theorem LockWriters.Settled.begin (settled : sys.Settled) (found : sys.locks.tasks i = some t)
    {stage : LockStage} {event : WriteEvent}
    (step : sys.step event = some (sys.begin (sys.locks.setStage i t stage) i)) (delivers : event.Delivers) :
    sys.Way i (sys.begin (sys.locks.setStage i t stage) i) := by
  have idle : (sys.begin (sys.locks.setStage i t stage) i).waiting i = none := Function.update_self ..
  refine settled.move step delivers found (Function.update_self ..) rfl rfl ?_ rfl rfl rfl
    (fun j other => Function.update_of_ne other ..) (fun j other => Function.update_of_ne other ..)
    fun j other => Function.update_of_ne other ..
  exact canRelease_idle idle

/-- An attempt that was lost is answered, and the task may make another. -/
theorem LockWriters.Settled.retry (settled : sys.Settled) (found : sys.locks.tasks i = some t)
    (may : sys.MayRetry i) :
    ∃ sys', sys.Way i sys' ∧ sys'.locks = sys.locks ∧ sys'.waiting i = none := by
  cases waits : sys.waiting i with
  | none => exact ⟨sys, settled.stay i, rfl, waits⟩
  | some n =>
    obtain ⟨out, left⟩ := may n waits
    have unanswered : n ∉ sys.answered t.node := by
      intro answered
      obtain ⟨sent, member, rfl⟩ := List.mem_map.1 answered
      exact out (List.mem_map_of_mem (List.mem_of_mem_take member))
    have step : sys.step (.refused i) = some { sys with waiting := Function.update sys.waiting i none } := by
      simp [LockWriters.step, found, waits, left, unanswered]
    have idle : Function.update sys.waiting i none i = none := Function.update_self ..
    refine ⟨{ sys with waiting := Function.update sys.waiting i none }, ?_, rfl, idle⟩
    exact settled.move step trivial found found rfl rfl (canRelease_idle idle) rfl rfl rfl (fun _ _ => rfl)
      (fun j other => Function.update_of_ne other ..) fun _ _ => rfl

/-- A task proposes its command, and it is committed. -/
theorem LockWriters.Settled.deliver (settled : sys.Settled) (found : sys.locks.tasks i = some t)
    (writes : t.writes = some op) (idle : sys.waiting i = none) :
    ∃ sys', sys.Way i sys' ∧ sys'.locks.tasks = sys.locks.tasks ∧
      sys'.locks.log = sys.locks.log ++ [op] ∧
      ∃ n, sys'.waiting i = some n ∧ n ∈ sys'.committed.map Prod.fst := by
  have inv := settled.inv
  have left := (inv.sane i t op found writes).idle idle
  let proposed : LockWriters := { sys with
    locks := { sys.locks with inFlight := sys.locks.inFlight ++ [op] }
    flying := sys.flying ++ [(sys.made, op)]
    attempts := Function.update sys.attempts i (sys.attempts i + 1)
    waiting := Function.update sys.waiting i (some sys.made)
    made := sys.made + 1 }
  have proposes : sys.step (.lock (.propose i)) = some proposed := by
    unfold LockTask.writes at writes
    split at writes
    · rename_i stage
      cases writes
      simp [LockWriters.step, LockSystem.step, LockTask.writes, found, stage, idle, left, proposed]
    · rename_i stage
      cases writes
      simp [LockWriters.step, LockSystem.step, LockTask.writes, found, stage, idle, left, proposed]
    · cases writes
  have after : proposed.Inv := inv.step proposes
  have sent : proposed.flying[0]? = some (sys.made, op) := by
    simp only [proposed, settled.silent]
    rfl
  have commits := step_commit after sent
  have waits : (proposed.commit 0 (sys.made, op)).waiting i = some sys.made := Function.update_self ..
  have there : sys.made ∈ (proposed.commit 0 (sys.made, op)).committed.map Prod.fst := by
    simp [LockWriters.commit]
  have grown : ∀ n ∈ sys.committed.map Prod.fst,
      n ∈ (proposed.commit 0 (sys.made, op)).committed.map Prod.fst := by
    intro n member
    simp only [LockWriters.commit, proposed, List.map_append]
    exact List.mem_append_left _ member
  have way : sys.Reaches (proposed.commit 0 (sys.made, op)) :=
    (Reaches.step proposes trivial).trans (Reaches.step commits trivial)
  refine ⟨_, ⟨way, ⟨after.step commits, ?_, fun k h holding => ?_⟩, fun _ _ => rfl,
    fun j other => Function.update_of_ne other .., fun j other => Function.update_of_ne other .., grown⟩, rfl,
    rfl, sys.made, waits, there⟩
  · simp only [LockWriters.commit, proposed, settled.silent]
    rfl
  · simp only [LockWriters.commit, proposed, lockRecord_append] at holding
    -- whoever writes an acquisition can release it later
    have writer : t.stage = .writing → (proposed.commit 0 (sys.made, op)).CanRelease i t := by
      intro stage
      simp only [LockWriters.CanRelease, stage]
      intro n own lost
      rw [waits, Option.some.injEq] at own
      subst own
      rw [LockWriters.Lost, List.map_append, List.mem_append, not_or] at lost
      exact absurd there lost.2
    rcases holding_on.1 holding with old | ⟨l, acquires⟩
    · obtain ⟨j, u, task, lock, holder, can⟩ := settled.releasable k h old
      by_cases same : j = i
      · subst same
        obtain rfl : t = u := Option.some.inj (found.symm.trans task)
        unfold LockTask.writes at writes
        split at writes
        · rename_i stage
          exact ⟨j, t, found, lock, holder, writer stage⟩
        · cases writes
          have releases : t.releaseOp.Releases k h := ⟨lock, holder⟩
          exact absurd holding (holding_on.2.2 releases)
        · cases writes
      · refine ⟨j, u, task, lock, holder, can.frame (Function.update_of_ne same ..)
          (Function.update_of_ne same ..) (fun n lost => ?_) fun stage n own member => ?_⟩
        · rw [LockWriters.Lost, List.map_append, List.mem_append, not_or] at lost ⊢
          rw [settled.silent]
          exact ⟨List.not_mem_nil, fun member => lost.2 (grown n member)⟩
        · have command : u.writes = some u.releaseOp := by rw [LockTask.writes, stage]
          have below := ((inv.sane j u _ task command).own n own).1
          simp only [LockWriters.commit, proposed, List.map_append, List.mem_append, List.map_cons,
            List.map_nil, List.mem_singleton] at member
          rcases member with member | same
          · exact member
          · omega
    · unfold LockTask.writes at writes
      split at writes
      · rename_i stage
        cases writes
        exact ⟨i, t, found, acquires.1, acquires.2.2, writer stage⟩
      · cases writes
        exact acquires.elim
      · cases writes

theorem table_of_reached {sys : LockSystem} {node : NodeId} (reached : sys.applied node = sys.log.length) :
    sys.table node = lockTable sys.log := by
  rw [LockSystem.table, reached, List.take_length]

/-- What a task reads at a node that has applied the log. -/
theorem acquiredLocally_reached {sys : LockSystem} (reached : sys.applied t.node = sys.log.length) :
    acquiredLocally (sys.table t.node) t = true ↔ Holding (lockRecord t.lock sys.log) t.holder := by
  rw [table_of_reached reached, acquiredLocally, lockTable_read, LockTask.lock]
  cases lockRecord (lockKey t.bucket t.key) sys.log with
  | none => simp [Holding]
  | some s => simp [Holding, isHeldBy_iff]

theorem canAcquireLocally_reached {sys : LockSystem} (reached : sys.applied t.node = sys.log.length) :
    canAcquireLocally (sys.table t.node) t = grants t.lockType t.holder (lockRecord t.lock sys.log) := by
  rw [table_of_reached reached, canAcquireLocally, lockTable_read, LockTask.lock]
  cases lockRecord (lockKey t.bucket t.key) sys.log with
  | none => rfl
  | some s => rfl

/-- The write of an acquisition returns, and the acquisition looks for its holder. -/
theorem LockWriters.Settled.answer (settled : sys.Settled) (found : sys.locks.tasks i = some t)
    (stage : t.stage = .writing) {n : Nat} (waits : sys.waiting i = some n)
    (there : n ∈ sys.committed.map Prod.fst) :
    ∃ sys', sys.Way i sys' ∧ sys'.locks.log = sys.locks.log ∧
      (Holding (sys.record t) t.holder → sys'.locks.tasks i = some { t with stage := .held }) ∧
      (¬ Holding (sys.record t) t.holder → sys'.locks.tasks i = some { t with stage := .checking }) := by
  have writes : t.writes = some t.acquireOp := by rw [LockTask.writes, stage]
  obtain ⟨applied, way, reached⟩ := settled.catchUp i t.node
  have inv := way.settled.inv
  have member : t.acquireOp ∈ sys.locks.log := by
    obtain ⟨sent, there, same⟩ := List.mem_map.1 there
    have own := ((settled.inv.sane i t _ found writes).own n waits).2 sent (List.mem_append_right _ there) same
    rw [← settled.inv.committed, ← own]
    exact List.mem_map_of_mem there
  have long : sys.committed.length = sys.locks.log.length := by
    rw [← settled.inv.committed, List.length_map]
  have answered : n ∈ (sys.reach applied).answered t.node := by
    rw [LockWriters.answered]
    show n ∈ (sys.committed.take (applied t.node)).map Prod.fst
    rwa [reached, ← long, List.take_length]
  have shown : acquiredLocally ((sys.reach applied).locks.table t.node) t = true ↔
      Holding (sys.record t) t.holder := acquiredLocally_reached reached
  have applies : t.acquireOp ∈ sys.locks.log.take (applied t.node) := by
    rwa [reached, List.take_length]
  have found : (sys.reach applied).locks.tasks i = some t := found
  have waits : (sys.reach applied).waiting i = some n := waits
  have finish {locks : LockSystem} (stage' : LockStage) (next : stage' = .held ∨ stage' = .checking)
      (moved : locks = (sys.reach applied).locks.setStage i t stage')
      (verifies : (sys.reach applied).locks.step (.verify i) = some locks) :
      sys.Way i { sys.reach applied with locks } := by
    subst moved
    have step : (sys.reach applied).step (.lock (.verify i)) =
        some { sys.reach applied with locks := (sys.reach applied).locks.setStage i t stage' } := by
      simp only [LockWriters.step, verifies, found, waits, Option.bind_eq_bind, Option.bind_some,
        answered, if_true]
    refine way.trans (way.settled.move step trivial found (Function.update_self ..) rfl rfl ?_ rfl rfl rfl
      (fun j other => Function.update_of_ne other ..) (fun _ _ => rfl) fun _ _ => rfl)
    rcases next with rfl | rfl
    · trivial
    · trivial
  by_cases holding : Holding (sys.record t) t.holder
  · refine ⟨_, finish .held (.inl rfl) rfl ?_, rfl, fun _ => Function.update_self .., fun none => ?_⟩
    · simp only [LockSystem.step, found, Option.bind_eq_bind, Option.bind_some]
      rw [if_pos ⟨stage, applies⟩, if_pos (shown.2 holding)]
    · exact absurd holding none
  · refine ⟨_, finish .checking (.inr rfl) rfl ?_, rfl, fun there => ?_, fun _ => Function.update_self ..⟩
    · simp only [LockSystem.step, found, Option.bind_eq_bind, Option.bind_some]
      rw [if_pos ⟨stage, applies⟩, if_neg fun held => holding (shown.1 held)]
    · exact absurd there holding

/-- An acquisition with an attempt to make gets its guard, if the record allows it. -/
theorem LockWriters.Settled.write (settled : sys.Settled) (found : sys.locks.tasks i = some t)
    (stage : t.stage = .writing) (may : sys.MayRetry i)
    (granted : grants t.lockType t.holder (sys.record t) = true) :
    ∃ sys', sys.Way i sys' ∧ sys'.locks.tasks i = some { t with stage := .held } ∧
      sys'.record t = some (acquired t.lockType t.holder (sys.record t)) := by
  have writes : t.writes = some t.acquireOp := by rw [LockTask.writes, stage]
  obtain ⟨first, way, same, idle⟩ := settled.retry found may
  obtain ⟨mid, way', tasks, log, n, waits, there⟩ :=
    way.settled.deliver ((congrArg (fun locks => locks.tasks i) same).trans found) writes idle
  have found' : mid.locks.tasks i = some t := by rw [tasks, same, found]
  have record : mid.record t = some (acquired t.lockType t.holder (sys.record t)) := by
    rw [LockWriters.record, log, same, lockRecord_append]
    exact if_pos rfl
  have holding : Holding (mid.record t) t.holder := ⟨_, record, acquired_granted.2 granted⟩
  obtain ⟨last, way'', log', held, -⟩ := way'.settled.answer found' stage waits there
  exact ⟨last, (way.trans way').trans way'', held holding, by rw [LockWriters.record, log']; exact record⟩

/-- An acquisition that checks gets its guard, if the record allows it. -/
theorem LockWriters.Settled.check (settled : sys.Settled) (found : sys.locks.tasks i = some t)
    (stage : t.stage = .checking) (granted : grants t.lockType t.holder (sys.record t) = true) :
    ∃ sys', sys.Way i sys' ∧ sys'.locks.tasks i = some { t with stage := .held } ∧
      sys'.record t = some (acquired t.lockType t.holder (sys.record t)) := by
  obtain ⟨applied, way, reached⟩ := settled.catchUp i t.node
  have can : canAcquireLocally ((sys.reach applied).locks.table t.node) t = true :=
    (canAcquireLocally_reached reached).trans granted
  have found' : (sys.reach applied).locks.tasks i = some t := found
  have step : (sys.reach applied).step (.lock (.check i)) =
      some ((sys.reach applied).begin ((sys.reach applied).locks.setStage i t .writing) i) := by
    simp [LockWriters.step, LockSystem.step, found', stage, can]
  have begun := way.settled.begin found' step trivial
  have may : ((sys.reach applied).begin ((sys.reach applied).locks.setStage i t .writing) i).MayRetry i := by
    intro n waits
    simp only [LockWriters.begin, Function.update_self, reduceCtorEq] at waits
  obtain ⟨last, way', held, record⟩ := begun.settled.write (t := { t with stage := .writing })
    (Function.update_self ..) rfl may granted
  exact ⟨last, (way.trans begun).trans way', held, record⟩

/-- An acquisition that the record allows gets its guard. -/
theorem LockWriters.Settled.guard (settled : sys.Settled) (found : sys.locks.tasks i = some t)
    (trying : sys.Trying i t) (granted : grants t.lockType t.holder (sys.record t) = true) :
    ∃ sys', sys.Way i sys' ∧ sys'.locks.tasks i = some { t with stage := .held } ∧
      sys'.record t = some (acquired t.lockType t.holder (sys.record t)) := by
  rcases trying with stage | ⟨stage, free⟩
  · exact settled.check found stage granted
  · by_cases failed : ∀ n, sys.waiting i = some n → n ∉ sys.committed.map Prod.fst
    · refine settled.write found stage (fun n waits => ⟨failed n waits, free n waits ?_⟩) granted
      rw [LockWriters.Lost, settled.silent]
      exact failed n waits
    · -- the attempt has been committed, so it is answered
      simp only [not_forall, not_not] at failed
      obtain ⟨n, waits, there⟩ := failed
      obtain ⟨mid, way, log, held, checking⟩ := settled.answer found stage waits there
      have same : mid.record t = sys.record t := by rw [LockWriters.record, log, LockWriters.record]
      by_cases holding : Holding (sys.record t) t.holder
      · obtain ⟨s, record, member⟩ := holding
        refine ⟨mid, way, held ⟨s, record, member⟩, ?_⟩
        have kept : s.isHeldBy t.holder = true := isHeldBy_iff.2 member
        rw [same, record]
        simp [acquired, kept]
      · obtain ⟨last, way', held, record⟩ := way.settled.check (checking holding) rfl
          (t := { t with stage := .checking }) (by rw [← granted, ← same]; rfl)
        refine ⟨last, way.trans way', held, ?_⟩
        rw [← same]
        exact record

/-- A guard is dropped, and its lock released. -/
theorem LockWriters.Settled.release (settled : sys.Settled) (found : sys.locks.tasks i = some t)
    (holds : t.stage = .held ∨ t.stage = .releasing) (can : sys.CanRelease i t) :
    ∃ sys', sys.Way i sys' ∧ sys'.record t = released t.holder (sys.record t) := by
  obtain ⟨first, way, task, log, idle⟩ : ∃ first : LockWriters, sys.Way i first ∧
      first.locks.tasks i = some { t with stage := .releasing } ∧ first.locks.log = sys.locks.log ∧
      first.waiting i = none := by
    rcases holds with held | releasing
    · have step : sys.step (.lock (.drop i)) = some (sys.begin (sys.locks.setStage i t .releasing) i) := by
        simp [LockWriters.step, LockSystem.step, found, held]
      exact ⟨_, settled.begin found step trivial, Function.update_self .., rfl, Function.update_self ..⟩
    · simp only [LockWriters.CanRelease, releasing] at can
      obtain ⟨first, way, same, idle⟩ := settled.retry found can
      refine ⟨first, way, ?_, by rw [same], idle⟩
      rw [same, found, ← releasing]
  obtain ⟨last, way', -, log', -⟩ := way.settled.deliver task rfl idle
  refine ⟨last, way.trans way', ?_⟩
  rw [LockWriters.record, log', log, lockRecord_append]
  exact if_pos rfl

end Task

/-! ## Every task in the way -/

theorem holderCount_released {s : LockState} {h : LockHolder} (member : h ∈ s.holders) :
    holderCount (released h (some s)) < holderCount (some s) := by
  have some_left : 0 < s.holders.length := List.length_pos_of_mem member
  rw [released_some]
  split
  · simpa [holderCount] using some_left
  · have fewer : (s.holders.filter (· != h)).length < s.holders.length :=
      List.length_filter_lt_length_iff_exists.2 ⟨h, member, by simp⟩
    simpa [holderCount] using fewer

section Turns

variable {sys : LockWriters} {i : Nat} {t : LockTask}

/-- A task whose holder is in the record gives it back. -/
theorem LockWriters.Settled.leave (settled : sys.Settled) (found : sys.locks.tasks i = some t)
    (can : sys.CanRelease i t) {s : LockState} (record : sys.record t = some s)
    (member : t.holder ∈ s.holders) :
    ∃ sys', sys.Way i sys' ∧ sys'.record t = released t.holder (some s) := by
  have finish (trying : sys.Trying i t) :
      ∃ sys', sys.Way i sys' ∧ sys'.record t = released t.holder (some s) := by
    have held : s.isHeldBy t.holder = true := isHeldBy_iff.2 member
    have granted : grants t.lockType t.holder (sys.record t) = true := by
      have held : s.holders.any (· == t.holder) = true := held
      rw [record]
      simp [grants, LockState.canAcquire, held]
    obtain ⟨mid, way, task, after⟩ := settled.guard found trying granted
    obtain ⟨last, way', left⟩ := way.settled.release task (.inl rfl) trivial
    refine ⟨last, way.trans way', ?_⟩
    have kept : mid.record t = some s := by
      rw [after, record]
      simp [acquired, held]
    rw [← kept]
    exact left
  cases stage : t.stage with
  | checking => exact finish (.inl stage)
  | writing =>
    simp only [LockWriters.CanRelease, stage] at can
    exact finish (.inr ⟨stage, can⟩)
  | held => exact record ▸ settled.release found (.inl stage) can
  | releasing => exact record ▸ settled.release found (.inr stage) can

/-- An acquisition is still under way when another task has moved. -/
theorem LockWriters.Trying.way {sys' : LockWriters} {j : Nat} (trying : sys.Trying i t) (settled : sys.Settled)
    (way : sys.Way j sys') (other : i ≠ j) : sys'.Trying i t := by
  refine trying.imp_right fun ⟨stage, free⟩ => ⟨stage, fun n waits lost => ?_⟩
  rw [way.attempts i other]
  refine free n ((way.waiting i other).symm.trans waits) ?_
  rw [LockWriters.Lost, way.settled.silent] at lost
  rw [LockWriters.Lost, settled.silent]
  exact fun there => lost (way.committed n there)

/-- Somebody in the way of an acquisition gets out of it. -/
theorem LockWriters.Settled.clear (settled : sys.Settled) (found : sys.locks.tasks i = some t)
    (trying : sys.Trying i t) (refused : grants t.lockType t.holder (sys.record t) = false) :
    ∃ sys', sys.Reaches sys' ∧ sys'.Settled ∧ sys'.locks.tasks i = some t ∧ sys'.Trying i t ∧
      holderCount (sys'.record t) < holderCount (sys.record t) := by
  cases record : sys.record t with
  | none =>
    rw [record] at refused
    cases refused
  | some s =>
    rw [record] at refused
    obtain ⟨h, member⟩ := List.exists_mem_of_ne_nil _ (lockRecord_valid record).held
    have foreign : t.holder ≠ h := by
      rintro rfl
      have held : s.holders.any (· == t.holder) = true := isHeldBy_iff.2 member
      simp [grants, LockState.canAcquire, held] at refused
    -- whoever has the lock has a task that can release it
    obtain ⟨j, u, task, lock, rfl, can⟩ := settled.releasable t.lock h ⟨s, record, member⟩
    have apart : i ≠ j := by
      rintro rfl
      rw [found] at task
      cases task
      exact foreign rfl
    have same : sys.record u = some s := by
      rw [LockWriters.record, lock]
      exact record
    obtain ⟨sys', way, after⟩ := settled.leave task can same member
    have still := trying.way settled way apart
    refine ⟨sys', way.reaches, way.settled, (way.tasks i apart).trans found, still, ?_⟩
    have left : sys'.record t = released u.holder (some s) := by
      rw [← after, LockWriters.record, LockWriters.record, lock]
    rw [left]
    exact holderCount_released member

/-- By the number of those who have the lock. -/
theorem LockWriters.Settled.finish (settled : sys.Settled) (found : sys.locks.tasks i = some t)
    (trying : sys.Trying i t) :
    ∃ sys', sys.Reaches sys' ∧ sys'.locks.tasks i = some { t with stage := .held } := by
  induction count : holderCount (sys.record t) using Nat.strongRecOn generalizing sys with
  | _ n ih =>
    cases granted : grants t.lockType t.holder (sys.record t) with
    | true =>
      obtain ⟨sys', way, held, -⟩ := settled.guard found trying granted
      exact ⟨sys', way.reaches, held⟩
    | false =>
      obtain ⟨mid, way, settled, there, trying, fewer⟩ := settled.clear found trying granted
      rw [count] at fewer
      obtain ⟨sys', way', held⟩ := ih _ fewer settled there trying rfl
      exact ⟨sys', way.trans way', held⟩

end Turns

/-! ## Runs -/

/-- **No deadlock.** In every state of every run in which no lock has leaked, an acquisition under way
can get its guard without anybody beginning, giving up or crashing, unless the command of its last
attempt is lost. -/
theorem waiting_acquisition_can_finish (events : List WriteEvent) {sys : LockWriters}
    (ran : exec LockWriters.step LockWriters.start events = some sys) (releasable : sys.Releasable)
    {i : Nat} {t : LockTask} (found : sys.locks.tasks i = some t) (trying : sys.Trying i t) :
    ∃ more sys', (∀ e ∈ more, e.Delivers) ∧ exec LockWriters.step sys more = some sys' ∧
      sys'.locks.tasks i = some { t with stage := .held } := by
  have inv : sys.Inv := exec_invariant_always (fun _ _ _ inv step => inv.step step) LockWriters.Inv.start ran
  obtain ⟨mid, way, settled, tasks, waiting, attempts, lost⟩ := releasable.settle inv
  have still : mid.Trying i t := by
    refine trying.imp_right fun ⟨stage, free⟩ => ⟨stage, fun n waits gone => ?_⟩
    rw [attempts]
    exact free n (waiting ▸ waits) (lost n gone)
  obtain ⟨sys', way', held⟩ := settled.finish (tasks ▸ found) still
  obtain ⟨more, delivers, exec⟩ := way.trans way'
  exact ⟨more, sys', delivers, exec, held⟩

/-- Node 1 writes at its second attempt, and node 2 waits for it. -/
def waitingRun : List WriteEvent :=
  [.lock (.acquire 1 "abc" "k" .write), .lock (.check 0), .lock (.propose 0), .lock (.lose 0), .refused 0,
    .lock (.propose 0), .lock (.commit 0), .lock (.apply 1), .lock (.verify 0),
    .lock (.acquire 2 "abc" "k" .write)]

theorem waitingRun_finishes :
    ∃ sys, exec LockWriters.step LockWriters.start waitingRun = some sys ∧
      (sys.locks.tasks 0).map LockTask.stage = some .held ∧
      ∃ more sys', (∀ e ∈ more, e.Delivers) ∧ exec LockWriters.step sys more = some sys' ∧
        sys'.locks.tasks 1 = some ⟨2, "abc", "k", .write, ⟨2, 0⟩, .held⟩ := by
  have ends : (exec LockWriters.step LockWriters.start waitingRun).map
      (fun sys => (sys.locks.log, sys.locks.inFlight, sys.locks.tasks 0, sys.locks.tasks 1)) =
        some ([.acquire "abc" "k" .write ⟨1, 0⟩], [], some ⟨1, "abc", "k", .write, ⟨1, 0⟩, .held⟩,
          some ⟨2, "abc", "k", .write, ⟨2, 0⟩, .checking⟩) := by
    decide +kernel
  obtain ⟨sys, ran, same⟩ := Option.map_eq_some_iff.1 ends
  simp only [Prod.mk.injEq] at same
  obtain ⟨log, silent, first, second⟩ := same
  refine ⟨sys, ran, by rw [first]; rfl, ?_⟩
  refine waiting_acquisition_can_finish waitingRun ran ?_ second (.inl rfl)
  rintro k h (holding | ⟨op, member, -⟩)
  · rw [log] at holding
    have holding : Holding (LockOp.on k none (.acquire "abc" "k" .write ⟨1, 0⟩)) h := holding
    rcases holding_on.1 holding with ⟨s, none, -⟩ | ⟨l, lock, -, holder⟩
    · cases none
    · exact .inl ⟨0, _, first, lock, holder, trivial⟩
  · rw [silent] at member
    cases member

end Save.Metadata
