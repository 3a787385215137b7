import Save.Lib.Run
import Save.Common.Cluster
import Save.Api.Auth

/-!
# Joining and leaving the cluster

`run_auto_join_worker` with `auto_join`, `try_join_cluster` and `join_via_leader`,
`handle_graceful_shutdown` with `graceful_leave` and `request_removal_from_leader`,
and the handlers of the leader they call, as one machine (`main.rs`, `scaling.rs`,
`handlers/cluster/membership.rs`). The worker and the shutdown share the flag
`CLUSTER_JOINED`, the shutdown signal and a wait that ends after a time whether or
not the worker has; each call to the leader may be served at any later time, also
after its caller has given up on it. The node sees the membership as its own Raft
instance last learned it. `left_stays_out`: when the leave takes effect, by a
removal or by finding that there is nothing to leave, while no join is under way and
the finding is right, the node is out of the membership in every state after
`graceful_leave` has returned `Ok`.
-/

namespace Save.Api
set_option autoImplicit false
open Save.Text Save.Common Save.Run

/-! ## Membership -/

structure Membership where
  voters : List Nat
  learners : List Nat
  deriving DecidableEq

/-- `is_member`, of a status with these members. -/
def Membership.isMember (m : Membership) (id : Nat) : Bool :=
  m.voters.contains id || m.learners.contains id

/-- `add_learner`: a member is added again as what it is. -/
def Membership.addLearner (m : Membership) (id : Nat) : Membership :=
  if m.isMember id then m else { m with learners := id :: m.learners }

/-- `promote_voters` of a member. -/
def Membership.promoteVoter (m : Membership) (id : Nat) : Membership :=
  if m.voters.contains id then m else ⟨id :: m.voters, m.learners.filter (· ≠ id)⟩

/-- `remove_voters`; a voter that is retained becomes a learner. -/
def Membership.removeVoter (m : Membership) (id : Nat) (retained : Bool) : Membership :=
  if m.voters.contains id then
    ⟨m.voters.filter (· ≠ id), if retained then id :: m.learners else m.learners⟩
  else m

/-- `remove_node`, which works on learners. -/
def Membership.removeNode (m : Membership) (id : Nat) : Option Membership :=
  if m.voters.contains id then none else some { m with learners := m.learners.filter (· ≠ id) }

/-! ## The parties -/

structure ScalingConfig where
  nodeId : Nat
  seedNodes : List String
  joinMaxRetries : Nat

structure MembershipResponse where
  success : Bool
  message : String
  deriving DecidableEq, Repr

inductive JoinKind where
  | addLearner
  | promote
  deriving DecidableEq, Repr

/-- A call to the leader, and its answer once it is served. -/
structure JoinCall where
  kind : JoinKind
  response : Option MembershipResponse
  deriving DecidableEq, Repr

/-- `run_auto_join_worker`, at its awaits and between its reads of what it shares. -/
inductive WorkerStage where
  /-- At the top of the loop. -/
  | polling
  /-- No signal; `CLUSTER_JOINED` is read next. -/
  | loading
  | looking (wasJoined : Bool)
  /-- In `auto_join`, before its own look. -/
  | checking
  /-- In `try_join_cluster`. -/
  | trying (attempt : Nat)
  | adding (attempt call : Nat)
  /-- A learner that waits for `learner_catchup_delay`. -/
  | catchingUp (attempt : Nat)
  | promoting (attempt call : Nat)
  /-- Between two rounds, with an ear to the signal. -/
  | sleeping
  | stopped
  deriving DecidableEq, Repr

/-- A `remove_node` request at the leader. -/
inductive RemovalStage where
  | asked
  /-- No longer a voter. -/
  | demoted
  | done (success : Bool)
  deriving DecidableEq, Repr

/-- `handle_graceful_shutdown`, and `graceful_leave` from `leaving` on. -/
inductive ShutdownStage where
  | running
  /-- The signal is sent; the worker is waited for. -/
  | waiting
  | draining
  | leaving
  | checking
  /-- A member; whether it leads comes next. -/
  | deciding
  /-- The leader of a cluster with a single voter. -/
  | removingSelf
  /-- The leader of a larger one. -/
  | removingVoter
  | transferring
  | asking
  | removing (request : Nat)
  /-- `graceful_leave` has returned `Ok`. -/
  | left (removed : Bool)
  /-- It has returned an error. -/
  | failed
  deriving DecidableEq, Repr

structure Scaling where
  /-- The membership as it is committed. -/
  committed : Membership
  /-- The membership as the node's Raft instance knows it. -/
  view : Membership
  /-- `CLUSTER_JOINED`. -/
  joined : Bool
  /-- The shutdown signal is in the worker's channel. -/
  signalled : Bool
  worker : WorkerStage
  calls : List JoinCall
  removals : List RemovalStage
  shutdown : ShutdownStage

/-- The worker is spawned when there are seed nodes; a cluster without them counts as joined. -/
def Scaling.start (config : ScalingConfig) (committed view : Membership) : Scaling :=
  { committed, view
    joined := config.seedNodes.isEmpty
    signalled := false
    worker := if config.seedNodes.isEmpty then .stopped else .polling
    calls := []
    removals := []
    shutdown := .running }

/-! ## The worker -/

inductive WorkerEvent where
  /-- The next step that waits for nobody. -/
  | next
  /-- `try_join_cluster`, with what each peer says about the leader, if it can be reached. -/
  | find (status : PeerInfo → Option (Option Nat))
  /-- The answer to the call is there. -/
  | answered
  /-- The call fails or takes too long. -/
  | error
  /-- The sleep is ended by the signal. -/
  | interrupt

/-- The peer that `try_join_cluster` asks: the first that is the leader, or that knows one among
the peers. -/
def joinTarget (seedNodes : List String) (status : PeerInfo → Option (Option Nat)) :
    Option PeerInfo :=
  let peers := seedNodes.filterMap fun peer => (parsePeer peer).toOption
  peers.findSome? fun peer =>
    match status peer with
    | none => none
    | some leader =>
      if leader = some peer.nodeId then some peer
      else leader.bind fun id => peers.find? fun other => other.nodeId == id

/-- The message of a refusal that is taken for membership. -/
def saysMember (message : String) : Bool :=
  let lower := toLowercase message
  containsStr lower "already" || containsStr lower "exists"

/-- After a failed attempt: the next one, or the end of `auto_join`. -/
def WorkerStage.afterError (config : ScalingConfig) (attempt : Nat) : WorkerStage :=
  if attempt < config.joinMaxRetries then .trying (attempt + 1) else .sleeping

def workerStep (config : ScalingConfig) (sys : Scaling) : WorkerEvent → Option Scaling
  | .next =>
    match sys.worker with
    | .polling => some { sys with worker := if sys.signalled then .stopped else .loading }
    | .loading => some { sys with worker := .looking sys.joined }
    | .looking wasJoined =>
      if sys.view.isMember config.nodeId then some { sys with joined := true, worker := .stopped }
      else if wasJoined then some { sys with worker := .stopped }
      else some { sys with worker := .checking }
    | .checking =>
      if sys.view.isMember config.nodeId then some { sys with joined := true, worker := .stopped }
      else some { sys with worker := .trying 0 }
    | .catchingUp attempt =>
      some { sys with
        calls := sys.calls ++ [⟨.promote, none⟩]
        worker := .promoting attempt sys.calls.length }
    | .sleeping => some { sys with worker := .polling }
    | _ => none
  | .find status =>
    match sys.worker with
    | .trying attempt =>
      match joinTarget config.seedNodes status with
      | none => some { sys with worker := .afterError config attempt }
      | some _ =>
        some { sys with
          calls := sys.calls ++ [⟨.addLearner, none⟩]
          worker := .adding attempt sys.calls.length }
    | _ => none
  | .answered =>
    match sys.worker with
    | .adding attempt call =>
      match sys.calls[call]?.bind JoinCall.response with
      | none => none
      | some response =>
        if response.success then some { sys with worker := .catchingUp attempt }
        else if saysMember response.message then some { sys with joined := true, worker := .stopped }
        else some { sys with worker := .afterError config attempt }
    | .promoting _ call =>
      match sys.calls[call]?.bind JoinCall.response with
      | none => none
      -- a promotion that is refused leaves a learner, which is progress
      | some _ => some { sys with joined := true, worker := .stopped }
    | _ => none
  | .error =>
    match sys.worker with
    | .adding attempt _ => some { sys with worker := .afterError config attempt }
    | .promoting attempt _ => some { sys with worker := .afterError config attempt }
    | _ => none
  | .interrupt =>
    match sys.worker with
    | .sleeping => if sys.signalled then some { sys with worker := .stopped } else none
    | _ => none

/-! ## The leader -/

inductive LeaderEvent where
  /-- A call of the worker is served. -/
  | serve (call : Nat) (applied : Bool) (response : MembershipResponse)
  /-- The node is taken from the voters, for a removal. -/
  | demote (request : Nat) (retained : Bool)
  /-- The node is removed; the caller is told whether it was. -/
  | remove (request : Nat) (success : Bool)
  /-- The removal fails, or the node asked is not the leader. -/
  | refuse (request : Nat)
  /-- Other nodes join, are promoted or leave. -/
  | others (m : Membership)
  /-- The node's Raft instance catches up. -/
  | learn

def leaderStep (config : ScalingConfig) (sys : Scaling) : LeaderEvent → Option Scaling
  | .serve i applied response => do
    let call ← sys.calls[i]?
    if call.response.isSome || (response.success && !applied) then none
    else
      let calls := sys.calls.set i { call with response := some response }
      match call.kind with
      | .addLearner =>
        return { sys with
          calls
          committed := if applied then sys.committed.addLearner config.nodeId else sys.committed }
      | .promote =>
        if applied && !sys.committed.isMember config.nodeId then none
        else return { sys with
          calls
          committed := if applied then sys.committed.promoteVoter config.nodeId else sys.committed }
  | .demote i retained =>
    if sys.removals[i]? = some .asked ∧ sys.committed.voters.contains config.nodeId = true then
      some { sys with
        removals := sys.removals.set i .demoted
        committed := sys.committed.removeVoter config.nodeId retained }
    else none
  | .remove i success =>
    if sys.removals[i]? = some .asked ∨ sys.removals[i]? = some .demoted then
      (sys.committed.removeNode config.nodeId).map fun committed =>
        { sys with committed, removals := sys.removals.set i (.done success) }
    else none
  | .refuse i =>
    if sys.removals[i]? = some .asked ∨ sys.removals[i]? = some .demoted then
      some { sys with removals := sys.removals.set i (.done false) }
    else none
  | .others m =>
    if m.voters.contains config.nodeId = sys.committed.voters.contains config.nodeId ∧
        m.learners.contains config.nodeId = sys.committed.learners.contains config.nodeId then
      some { sys with committed := m }
    else none
  | .learn => some { sys with view := sys.committed }

/-! ## The shutdown -/

inductive ShutdownEvent where
  /-- The next step that waits for nobody, or whose wait is over. -/
  | next
  | lead (isLeader : Bool)
  /-- The leader's own `remove_node` or `remove_voters`. -/
  | change (applied retained : Bool)
  /-- The removal is answered. -/
  | answered
  /-- The removal request fails. -/
  | error
  /-- A timeout. -/
  | giveUp

def shutdownStep (config : ScalingConfig) (sys : Scaling) : ShutdownEvent → Option Scaling
  | .next =>
    match sys.shutdown with
    | .running => some { sys with signalled := true, shutdown := .waiting }
    | .waiting => some { sys with shutdown := .draining }
    | .draining => if config.seedNodes.isEmpty then none else some { sys with shutdown := .leaving }
    | .leaving => some { sys with joined := true, shutdown := .checking }
    | .checking =>
      some { sys with
        shutdown := if sys.view.isMember config.nodeId then .deciding else .left false }
    | .transferring => some { sys with shutdown := .asking }
    | .asking =>
      some { sys with
        removals := sys.removals ++ [.asked]
        shutdown := .removing sys.removals.length }
    | _ => none
  | .lead isLeader =>
    match sys.shutdown with
    | .deciding =>
      if !isLeader then some { sys with shutdown := .asking }
      else if sys.view.voters.length ≤ 1 then some { sys with shutdown := .removingSelf }
      else some { sys with shutdown := .removingVoter }
    | _ => none
  | .change applied retained =>
    match sys.shutdown with
    | .removingSelf =>
      some { sys with
        committed := if applied then (sys.committed.removeNode config.nodeId).getD sys.committed
          else sys.committed
        shutdown := .left true }
    | .removingVoter =>
      if applied then
        some { sys with
          committed := sys.committed.removeVoter config.nodeId retained
          shutdown := .transferring }
      else some { sys with shutdown := .failed }
    | _ => none
  | .answered =>
    match sys.shutdown with
    | .removing i =>
      match sys.removals[i]? with
      | some (.done true) => some { sys with shutdown := .left true }
      | some (.done false) => some { sys with shutdown := .asking }
      | _ => none
    | _ => none
  | .error =>
    match sys.shutdown with
    | .removing _ => some { sys with shutdown := .asking }
    | _ => none
  | .giveUp =>
    match sys.shutdown with
    | .transferring => some { sys with shutdown := .failed }
    | .asking => some { sys with shutdown := .failed }
    | _ => none

inductive ScalingEvent where
  | worker (e : WorkerEvent)
  | leader (e : LeaderEvent)
  | shutdown (e : ShutdownEvent)

def Scaling.step (config : ScalingConfig) (sys : Scaling) : ScalingEvent → Option Scaling
  | .worker e => workerStep config sys e
  | .leader e => leaderStep config sys e
  | .shutdown e => shutdownStep config sys e

/-! ## Runs in which a leave is final -/

/-- After the signal and the flag, the worker sends no call to be added any more. -/
def WorkerStage.settled : WorkerStage → Bool
  | .polling => true
  | .loading => true
  | .looking wasJoined => wasJoined
  | .sleeping => true
  | .stopped => true
  | _ => false

/-- A call to be added that the leader may still serve. -/
def JoinCall.adds (call : JoinCall) : Bool := call.kind == .addLearner && call.response.isNone

/-- No join of the node is under way. -/
def Scaling.joinOver (sys : Scaling) : Bool :=
  sys.worker.settled && sys.calls.all fun call => !call.adds

/-- When the leave takes effect no join is under way, and it does take effect. -/
def Scaling.undisturbed (config : ScalingConfig) (sys : Scaling) : ScalingEvent → Bool
  | .leader (.remove _ success) => !success || sys.joinOver
  | .shutdown .next =>
    match sys.shutdown with
    | .checking => sys.view.isMember config.nodeId ||
        !sys.committed.isMember config.nodeId && sys.joinOver
    | _ => true
  | .shutdown (.change applied _) =>
    match sys.shutdown with
    | .removingSelf => applied && !sys.committed.voters.contains config.nodeId && sys.joinOver
    | _ => true
  | _ => true

/-- `CLUSTER_JOINED` has been set for the leave. -/
def ShutdownStage.marked : ShutdownStage → Bool
  | .running => false
  | .waiting => false
  | .draining => false
  | .leaving => false
  | _ => true

/-- The node is no member, and no join of it is under way. -/
structure Scaling.Out (config : ScalingConfig) (sys : Scaling) : Prop where
  member : sys.committed.isMember config.nodeId = false
  joinOver : sys.joinOver = true

/-! ## Steps -/

section Steps

variable {config : ScalingConfig} {sys sys' : Scaling}

/-- What the worker leaves alone. -/
structure Scaling.WorkerKeeps (sys sys' : Scaling) : Prop where
  committed : sys'.committed = sys.committed
  signalled : sys'.signalled = sys.signalled
  removals : sys'.removals = sys.removals
  shutdown : sys'.shutdown = sys.shutdown
  joined : sys.joined = true → sys'.joined = true

theorem workerStep_keeps {e : WorkerEvent} (step : workerStep config sys e = some sys') :
    sys.WorkerKeeps sys' := by
  unfold workerStep at step
  repeat' split at step
  all_goals first
    | cases step; exact ⟨rfl, rfl, rfl, rfl, fun joined => joined⟩
    | cases step; exact ⟨rfl, rfl, rfl, rfl, fun _ => rfl⟩
    | cases step

/-- Once it is settled, and has the signal and the flag to read, the worker stays so and makes no
call. -/
theorem workerStep_settled {e : WorkerEvent} (step : workerStep config sys e = some sys')
    (settled : sys.worker.settled = true) (signalled : sys.signalled = true)
    (joined : sys.joined = true) : sys'.worker.settled = true ∧ sys'.calls = sys.calls := by
  cases stage : sys.worker with
  | polling =>
    cases e with
    | next =>
      simp only [workerStep, stage, signalled, if_true] at step
      cases step
      exact ⟨rfl, rfl⟩
    | _ => simp [workerStep, stage] at step
  | loading =>
    cases e with
    | next =>
      simp only [workerStep, stage, joined] at step
      cases step
      exact ⟨rfl, rfl⟩
    | _ => simp [workerStep, stage] at step
  | looking wasJoined =>
    rw [stage] at settled
    obtain rfl : wasJoined = true := settled
    cases e with
    | next =>
      simp only [workerStep, stage, if_true] at step
      split at step
      · cases step
        exact ⟨rfl, rfl⟩
      · cases step
        exact ⟨rfl, rfl⟩
    | _ => simp [workerStep, stage] at step
  | sleeping =>
    cases e with
    | next =>
      simp only [workerStep, stage] at step
      cases step
      exact ⟨rfl, rfl⟩
    | interrupt =>
      simp only [workerStep, stage, signalled, if_true] at step
      cases step
      exact ⟨rfl, rfl⟩
    | _ => simp [workerStep, stage] at step
  | stopped => cases e <;> simp [workerStep, stage] at step
  | _ =>
    rw [stage] at settled
    cases settled

theorem Membership.isMember_eq_false {m : Membership} {id : Nat} :
    m.isMember id = false ↔ id ∉ m.voters ∧ id ∉ m.learners := by
  simp [Membership.isMember]

/-- A node that is no member is made one by `add_learner` only. -/
theorem Membership.removeVoter_of_not_member {m : Membership} {id : Nat} (out : m.isMember id = false)
    (retained : Bool) : m.removeVoter id retained = m := by
  rw [Membership.isMember_eq_false] at out
  simp [Membership.removeVoter, out.1]

theorem Membership.removeNode_not_member {m m' : Membership} {id : Nat}
    (removed : m.removeNode id = some m') : m'.isMember id = false := by
  unfold Membership.removeNode at removed
  split at removed
  · cases removed
  · rename_i learner
    cases removed
    rw [Membership.isMember_eq_false]
    exact ⟨by simpa using learner, by simp⟩

/-- The steps of the leader, with what each has found. -/
inductive LeaderSteps (config : ScalingConfig) (sys : Scaling) : LeaderEvent → Scaling → Prop where
  | add {i : Nat} {call : JoinCall} (applied : Bool) (response : MembershipResponse)
      (at_i : sys.calls[i]? = some call) (adds : call.adds = true) :
      LeaderSteps config sys (.serve i applied response)
        { sys with
          calls := sys.calls.set i { call with response := some response }
          committed := if applied then sys.committed.addLearner config.nodeId else sys.committed }
  | promote {i : Nat} {call : JoinCall} {applied : Bool} (response : MembershipResponse)
      (member : applied = true → sys.committed.isMember config.nodeId = true) :
      LeaderSteps config sys (.serve i applied response)
        { sys with
          calls := sys.calls.set i { call with response := some response }
          committed := if applied then sys.committed.promoteVoter config.nodeId else sys.committed }
  | demote {i : Nat} (retained : Bool) (voter : config.nodeId ∈ sys.committed.voters) :
      LeaderSteps config sys (.demote i retained)
        { sys with
          removals := sys.removals.set i .demoted
          committed := sys.committed.removeVoter config.nodeId retained }
  | remove {i : Nat} {m : Membership} (success : Bool)
      (removed : sys.committed.removeNode config.nodeId = some m) :
      LeaderSteps config sys (.remove i success)
        { sys with committed := m, removals := sys.removals.set i (.done success) }
  | refuse (i : Nat) :
      LeaderSteps config sys (.refuse i) { sys with removals := sys.removals.set i (.done false) }
  | others {m : Membership} (same : m.isMember config.nodeId = sys.committed.isMember config.nodeId) :
      LeaderSteps config sys (.others m) { sys with committed := m }
  | learn : LeaderSteps config sys .learn { sys with view := sys.committed }

theorem leaderStep_cases {e : LeaderEvent} (step : leaderStep config sys e = some sys') :
    LeaderSteps config sys e sys' := by
  cases e with
  | serve i applied response =>
    obtain ⟨call, at_i, step⟩ := Option.bind_eq_some_iff.1 step
    split at step
    · cases step
    · rename_i unanswered
      have waits : call.response = none := by
        simp only [Bool.or_eq_true, not_or] at unanswered
        simpa using unanswered.1
      split at step
      · rename_i add
        cases step
        exact .add applied response at_i (by simp [JoinCall.adds, add, waits])
      · split at step
        · cases step
        · rename_i possible
          cases step
          exact .promote response (by simpa using possible)
  | demote i retained =>
    simp only [leaderStep] at step
    split at step
    · rename_i asked
      cases step
      exact .demote retained (by simpa using asked.2)
    · cases step
  | remove i success =>
    simp only [leaderStep] at step
    split at step
    · obtain ⟨m, removed, rfl⟩ := Option.map_eq_some_iff.1 step
      exact .remove success removed
    · cases step
  | refuse i =>
    simp only [leaderStep] at step
    split at step
    · cases step
      exact .refuse i
    · cases step
  | others m =>
    simp only [leaderStep] at step
    split at step
    · rename_i same
      cases step
      exact .others (by rw [Membership.isMember, Membership.isMember, same.1, same.2])
    · cases step
  | learn =>
    cases step
    exact .learn

/-- What the leader leaves alone. -/
structure Scaling.LeaderKeeps (sys sys' : Scaling) : Prop where
  joined : sys'.joined = sys.joined
  signalled : sys'.signalled = sys.signalled
  shutdown : sys'.shutdown = sys.shutdown
  removals : sys.removals = [] → sys'.removals = []

theorem leaderStep_keeps {e : LeaderEvent} (step : leaderStep config sys e = some sys') :
    sys.LeaderKeeps sys' := by
  cases leaderStep_cases step with
  | add | promote | others | learn => exact ⟨rfl, rfl, rfl, id⟩
  | demote | remove | refuse => exact ⟨rfl, rfl, rfl, (List.set_eq_nil_iff _ _).2⟩

/-- A call that is served is not one to be added any more. -/
theorem calls_served {calls : List JoinCall} {i : Nat} {call : JoinCall} {response : MembershipResponse}
    (none_adds : calls.all (fun c => !c.adds) = true) :
    (calls.set i { call with response := some response }).all (fun c => !c.adds) = true := by
  rw [List.all_eq_true] at none_adds ⊢
  intro c member
  rcases List.mem_or_eq_of_mem_set member with old | rfl
  · exact none_adds c old
  · simp [JoinCall.adds]

/-- A node that is out, with no call to be added on its way, is not let in. -/
theorem Scaling.Out.leader {e : LeaderEvent} (out : sys.Out config)
    (step : leaderStep config sys e = some sys') : sys'.Out config := by
  have quiet := out.joinOver
  unfold Scaling.joinOver at quiet
  rw [Bool.and_eq_true] at quiet
  cases leaderStep_cases step with
  | add applied response at_i adds =>
    have never := List.all_eq_true.1 quiet.2 _ (List.mem_of_getElem? at_i)
    simp [adds] at never
  | promote response member =>
    rename_i i call applied
    have unapplied : applied = false := by
      simpa [out.member] using member
    subst unapplied
    refine ⟨out.member, ?_⟩
    show (_ && _) = true
    rw [quiet.1, calls_served quiet.2]
    rfl
  | demote retained voter => exact absurd voter (Membership.isMember_eq_false.1 out.member).1
  | remove success removed => exact ⟨Membership.removeNode_not_member removed, out.joinOver⟩
  | refuse i => exact ⟨out.member, out.joinOver⟩
  | others same => exact ⟨same.trans out.member, out.joinOver⟩
  | learn => exact ⟨out.member, out.joinOver⟩

/-- The steps of the shutdown, with what each has found. -/
inductive ShutdownSteps (config : ScalingConfig) (sys : Scaling) : ShutdownEvent → Scaling → Prop where
  | signal (at_stage : sys.shutdown = .running) :
      ShutdownSteps config sys .next { sys with signalled := true, shutdown := .waiting }
  | waited (at_stage : sys.shutdown = .waiting) :
      ShutdownSteps config sys .next { sys with shutdown := .draining }
  | drained (at_stage : sys.shutdown = .draining) :
      ShutdownSteps config sys .next { sys with shutdown := .leaving }
  | mark (at_stage : sys.shutdown = .leaving) :
      ShutdownSteps config sys .next { sys with joined := true, shutdown := .checking }
  | member (at_stage : sys.shutdown = .checking) :
      ShutdownSteps config sys .next { sys with shutdown := .deciding }
  | absent (at_stage : sys.shutdown = .checking) (absent : sys.view.isMember config.nodeId = false) :
      ShutdownSteps config sys .next { sys with shutdown := .left false }
  | ask (at_stage : sys.shutdown = .asking) :
      ShutdownSteps config sys .next
        { sys with removals := sys.removals ++ [.asked], shutdown := .removing sys.removals.length }
  | removeSelf (applied retained : Bool) (at_stage : sys.shutdown = .removingSelf) :
      ShutdownSteps config sys (.change applied retained)
        { sys with
          committed := if applied then (sys.committed.removeNode config.nodeId).getD sys.committed
            else sys.committed
          shutdown := .left true }
  | removeVoter (retained : Bool) (at_stage : sys.shutdown = .removingVoter) :
      ShutdownSteps config sys (.change true retained)
        { sys with
          committed := sys.committed.removeVoter config.nodeId retained
          shutdown := .transferring }
  | removed {i : Nat} (at_stage : sys.shutdown = .removing i)
      (success : sys.removals[i]? = some (.done true)) :
      ShutdownSteps config sys .answered { sys with shutdown := .left true }
  /-- Between two stages of a leave that is not over. -/
  | proceed {e : ShutdownEvent} {stage : ShutdownStage} (before : sys.shutdown.marked = true)
      (after : stage.marked = true) (unfinished : ∀ removed, stage ≠ .left removed) :
      ShutdownSteps config sys e { sys with shutdown := stage }

theorem shutdownStep_cases {e : ShutdownEvent} (step : shutdownStep config sys e = some sys') :
    ShutdownSteps config sys e sys' := by
  cases e with
  | next =>
    cases stage : sys.shutdown with
    | running =>
      simp only [shutdownStep, stage] at step
      cases step
      exact .signal stage
    | waiting =>
      simp only [shutdownStep, stage] at step
      cases step
      exact .waited stage
    | draining =>
      simp only [shutdownStep, stage] at step
      split at step
      · cases step
      · cases step
        exact .drained stage
    | leaving =>
      simp only [shutdownStep, stage] at step
      cases step
      exact .mark stage
    | checking =>
      simp only [shutdownStep, stage] at step
      cases member : sys.view.isMember config.nodeId with
      | true =>
        simp only [member, if_true] at step
        cases step
        exact .member stage
      | false =>
        simp only [member, Bool.false_eq_true, if_false] at step
        cases step
        exact .absent stage member
    | transferring =>
      simp only [shutdownStep, stage] at step
      cases step
      exact .proceed (by rw [stage]; rfl) rfl (by simp)
    | asking =>
      simp only [shutdownStep, stage] at step
      cases step
      exact .ask stage
    | _ => simp [shutdownStep, stage] at step
  | lead isLeader =>
    simp only [shutdownStep] at step
    split at step
    · rename_i stage
      have before : sys.shutdown.marked = true := by rw [stage]; rfl
      split at step
      · cases step
        exact .proceed before rfl (by simp)
      · split at step
        · cases step
          exact .proceed before rfl (by simp)
        · cases step
          exact .proceed before rfl (by simp)
    · cases step
  | change applied retained =>
    simp only [shutdownStep] at step
    split at step
    · rename_i stage
      cases step
      exact .removeSelf applied retained stage
    · rename_i stage
      cases applied with
      | true =>
        cases step
        exact .removeVoter retained stage
      | false =>
        cases step
        exact .proceed (by rw [stage]; rfl) rfl (by simp)
    · cases step
  | answered =>
    simp only [shutdownStep] at step
    split at step
    · rename_i i stage
      split at step
      · rename_i success
        cases step
        exact .removed stage success
      · cases step
        exact .proceed (by rw [stage]; rfl) rfl (by simp)
      · cases step
    · cases step
  | error =>
    simp only [shutdownStep] at step
    split at step
    · rename_i i stage
      cases step
      exact .proceed (by rw [stage]; rfl) rfl (by simp)
    · cases step
  | giveUp =>
    simp only [shutdownStep] at step
    split at step
    · rename_i stage
      cases step
      exact .proceed (by rw [stage]; rfl) rfl (by simp)
    · rename_i stage
      cases step
      exact .proceed (by rw [stage]; rfl) rfl (by simp)
    · cases step

end Steps

/-! ## The invariant -/

structure Scaling.Inv (config : ScalingConfig) (sys : Scaling) : Prop where
  signalled : sys.shutdown ≠ .running → sys.signalled = true
  joined : sys.shutdown.marked = true → sys.joined = true
  removals : sys.removals ≠ [] → sys.shutdown.marked = true
  out : (∃ removed, sys.shutdown = .left removed) ∨ .done true ∈ sys.removals → sys.Out config

section Invariant

variable {config : ScalingConfig} {sys sys' : Scaling}

theorem ShutdownStage.ne_running {stage : ShutdownStage} (marked : stage.marked = true) :
    stage ≠ .running := by
  rintro rfl
  cases marked

/-- A leave that is over, or a removal that is done, comes after the signal and the flag. -/
theorem Scaling.Inv.marked (inv : sys.Inv config)
    (ended : (∃ removed, sys.shutdown = .left removed) ∨ .done true ∈ sys.removals) :
    sys.shutdown.marked = true := by
  rcases ended with ⟨removed, left⟩ | done
  · rw [left]
    rfl
  · exact inv.removals (List.ne_nil_of_mem done)

theorem Scaling.Inv.worker {e : WorkerEvent} (inv : sys.Inv config)
    (step : workerStep config sys e = some sys') : sys'.Inv config := by
  have keeps := workerStep_keeps step
  refine ⟨fun later => ?_, fun marked => ?_, fun some => ?_, fun ended => ?_⟩
  · rw [keeps.signalled]
    exact inv.signalled (keeps.shutdown ▸ later)
  · exact keeps.joined (inv.joined (keeps.shutdown ▸ marked))
  · rw [keeps.shutdown]
    exact inv.removals (keeps.removals ▸ some)
  · rw [keeps.shutdown, keeps.removals] at ended
    have marked := inv.marked ended
    have out := inv.out ended
    have settled := out.joinOver
    unfold Scaling.joinOver at settled
    rw [Bool.and_eq_true] at settled
    obtain ⟨later, calls⟩ := workerStep_settled step settled.1
      (inv.signalled (ShutdownStage.ne_running marked)) (inv.joined marked)
    refine ⟨by rw [keeps.committed]; exact out.member, ?_⟩
    unfold Scaling.joinOver
    rw [later, calls, settled.2]
    rfl

theorem Scaling.Inv.leader {e : LeaderEvent} (inv : sys.Inv config)
    (undisturbed : sys.undisturbed config (.leader e) = true)
    (step : leaderStep config sys e = some sys') : sys'.Inv config := by
  have keeps := leaderStep_keeps step
  refine ⟨fun later => ?_, fun marked => ?_, fun some => ?_, fun ended => ?_⟩
  · rw [keeps.signalled]
    exact inv.signalled (keeps.shutdown ▸ later)
  · rw [keeps.joined]
    exact inv.joined (keeps.shutdown ▸ marked)
  · rw [keeps.shutdown]
    exact inv.removals fun none => some (keeps.removals none)
  · rw [keeps.shutdown] at ended
    by_cases before : (∃ removed, sys.shutdown = .left removed) ∨ .done true ∈ sys.removals
    · exact (inv.out before).leader step
    · -- the removal that is done by this step
      have done := ended.resolve_left fun left => before (.inl left)
      have new : .done true ∉ sys.removals := fun old => before (.inr old)
      cases leaderStep_cases step with
      | add | promote | others | learn => exact absurd done new
      | demote | refuse =>
        rcases List.mem_or_eq_of_mem_set done with old | same
        · exact absurd old new
        · cases same
      | remove success removed =>
        rcases List.mem_or_eq_of_mem_set done with old | same
        · exact absurd old new
        · obtain rfl : true = success := by simpa using same
          have joinOver : sys.joinOver = true := by simpa [Scaling.undisturbed] using undisturbed
          exact ⟨Membership.removeNode_not_member removed, joinOver⟩

/-- Before the leave is marked nothing has been asked of the leader. -/
theorem Scaling.Inv.removals_eq_nil (inv : sys.Inv config) (unmarked : sys.shutdown.marked = false) :
    sys.removals = [] := by
  by_contra asked
  have marked := inv.removals asked
  rw [unmarked] at marked
  cases marked

theorem Scaling.Inv.of_unmarked (signalled : sys.signalled = true) (removals : sys.removals = [])
    (unmarked : sys.shutdown.marked = false) : sys.Inv config := by
  refine ⟨fun _ => signalled, fun marked => ?_, fun asked => absurd removals asked, ?_⟩
  · rw [unmarked] at marked
    cases marked
  · rintro (⟨removed, left⟩ | done)
    · rw [left] at unmarked
      cases unmarked
    · rw [removals] at done
      cases done

/-- A step of a leave that is marked may change the membership and send requests; what makes it final
is shown for the state after it. -/
theorem Scaling.Inv.of_marked (inv : sys.Inv config) (before : sys.shutdown.marked = true)
    (signalled : sys'.signalled = sys.signalled) (joined : sys'.joined = sys.joined)
    (after : sys'.shutdown.marked = true)
    (out : (∃ removed, sys'.shutdown = .left removed) ∨ .done true ∈ sys'.removals → sys'.Out config) :
    sys'.Inv config := by
  refine ⟨fun _ => ?_, fun _ => ?_, fun _ => after, out⟩
  · rw [signalled]
    exact inv.signalled (ShutdownStage.ne_running before)
  · rw [joined]
    exact inv.joined before

/-- A stage after which the leave is not over, or with the node out. -/
theorem Scaling.Inv.setStage {stage : ShutdownStage} (inv : sys.Inv config)
    (before : sys.shutdown.marked = true) (after : stage.marked = true)
    (final : (∃ removed, stage = .left removed) → sys.Out config) :
    Scaling.Inv config { sys with shutdown := stage } := by
  refine inv.of_marked before rfl rfl after fun ended => ?_
  have out : sys.Out config := by
    rcases ended with left | done
    · exact final left
    · exact inv.out (.inr done)
  exact ⟨out.member, out.joinOver⟩

theorem Scaling.Inv.shutdown {e : ShutdownEvent} (inv : sys.Inv config)
    (undisturbed : sys.undisturbed config (.shutdown e) = true)
    (step : shutdownStep config sys e = some sys') : sys'.Inv config := by
  cases shutdownStep_cases step with
  | signal at_stage =>
    exact .of_unmarked rfl (inv.removals_eq_nil (by rw [at_stage]; rfl)) rfl
  | waited at_stage =>
    exact .of_unmarked (inv.signalled (by simp [at_stage]))
      (inv.removals_eq_nil (by rw [at_stage]; rfl)) rfl
  | drained at_stage =>
    exact .of_unmarked (inv.signalled (by simp [at_stage]))
      (inv.removals_eq_nil (by rw [at_stage]; rfl)) rfl
  | mark at_stage =>
    have none := inv.removals_eq_nil (by rw [at_stage]; rfl)
    refine ⟨fun _ => inv.signalled (by simp [at_stage]), fun _ => rfl, fun _ => rfl, ?_⟩
    rintro (⟨removed, never⟩ | done)
    · cases never
    · rw [none] at done
      cases done
  | member at_stage =>
    refine inv.setStage (by rw [at_stage]; rfl) rfl ?_
    rintro ⟨removed, never⟩
    cases never
  | absent at_stage absent =>
    have final : sys.committed.isMember config.nodeId = false ∧ sys.joinOver = true := by
      simpa [Scaling.undisturbed, at_stage, absent] using undisturbed
    exact inv.setStage (by rw [at_stage]; rfl) rfl fun _ => ⟨final.1, final.2⟩
  | ask at_stage =>
    refine inv.of_marked (by rw [at_stage]; rfl) rfl rfl rfl ?_
    rintro (⟨removed, never⟩ | done)
    · cases never
    · have out := inv.out (.inr (by simpa using done))
      exact ⟨out.member, out.joinOver⟩
  | removeSelf applied retained at_stage =>
    have final : (applied = true ∧ config.nodeId ∉ sys.committed.voters) ∧ sys.joinOver = true := by
      simpa [Scaling.undisturbed, at_stage] using undisturbed
    obtain ⟨⟨rfl, learner⟩, quiet⟩ := final
    refine inv.of_marked (by rw [at_stage]; rfl) rfl rfl rfl fun _ => ⟨?_, quiet⟩
    show ((sys.committed.removeNode config.nodeId).getD sys.committed).isMember config.nodeId = false
    cases removed : sys.committed.removeNode config.nodeId with
    | none => simp [Membership.removeNode, learner] at removed
    | some m => exact Membership.removeNode_not_member removed
  | removeVoter retained at_stage =>
    refine inv.of_marked (by rw [at_stage]; rfl) rfl rfl rfl ?_
    rintro (⟨removed, never⟩ | done)
    · cases never
    · have out := inv.out (.inr done)
      refine ⟨?_, out.joinOver⟩
      show (sys.committed.removeVoter config.nodeId retained).isMember config.nodeId = false
      rw [Membership.removeVoter_of_not_member out.member]
      exact out.member
  | removed at_stage success =>
    exact inv.setStage (by rw [at_stage]; rfl) rfl fun _ =>
      inv.out (.inr (List.mem_of_getElem? success))
  | proceed before after unfinished =>
    refine inv.setStage before after ?_
    rintro ⟨removed, left⟩
    exact absurd left (unfinished removed)

end Invariant

/-- **Leaving.** When every removal that succeeds, and every finding that there is nothing to leave,
is made while no join of the node is under way, the finding is right and the removal of a single
voter takes effect, a node whose `graceful_leave` has returned `Ok` is out of the membership. -/
theorem left_stays_out (config : ScalingConfig) {committed view : Membership}
    {events : List ScalingEvent} {sys : Scaling}
    (undisturbed : Along (Scaling.step config) (fun sys e => sys.undisturbed config e = true)
      (Scaling.start config committed view) events)
    (ran : exec (Scaling.step config) (Scaling.start config committed view) events = some sys)
    {removed : Bool} (left : sys.shutdown = .left removed) :
    sys.committed.isMember config.nodeId = false := by
  have start : (Scaling.start config committed view).Inv config := by
    refine ⟨by simp [Scaling.start], (fun never => by cases never), by simp [Scaling.start], ?_⟩
    simp [Scaling.start]
  have inv : sys.Inv config := by
    refine exec_invariant (fun sys e sys' inv quiet step => ?_) start undisturbed ran
    cases e with
    | worker e => exact Scaling.Inv.worker inv step
    | leader e => exact Scaling.Inv.leader inv quiet step
    | shutdown e => exact Scaling.Inv.shutdown inv quiet step
  exact (inv.out (.inl ⟨removed, left⟩)).member

/-! ## A node that leaves after it has joined, and one that leaves meanwhile -/

def joiningConfig : ScalingConfig := ⟨3, ["1:a:7000:9000:8000"], 0⟩

def joiningStart : Scaling := .start joiningConfig ⟨[1], []⟩ ⟨[], []⟩

/-- The worker up to its call to be added as a learner; the seed node says that it leads. -/
def joiningCall : List ScalingEvent :=
  List.replicate 4 (.worker .next) ++ [.worker (.find fun _ => some (some 1))]

/-- The shutdown up to the look of `graceful_leave` at the membership. -/
def leavingLook : List ScalingEvent := List.replicate 5 (.shutdown .next)

/-- The node joins, is promoted, learns of it and leaves. -/
def joinedAndLeft : List ScalingEvent :=
  joiningCall ++
    [.leader (.serve 0 true ⟨true, "Node 3 added as learner"⟩), .worker .answered, .worker .next,
      .leader (.serve 1 true ⟨true, "Nodes [3] promoted to voters"⟩), .worker .answered,
      .leader .learn] ++
    leavingLook ++
    [.shutdown (.lead false), .shutdown .next, .leader (.demote 0 true), .leader (.remove 0 true),
      .shutdown .answered]

theorem left_stays_out_sample :
    ∃ sys, exec (Scaling.step joiningConfig) joiningStart joinedAndLeft = some sys ∧
      sys.shutdown = .left true ∧ sys.calls.length = 2 ∧ sys.committed.isMember 3 = false := by
  have seen : (exec (Scaling.step joiningConfig) joiningStart joinedAndLeft).map
      (fun sys => (sys.shutdown, sys.calls.length)) = some (.left true, 2) := by
    decide +kernel
  obtain ⟨sys, ran, observed⟩ := Option.map_eq_some_iff.1 seen
  simp only [Prod.mk.injEq] at observed
  have undisturbed : Along (Scaling.step joiningConfig)
      (fun sys e => sys.undisturbed joiningConfig e = true) joiningStart joinedAndLeft := by
    decide +kernel
  exact ⟨sys, ran, observed.1, observed.2, left_stays_out joiningConfig undisturbed ran observed.1⟩

/-- The worker is not stopped by the end of the wait: the call that it has sent adds the node after
`graceful_leave` has found nothing to leave. -/
theorem left_node_added_again :
    ¬ ∀ (config : ScalingConfig) (committed view : Membership) (events : List ScalingEvent)
      (sys : Scaling) (removed : Bool),
      exec (Scaling.step config) (.start config committed view) events = some sys →
      sys.shutdown = .left removed → sys.committed.isMember config.nodeId = false := by
  intro claim
  have seen : (exec (Scaling.step joiningConfig) joiningStart
      (joiningCall ++ leavingLook ++ [.leader (.serve 0 true ⟨true, "Node 3 added as learner"⟩)])).map
        (fun sys => (sys.shutdown, sys.committed.isMember 3)) = some (.left false, true) := by
    decide +kernel
  obtain ⟨sys, ran, observed⟩ := Option.map_eq_some_iff.1 seen
  simp only [Prod.mk.injEq] at observed
  have out := claim joiningConfig _ _ _ sys false ran observed.1
  have member : sys.committed.isMember joiningConfig.nodeId = true := observed.2
  rw [member] at out
  cases out

end Save.Api
