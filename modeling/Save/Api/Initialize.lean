import Save.Metadata.StateMachine
import Save.Api.Scaling
import Mathlib.Data.List.Dedup

/-!
# Bootstrapping a cluster

`cluster_initialize` (`handlers/cluster/initialize.rs`) makes the node a cluster of
its own, waits for a leader, adds the other members as learners and promotes them.
Its guard asks for voters, and its own first step makes one, so that a call that
fails behind that step is answered 409 for good. A call can be retried exactly when
it does not (`initialize_retryable_iff`).

What one call meets in the Raft instance is a parameter.
-/

namespace Save.Api
set_option autoImplicit false
open Save.Text Save.Common Save.Metadata

/-! ## The Raft instance -/

/-- The answers of the Raft instance to one call of the handler, and what they leave of the membership. -/
structure RaftCalls where
  initializeAnswer : Except String Unit
  afterInitialize : Membership → List (Nat × SaveNode) → Membership
  /-- `current_leader`, by the end of the wait. -/
  leader : Option Nat
  /-- Of the calls to `add_learner` in their order. -/
  learnerAnswer : Nat → Except String Unit
  afterLearner : Nat → Membership → Nat → SaveNode → Membership
  votersAnswer : Except String Unit
  /-- `change_membership` with `AddVoterIds`. -/
  afterVoterIds : Membership → List Nat → Membership

/-- What openraft documents: a pristine node is initialised with the given nodes, a learner does not
vote, and voters are added to those there are. Nothing is said about a failed initialisation. -/
structure RaftCalls.Documented (raft : RaftCalls) : Prop where
  initialized : raft.initializeAnswer = .ok () → ∀ m nodes, m.voters = [] →
    ∀ id, id ∈ (raft.afterInitialize m nodes).voters ↔ id ∈ nodes.map Prod.fst
  learner : ∀ i m id node, (raft.afterLearner i m id node).voters = m.voters
  promoted : raft.votersAnswer = .ok () → ∀ m ids id,
    id ∈ (raft.afterVoterIds m ids).voters ↔ id ∈ m.voters ∨ id ∈ ids
  kept : ∀ m ids, ∀ id ∈ m.voters, id ∈ (raft.afterVoterIds m ids).voters

/-- Nothing fails that a call which lists these others needs. -/
structure RaftCalls.Answers (raft : RaftCalls) (others : List PeerInfo) : Prop where
  initialized : raft.initializeAnswer = .ok ()
  leads : raft.leader.isSome = true
  learner : ∀ i < others.length, raft.learnerAnswer i = .ok ()
  promoted : others ≠ [] → raft.votersAnswer = .ok ()

/-! ## `RaftNode` -/

/-- The errors of these calls. -/
inductive RaftNodeError where
  | raft (msg : String)
  | alreadyInitialized
  deriving DecidableEq, Repr

def RaftNodeError.toString : RaftNodeError → String
  | .raft msg => "Raft error: " ++ msg
  | .alreadyInitialized => "Cluster already initialized"

def peerNode (p : PeerInfo) : SaveNode where
  raftAddr := "http://" ++ p.host ++ ":" ++ toString p.raftPort
  httpAddr := p.httpAddr
  replicationAddr := "http://" ++ p.host ++ ":" ++ toString p.replicationPort

def isInitialized (m : Membership) : Bool := !m.voters.isEmpty

def initializeNode (raft : RaftCalls) (m : Membership) (members : List PeerInfo) :
    Membership × Except RaftNodeError Unit :=
  if isInitialized m then (m, .error .alreadyInitialized)
  else
    (raft.afterInitialize m (members.map fun peer => (peer.nodeId, peerNode peer)),
      raft.initializeAnswer.mapError fun msg =>
        if containsStr msg "not allowed to initialize" then .alreadyInitialized else .raft msg)

def waitForLeader (raft : RaftCalls) : Except RaftNodeError Nat :=
  match raft.leader with
  | some leader => .ok leader
  | none => .error (.raft "timeout waiting for leader")

/-- The `i`-th call to `add_learner`. -/
def addLearner (raft : RaftCalls) (i : Nat) (m : Membership) (peer : PeerInfo) :
    Membership × Except RaftNodeError Unit :=
  (raft.afterLearner i m peer.nodeId (peerNode peer), (raft.learnerAnswer i).mapError .raft)

/-- The ids go into a set, which keeps one of each. -/
def promoteVoters (raft : RaftCalls) (m : Membership) (nodeIds : List Nat) :
    Membership × Except RaftNodeError Unit :=
  (raft.afterVoterIds m nodeIds.dedup, raft.votersAnswer.mapError .raft)

/-! ## The handler -/

structure InitializeResponse where
  success : Bool
  message : String
  deriving DecidableEq, Repr

/-- The loop over the other members, from the `i`-th on; the failure is the message of the answer. -/
def addLearners (raft : RaftCalls) (i : Nat) (m : Membership) :
    List PeerInfo → Membership × Except String Unit
  | [] => (m, .ok ())
  | peer :: peers =>
    match addLearner raft i m peer with
    | (m, .error e) =>
      (m, .error ("Failed to add learner " ++ toString peer.nodeId ++ ": " ++ e.toString))
    | (m, .ok _) => addLearners raft (i + 1) m peers

/-- Step 3. -/
def addOthers (raft : RaftCalls) (m : Membership) (otherMembers : List PeerInfo) :
    Membership × Except String Unit :=
  if otherMembers.isEmpty then (m, .ok ())
  else
    match addLearners raft 0 m otherMembers with
    | (m, .error msg) => (m, .error msg)
    | (m, .ok _) =>
      match promoteVoters raft m (otherMembers.map PeerInfo.nodeId) with
      | (m, .error e) => (m, .error ("Failed to promote voters: " ++ e.toString))
      | (m, .ok _) => (m, .ok ())

/-- The membership that is left, the status and the response. -/
def clusterInitialize (raft : RaftCalls) (myNodeId : Nat) (m : Membership) (members : List String) :
    Membership × Nat × InitializeResponse :=
  if isInitialized m then (m, 409, ⟨false, "Cluster already initialized"⟩)
  else
    match parsePeers members with
    | .error e => (m, 400, ⟨false, e.toString⟩)
    | .ok peers =>
      match peers.find? (·.nodeId == myNodeId) with
      | none => (m, 400,
        ⟨false, "This node (id=" ++ toString myNodeId ++ ") must be included in members list"⟩)
      | some myPeer =>
        match initializeNode raft m [myPeer] with
        | (m, .error e) => (m, 500, ⟨false, "Failed to initialize: " ++ e.toString⟩)
        | (m, .ok _) =>
          match waitForLeader raft with
          | .error e => (m, 500, ⟨false, "Failed to become leader: " ++ e.toString⟩)
          | .ok _ =>
            match addOthers raft m (peers.filter (·.nodeId != myNodeId)) with
            | (m, .error msg) => (m, 500, ⟨false, msg⟩)
            | (m, .ok _) => (m, 200, ⟨true, "Cluster initialized"⟩)

/-! ## Retrying -/

/-- The member list names this node. -/
def ListsMember (members : List String) (id : Nat) : Prop :=
  ∃ peers, parsePeers members = .ok peers ∧ id ∈ peers.map PeerInfo.nodeId

/-- A failed call leaves the node uninitialised, or a later one with the same list, which meets no
failure, makes voters of all members; a successful one leaves exactly these as voters. -/
structure Retryable (raft : RaftCalls) (myNodeId : Nat) (m : Membership) (members : List String) :
    Prop where
  failed : (clusterInitialize raft myNodeId m members).2.2.success = false →
    (clusterInitialize raft myNodeId m members).1.voters = [] ∨
      ∀ later : RaftCalls, later.Documented → (∀ others, later.Answers others) →
        let retried := clusterInitialize later myNodeId
          (clusterInitialize raft myNodeId m members).1 members
        retried.2.2.success = true ∧ ∀ id, ListsMember members id → id ∈ retried.1.voters
  succeeded : (clusterInitialize raft myNodeId m members).2.2.success = true →
    ∀ id, id ∈ (clusterInitialize raft myNodeId m members).1.voters ↔ ListsMember members id

/-- Where the single-node initialisation takes effect, it and all calls behind it are answered. -/
def Uncut (raft : RaftCalls) (myNodeId : Nat) (m : Membership) (members : List String) : Prop :=
  ∀ peers myPeer, parsePeers members = .ok peers →
    peers.find? (·.nodeId == myNodeId) = some myPeer →
    (raft.afterInitialize m [(myPeer.nodeId, peerNode myPeer)]).voters ≠ [] →
    raft.Answers (peers.filter (·.nodeId != myNodeId))

section

variable {raft : RaftCalls} {m : Membership}

/-! ### The other members -/

theorem addLearners_voters (documented : raft.Documented) (peers : List PeerInfo) (i : Nat) :
    (addLearners raft i m peers).1.voters = m.voters := by
  induction peers generalizing i m with
  | nil => rfl
  | cons peer peers ih =>
    have same := documented.learner i m peer.nodeId (peerNode peer)
    cases answer : raft.learnerAnswer i with
    | error msg => simp only [addLearners, addLearner, answer, Except.mapError, same]
    | ok _ => simp only [addLearners, addLearner, answer, Except.mapError, ih, same]

theorem addLearners_ok (peers : List PeerInfo) (i : Nat) :
    (addLearners raft i m peers).2 = .ok () ↔
      ∀ j < peers.length, raft.learnerAnswer (i + j) = .ok () := by
  induction peers generalizing i m with
  | nil => simp [addLearners]
  | cons peer peers ih =>
    cases answer : raft.learnerAnswer i with
    | error msg =>
      simp only [addLearners, addLearner, answer, Except.mapError, reduceCtorEq, false_iff]
      intro all
      have here := all 0 (Nat.zero_lt_succ _)
      rw [Nat.add_zero, answer] at here
      cases here
    | ok _ =>
      simp only [addLearners, addLearner, answer, Except.mapError, ih]
      constructor
      · intro later j inside
        cases j with
        | zero => exact answer
        | succ j =>
          have next := later j (Nat.lt_of_succ_lt_succ inside)
          rwa [Nat.add_assoc, Nat.add_comm 1] at next
      · intro all j inside
        have next := all (j + 1) (Nat.succ_lt_succ inside)
        rwa [Nat.add_comm j, ← Nat.add_assoc] at next

/-- The others are all voters, or a call for them has failed and the voters there were are still there. -/
theorem addOthers_cases (documented : raft.Documented) (others : List PeerInfo) :
    ∃ m', (addOthers raft m others = (m', .ok ()) ∧
        (∀ i < others.length, raft.learnerAnswer i = .ok ()) ∧
        (others ≠ [] → raft.votersAnswer = .ok ()) ∧
        ∀ id, id ∈ m'.voters ↔ id ∈ m.voters ∨ id ∈ others.map PeerInfo.nodeId) ∨
      ∃ msg, addOthers raft m others = (m', .error msg) ∧
        (∀ id ∈ m.voters, id ∈ m'.voters) ∧
        ¬ ((∀ i < others.length, raft.learnerAnswer i = .ok ()) ∧
          (others ≠ [] → raft.votersAnswer = .ok ())) := by
  cases others with
  | nil => exact ⟨m, .inl ⟨rfl, by simp, by simp, by simp⟩⟩
  | cons peer peers =>
    have same := addLearners_voters (m := m) documented (peer :: peers) 0
    have answered : (addLearners raft 0 m (peer :: peers)).2 = .ok () ↔ _ :=
      addLearners_ok (peer :: peers) 0
    simp only [Nat.zero_add] at answered
    rw [addOthers, if_neg (by simp)]
    generalize addLearners raft 0 m (peer :: peers) = joined at same answered
    obtain ⟨m₁, _ | _⟩ := joined
    · exact ⟨m₁, .inr ⟨_, rfl, fun id voter => same ▸ voter, fun all => by
        cases answered.2 all.1⟩⟩
    · have learners := answered.1 rfl
      simp only [promoteVoters]
      cases promoted : raft.votersAnswer with
      | error msg =>
        refine ⟨_, .inr ⟨_, rfl, fun id voter => ?_, fun all => ?_⟩⟩
        · exact documented.kept _ _ _ (same ▸ voter)
        · cases all.2 (List.cons_ne_nil _ _)
      | ok _ =>
        refine ⟨_, .inl ⟨rfl, learners, fun _ => rfl, fun id => ?_⟩⟩
        rw [documented.promoted promoted, List.mem_dedup, same]

/-! ### One call -/

/-- The members are this node and the others. -/
theorem mem_members {peers : List PeerInfo} {myNodeId : Nat} {myPeer : PeerInfo}
    (found : peers.find? (·.nodeId == myNodeId) = some myPeer) (id : Nat) :
    id ∈ peers.map PeerInfo.nodeId ↔ id = myPeer.nodeId ∨
      id ∈ (peers.filter (·.nodeId != myNodeId)).map PeerInfo.nodeId := by
  have mine : myPeer.nodeId = myNodeId := by simpa using List.find?_some found
  have listed := List.mem_of_find?_eq_some found
  simp only [List.mem_map, List.mem_filter, bne_iff_ne]
  constructor
  · rintro ⟨peer, member, rfl⟩
    by_cases own : peer.nodeId = myNodeId
    · exact .inl (own.trans mine.symm)
    · exact .inr ⟨peer, ⟨member, own⟩, rfl⟩
  · rintro (rfl | ⟨peer, ⟨member, -⟩, rfl⟩)
    · exact ⟨myPeer, listed, rfl⟩
    · exact ⟨peer, member, rfl⟩

theorem clusterInitialize_of_voters {myNodeId : Nat} {members : List String} (voters : m.voters ≠ []) :
    clusterInitialize raft myNodeId m members = (m, 409, ⟨false, "Cluster already initialized"⟩) := by
  apply if_pos
  simpa [isInitialized] using voters

section

variable {myNodeId : Nat} {members : List String} (pristine : m.voters = [])
include pristine

/-- A list that is refused changes nothing. -/
theorem clusterInitialize_refused
    (refused : ∀ peers myPeer, parsePeers members = .ok peers →
      peers.find? (·.nodeId == myNodeId) ≠ some myPeer) :
    (clusterInitialize raft myNodeId m members).1 = m ∧
      (clusterInitialize raft myNodeId m members).2.2.success = false := by
  rw [clusterInitialize, if_neg (by simp [isInitialized, pristine])]
  cases parsed : parsePeers members with
  | error e => exact ⟨rfl, rfl⟩
  | ok peers =>
    cases found : peers.find? (·.nodeId == myNodeId) with
    | none => simp only [found, and_self]
    | some myPeer => exact absurd found (refused peers myPeer parsed)

/-- Otherwise all calls are answered and the listed nodes vote, or one is not and the call fails, with
voters when the first step has made one. -/
theorem clusterInitialize_cases (documented : raft.Documented) {peers : List PeerInfo}
    {myPeer : PeerInfo} (parsed : parsePeers members = .ok peers)
    (found : peers.find? (·.nodeId == myNodeId) = some myPeer) :
    (raft.Answers (peers.filter (·.nodeId != myNodeId)) ∧
        (clusterInitialize raft myNodeId m members).2.2.success = true ∧
        ∀ id, id ∈ (clusterInitialize raft myNodeId m members).1.voters ↔
          id ∈ peers.map PeerInfo.nodeId) ∨
      (¬ raft.Answers (peers.filter (·.nodeId != myNodeId)) ∧
        (clusterInitialize raft myNodeId m members).2.2.success = false ∧
        ((clusterInitialize raft myNodeId m members).1.voters = [] ↔
          (raft.afterInitialize m [(myPeer.nodeId, peerNode myPeer)]).voters = [])) := by
  rw [clusterInitialize, if_neg (by simp [isInitialized, pristine])]
  simp only [parsed, found, initializeNode, isInitialized, pristine, List.isEmpty_nil, Bool.not_true,
    Bool.false_eq_true, if_false, List.map_cons, List.map_nil]
  generalize after : raft.afterInitialize m [(myPeer.nodeId, peerNode myPeer)] = m₁
  cases first : raft.initializeAnswer with
  | error msg =>
    refine .inr ⟨fun answers => ?_, rfl, Iff.rfl⟩
    cases first.symm.trans answers.initialized
  | ok _ =>
    have own : ∀ id, id ∈ m₁.voters ↔ id = myPeer.nodeId := fun id => by
      rw [← after, documented.initialized first m _ pristine]
      simp
    cases leads : raft.leader with
    | none =>
      refine .inr ⟨fun answers => ?_, ?_⟩
      · have known := answers.leads
        rw [leads] at known
        cases known
      · simp only [Except.mapError, waitForLeader, leads, and_self]
    | some leader =>
      simp only [Except.mapError, waitForLeader, leads]
      obtain ⟨m', ⟨ran, learners, promoted, voters⟩ | ⟨msg, ran, kept, cut⟩⟩ :=
        addOthers_cases (m := m₁) documented (peers.filter (·.nodeId != myNodeId))
      · refine .inl ⟨⟨first, by rw [leads]; rfl, learners, promoted⟩, ?_⟩
        simp only [ran, true_and]
        exact fun id => by rw [voters, own, mem_members found]
      · refine .inr ⟨fun answers => cut ⟨answers.learner, answers.promoted⟩, ?_⟩
        have voter := (own myPeer.nodeId).2 rfl
        simp only [ran, true_and, List.ne_nil_of_mem voter, List.ne_nil_of_mem (kept _ voter)]

end

end

/-! ### A Raft instance that does as it should -/

def calmRaft (leader : Nat) : RaftCalls where
  initializeAnswer := .ok ()
  afterInitialize _ nodes := ⟨nodes.map Prod.fst, []⟩
  leader := some leader
  learnerAnswer _ := .ok ()
  afterLearner _ m id _ := m.addLearner id
  votersAnswer := .ok ()
  afterVoterIds m ids := ids.foldl Membership.promoteVoter m

theorem mem_promoteVoters (m : Membership) (ids : List Nat) (id : Nat) :
    id ∈ (ids.foldl Membership.promoteVoter m).voters ↔ id ∈ m.voters ∨ id ∈ ids := by
  induction ids generalizing m with
  | nil => simp
  | cons first ids ih =>
    rw [List.foldl_cons, ih, List.mem_cons, ← or_assoc]
    apply or_congr_left
    unfold Membership.promoteVoter
    by_cases voter : first ∈ m.voters
    · rw [if_pos (List.contains_iff_mem.2 voter)]
      exact ⟨.inl, fun either => either.elim (fun same => same) (fun same => same ▸ voter)⟩
    · rw [if_neg (fun inside => voter (List.contains_iff_mem.1 inside)), List.mem_cons, or_comm]

theorem calmRaft_documented (leader : Nat) : (calmRaft leader).Documented where
  initialized _ m nodes _ id := Iff.rfl
  learner i m id node := by
    change (m.addLearner id).voters = m.voters
    unfold Membership.addLearner
    split <;> rfl
  promoted _ := mem_promoteVoters
  kept m ids id voter := (mem_promoteVoters m ids id).2 (.inl voter)

theorem calmRaft_answers (leader : Nat) (others : List PeerInfo) : (calmRaft leader).Answers others :=
  ⟨rfl, rfl, fun _ _ => rfl, fun _ => rfl⟩

/-! ### Every call -/

/-- A call on an uninitialised node can be retried exactly when nothing fails behind the single-node
initialisation that takes effect. -/
theorem initialize_retryable_iff (raft : RaftCalls) (documented : raft.Documented) (myNodeId : Nat)
    (m : Membership) (pristine : m.voters = []) (members : List String) :
    Retryable raft myNodeId m members ↔ Uncut raft myNodeId m members := by
  constructor
  · intro retryable peers myPeer parsed found took
    obtain ⟨answers, -⟩ | ⟨-, failed, left⟩ :=
      clusterInitialize_cases pristine documented parsed found
    · exact answers
    · have voters := fun none => took (left.1 none)
      obtain none | later := retryable.failed failed
      · exact absurd none voters
      · -- the guard of the next call sees the voter
        have retried :=
          (later (calmRaft myNodeId) (calmRaft_documented myNodeId) (calmRaft_answers myNodeId)).1
        rw [clusterInitialize_of_voters voters] at retried
        cases retried
  · intro uncut
    by_cases accepted : ∃ peers myPeer, parsePeers members = .ok peers ∧
        peers.find? (·.nodeId == myNodeId) = some myPeer
    · obtain ⟨peers, myPeer, parsed, found⟩ := accepted
      obtain ⟨-, success, voters⟩ | ⟨cut, failed, left⟩ :=
        clusterInitialize_cases pristine documented parsed found
      · refine ⟨fun failed => ?_, fun _ id => ?_⟩
        · rw [success] at failed
          cases failed
        · rw [voters]
          constructor
          · exact fun member => ⟨peers, parsed, member⟩
          · rintro ⟨same, again, member⟩
            cases parsed.symm.trans again
            exact member
      · refine ⟨fun _ => .inl (left.2 ?_), fun success => ?_⟩
        · by_contra took
          exact cut (uncut peers myPeer parsed found took)
        · rw [failed] at success
          cases success
    · obtain ⟨same, failed⟩ : (clusterInitialize raft myNodeId m members).1 = m ∧ _ :=
        clusterInitialize_refused pristine
          fun peers myPeer parsed found => accepted ⟨peers, myPeer, parsed, found⟩
      refine ⟨fun _ => .inl (by rw [same, pristine]), fun success => ?_⟩
      rw [failed] at success
      cases success

theorem initialize_retryable_sample :
    Retryable (calmRaft 1) 1 ⟨[], []⟩ ["1:a:9001:9000:9002", "2:b:9001:9000:9002"] ∧
      (clusterInitialize (calmRaft 1) 1 ⟨[], []⟩ ["1:a:9001:9000:9002", "2:b:9001:9000:9002"]) =
        (⟨[2, 1], []⟩, 200, ⟨true, "Cluster initialized"⟩) :=
  ⟨(initialize_retryable_iff (calmRaft 1) (calmRaft_documented 1) 1 ⟨[], []⟩ rfl _).2
    fun _ _ _ _ _ => calmRaft_answers 1 _, by decide +kernel⟩

/-- The leadership is lost before the second member is added: the call fails, node 1 stays the only
voter, and the retry is told that the cluster is initialised. -/
theorem failed_learner_locks_out :
    ∃ raft : RaftCalls, raft.Documented ∧
      clusterInitialize raft 1 ⟨[], []⟩ ["1:a:9001:9000:9002", "2:b:9001:9000:9002"] =
        (⟨[1], []⟩, 500,
          ⟨false, "Failed to add learner 2: Raft error: has to forward request to: None, None"⟩) ∧
      (∀ later, clusterInitialize later 1 ⟨[1], []⟩ ["1:a:9001:9000:9002", "2:b:9001:9000:9002"] =
        (⟨[1], []⟩, 409, ⟨false, "Cluster already initialized"⟩)) ∧
      ¬ Retryable raft 1 ⟨[], []⟩ ["1:a:9001:9000:9002", "2:b:9001:9000:9002"] := by
  let raft : RaftCalls := { calmRaft 1 with
    learnerAnswer := fun _ => .error "has to forward request to: None, None"
    afterLearner := fun _ m _ _ => m }
  have calm := calmRaft_documented 1
  have first : clusterInitialize raft 1 ⟨[], []⟩ ["1:a:9001:9000:9002", "2:b:9001:9000:9002"] =
      (⟨[1], []⟩, 500,
        ⟨false, "Failed to add learner 2: Raft error: has to forward request to: None, None"⟩) := by
    decide +kernel
  have refused (later : RaftCalls) (members : List String) :
      clusterInitialize later 1 ⟨[1], []⟩ members =
        (⟨[1], []⟩, 409, ⟨false, "Cluster already initialized"⟩) :=
    clusterInitialize_of_voters (List.cons_ne_nil _ _)
  refine ⟨raft, ⟨calm.initialized, fun _ _ _ _ => rfl, calm.promoted, calm.kept⟩, first,
    fun later => refused later _, fun retryable => ?_⟩
  have later := retryable.failed
  rw [first] at later
  obtain none | later := later rfl
  · cases none
  · have retried := (later (calmRaft 1) calm (calmRaft_answers 1)).1
    rw [refused] at retried
    cases retried

end Save.Api
