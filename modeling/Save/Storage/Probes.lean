import Save.Storage.ClusterManager

/-!
# Which probes make a node available

A probe passes three layers: the RPC with the timeout of the health checker
(`replication/health.rs`), the Boolean of `is_healthy`, and the manager's own
timeout with the mark it sets (`cluster/manager.rs`). An RPC that fails or is late
is `false` to the manager, and there `add_node` and `heartbeat_loop` part: one marks
the node unreachable, the other degraded. A run here keeps, beside the manager's
state, the probes that have been completed; the nodes that count towards the quorum
have been answered by the last one exactly as long as no heartbeat turn sees `false`
(`available_answered_iff`).
-/

namespace Save.Storage
set_option autoImplicit false
open Save.Common Save.Run

/-! ## One probe -/

/-- `HealthCheckResponse.status` of a node that is well. -/
def statusHealthy : Int := 0

def statusDegraded : Int := 1

/-- `client.health_check()` under the timeout of the health checker. -/
inductive HealthReply where
  | replied (status : Int)
  | rpcFailed (e : String)
  | late
  deriving DecidableEq, Repr

/-- `HealthChecker::is_healthy`. -/
def isHealthy : HealthReply → Bool
  | .replied status => status == statusHealthy || status == statusDegraded
  | .rpcFailed _ => false
  | .late => false

/-- `health_check` of the coordinator; it fails for a node without a client. -/
def coordinatorHealthCheck (client : Option HealthReply) : Option Bool := client.map isHealthy

/-- What the manager's call meets: the reply of the node's client, when the coordinator has one, and
whether the call ends within the manager's timeout. -/
structure Probing where
  client : Option HealthReply
  inTime : Bool
  deriving DecidableEq, Repr

def Probing.probe (p : Probing) : Probe :=
  if !p.inTime then .timedOut
  else
    match coordinatorHealthCheck p.client with
    | some healthy => .answered healthy
    | none => .failed

/-- A reply that the node can serve came in time. -/
def Probing.Answers (p : Probing) : Prop :=
  p.inTime = true ∧
    (p.client = some (.replied statusHealthy) ∨ p.client = some (.replied statusDegraded))

theorem isHealthy_iff (reply : HealthReply) :
    isHealthy reply = true ↔ reply = .replied statusHealthy ∨ reply = .replied statusDegraded := by
  cases reply <;> simp [isHealthy]

theorem answers_iff (p : Probing) : p.Answers ↔ p.probe = .answered true := by
  obtain ⟨client, inTime⟩ := p
  cases inTime with
  | false => exact iff_of_false (fun answers => by cases answers.1) (by simp [Probing.probe])
  | true =>
    cases client with
    | none => simp [Probing.Answers, Probing.probe, coordinatorHealthCheck]
    | some reply => simp [Probing.Answers, Probing.probe, coordinatorHealthCheck, isHealthy_iff]

/-! ## Runs with their probes -/

/-- What a call meets when it contacts a node. -/
structure ProbedContact where
  connected : Except String Unit
  probing : Probing
  elapsedMs : Nat
  now : Instant

def ProbedContact.contact (c : ProbedContact) : Contact :=
  ⟨c.connected, c.probing.probe, c.elapsedMs, c.now⟩

inductive ProbedStep where
  | discoverPeers (peerStrings : List String) (contacts : Nat → ProbedContact) (now : Instant)
  | addNode (nodeId : Nat) (address : String) (contact : ProbedContact)
  | removeNode (nodeId : Nat) (now : Instant)
  | heartbeat (nodeId : Nat) (probing : Probing) (elapsedMs : Nat) (now : Instant)

/-- The step as the manager sees it. -/
def ProbedStep.seen : ProbedStep → ManagerStep
  | .discoverPeers peerStrings contacts now =>
    .discoverPeers peerStrings (fun i => (contacts i).contact) now
  | .addNode nodeId address contact => .addNode nodeId address contact.contact
  | .removeNode nodeId now => .removeNode nodeId now
  | .heartbeat nodeId probing elapsedMs now => .heartbeat nodeId probing.probe elapsedMs now

/-- The probe that `add_node` completes, if it comes to that. -/
def addProbes (localNodeId nodeId : Nat) (c : ProbedContact) : List (Nat × Probing) :=
  if nodeId = localNodeId then []
  else
    match c.connected with
    | .error _ => []
    | .ok () => [(nodeId, c.probing)]

/-- The probes of `discover_peers`, the last first. -/
def connectProbes (localNodeId : Nat) : List (PeerInfo × ProbedContact) → List (Nat × Probing)
  | [] => []
  | (peer, c) :: peers => connectProbes localNodeId peers ++ addProbes localNodeId peer.nodeId c

/-- The probes that a step completes, the last first. -/
def ProbedStep.probes (localNodeId : Nat) : ProbedStep → List (Nat × Probing)
  | .discoverPeers peerStrings contacts _ =>
    match parsePeers peerStrings with
    | .error _ => []
    | .ok peers => connectProbes localNodeId (peers.zipIdx.map fun e => (e.1, contacts e.2))
  | .addNode nodeId _ contact => addProbes localNodeId nodeId contact
  | .removeNode _ _ => []
  | .heartbeat nodeId probing _ _ => [(nodeId, probing)]

/-- A manager and the probes that have been completed, the last first. -/
structure ProbedManager where
  state : ClusterState
  probes : List (Nat × Probing)

def ProbedManager.new (localNodeId : Nat) (now : Instant) : ProbedManager :=
  ⟨.new localNodeId now, []⟩

def ProbedManager.step (config : ClusterManagerConfig) (m : ProbedManager) (step : ProbedStep) :
    Option ProbedManager :=
  some ⟨m.state.step config step.seen, step.probes m.state.localNodeId ++ m.probes⟩

/-- Every node that counts towards the quorum has answered the last probe of it. -/
def OnlyAnswering (state : ClusterState) (probes : List (Nat × Probing)) : Prop :=
  ∀ n ∈ state.nodes, n.health.isAvailable = true →
    ∃ p, probes.lookup n.nodeId = some p ∧ p.Answers

/-- A heartbeat turn of a known node that is told `false`: the RPC failed or was late, or the node
replied that it is not well. -/
def ProbedManager.ToldFalse (m : ProbedManager) : ProbedStep → Prop
  | .heartbeat nodeId probing _ _ =>
    (m.state.node nodeId).isSome = true ∧ probing.probe = .answered false
  | _ => False

instance (m : ProbedManager) : DecidablePred m.ToldFalse
  | .discoverPeers _ _ _ => .isFalse id
  | .addNode _ _ _ => .isFalse id
  | .removeNode _ _ => .isFalse id
  | .heartbeat nodeId probing _ _ =>
    inferInstanceAs
      (Decidable ((m.state.node nodeId).isSome = true ∧ probing.probe = .answered false))

/-! ## What a step keeps -/

section

variable {config : ClusterManagerConfig} {s : ClusterState} {probes : List (Nat × Probing)}

/-- A node that is put in with the probe of it. -/
theorem OnlyAnswering.insert (only : OnlyAnswering s probes) {n : NodeState} {p : Probing}
    (answered : n.health.isAvailable = true → p.Answers) :
    OnlyAnswering (s.insert n) ((n.nodeId, p) :: probes) := by
  intro m member available
  rcases List.mem_cons.1 member with rfl | member
  · exact ⟨p, List.lookup_cons_self, answered available⟩
  · obtain ⟨there, other⟩ := List.mem_filter.1 member
    have apart : (m.nodeId == n.nodeId) = false := by simpa using other
    obtain ⟨q, last, answers⟩ := only m there available
    exact ⟨q, by rw [List.lookup_cons, apart]; exact last, answers⟩

/-- A node that does not count needs no probe. -/
theorem OnlyAnswering.insert_unknown (only : OnlyAnswering s probes) {n : NodeState}
    (unavailable : n.health.isAvailable = false) : OnlyAnswering (s.insert n) probes := by
  intro m member available
  rcases List.mem_cons.1 member with rfl | member
  · rw [unavailable] at available
    cases available
  · exact only m (List.mem_filter.1 member).1 available

theorem OnlyAnswering.erase (only : OnlyAnswering s probes) (id : Nat) :
    OnlyAnswering (s.erase id) probes :=
  fun m member available => only m (List.mem_filter.1 member).1 available

/-- A node that is marked by the probe of it. -/
theorem OnlyAnswering.modify (only : OnlyAnswering s probes) {id : Nat} {p : Probing}
    {f : NodeState → NodeState} (keeps : ∀ n, (f n).nodeId = n.nodeId)
    (answered : ∀ n, (f n).health.isAvailable = true → p.Answers) :
    OnlyAnswering (s.modify id f keeps) ((id, p) :: probes) := by
  intro m member available
  obtain ⟨n, there, rfl⟩ := List.mem_map.1 member
  by_cases own : n.nodeId = id
  · rw [if_pos own] at available ⊢
    refine ⟨p, ?_, answered n available⟩
    rw [keeps n, own]
    exact List.lookup_cons_self
  · rw [if_neg own] at available ⊢
    obtain ⟨q, last, answers⟩ := only n there available
    refine ⟨q, ?_, answers⟩
    rw [List.lookup_cons, beq_false_of_ne own]
    exact last

/-- The probe of a node that is not in the map. -/
theorem OnlyAnswering.absent (only : OnlyAnswering s probes) {id : Nat} (absent : s.node id = none)
    (p : Probing) : OnlyAnswering s ((id, p) :: probes) := by
  intro m member available
  have apart : (m.nodeId == id) = false := by simpa using List.find?_eq_none.1 absent m member
  obtain ⟨q, last, answers⟩ := only m member available
  exact ⟨q, by rw [List.lookup_cons, apart]; exact last, answers⟩

/-- A heartbeat turn marks a node available when the coordinator has said anything of it. -/
theorem probed_available {probe : Probe} {elapsedMs : Nat} {now : Instant} {n : NodeState} :
    (probed config probe elapsedMs now n).health.isAvailable = true ↔
      ∃ healthy, probe = .answered healthy := by
  cases probe with
  | answered healthy =>
    refine iff_of_true ?_ ⟨healthy, rfl⟩
    cases healthy with
    | true =>
      simp only [probed]
      split <;> rfl
    | false => rfl
  | failed => exact iff_of_false (fun available => by cases available) (by simp)
  | timedOut => exact iff_of_false (fun available => by cases available) (by simp)

/-- `add_node` marks a node available when it has answered. -/
theorem checkNodeHealth_answers {c : ProbedContact} {latency : Nat}
    (healthy : checkNodeHealth c.contact = some latency) : c.probing.Answers := by
  unfold checkNodeHealth at healthy
  split at healthy
  · rename_i answered
    exact (answers_iff _).2 answered
  · cases healthy

variable (config) in
theorem addNode_localNodeId (s : ClusterState) (nodeId : Nat) (address : String) (c : Contact) :
    (addNode config s nodeId address c).1.localNodeId = s.localNodeId := by
  unfold addNode
  split
  · rfl
  · split <;> rfl

variable (config) in
theorem OnlyAnswering.addNode (only : OnlyAnswering s probes) (nodeId : Nat) (address : String)
    (c : ProbedContact) : OnlyAnswering (Storage.addNode config s nodeId address c.contact).1
      (addProbes s.localNodeId nodeId c ++ probes) := by
  unfold Storage.addNode addProbes
  split
  · exact only
  · cases connected : c.connected with
    | error e =>
      rw [show c.contact.connected = .error e from connected]
      exact only
    | ok u =>
      rw [show c.contact.connected = .ok u from connected]
      -- the id of the new node is that of the probe, whatever its mark
      cases healthy : checkNodeHealth c.contact with
      | none => exact only.insert fun available => by cases available
      | some latency =>
        have answers := checkNodeHealth_answers healthy
        simp only
        split
        · exact only.insert fun _ => answers
        · exact only.insert fun _ => answers

variable (config) in
theorem OnlyAnswering.connectPeers (only : OnlyAnswering s probes)
    (peers : List (PeerInfo × ProbedContact)) :
    OnlyAnswering (Storage.connectPeers config s (peers.map fun e => (e.1, e.2.contact)))
      (connectProbes s.localNodeId peers ++ probes) := by
  induction peers generalizing s probes with
  | nil => exact only
  | cons e peers ih =>
    obtain ⟨peer, c⟩ := e
    have added := only.addNode config peer.nodeId peer.httpAddr c
    have here := addNode_localNodeId config s peer.nodeId peer.httpAddr c.contact
    rw [connectProbes, List.append_assoc]
    simp only [List.map_cons, Storage.connectPeers]
    split
    · rename_i own
      rw [addProbes, if_pos own]
      exact ih only
    · split
      · rename_i s' same
        rw [same] at added here
        rw [← here] at added ⊢
        exact ih added
      · rename_i s' e same
        rw [same] at added here
        rw [← here] at added ⊢
        exact ih (s := s'.insert _) (added.insert_unknown rfl)

/-- A step that is not told `false` in a heartbeat turn. -/
theorem OnlyAnswering.step {m m' : ProbedManager} (only : OnlyAnswering m.state m.probes)
    {step : ProbedStep} (told : ¬ m.ToldFalse step) (taken : m.step config step = some m') :
    OnlyAnswering m'.state m'.probes := by
  cases taken
  cases step with
  | discoverPeers peerStrings contacts now =>
    simp only [ProbedStep.seen, ClusterState.step, Storage.discoverPeers, ProbedStep.probes]
    split
    · rename_i none
      obtain rfl := List.isEmpty_iff.1 none
      exact only
    · cases parsed : parsePeers peerStrings with
      | error e => exact only
      | ok peers =>
        have connected := only.connectPeers config
          (peers.zipIdx.map fun e => (e.1, contacts e.2))
        rw [List.map_map] at connected
        exact connected
  | addNode nodeId address contact => exact only.addNode config nodeId address contact
  | removeNode nodeId now => exact only.erase nodeId
  | heartbeat nodeId probing elapsedMs now =>
    simp only [ProbedStep.seen, ClusterState.step, Storage.heartbeat, ProbedStep.probes]
    split
    · rename_i absent
      exact only.absent absent probing
    · rename_i node known
      have answered : ∀ n, (probed config probing.probe elapsedMs now n).health.isAvailable = true →
          probing.Answers := by
        intro n available
        obtain ⟨healthy, outcome⟩ := probed_available.1 available
        cases healthy with
        | true => exact (answers_iff _).2 outcome
        | false => exact absurd ⟨by rw [known]; rfl, outcome⟩ told
      have marked : OnlyAnswering (m.state.modify nodeId _ _) _ :=
        only.modify (probed_nodeId config probing.probe elapsedMs now) answered
      split
      · exact marked
      · exact marked

theorem ClusterState.node_modify (s : ClusterState) (id : Nat) {f : NodeState → NodeState}
    (keeps : ∀ n, (f n).nodeId = n.nodeId) : (s.modify id f keeps).node id = (s.node id).map f := by
  simp only [ClusterState.node, ClusterState.modify, List.find?_map]
  have ids : ((fun n => n.nodeId == id) ∘ fun n => if n.nodeId = id then f n else n) =
      fun n : NodeState => n.nodeId == id := by
    funext n
    by_cases own : n.nodeId = id <;> simp [own, keeps]
  rw [ids]
  cases found : s.nodes.find? fun n => n.nodeId == id with
  | none => rfl
  | some node =>
    have named : node.nodeId = id := by simpa using List.find?_some found
    simp [named]

variable (config) in
theorem heartbeat_node (s : ClusterState) (nodeId : Nat) (probe : Probe) (elapsedMs : Nat)
    (now : Instant) :
    (heartbeat config s nodeId probe elapsedMs now).node nodeId =
      (s.node nodeId).map (probed config probe elapsedMs now) := by
  have marked := s.node_modify nodeId (probed_nodeId config probe elapsedMs now)
  unfold heartbeat
  cases known : s.node nodeId with
  | none => exact known
  | some node =>
    rw [known] at marked
    simp only
    split
    · exact marked
    · exact marked

/-- A turn that is told `false` leaves a node available that has not answered. -/
theorem ProbedManager.ToldFalse.breaks {m m' : ProbedManager} {step : ProbedStep}
    (told : m.ToldFalse step) (taken : m.step config step = some m') :
    ¬ OnlyAnswering m'.state m'.probes := by
  cases taken
  cases step with
  | heartbeat nodeId probing elapsedMs now =>
    obtain ⟨known, outcome⟩ := told
    obtain ⟨node, known⟩ := Option.isSome_iff_exists.1 known
    have named : node.nodeId = nodeId := by simpa using List.find?_some known
    have marked := heartbeat_node config m.state nodeId probing.probe elapsedMs now
    rw [known] at marked
    intro only
    obtain ⟨p, last, answers⟩ := only _ (List.mem_of_find?_eq_some marked)
      (probed_available.2 ⟨false, outcome⟩)
    rw [probed_nodeId, named] at last
    obtain rfl : probing = p := by simpa [ProbedStep.probes] using last
    rw [answers_iff, outcome] at answers
    cases answers
  | _ => cases told

/-- The node counts towards the quorum. -/
def ClusterState.counts (s : ClusterState) (nodeId : Nat) : Bool :=
  (s.node nodeId).any fun n => n.health.isAvailable

theorem insert_counts (s : ClusterState) (n : NodeState) :
    (s.insert n).counts n.nodeId = n.health.isAvailable := by
  simp [ClusterState.counts, ClusterState.node, ClusterState.insert]

variable (config) in
theorem addNode_counts {nodeId : Nat} (other : nodeId ≠ s.localNodeId) (address : String)
    {c : ProbedContact} (connected : c.connected = .ok ()) :
    (addNode config s nodeId address c.contact).1.counts nodeId = true ↔
      c.probing.probe = .answered true := by
  unfold addNode
  rw [if_neg other, show c.contact.connected = .ok () from connected, ← answers_iff]
  cases healthy : checkNodeHealth c.contact with
  | none =>
    refine iff_of_false (fun counted => ?_) fun answers => ?_
    · have put := insert_counts s ((NodeState.new nodeId address).markUnreachable c.now)
      cases put.symm.trans counted
    · have outcome := (answers_iff _).1 answers
      simp [checkNodeHealth, ProbedContact.contact, outcome] at healthy
  | some latency =>
    refine iff_of_true ?_ (checkNodeHealth_answers healthy)
    simp only
    split
    · exact insert_counts s ((NodeState.new nodeId address).markDegraded c.now latency)
    · exact insert_counts s ((NodeState.new nodeId address).markHealthy c.now latency)

variable (config) in
theorem heartbeat_counts {nodeId : Nat} (known : (s.node nodeId).isSome = true) (probing : Probing)
    (elapsedMs : Nat) (now : Instant) :
    (heartbeat config s nodeId probing.probe elapsedMs now).counts nodeId = true ↔
      ∃ healthy, probing.probe = .answered healthy := by
  obtain ⟨node, known⟩ := Option.isSome_iff_exists.1 known
  rw [ClusterState.counts, heartbeat_node, known]
  exact probed_available

end

/-- **Probes.** The nodes that count towards the quorum have answered the last probe of them
throughout a run exactly when no heartbeat turn of it is told `false`; any other outcome counts the
same for a new node and in a heartbeat turn. -/
theorem available_answered_iff (config : ClusterManagerConfig) :
    (∀ (id : Nat) (now : Instant) (steps : List ProbedStep),
      Throughout (ProbedManager.step config) (fun m => OnlyAnswering m.state m.probes) (.new id now)
          steps ↔
        Along (ProbedManager.step config) (fun m step => ¬ m.ToldFalse step) (.new id now) steps) ∧
    ∀ (s s' : ClusterState) (nodeId : Nat) (address : String) (c : ProbedContact),
      nodeId ≠ s.localNodeId → c.connected = .ok () → (s'.node nodeId).isSome = true →
      ((addNode config s nodeId address c.contact).1.counts nodeId =
          (heartbeat config s' nodeId c.probing.probe c.elapsedMs c.now).counts nodeId ↔
        c.probing.probe ≠ .answered false) := by
  constructor
  · intro id now steps
    refine throughout_iff_along (fun m step m' only told taken => only.step told taken)
      (fun m step _ told => ?_) ?_ steps
    · exact ⟨_, rfl, (not_not.1 told).breaks rfl⟩
    · intro n member
      cases member
  · intro s s' nodeId address c other connected known
    have added := addNode_counts config other address connected
    have turn := heartbeat_counts config known c.probing c.elapsedMs c.now
    rw [Bool.eq_iff_iff, added, turn]
    cases outcome : c.probing.probe with
    | answered healthy => cases healthy <;> simp
    | failed => simp
    | timedOut => simp

/-- A node that has answered when it was added, and whose next probe fails. -/
def failingTurn : List ProbedStep :=
  [.addNode 2 "http://b:9000" ⟨.ok (), ⟨some (.replied statusHealthy), true⟩, 1, 0⟩,
    .heartbeat 2 ⟨some (.rpcFailed "connection refused"), true⟩ 1 5]

/-- It still counts towards the quorum. -/
theorem failed_probe_counts :
    ¬ ∀ (config : ClusterManagerConfig) (id : Nat) (now : Instant) (steps : List ProbedStep),
      Throughout (ProbedManager.step config) (fun m => OnlyAnswering m.state m.probes) (.new id now)
        steps := by
  intro claim
  have only := claim .default 1 0 failingTurn failingTurn [] _ rfl rfl
  obtain ⟨p, last, answers⟩ := only _ List.mem_cons_self rfl
  cases last
  cases answers.2 with
  | inl same => cases same
  | inr same => cases same

end Save.Storage
