import Save.Common.Cluster
import Save.Storage.Objects
import Mathlib.Data.List.Nodup

/-!
# The cluster manager

`cluster/state.rs` and `cluster/manager.rs`: what a node knows of its peers, and
the two flags derived from it, `has_quorum` and `partition_status`. The flags
are stored; each operation that changes a node's health recomputes some of them.
`cluster_flags` says which flags are right after which step, in every run, and
that the manager accepts writes only with a majority marked available.

A step is one call, or one node's turn in the heartbeat loop, with what it meets
outside: the answers of the coordinator and of the probes, and the clock. The
events for subscribers are left out.
-/

namespace Save.Storage
set_option autoImplicit false
open Save.Common Save.Run

inductive NodeHealth where
  | healthy
  | degraded
  | unreachable
  | unknown
  deriving DecidableEq, Repr

def NodeHealth.isAvailable : NodeHealth → Bool
  | .healthy => true
  | .degraded => true
  | .unreachable => false
  | .unknown => false

inductive PartitionStatus where
  | connected
  | possibleMinority
  | minority
  | unknown
  deriving DecidableEq, Repr

/-- A reading of `Instant::now()`. -/
abbrev Instant := Nat

structure NodeState where
  nodeId : Nat
  address : String
  health : NodeHealth
  lastSeen : Option Instant
  lastCheck : Option Instant
  consecutiveFailures : Nat
  latencyMs : Option Nat
  deriving DecidableEq, Repr

def NodeState.new (nodeId : Nat) (address : String) : NodeState :=
  ⟨nodeId, address, .unknown, none, none, 0, none⟩

def NodeState.markHealthy (n : NodeState) (now : Instant) (latencyMs : Nat) : NodeState :=
  { n with
    health := .healthy
    lastSeen := some now
    lastCheck := some now
    consecutiveFailures := 0
    latencyMs := some latencyMs }

def NodeState.markDegraded (n : NodeState) (now : Instant) (latencyMs : Nat) : NodeState :=
  { n with
    health := .degraded
    lastSeen := some now
    lastCheck := some now
    consecutiveFailures := 0
    latencyMs := some latencyMs }

/-- The counter is a `u32` that wraps around. -/
def NodeState.markUnreachable (n : NodeState) (now : Instant) : NodeState :=
  { n with
    health := .unreachable
    lastCheck := some now
    consecutiveFailures := (n.consecutiveFailures + 1) % 2 ^ 32
    latencyMs := none }

/-! ## The state of the cluster -/

/-- The map of nodes is kept as the list of its values, one for each id. -/
structure ClusterState where
  localNodeId : Nat
  nodes : List NodeState
  leaderId : Option Nat
  hasQuorum : Bool
  partitionStatus : PartitionStatus
  lastUpdated : Instant
  nodup : (nodes.map NodeState.nodeId).Nodup

def ClusterState.new (localNodeId : Nat) (now : Instant) : ClusterState :=
  ⟨localNodeId, [], none, false, .unknown, now, List.nodup_nil⟩

def ClusterState.availableNodeCount (s : ClusterState) : Nat :=
  s.nodes.countP fun n => n.health.isAvailable

def ClusterState.totalNodeCount (s : ClusterState) : Nat := s.nodes.length + 1

def ClusterState.checkQuorum (s : ClusterState) : Bool :=
  s.availableNodeCount + 1 > s.totalNodeCount / 2

def ClusterState.detectPartition (s : ClusterState) : PartitionStatus :=
  let unreachable := s.nodes.countP fun n => !n.health.isAvailable
  if unreachable = 0 then .connected
  else if s.checkQuorum then .connected
  else if s.totalNodeCount > 1 then .minority
  else .unknown

def ClusterState.shouldAcceptWrites (s : ClusterState) : Bool :=
  s.hasQuorum && s.partitionStatus != .minority

/-- `nodes.get(&id)`. -/
def ClusterState.node (s : ClusterState) (id : Nat) : Option NodeState :=
  s.nodes.find? fun n => n.nodeId == id

/-- `nodes.remove(&id)`. -/
def ClusterState.erase (s : ClusterState) (id : Nat) : ClusterState :=
  { s with
    nodes := s.nodes.filter fun n => n.nodeId != id
    nodup := s.nodup.sublist (List.filter_sublist.map _) }

/-- `nodes.insert(n.node_id, n)`. -/
def ClusterState.insert (s : ClusterState) (n : NodeState) : ClusterState :=
  { s with
    nodes := n :: (s.erase n.nodeId).nodes
    nodup := by
      refine List.nodup_cons.2 ⟨?_, (s.erase n.nodeId).nodup⟩
      simp only [ClusterState.erase, List.mem_map, List.mem_filter, not_exists, not_and, and_imp]
      rintro m - other same
      exact absurd same (by simpa using other) }

/-- The node with this id, replaced by `f` of it; `f` keeps its id. -/
def ClusterState.modify (s : ClusterState) (id : Nat) (f : NodeState → NodeState)
    (keeps : ∀ n, (f n).nodeId = n.nodeId) : ClusterState :=
  { s with
    nodes := s.nodes.map fun n => if n.nodeId = id then f n else n
    nodup := by
      have ids : (s.nodes.map fun n => if n.nodeId = id then f n else n).map NodeState.nodeId =
          s.nodes.map NodeState.nodeId := by
        rw [List.map_map]
        refine List.map_congr_left fun n _ => ?_
        show (if n.nodeId = id then f n else n).nodeId = n.nodeId
        split
        · exact keeps n
        · rfl
      exact ids ▸ s.nodup }

/-- `has_quorum` recomputed. -/
def ClusterState.recount (s : ClusterState) (now : Instant) : ClusterState :=
  { s with hasQuorum := s.checkQuorum, lastUpdated := now }

/-- Both flags recomputed. -/
def ClusterState.refresh (s : ClusterState) (now : Instant) : ClusterState :=
  { s with
    hasQuorum := s.checkQuorum
    partitionStatus := s.detectPartition
    lastUpdated := now }

/-! ## The manager -/

/-- The part of the configuration the steps read. -/
structure ClusterManagerConfig where
  failureThreshold : Nat
  degradedLatencyThresholdMs : Nat

/-- `ClusterManagerConfig::default()`. -/
def ClusterManagerConfig.default : ClusterManagerConfig := ⟨3, 500⟩

/-- `timeout(health_check_timeout, coordinator.health_check(node_id))`. -/
inductive Probe where
  | answered (healthy : Bool)
  /-- The coordinator has no client for the node. -/
  | failed
  | timedOut
  deriving DecidableEq, Repr

/-- What a call meets when it contacts a node. -/
structure Contact where
  /-- `coordinator.add_node`, with the text of its error. -/
  connected : Except String Unit
  probe : Probe
  elapsedMs : Nat
  now : Instant

/-- `check_node_health`. -/
def checkNodeHealth (c : Contact) : Option Nat :=
  match c.probe with
  | .answered true => some c.elapsedMs
  | _ => none

/-- The state after `add_node`, and its answer. -/
def addNode (config : ClusterManagerConfig) (s : ClusterState) (nodeId : Nat) (address : String)
    (c : Contact) : ClusterState × Except StorageError Unit :=
  if nodeId = s.localNodeId then (s, .error (.io "Cannot add self as peer"))
  else
    match c.connected with
    | .error e => (s, .error (.io e))
    | .ok () =>
      let node := NodeState.new nodeId address
      let node := match checkNodeHealth c with
        | some latency =>
          if latency > config.degradedLatencyThresholdMs then node.markDegraded c.now latency
          else node.markHealthy c.now latency
        | none => node.markUnreachable c.now
      ((s.insert node).recount c.now, .ok ())

def removeNode (s : ClusterState) (nodeId : Nat) (now : Instant) : ClusterState :=
  (s.erase nodeId).refresh now

/-- The loop of `discover_peers`: a peer that cannot be added is kept as unknown. -/
def connectPeers (config : ClusterManagerConfig) : ClusterState → List (PeerInfo × Contact) → ClusterState
  | s, [] => s
  | s, (peer, c) :: peers =>
    if peer.nodeId = s.localNodeId then connectPeers config s peers
    else
      match addNode config s peer.nodeId peer.httpAddr c with
      | (s', .ok ()) => connectPeers config s' peers
      | (s', .error _) => connectPeers config (s'.insert (.new peer.nodeId peer.httpAddr)) peers

/-- The state after `discover_peers`, and its answer; `contacts` has what each peer meets. -/
def discoverPeers (config : ClusterManagerConfig) (s : ClusterState) (peerStrings : List String)
    (contacts : Nat → Contact) (now : Instant) : ClusterState × Except StorageError Unit :=
  if peerStrings.isEmpty then (s, .ok ())
  else
    match parsePeers peerStrings with
    | .error e => (s, .error (.io ("Failed to parse peers: " ++ e.toString)))
    | .ok peers =>
      let met := peers.zipIdx.map fun e => (e.1, contacts e.2)
      ((connectPeers config s met).recount now, .ok ())

/-- The mark a probe leaves on a node. -/
def probed (config : ClusterManagerConfig) (probe : Probe) (elapsedMs : Nat) (now : Instant)
    (n : NodeState) : NodeState :=
  match probe with
  | .answered true =>
    if elapsedMs > config.degradedLatencyThresholdMs then n.markDegraded now elapsedMs
    else n.markHealthy now elapsedMs
  | .answered false => n.markDegraded now elapsedMs
  | .failed => n.markUnreachable now
  | .timedOut => n.markUnreachable now

theorem probed_nodeId (config : ClusterManagerConfig) (probe : Probe) (elapsedMs : Nat)
    (now : Instant) (n : NodeState) : (probed config probe elapsedMs now n).nodeId = n.nodeId := by
  unfold probed
  split
  · split <;> rfl
  · rfl
  · rfl
  · rfl

/-- The turn goes to reconnection: the coordinator does not know the node and it has failed
too often. -/
def reconnects (config : ClusterManagerConfig) (probe : Probe) (n : NodeState) : Bool :=
  probe == .failed && (n.consecutiveFailures + 1) % 2 ^ 32 ≥ config.failureThreshold

/-- One node's turn in `heartbeat_loop`. -/
def heartbeat (config : ClusterManagerConfig) (s : ClusterState) (nodeId : Nat) (probe : Probe)
    (elapsedMs : Nat) (now : Instant) : ClusterState :=
  match s.node nodeId with
  | none => s
  | some node =>
    let marked := s.modify nodeId (probed config probe elapsedMs now)
      (probed_nodeId config probe elapsedMs now)
    -- the state lock is dropped and the turn ends before the flags are recomputed
    if reconnects config probe node then marked
    else marked.refresh now

inductive ManagerStep where
  | discoverPeers (peerStrings : List String) (contacts : Nat → Contact) (now : Instant)
  | addNode (nodeId : Nat) (address : String) (contact : Contact)
  | removeNode (nodeId : Nat) (now : Instant)
  | heartbeat (nodeId : Nat) (probe : Probe) (elapsedMs : Nat) (now : Instant)

def ClusterState.step (config : ClusterManagerConfig) (s : ClusterState) : ManagerStep → ClusterState
  | .discoverPeers peerStrings contacts now => (Storage.discoverPeers config s peerStrings contacts now).1
  | .addNode nodeId address contact => (Storage.addNode config s nodeId address contact).1
  | .removeNode nodeId now => Storage.removeNode s nodeId now
  | .heartbeat nodeId probe elapsedMs now => Storage.heartbeat config s nodeId probe elapsedMs now

/-- The manager after a sequence of steps. -/
def ClusterState.run (config : ClusterManagerConfig) (s : ClusterState) (steps : List ManagerStep) :
    ClusterState :=
  steps.foldl (ClusterState.step config) s

/-- `ClusterManager::can_write`. -/
def ClusterState.canWrite (s : ClusterState) : Bool := s.shouldAcceptWrites

/-! ## Which steps recompute which flags -/

/-- The step recomputes `has_quorum`. -/
def ClusterState.recounts (config : ClusterManagerConfig) (s : ClusterState) : ManagerStep → Bool
  | .discoverPeers peerStrings _ _ => !peerStrings.isEmpty && (parsePeers peerStrings).toBool
  | .addNode nodeId _ contact => nodeId != s.localNodeId && contact.connected.toBool
  | .removeNode _ _ => true
  | .heartbeat nodeId probe _ _ =>
    match s.node nodeId with
    | none => false
    | some node => !reconnects config probe node

/-- The step recomputes `partition_status` too. -/
def ClusterState.refreshes (config : ClusterManagerConfig) (s : ClusterState) : ManagerStep → Bool
  | .removeNode _ _ => true
  | .heartbeat nodeId probe elapsedMs now => s.recounts config (.heartbeat nodeId probe elapsedMs now)
  | _ => false

/-- Some step of the run recomputes `has_quorum`. -/
def Recounted (config : ClusterManagerConfig) (s : ClusterState) (steps : List ManagerStep) : Prop :=
  ∃ before step after, steps = before ++ step :: after ∧
    (s.run config before).recounts config step = true

/-- `has_quorum` is what `check_quorum` says. -/
def ClusterState.QuorumFresh (s : ClusterState) : Prop := s.hasQuorum = s.checkQuorum

/-- `partition_status` is what `detect_partition` says. -/
def ClusterState.PartitionFresh (s : ClusterState) : Prop := s.partitionStatus = s.detectPartition

section

variable {config : ClusterManagerConfig} {s : ClusterState}

theorem refresh_fresh (s : ClusterState) (now : Instant) :
    (s.refresh now).QuorumFresh ∧ (s.refresh now).PartitionFresh := ⟨rfl, rfl⟩

theorem recount_fresh (s : ClusterState) (now : Instant) : (s.recount now).QuorumFresh := rfl

theorem heartbeat_of_recounts {nodeId : Nat} {probe : Probe} {elapsedMs : Nat} {now : Instant}
    (turn : s.recounts config (.heartbeat nodeId probe elapsedMs now) = true) :
    ∃ marked : ClusterState, heartbeat config s nodeId probe elapsedMs now = marked.refresh now := by
  simp only [ClusterState.recounts] at turn
  unfold heartbeat
  split at turn
  · cases turn
  · simp only [Bool.not_eq_true'] at turn
    simp only [turn, Bool.false_eq_true, if_false]
    exact ⟨_, rfl⟩

theorem step_refreshes {step : ManagerStep} (recomputed : s.refreshes config step = true) :
    (s.step config step).QuorumFresh ∧ (s.step config step).PartitionFresh := by
  cases step with
  | discoverPeers peerStrings contacts now => cases recomputed
  | addNode nodeId address contact => cases recomputed
  | removeNode nodeId now => exact refresh_fresh _ now
  | heartbeat nodeId probe elapsedMs now =>
    obtain ⟨marked, same⟩ := heartbeat_of_recounts recomputed
    rw [ClusterState.step, same]
    exact refresh_fresh marked now

theorem step_recounts {step : ManagerStep} (recomputed : s.recounts config step = true) :
    (s.step config step).QuorumFresh := by
  cases step with
  | discoverPeers peerStrings contacts now =>
    simp only [ClusterState.recounts, Bool.and_eq_true, Bool.not_eq_true'] at recomputed
    obtain ⟨nonempty, parsed⟩ := recomputed
    cases peers : parsePeers peerStrings with
    | error e => simp [peers, Except.toBool] at parsed
    | ok ps =>
      simp only [ClusterState.step, discoverPeers, nonempty, Bool.false_eq_true, if_false, peers]
      exact recount_fresh _ now
  | addNode nodeId address contact =>
    simp only [ClusterState.recounts, Bool.and_eq_true, bne_iff_ne] at recomputed
    obtain ⟨other, connected⟩ := recomputed
    cases answer : contact.connected with
    | error e => simp [answer, Except.toBool] at connected
    | ok u =>
      simp only [ClusterState.step, addNode, if_neg other, answer]
      exact recount_fresh _ contact.now
  | removeNode nodeId now => exact (refresh_fresh _ now).1
  | heartbeat nodeId probe elapsedMs now =>
    obtain ⟨marked, same⟩ := heartbeat_of_recounts recomputed
    rw [ClusterState.step, same]
    exact (refresh_fresh marked now).1

/-! ## A turn that goes to reconnection -/

/-- Only an unreachable node has failures on its count. -/
def NodeState.Counted (n : NodeState) : Prop := n.health ≠ .unreachable → n.consecutiveFailures = 0

def ClusterState.Counted (s : ClusterState) : Prop := ∀ n ∈ s.nodes, n.Counted

theorem new_counted (nodeId : Nat) (address : String) : (NodeState.new nodeId address).Counted :=
  fun _ => rfl

theorem markHealthy_counted (n : NodeState) (now : Instant) (latencyMs : Nat) :
    (n.markHealthy now latencyMs).Counted := fun _ => rfl

theorem markDegraded_counted (n : NodeState) (now : Instant) (latencyMs : Nat) :
    (n.markDegraded now latencyMs).Counted := fun _ => rfl

theorem markUnreachable_counted (n : NodeState) (now : Instant) : (n.markUnreachable now).Counted :=
  fun available => absurd rfl available

theorem probed_counted (config : ClusterManagerConfig) (probe : Probe) (elapsedMs : Nat)
    (now : Instant) (n : NodeState) : (probed config probe elapsedMs now n).Counted := by
  unfold probed
  split
  · split
    · exact markDegraded_counted n now elapsedMs
    · exact markHealthy_counted n now elapsedMs
  · exact markDegraded_counted n now elapsedMs
  · exact markUnreachable_counted n now
  · exact markUnreachable_counted n now

theorem ClusterState.Counted.erase (counted : s.Counted) (id : Nat) : (s.erase id).Counted :=
  fun n member => counted n (List.mem_of_mem_filter member)

theorem ClusterState.Counted.insert (counted : s.Counted) {n : NodeState} (new : n.Counted) :
    (s.insert n).Counted := by
  intro m member
  rcases List.mem_cons.1 member with rfl | member
  · exact new
  · exact counted.erase n.nodeId m member

theorem ClusterState.Counted.modify (counted : s.Counted) (id : Nat) {f : NodeState → NodeState}
    (keeps : ∀ n, (f n).nodeId = n.nodeId) (new : ∀ n, (f n).Counted) :
    (s.modify id f keeps).Counted := by
  intro m member
  obtain ⟨n, there, rfl⟩ := List.mem_map.1 member
  split
  · exact new n
  · exact counted n there

theorem ClusterState.Counted.addNode (counted : s.Counted) (nodeId : Nat) (address : String)
    (c : Contact) : (Storage.addNode config s nodeId address c).1.Counted := by
  unfold Storage.addNode
  split
  · exact counted
  · split
    · exact counted
    · refine counted.insert ?_
      split
      · split
        · exact markDegraded_counted _ _ _
        · exact markHealthy_counted _ _ _
      · exact markUnreachable_counted _ _

theorem ClusterState.Counted.connectPeers (counted : s.Counted) (peers : List (PeerInfo × Contact)) :
    (Storage.connectPeers config s peers).Counted := by
  induction peers generalizing s with
  | nil => exact counted
  | cons e peers ih =>
    obtain ⟨peer, c⟩ := e
    have added : (Storage.addNode config s peer.nodeId peer.httpAddr c).1.Counted :=
      counted.addNode peer.nodeId peer.httpAddr c
    rw [Storage.connectPeers]
    split
    · exact ih counted
    · split
      · rename_i s' same
        rw [same] at added
        exact ih added
      · rename_i s' e same
        rw [same] at added
        exact ih (added.insert (new_counted _ _))

theorem ClusterState.Counted.step (counted : s.Counted) (step : ManagerStep) :
    (s.step config step).Counted := by
  cases step with
  | discoverPeers peerStrings contacts now =>
    simp only [ClusterState.step, Storage.discoverPeers]
    split
    · exact counted
    · split
      · exact counted
      · exact counted.connectPeers _
  | addNode nodeId address contact => exact counted.addNode nodeId address contact
  | removeNode nodeId now => exact counted.erase nodeId
  | heartbeat nodeId probe elapsedMs now =>
    simp only [ClusterState.step, Storage.heartbeat]
    split
    · exact counted
    · have marked := counted.modify nodeId (probed_nodeId config probe elapsedMs now)
        (probed_counted config probe elapsedMs now)
      split
      · exact marked
      · exact marked

/-- The node found is the only one with its id. -/
theorem node_eq_some {id : Nat} {node : NodeState} (found : s.node id = some node) :
    node ∈ s.nodes ∧ ∀ n ∈ s.nodes, n.nodeId = id → n = node := by
  have member := List.mem_of_find?_eq_some found
  have named : node.nodeId = id := by simpa using List.find?_some found
  refine ⟨member, fun n there same => ?_⟩
  exact List.inj_on_of_nodup_map s.nodup there member (same.trans named.symm)

/-- Marking a node that stays as available as it was leaves the count. -/
theorem checkQuorum_modify {id : Nat} {node : NodeState} {f : NodeState → NodeState}
    (keeps : ∀ n, (f n).nodeId = n.nodeId) (found : s.node id = some node)
    (same : (f node).health.isAvailable = node.health.isAvailable) :
    (s.modify id f keeps).checkQuorum = s.checkQuorum := by
  have count : (s.modify id f keeps).availableNodeCount = s.availableNodeCount := by
    unfold ClusterState.availableNodeCount ClusterState.modify
    rw [List.countP_map]
    refine List.countP_congr fun n member => ?_
    by_cases own : n.nodeId = id
    · obtain rfl := (node_eq_some found).2 n member own
      simp [own, same]
    · simp [own]
  have total : (s.modify id f keeps).totalNodeCount = s.totalNodeCount := by
    simp [ClusterState.totalNodeCount, ClusterState.modify]
  rw [ClusterState.checkQuorum, ClusterState.checkQuorum, count, total]

/-- A step that does not recompute `has_quorum` leaves it, and what it is computed from, as they
were, when one failure is not enough for a reconnection. -/
theorem step_keeps (counted : s.Counted) (threshold : 2 ≤ config.failureThreshold)
    {step : ManagerStep} (not : s.recounts config step = false) :
    (s.step config step).hasQuorum = s.hasQuorum ∧
      (s.step config step).checkQuorum = s.checkQuorum := by
  cases step with
  | discoverPeers peerStrings contacts now =>
    simp only [ClusterState.recounts] at not
    simp only [ClusterState.step, discoverPeers]
    split
    · exact ⟨rfl, rfl⟩
    · rename_i nonempty
      split
      · exact ⟨rfl, rfl⟩
      · rename_i peers parsed
        simp [nonempty, parsed, Except.toBool] at not
  | addNode nodeId address contact =>
    simp only [ClusterState.recounts] at not
    simp only [ClusterState.step, addNode]
    split
    · exact ⟨rfl, rfl⟩
    · rename_i other
      split
      · exact ⟨rfl, rfl⟩
      · rename_i u connected
        simp [other, connected, Except.toBool] at not
  | removeNode nodeId now => cases not
  | heartbeat nodeId probe elapsedMs now =>
    simp only [ClusterState.recounts] at not
    simp only [ClusterState.step, heartbeat]
    split at not
    · exact ⟨rfl, rfl⟩
    · rename_i node found
      simp only [Bool.not_eq_false'] at not
      simp only [not, if_true]
      refine ⟨rfl, checkQuorum_modify _ found ?_⟩
      -- it had failed before, so it was unreachable already
      simp only [reconnects, Bool.and_eq_true, beq_iff_eq, decide_eq_true_eq] at not
      obtain ⟨rfl, often⟩ := not
      have failing : node.consecutiveFailures ≠ 0 := by
        intro none_yet
        rw [none_yet] at often
        simp only [zero_add, Nat.one_mod_eq_one.2 (by decide : 2 ^ 32 ≠ 1)] at often
        omega
      have unreachable : node.health = .unreachable := by
        by_contra available
        exact failing (counted node (node_eq_some found).1 available)
      rw [unreachable]
      rfl

end

/-! ## Runs -/

theorem run_append (config : ClusterManagerConfig) (s : ClusterState) (steps : List ManagerStep)
    (step : ManagerStep) : s.run config (steps ++ [step]) = (s.run config steps).step config step := by
  simp [ClusterState.run]

theorem run_counted (config : ClusterManagerConfig) (id : Nat) (now : Instant)
    (steps : List ManagerStep) : ((ClusterState.new id now).run config steps).Counted := by
  induction steps using List.reverseRecOn with
  | nil =>
    intro n member
    cases member
  | append_singleton steps step ih =>
    rw [run_append]
    exact ih.step step

/-- Once it has been computed, `has_quorum` is right after every step; before, it is `false`. -/
theorem run_quorum (config : ClusterManagerConfig) (threshold : 2 ≤ config.failureThreshold)
    (id : Nat) (now : Instant) (steps : List ManagerStep) :
    ((ClusterState.new id now).run config steps).QuorumFresh ∨
      (¬ Recounted config (.new id now) steps ∧
        ((ClusterState.new id now).run config steps).hasQuorum = false) := by
  induction steps using List.reverseRecOn with
  | nil =>
    refine .inr ⟨?_, rfl⟩
    rintro ⟨before, step, after, empty, -⟩
    simp at empty
  | append_singleton steps step ih =>
    rw [run_append]
    by_cases recounted : ((ClusterState.new id now).run config steps).recounts config step = true
    · exact .inl (step_recounts recounted)
    · have kept := step_keeps (run_counted config id now steps) threshold
        (Bool.eq_false_iff.2 recounted)
      rcases ih with fresh | ⟨never, no⟩
      · refine .inl ?_
        rw [ClusterState.QuorumFresh, kept.1, kept.2]
        exact fresh
      · refine .inr ⟨?_, kept.1.trans no⟩
        rintro ⟨before, other, after, split, there⟩
        rcases List.eq_nil_or_concat after with rfl | ⟨after, last, rfl⟩
        · obtain ⟨rfl, same⟩ := List.append_inj' split rfl
          cases same
          exact recounted there
        · rw [List.concat_eq_append, ← List.cons_append, ← List.append_assoc] at split
          obtain ⟨rfl, -⟩ := List.append_inj' split rfl
          exact never ⟨before, other, after, rfl, there⟩

theorem majority_of_checkQuorum {s : ClusterState} (quorum : s.checkQuorum = true) :
    s.totalNodeCount < 2 * (s.availableNodeCount + 1) := by
  simp only [ClusterState.checkQuorum, decide_eq_true_eq] at quorum
  omega

/-- **The flags.** A new manager has no quorum and knows no partition. In every run, a removal
and a heartbeat turn that ends without a reconnection leave both flags right, an added node and
discovered peers leave `has_quorum` right; and where one failure is not enough for a reconnection,
`has_quorum` stays right after every step from its first computation on, so that the manager
accepts writes only while a majority of the known nodes is marked available. -/
theorem cluster_flags (config : ClusterManagerConfig) (id : Nat) (now : Instant)
    (steps : List ManagerStep) :
    ((ClusterState.new id now).hasQuorum = false ∧
      (ClusterState.new id now).partitionStatus = .unknown) ∧
    (∀ step, ((ClusterState.new id now).run config steps).refreshes config step = true →
      ((ClusterState.new id now).run config (steps ++ [step])).QuorumFresh ∧
        ((ClusterState.new id now).run config (steps ++ [step])).PartitionFresh) ∧
    (∀ step, ((ClusterState.new id now).run config steps).recounts config step = true →
      ((ClusterState.new id now).run config (steps ++ [step])).QuorumFresh) ∧
    (2 ≤ config.failureThreshold →
      (Recounted config (.new id now) steps → ((ClusterState.new id now).run config steps).QuorumFresh) ∧
        (((ClusterState.new id now).run config steps).canWrite = true →
          ((ClusterState.new id now).run config steps).totalNodeCount <
            2 * (((ClusterState.new id now).run config steps).availableNodeCount + 1))) := by
  refine ⟨⟨rfl, rfl⟩, fun step here => ?_, fun step here => ?_,
    fun threshold => ⟨fun counted => ?_, fun can => ?_⟩⟩
  · rw [run_append]
    exact step_refreshes here
  · rw [run_append]
    exact step_recounts here
  · rcases run_quorum config threshold id now steps with fresh | ⟨never, -⟩
    · exact fresh
    · exact absurd counted never
  · have quorum : ((ClusterState.new id now).run config steps).hasQuorum = true := by
      simp only [ClusterState.canWrite, ClusterState.shouldAcceptWrites, Bool.and_eq_true] at can
      exact can.1
    rcases run_quorum config threshold id now steps with fresh | ⟨-, no⟩
    · exact majority_of_checkQuorum (fresh.symm.trans quorum)
    · rw [no] at quorum
      cases quorum

/-- A manager without peers has its quorum, and does not say so. -/
theorem new_manager_flags_stale :
    ¬ (ClusterState.new 1 0).QuorumFresh ∧ ¬ (ClusterState.new 1 0).PartitionFresh := by
  constructor
  · rw [ClusterState.QuorumFresh]
    decide
  · rw [ClusterState.PartitionFresh]
    decide

/-! ## Removing nodes -/

/-- `a - b` of two `usize`; `none` where it underflows. -/
def checkedSub (a b : Nat) : Option Nat := if b ≤ a then some (a - b) else none

/-- `can_remove_node`. -/
def ClusterState.canRemoveNode (s : ClusterState) (nodeId : Nat) : Option Bool :=
  match s.node nodeId with
  | none => some true
  | some node =>
    if !node.health.isAvailable then some true
    else do
      let totalAfter ← checkedSub s.totalNodeCount 1
      let others ← checkedSub s.availableNodeCount 1
      -- one for the local node
      let availableAfter := others + 1
      return availableAfter > totalAfter / 2

/-- A removal that `can_remove_node` allows. -/
def ClusterState.removeAllowed (s : ClusterState) (removal : Nat × Instant) : Option ClusterState :=
  if s.canRemoveNode removal.1 = some true then some (removeNode s removal.1 removal.2) else none

section Removal

variable {s s' : ClusterState} {id : Nat} {node : NodeState}

/-- An id takes its one node out of the map. -/
theorem erase_perm (found : s.node id = some node) :
    (node :: (s.erase id).nodes).Perm s.nodes := by
  obtain ⟨member, only⟩ := node_eq_some found
  have named : node.nodeId = id := by simpa using List.find?_some found
  obtain ⟨before, after, list⟩ := List.append_of_mem member
  have apart : ∀ n ∈ before ++ after, (n.nodeId != id) = true := by
    have nodup := s.nodup
    rw [list, List.map_append, List.map_cons] at nodup
    have fresh := (List.nodup_middle.1 nodup).notMem
    intro n there
    rw [← List.map_append] at fresh
    simp only [bne_iff_ne]
    intro same
    exact fresh (named ▸ same ▸ List.mem_map_of_mem there)
  have rest : (s.erase id).nodes = before ++ after := by
    show s.nodes.filter (fun n => n.nodeId != id) = before ++ after
    rw [list, List.filter_append, List.filter_cons_of_neg (by simp [named]), ← List.filter_append]
    exact List.filter_eq_self.2 apart
  rw [rest, list]
  exact List.perm_middle.symm

theorem erase_unknown (unknown : s.node id = none) : (s.erase id).nodes = s.nodes := by
  refine List.filter_eq_self.2 fun n member => ?_
  simpa using List.find?_eq_none.1 unknown n member

theorem erase_total (found : s.node id = some node) :
    s.totalNodeCount = (s.erase id).totalNodeCount + 1 := by
  have length := (erase_perm found).length_eq
  simp only [List.length_cons] at length
  simp only [ClusterState.totalNodeCount, ← length]

theorem erase_available (found : s.node id = some node) :
    s.availableNodeCount =
      (s.erase id).availableNodeCount + if node.health.isAvailable then 1 else 0 := by
  rw [ClusterState.availableNodeCount, ← (erase_perm found).countP_eq, List.countP_cons]
  rfl

/-- With a quorum, `can_remove_node` says whether there is one without the node. -/
theorem canRemoveNode_eq (quorum : s.checkQuorum = true) (id : Nat) :
    s.canRemoveNode id = some (s.erase id).checkQuorum := by
  unfold ClusterState.canRemoveNode
  cases found : s.node id with
  | none =>
    have total : (s.erase id).totalNodeCount = s.totalNodeCount := by
      rw [ClusterState.totalNodeCount, erase_unknown found, ClusterState.totalNodeCount]
    have available : (s.erase id).availableNodeCount = s.availableNodeCount := by
      rw [ClusterState.availableNodeCount, erase_unknown found, ClusterState.availableNodeCount]
    have same : (s.erase id).checkQuorum = s.checkQuorum := by
      rw [ClusterState.checkQuorum, ClusterState.checkQuorum, total, available]
    rw [same, quorum]
  | some node =>
    have total := erase_total found
    have available := erase_available found
    cases health : node.health.isAvailable with
    | false =>
      -- fewer nodes, and as many that are available
      rw [health, if_neg Bool.false_ne_true, Nat.add_zero] at available
      simp only [ClusterState.checkQuorum, decide_eq_true_eq] at quorum
      have still : (s.erase id).checkQuorum = true := by
        simp only [ClusterState.checkQuorum, decide_eq_true_eq]
        omega
      simp [health, still]
    | true =>
      rw [health, if_pos rfl] at available
      simp only [health, Bool.not_true, Bool.false_eq_true, if_false, checkedSub, total, available,
        Nat.le_add_left, if_true, Nat.add_sub_cancel]
      rfl

theorem removeAllowed_quorum {removal : Nat × Instant} (quorum : s.checkQuorum = true)
    (removed : s.removeAllowed removal = some s') : s'.checkQuorum = true := by
  unfold ClusterState.removeAllowed at removed
  split at removed
  · rename_i allowed
    cases removed
    rw [canRemoveNode_eq quorum] at allowed
    exact Option.some.inj allowed
  · cases removed

end Removal

/-- **Removals.** While there is a quorum, `can_remove_node` says exactly whether there is one
without the node, and no sequence of removals that it allows loses the quorum. -/
theorem removal_exact (s : ClusterState) (quorum : s.checkQuorum = true) :
    (∀ id, s.canRemoveNode id = some (s.erase id).checkQuorum) ∧
    ∀ removals s', exec ClusterState.removeAllowed s removals = some s' → s'.checkQuorum = true :=
  ⟨canRemoveNode_eq quorum, fun _ _ ran => exec_invariant_always
    (I := fun s => s.checkQuorum = true) (fun _ _ _ => removeAllowed_quorum) quorum ran⟩

/-- Three nodes of which one can be reached: this one may go only with the other. -/
def threeNodes : ClusterState :=
  { localNodeId := 1
    nodes := [(NodeState.new 2 "a").markHealthy 0 5, (NodeState.new 3 "b").markUnreachable 0]
    leaderId := none
    hasQuorum := true
    partitionStatus := .connected
    lastUpdated := 0
    nodup := by decide }

theorem removal_exact_sample :
    threeNodes.canRemoveNode 2 = some false ∧
      ∀ s', exec ClusterState.removeAllowed threeNodes [(3, 1), (2, 2)] = some s' →
        s'.checkQuorum = true := by
  have removals := removal_exact threeNodes (by decide)
  refine ⟨(removals.1 2).trans (by decide), removals.2 _⟩

end Save.Storage
