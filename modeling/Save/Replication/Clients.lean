import Save.Replication.Coordinator
import Mathlib.Data.List.AList

/-!
# The clients of the coordinator

`add_node`, `remove_node` and `sync_nodes` over the map of clients, and
`select_replica_nodes` (`replication/coordinator.rs`), which goes through the map in
whatever order it has. A synchronisation compares ids only, so that a node that is
listed with a new address keeps the client of the old one (`sync_follows_iff`). The
local node is never in the map, whatever the calls (`run_clean`), hence never
selected (`selected_replicas`).
-/

namespace Save.Replication
set_option autoImplicit false

/-- The fields that say where a client connects. -/
structure ReplicationClient where
  nodeId : Nat
  addr : String
  deriving DecidableEq, Repr

/-- The map of clients, one for each id. -/
abbrev Clients := AList fun _ : Nat => ReplicationClient

/-- `add_node`; `tls` is the outcome of loading the TLS configuration, if one is set. -/
def Clients.addNode (localNodeId : Nat) (clients : Clients) (nodeId : Nat) (addr : String)
    (tls : Except String Unit) : Clients × Except String Unit :=
  if nodeId = localNodeId then (clients, .ok ())
  else
    match tls with
    | .error e => (clients, .error e)
    | .ok () => (clients.insert nodeId ⟨nodeId, addr⟩, .ok ())

def Clients.removeNode (clients : Clients) (nodeId : Nat) : Clients := clients.erase nodeId

/-- The second loop of `sync_nodes`: `current` has the ids of the map before the first. -/
def Clients.addMissing (localNodeId : Nat) (current : List Nat) :
    List (Nat × String) → (Nat → Except String Unit) → Clients → Clients × Except String Unit
  | [], _, clients => (clients, .ok ())
  | (nodeId, addr) :: nodes, tls, clients =>
    if nodeId ∈ current then addMissing localNodeId current nodes (fun i => tls (i + 1)) clients
    else
      match clients.addNode localNodeId nodeId addr (tls 0) with
      | (clients', .error e) => (clients', .error e)
      | (clients', .ok ()) =>
        addMissing localNodeId current nodes (fun i => tls (i + 1)) clients'

/-- `sync_nodes`; `tls i` is what adding the `i`-th listed node meets. -/
def Clients.syncNodes (localNodeId : Nat) (clients : Clients) (nodes : List (Nat × String))
    (tls : Nat → Except String Unit) : Clients × Except String Unit :=
  let currentNodes := clients.keys
  let newNodes := nodes.map Prod.fst
  let gone := currentNodes.filter fun id => id ∉ newNodes
  Clients.addMissing localNodeId currentNodes nodes tls (gone.foldl Clients.removeNode clients)

inductive ClientsEvent where
  | addNode (nodeId : Nat) (addr : String) (tls : Except String Unit)
  | removeNode (nodeId : Nat)
  | syncNodes (nodes : List (Nat × String)) (tls : Nat → Except String Unit)

def Clients.step (localNodeId : Nat) (clients : Clients) : ClientsEvent → Clients
  | .addNode nodeId addr tls => (clients.addNode localNodeId nodeId addr tls).1
  | .removeNode nodeId => clients.removeNode nodeId
  | .syncNodes nodes tls => (clients.syncNodes localNodeId nodes tls).1

/-- The map after a sequence of calls on a new coordinator. -/
def Clients.run (localNodeId : Nat) (events : List ClientsEvent) : Clients :=
  events.foldl (Clients.step localNodeId) ∅

/-- The loop of `select_replica_nodes` over the map in its order. -/
def selectHealthy (healthy : Nat → Bool) (needed : Nat) : List Nat → List Nat → List Nat
  | [], healthyNodes => healthyNodes
  | nodeId :: order, healthyNodes =>
    if needed ≤ healthyNodes.length then healthyNodes
    else if healthy nodeId then selectHealthy healthy needed order (healthyNodes ++ [nodeId])
    else selectHealthy healthy needed order healthyNodes

/-- `select_replica_nodes` over the ids of the map in the order of its iteration. -/
def selectReplicas (healthy : Nat → Bool) (order : List Nat) (count : Nat) : List Nat :=
  let needed := count - 1
  if needed = 0 then [] else selectHealthy healthy needed order []

/-! ## The map -/

section

variable {localNodeId : Nat} {clients : Clients}

/-- The local node has no client, and a client connects for the id it is found under. -/
structure Clients.Clean (localNodeId : Nat) (clients : Clients) : Prop where
  self : localNodeId ∉ clients
  named : ∀ id client, clients.lookup id = some client → client.nodeId = id

theorem Clients.Clean.addNode (clean : clients.Clean localNodeId) (nodeId : Nat) (addr : String)
    (tls : Except String Unit) : (clients.addNode localNodeId nodeId addr tls).1.Clean localNodeId := by
  unfold Clients.addNode
  split
  · exact clean
  · rename_i other
    cases tls with
    | error e => exact clean
    | ok u =>
      refine ⟨fun member => ?_, fun id client found => ?_⟩
      · rcases (AList.mem_insert _).1 member with same | there
        · exact other same.symm
        · exact clean.self there
      · by_cases own : id = nodeId
        · subst own
          rw [AList.lookup_insert] at found
          cases found
          rfl
        · rw [AList.lookup_insert_ne own] at found
          exact clean.named id client found

theorem Clients.Clean.removeNode (clean : clients.Clean localNodeId) (nodeId : Nat) :
    (clients.removeNode nodeId).Clean localNodeId := by
  refine ⟨fun member => clean.self (AList.mem_erase.1 member).2, fun id client found => ?_⟩
  by_cases own : id = nodeId
  · subst own
    rw [Clients.removeNode, AList.lookup_erase] at found
    cases found
  · rw [Clients.removeNode, AList.lookup_erase_ne own] at found
    exact clean.named id client found

theorem Clients.Clean.removeNodes (clean : clients.Clean localNodeId) (ids : List Nat) :
    (ids.foldl Clients.removeNode clients).Clean localNodeId := by
  induction ids generalizing clients with
  | nil => exact clean
  | cons id ids ih => exact ih (clean.removeNode id)

theorem Clients.Clean.addMissing (clean : clients.Clean localNodeId) (current : List Nat)
    (nodes : List (Nat × String)) (tls : Nat → Except String Unit) :
    (Clients.addMissing localNodeId current nodes tls clients).1.Clean localNodeId := by
  induction nodes generalizing clients tls with
  | nil => exact clean
  | cons node nodes ih =>
    obtain ⟨nodeId, addr⟩ := node
    have added := clean.addNode nodeId addr (tls 0)
    rw [Clients.addMissing]
    split
    · exact ih clean _
    · split
      · rename_i clients' e same
        rw [same] at added
        exact added
      · rename_i clients' same
        rw [same] at added
        exact ih added _

/-- Whatever the calls, the local node has no client. -/
theorem run_clean (localNodeId : Nat) (events : List ClientsEvent) :
    (Clients.run localNodeId events).Clean localNodeId := by
  induction events using List.reverseRecOn with
  | nil => exact ⟨AList.notMem_empty _, fun id client found => by cases found⟩
  | append_singleton events event ih =>
    rw [Clients.run, List.foldl_append]
    cases event with
    | addNode nodeId addr tls => exact ih.addNode nodeId addr tls
    | removeNode nodeId => exact ih.removeNode nodeId
    | syncNodes nodes tls => exact (ih.removeNodes _).addMissing _ nodes tls

/-! ## Synchronisation -/

theorem lookup_removeNodes (clients : Clients) (ids : List Nat) (id : Nat) :
    (ids.foldl Clients.removeNode clients).lookup id = if id ∈ ids then none else clients.lookup id := by
  induction ids generalizing clients with
  | nil => simp
  | cons gone ids ih =>
    rw [List.foldl_cons, ih, Clients.removeNode]
    by_cases here : id = gone
    · subst here
      simp
    · simp [here, AList.lookup_erase_ne here]

/-- A node that is not new, or is the local one, keeps the client it has. -/
theorem lookup_addMissing_of_not_new {current : List Nat} {id : Nat} {nodes : List (Nat × String)}
    (old : id ∉ nodes.map Prod.fst ∨ id ∈ current ∨ id = localNodeId)
    (tls : Nat → Except String Unit) (clients : Clients) :
    (Clients.addMissing localNodeId current nodes tls clients).1.lookup id = clients.lookup id := by
  induction nodes generalizing clients tls with
  | nil => rfl
  | cons node nodes ih =>
    obtain ⟨nodeId, addr⟩ := node
    have later : id ∉ nodes.map Prod.fst ∨ id ∈ current ∨ id = localNodeId := by
      refine old.imp_left fun absent member => absent ?_
      exact List.mem_cons_of_mem _ member
    rw [Clients.addMissing]
    split
    · exact ih later _ _
    · rename_i missing
      have kept : (clients.addNode localNodeId nodeId addr (tls 0)).1.lookup id = clients.lookup id := by
        unfold Clients.addNode
        split
        · rfl
        · rename_i other
          cases tls 0 with
          | error e => rfl
          | ok u =>
            refine AList.lookup_insert_ne fun same => ?_
            subst same
            rcases old with absent | there | own
            · exact absent List.mem_cons_self
            · exact missing there
            · exact other own
      split
      · rename_i clients' e same
        rw [same] at kept
        exact kept
      · rename_i clients' same
        rw [same] at kept
        exact (ih later _ _).trans kept

/-- A new node gets a client for the address it is listed with. -/
theorem lookup_addMissing_of_new {current : List Nat} {id : Nat} {addr : String}
    {nodes : List (Nat × String)} (distinct : (nodes.map Prod.fst).Nodup) (listed : (id, addr) ∈ nodes)
    (new : id ∉ current) (other : id ≠ localNodeId) {tls : Nat → Except String Unit} {clients : Clients}
    (synced : (Clients.addMissing localNodeId current nodes tls clients).2 = .ok ()) :
    (Clients.addMissing localNodeId current nodes tls clients).1.lookup id = some ⟨id, addr⟩ := by
  induction nodes generalizing clients tls with
  | nil => cases listed
  | cons node nodes ih =>
    obtain ⟨nodeId, addr'⟩ := node
    obtain ⟨fresh, distinct⟩ := List.nodup_cons.1 distinct
    rw [Clients.addMissing] at synced ⊢
    rcases List.mem_cons.1 listed with here | later
    · cases here
      rw [if_neg new] at synced ⊢
      have added : (clients.addNode localNodeId id addr (tls 0)).2 = .ok () →
          (clients.addNode localNodeId id addr (tls 0)).1.lookup id = some ⟨id, addr⟩ := by
        unfold Clients.addNode
        rw [if_neg other]
        cases tls 0 with
        | error e => exact fun never => by cases never
        | ok u => exact fun _ => AList.lookup_insert _
      split at synced
      · cases synced
      · rename_i clients' same
        rw [same] at added
        exact (lookup_addMissing_of_not_new (.inl fresh) _ _).trans (added rfl)
    · by_cases known : nodeId ∈ current
      · rw [if_pos known] at synced ⊢
        exact ih distinct later synced
      · rw [if_neg known] at synced ⊢
        split at synced
        · cases synced
        · exact ih distinct later synced

/-- The map follows the list: clients for the listed nodes other than the local one, each for the
address its node is listed with. -/
structure Clients.Follows (localNodeId : Nat) (nodes : List (Nat × String)) (clients : Clients) :
    Prop where
  ids : ∀ id, id ∈ clients ↔ id ∈ nodes.map Prod.fst ∧ id ≠ localNodeId
  endpoints : ∀ id addr, (id, addr) ∈ nodes → ∀ client, clients.lookup id = some client →
    client.addr = addr

/-- What a synchronisation leaves for an id. -/
theorem lookup_syncNodes {nodes : List (Nat × String)} {tls : Nat → Except String Unit} {id : Nat}
    (old : id ∉ nodes.map Prod.fst ∨ id ∈ clients ∨ id = localNodeId) :
    (clients.syncNodes localNodeId nodes tls).1.lookup id =
      if id ∈ nodes.map Prod.fst then clients.lookup id else none := by
  have old' : id ∉ nodes.map Prod.fst ∨ id ∈ clients.keys ∨ id = localNodeId := by
    simpa only [AList.mem_keys] using old
  rw [Clients.syncNodes, lookup_addMissing_of_not_new old', lookup_removeNodes]
  by_cases listed : id ∈ nodes.map Prod.fst
  · simp [listed]
  · by_cases there : id ∈ clients
    · have gone : id ∈ clients.keys.filter fun id => id ∉ nodes.map Prod.fst :=
        List.mem_filter.2 ⟨AList.mem_keys.1 there, by simpa using listed⟩
      rw [if_pos gone, if_neg listed]
    · rw [AList.lookup_eq_none.2 there, if_neg listed, ite_self]

/-- **Synchronisation.** When `sync_nodes` succeeds, the map follows the list exactly when no listed
node had a client for another address. -/
theorem sync_follows_iff (localNodeId : Nat) (events : List ClientsEvent)
    {nodes : List (Nat × String)} (distinct : (nodes.map Prod.fst).Nodup)
    {tls : Nat → Except String Unit}
    (synced : ((Clients.run localNodeId events).syncNodes localNodeId nodes tls).2 = .ok ()) :
    ((Clients.run localNodeId events).syncNodes localNodeId nodes tls).1.Follows localNodeId nodes ↔
      ∀ id addr, (id, addr) ∈ nodes → ∀ client, (Clients.run localNodeId events).lookup id = some client →
        client.addr = addr := by
  have clean := run_clean localNodeId events
  generalize Clients.run localNodeId events = clients at clean synced ⊢
  constructor
  · intro follows id addr listed client found
    have there : id ∈ clients := AList.lookup_isSome.1 (by rw [found]; rfl)
    have kept : (clients.syncNodes localNodeId nodes tls).1.lookup id = _ :=
      lookup_syncNodes (.inr (.inl there))
    rw [if_pos (List.mem_map_of_mem listed), found] at kept
    exact follows.endpoints id addr listed client kept
  · intro unchanged
    have added : ∀ id addr, (id, addr) ∈ nodes → id ∉ clients → id ≠ localNodeId →
        (clients.syncNodes localNodeId nodes tls).1.lookup id = some ⟨id, addr⟩ :=
      fun id addr listed new other => lookup_addMissing_of_new distinct listed
        (by simpa only [AList.mem_keys] using new) other synced
    refine ⟨fun id => ?_, fun id addr listed client found => ?_⟩
    · rw [← AList.lookup_isSome]
      by_cases there : id ∈ clients
      · have other : id ≠ localNodeId := by
          rintro rfl
          exact clean.self there
        rw [lookup_syncNodes (.inr (.inl there))]
        by_cases listed : id ∈ nodes.map Prod.fst
        · rw [if_pos listed]
          exact iff_of_true (AList.lookup_isSome.2 there) ⟨listed, other⟩
        · rw [if_neg listed]
          exact iff_of_false Bool.false_ne_true fun both => listed both.1
      · by_cases listed : id ∈ nodes.map Prod.fst
        · by_cases own : id = localNodeId
          · rw [lookup_syncNodes (.inr (.inr own)), if_pos listed, AList.lookup_eq_none.2 there]
            exact iff_of_false Bool.false_ne_true fun both => both.2 own
          · obtain ⟨⟨id, addr⟩, member, rfl⟩ := List.mem_map.1 listed
            rw [added id addr member there own]
            exact iff_of_true rfl ⟨listed, own⟩
        · rw [lookup_syncNodes (.inl listed), if_neg listed]
          exact iff_of_false Bool.false_ne_true fun both => listed both.1
    · have named := List.mem_map_of_mem (f := Prod.fst) listed
      by_cases there : id ∈ clients
      · rw [lookup_syncNodes (.inr (.inl there)), if_pos named] at found
        exact unchanged id addr listed client found
      · by_cases own : id = localNodeId
        · rw [lookup_syncNodes (.inr (.inr own)), if_pos named, AList.lookup_eq_none.2 there] at found
          cases found
        · rw [added id addr listed there own] at found
          cases found
          rfl

/-- A node that is listed again, and one that is new. -/
theorem sync_follows_sample :
    ((Clients.run 1 [.addNode 2 "http://b:9002" (.ok ())]).syncNodes 1
      [(2, "http://b:9002"), (3, "http://c:9002")] fun _ => .ok ()).1.Follows 1
      [(2, "http://b:9002"), (3, "http://c:9002")] := by
  refine (sync_follows_iff 1 [.addNode 2 "http://b:9002" (.ok ())] (by decide) rfl).2 ?_
  intro id addr listed client found
  rcases List.mem_cons.1 listed with same | listed
  · cases same
    cases found
    rfl
  · cases List.mem_singleton.1 listed
    cases found

/-- A node that comes back under a new address keeps the client of the old one. -/
theorem moved_node_not_followed :
    ¬ ∀ (localNodeId : Nat) (events : List ClientsEvent) (nodes : List (Nat × String))
      (tls : Nat → Except String Unit), (nodes.map Prod.fst).Nodup →
      ((Clients.run localNodeId events).syncNodes localNodeId nodes tls).2 = .ok () →
      ((Clients.run localNodeId events).syncNodes localNodeId nodes tls).1.Follows localNodeId nodes := by
  intro claim
  have follows := claim 1 [.addNode 2 "http://b:9002" (.ok ())] [(2, "http://c:9002")]
    (fun _ => .ok ()) (by decide) rfl
  have endpoint := follows.endpoints 2 "http://c:9002" List.mem_cons_self ⟨2, "http://b:9002"⟩ rfl
  revert endpoint
  decide

/-! ## Selection -/

theorem selectHealthy_eq (healthy : Nat → Bool) (needed : Nat) (order : List Nat)
    {healthyNodes : List Nat} (room : healthyNodes.length ≤ needed) :
    selectHealthy healthy needed order healthyNodes =
      healthyNodes ++ (order.filter healthy).take (needed - healthyNodes.length) := by
  induction order generalizing healthyNodes with
  | nil => simp [selectHealthy]
  | cons nodeId order ih =>
    rw [selectHealthy]
    by_cases full : needed ≤ healthyNodes.length
    · simp [full]
    · rw [if_neg full]
      by_cases well : healthy nodeId = true
      · have rest : selectHealthy healthy needed order (healthyNodes ++ [nodeId]) = _ :=
          ih (by simp only [List.length_append, List.length_singleton]; omega)
        have more : needed - healthyNodes.length = needed - (healthyNodes.length + 1) + 1 := by omega
        rw [if_pos well, rest, List.filter_cons_of_pos well, more]
        simp
      · rw [if_neg well, ih room, List.filter_cons_of_neg well]

/-- The first healthy nodes in the order of the map. -/
theorem selectReplicas_eq (healthy : Nat → Bool) (order : List Nat) (count : Nat) :
    selectReplicas healthy order count = (order.filter healthy).take (count - 1) := by
  simp only [selectReplicas]
  split
  · rename_i none
    rw [none, List.take_zero]
  · rw [selectHealthy_eq healthy _ order (Nat.zero_le _), List.nil_append, List.length_nil, Nat.sub_zero]

/-- A replicated write selects its nodes so. -/
theorem selectReplicaNodes_eq (faults : Faults) (count : Nat) :
    selectReplicaNodes faults count =
      selectReplicas (fun i => (faults.participants i).healthy) faults.clients count :=
  (selectReplicas_eq _ _ _).symm

/-- **Selection.** Whatever the calls before, in whatever order the map is gone through and whichever
nodes are healthy, the selected nodes are distinct, healthy and never the local one, and as many as
are needed and there are. -/
theorem selected_replicas (localNodeId : Nat) (events : List ClientsEvent) {order : List Nat}
    (iterates : order.Perm (Clients.run localNodeId events).keys) (healthy : Nat → Bool) (count : Nat) :
    (selectReplicas healthy order count).Nodup ∧
    localNodeId ∉ selectReplicas healthy order count ∧
    (∀ id ∈ selectReplicas healthy order count,
      id ∈ Clients.run localNodeId events ∧ healthy id = true) ∧
    (selectReplicas healthy order count).length =
      min (count - 1) ((Clients.run localNodeId events).keys.countP healthy) := by
  have clean := run_clean localNodeId events
  rw [selectReplicas_eq]
  have chosen : ∀ id ∈ (order.filter healthy).take (count - 1),
      id ∈ Clients.run localNodeId events ∧ healthy id = true := by
    intro id member
    obtain ⟨there, well⟩ := List.mem_filter.1 (List.mem_of_mem_take member)
    exact ⟨AList.mem_keys.2 (iterates.mem_iff.1 there), well⟩
  refine ⟨?_, fun self => clean.self (chosen _ self).1, chosen, ?_⟩
  · have distinct : order.Nodup := iterates.nodup_iff.2 (AList.keys_nodup _)
    exact ((List.take_sublist _ _).trans List.filter_sublist).nodup distinct
  · rw [List.length_take, ← List.countP_eq_length_filter, iterates.countP_eq]

theorem selected_replicas_sample :
    (selectReplicas (fun i => i != 3) [4, 3, 2] 3).length = 2 := by
  have events : [4, 3, 2].Perm (Clients.run 1 [.addNode 2 "b" (.ok ()), .addNode 3 "c" (.ok ()),
      .syncNodes [(1, "a"), (2, "b"), (3, "c"), (4, "d")] fun _ => .ok ()]).keys := by decide
  exact (selected_replicas 1 _ events (fun i => i != 3) 3).2.2.2.trans (by decide)

end

end Save.Replication
