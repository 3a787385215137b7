import Save.Common.Validation

/-!
# Peers

`cluster.rs` of the common crate: the five fields of a peer, and the text they
are configured as. A node that joins prints its own peer, which it has from its
bind addresses; what `parse_peer` makes of that text is the same peer exactly when
the host has no colon, as the bind addresses allow one (`peer_spec_iff`).
-/

namespace Save.Common
set_option autoImplicit false
open Save.Text

structure PeerInfo where
  nodeId : Nat
  host : String
  raftPort : Nat
  httpPort : Nat
  replicationPort : Nat
  deriving DecidableEq, Repr

def PeerInfo.httpAddr (p : PeerInfo) : String := "http://" ++ p.host ++ ":" ++ toString p.httpPort

/-- `str::parse` for an unsigned type with values below `bound`. -/
def parseUnsigned (bound : Nat) (s : String) : Option Nat :=
  let digits := match s.toList with
    | '+' :: rest => rest
    | chars => chars
  if digits.isEmpty || !digits.all Char.isDigit then none
  else
    let n := Nat.ofDigitChars 10 digits 0
    if n < bound then some n else none

/-- One field of a peer. -/
def parseField (bound : Nat) (name expected peer field : String) : Except Error Nat :=
  match parseUnsigned bound field with
  | none => .error (.validation ("Invalid " ++ name ++ " in peer '" ++ peer ++ "'. Expected " ++ expected))
  | some n => .ok n

def parsePeer (peer : String) : Except Error PeerInfo :=
  match (peer.toList.splitOn ':').map String.ofList with
  | [node, host, raft, http, replication] => do
    let nodeId ← parseField (2 ^ 64) "node_id" "numeric value" peer node
    let raftPort ← parseField (2 ^ 16) "raft_port" "numeric value 1-65535" peer raft
    let httpPort ← parseField (2 ^ 16) "http_port" "numeric value 1-65535" peer http
    let replicationPort ←
      parseField (2 ^ 16) "replication_port" "numeric value 1-65535" peer replication
    return ⟨nodeId, host, raftPort, httpPort, replicationPort⟩
  | _ => .error (.validation ("Invalid peer format '" ++ peer ++
      "'. Expected 'node_id:host:raft_port:http_port:replication_port'"))

def parsePeers (peers : List String) : Except Error (List PeerInfo) := peers.mapM parsePeer

example : parsePeer "1:localhost:9001:9000:9002" = .ok ⟨1, "localhost", 9001, 9000, 9002⟩ := by
  decide +kernel

/-- A bind address: the host is all that stands before the last colon. -/
def parseBindAddr (addr : String) : Except Error (String × Nat) :=
  match splitLast addr ':' with
  | none => .error (.validation ("Invalid bind address '" ++ addr ++ "'. Expected 'host:port' format"))
  | some (host, portStr) =>
    match parseUnsigned (2 ^ 16) portStr with
    | none => .error (.validation ("Invalid port in bind address '" ++ addr ++
        "'. Expected numeric value 1-65535"))
    | some port => .ok (host, port)

def PeerInfo.fromBindAddrs (nodeId : Nat) (raftBind httpBind replicationBind : String) :
    Except Error PeerInfo := do
  let (host, raftPort) ← parseBindAddr raftBind
  let (_, httpPort) ← parseBindAddr httpBind
  let (_, replicationPort) ← parseBindAddr replicationBind
  return ⟨nodeId, host, raftPort, httpPort, replicationPort⟩

/-- The `node_spec` of `join_via_leader`. -/
def PeerInfo.nodeSpec (p : PeerInfo) : String :=
  toString p.nodeId ++ ":" ++ p.host ++ ":" ++ toString p.raftPort ++ ":" ++ toString p.httpPort ++
    ":" ++ toString p.replicationPort

/-! ## Numbers -/

section

variable {bound n : Nat} {s : String}

theorem toString_toList (n : Nat) : (toString n).toList = Nat.toDigits 10 n := by simp

theorem toString_digits (n : Nat) : ∀ c ∈ (toString n).toList, c.isDigit = true := by
  rw [toString_toList]
  exact fun c => Nat.isDigit_of_mem_toDigits (by decide) (by decide)

/-- A printed number has no character that is not a digit. -/
theorem toString_without (n : Nat) {c : Char} (other : c.isDigit = false) :
    containsChar (toString n) c = false := by
  rw [containsChar_eq_false]
  intro member
  rw [toString_digits n c member] at other
  cases other

/-- The digits of a number behind its sign. -/
def unsignedDigits (s : String) : List Char :=
  match s.toList with
  | '+' :: rest => rest
  | chars => chars

theorem parseUnsigned_eq_some :
    parseUnsigned bound s = some n ↔ unsignedDigits s ≠ [] ∧
      (∀ c ∈ unsignedDigits s, c.isDigit = true) ∧
      Nat.ofDigitChars 10 (unsignedDigits s) 0 = n ∧ n < bound := by
  have unfolded : parseUnsigned bound s =
      if (unsignedDigits s).isEmpty || !(unsignedDigits s).all Char.isDigit then none
      else if Nat.ofDigitChars 10 (unsignedDigits s) 0 < bound then
        some (Nat.ofDigitChars 10 (unsignedDigits s) 0) else none := rfl
  rw [unfolded]
  split
  · rename_i bad
    refine iff_of_false (by simp) ?_
    rintro ⟨nonempty, digits, -⟩
    simp only [Bool.or_eq_true, List.isEmpty_iff, Bool.not_eq_true', List.all_eq_false] at bad
    rcases bad with empty | ⟨c, member, other⟩
    · exact nonempty empty
    · exact other (digits c member)
  · rename_i good
    simp only [Bool.or_eq_true, List.isEmpty_iff, Bool.not_eq_true', not_or, Bool.not_eq_false,
      List.all_eq_true] at good
    split
    · rename_i small
      constructor
      · rintro ⟨⟩
        exact ⟨good.1, good.2, rfl, small⟩
      · rintro ⟨-, -, rfl, -⟩
        rfl
    · rename_i large
      refine iff_of_false (by simp) ?_
      rintro ⟨-, -, rfl, small⟩
      exact large small

/-- Without a sign all characters are digits. -/
theorem unsignedDigits_eq (unsigned : s.toList.head? ≠ some '+') : unsignedDigits s = s.toList := by
  unfold unsignedDigits
  split
  · rename_i rest signed
    rw [signed] at unsigned
    exact absurd rfl unsigned
  · rfl

theorem parseUnsigned_toString (small : n < bound) : parseUnsigned bound (toString n) = some n := by
  have unsigned : (toString n).toList.head? ≠ some '+' := by
    intro signed
    have digit := toString_digits n '+' (List.mem_of_mem_head? signed)
    cases digit
  rw [parseUnsigned_eq_some, unsignedDigits_eq unsigned]
  refine ⟨?_, toString_digits n, ?_, small⟩
  · rw [toString_toList]
    exact Nat.toDigits_ne_nil
  · rw [toString_toList, Nat.ofDigitChars_ten_toDigits]

/-- A number in canonical decimal form: no sign, and no zero in front. -/
def Canonical (s : String) : Prop :=
  s = "0" ∨ (s.toList.head? ≠ some '0' ∧ s.toList.head? ≠ some '+')

theorem toString_of_canonical (parsed : parseUnsigned bound s = some n) (canonical : Canonical s) :
    toString n = s := by
  obtain ⟨nonempty, digits, rfl, -⟩ := parseUnsigned_eq_some.1 parsed
  rcases canonical with rfl | ⟨leading, unsigned⟩
  · rfl
  · rw [unsignedDigits_eq unsigned] at nonempty digits ⊢
    rw [← String.toList_inj, toString_toList, toDigits_ofDigitChars digits nonempty leading]

end

/-! ## Peers as text -/

private theorem bind_eq_ok {ε α β : Type} {x : Except ε α} {f : α → Except ε β} {b : β} :
    x >>= f = .ok b ↔ ∃ a, x = .ok a ∧ f a = .ok b := by
  cases x <;> simp [bind, Except.bind]

theorem parseField_eq_ok {bound n : Nat} {name expected peer field : String} :
    parseField bound name expected peer field = .ok n ↔ parseUnsigned bound field = some n := by
  unfold parseField
  cases parseUnsigned bound field <;> simp

theorem parsePeer_eq_ok {peer : String} {p : PeerInfo} :
    parsePeer peer = .ok p ↔ ∃ node raft http replication,
      split peer ':' = [node, p.host, raft, http, replication] ∧
      parseUnsigned (2 ^ 64) node = some p.nodeId ∧ parseUnsigned (2 ^ 16) raft = some p.raftPort ∧
      parseUnsigned (2 ^ 16) http = some p.httpPort ∧
      parseUnsigned (2 ^ 16) replication = some p.replicationPort := by
  unfold parsePeer
  rw [show (peer.toList.splitOn ':').map String.ofList = split peer ':' from rfl]
  split
  · rename_i node host raft http replication parts
    simp only [bind_eq_ok, parseField_eq_ok, pure, Except.pure, Except.ok.injEq, parts]
    constructor
    · rintro ⟨nodeId, first, raftPort, second, httpPort, third, replicationPort, fourth, rfl⟩
      exact ⟨node, raft, http, replication, rfl, first, second, third, fourth⟩
    · rintro ⟨_, _, _, _, same, first, second, third, fourth⟩
      cases same
      exact ⟨p.nodeId, first, p.raftPort, second, p.httpPort, third, p.replicationPort, fourth, rfl⟩
  · rename_i other
    refine iff_of_false (by simp) ?_
    rintro ⟨node, raft, http, replication, parts, -⟩
    exact other node p.host raft http replication parts

theorem parseBindAddr_eq_ok {addr host : String} {port : Nat}
    (parsed : parseBindAddr addr = .ok (host, port)) :
    (∃ portStr : String, addr.toList = host.toList ++ ':' :: portStr.toList ∧ ':' ∉ portStr.toList) ∧
      port < 2 ^ 16 := by
  unfold parseBindAddr at parsed
  split at parsed
  · cases parsed
  · rename_i host' portStr cut
    split at parsed
    · cases parsed
    · rename_i port' number
      cases parsed
      exact ⟨⟨portStr, splitLast_spec cut⟩, (parseUnsigned_eq_some.1 number).2.2.2⟩

/-- Numbers as a peer has them. -/
structure PeerInfo.Sized (p : PeerInfo) : Prop where
  nodeId : p.nodeId < 2 ^ 64
  raftPort : p.raftPort < 2 ^ 16
  httpPort : p.httpPort < 2 ^ 16
  replicationPort : p.replicationPort < 2 ^ 16

/-- The host of a peer is what stands before the last colon of the Raft address. -/
theorem fromBindAddrs_eq_ok {nodeId : Nat} {raftBind httpBind replicationBind : String} {p : PeerInfo}
    (accepted : PeerInfo.fromBindAddrs nodeId raftBind httpBind replicationBind = .ok p)
    (node : nodeId < 2 ^ 64) :
    p.Sized ∧ ∃ portStr : String, raftBind.toList = p.host.toList ++ ':' :: portStr.toList ∧
      ':' ∉ portStr.toList := by
  unfold PeerInfo.fromBindAddrs at accepted
  obtain ⟨⟨host, raftPort⟩, raft, accepted⟩ := bind_eq_ok.1 accepted
  obtain ⟨⟨httpHost, httpPort⟩, http, accepted⟩ := bind_eq_ok.1 accepted
  obtain ⟨⟨replicationHost, replicationPort⟩, replication, accepted⟩ := bind_eq_ok.1 accepted
  cases accepted
  obtain ⟨cut, small⟩ := parseBindAddr_eq_ok raft
  exact ⟨⟨node, small, (parseBindAddr_eq_ok http).2, (parseBindAddr_eq_ok replication).2⟩, cut⟩

theorem nodeSpec_eq_join (p : PeerInfo) : p.nodeSpec = join ':' [toString p.nodeId, p.host,
    toString p.raftPort, toString p.httpPort, toString p.replicationPort] := by
  rw [join_cons_cons, join_cons_cons, join_cons_cons, join_cons_cons, join_singleton]
  simp only [PeerInfo.nodeSpec, String.append_assoc]
  rfl

/-- A peer is read back from its text when its host has no colon. -/
theorem parsePeer_nodeSpec {p : PeerInfo} (sized : p.Sized) :
    parsePeer p.nodeSpec = .ok p ↔ containsChar p.host ':' = false := by
  constructor
  · intro parsed
    obtain ⟨node, raft, http, replication, parts, -⟩ := parsePeer_eq_ok.1 parsed
    have part : p.host ∈ split p.nodeSpec ':' := by simp [parts]
    exact (mem_split part).1
  · intro free
    have parts : split p.nodeSpec ':' = [toString p.nodeId, p.host, toString p.raftPort,
        toString p.httpPort, toString p.replicationPort] := by
      rw [nodeSpec_eq_join]
      refine split_join (fun part member => ?_) (by simp)
      have number (n : Nat) : containsChar (toString n) ':' = false := toString_without n rfl
      simp only [List.mem_cons, List.not_mem_nil, or_false] at member
      rcases member with rfl | rfl | rfl | rfl | rfl
      · exact number _
      · exact free
      · exact number _
      · exact number _
      · exact number _
    exact parsePeer_eq_ok.2 ⟨_, _, _, _, parts, parseUnsigned_toString sized.nodeId,
      parseUnsigned_toString sized.raftPort, parseUnsigned_toString sized.httpPort,
      parseUnsigned_toString sized.replicationPort⟩

/-- The numbers of a peer's text are in canonical decimal form. -/
def CanonicalSpec (peer : String) : Prop :=
  ∀ node host raft http replication, split peer ':' = [node, host, raft, http, replication] →
    Canonical node ∧ Canonical raft ∧ Canonical http ∧ Canonical replication

/-- Text with canonical numbers is printed again. -/
theorem nodeSpec_of_parsePeer {peer : String} {p : PeerInfo} (parsed : parsePeer peer = .ok p)
    (canonical : CanonicalSpec peer) : p.nodeSpec = peer := by
  obtain ⟨node, raft, http, replication, parts, first, second, third, fourth⟩ :=
    parsePeer_eq_ok.1 parsed
  obtain ⟨nodeForm, raftForm, httpForm, replicationForm⟩ := canonical _ _ _ _ _ parts
  rw [nodeSpec_eq_join, toString_of_canonical first nodeForm, toString_of_canonical second raftForm,
    toString_of_canonical third httpForm, toString_of_canonical fourth replicationForm, ← parts,
    join_split]

/-- **Peers as text.** The peer of accepted bind addresses is read back from the text a joining node
sends exactly when the Raft address has one colon; text that `parse_peer` accepts, with canonical
numbers, is what its peer is printed as. -/
theorem peer_spec_iff {nodeId : Nat} (node : nodeId < 2 ^ 64)
    {raftBind httpBind replicationBind : String} {p : PeerInfo}
    (accepted : PeerInfo.fromBindAddrs nodeId raftBind httpBind replicationBind = .ok p) :
    (parsePeer p.nodeSpec = .ok p ↔ raftBind.toList.count ':' = 1) ∧
    ∀ peer q, parsePeer peer = .ok q → CanonicalSpec peer → q.nodeSpec = peer := by
  refine ⟨?_, fun peer q parsed canonical => nodeSpec_of_parsePeer parsed canonical⟩
  obtain ⟨sized, portStr, cut, port⟩ := fromBindAddrs_eq_ok accepted node
  rw [parsePeer_nodeSpec sized, containsChar_eq_false, cut, List.count_append, List.count_cons_self,
    List.count_eq_zero.2 port, ← List.count_eq_zero]
  omega

theorem peer_spec_sample : parsePeer "1:0.0.0.0:9001:9000:9002" = .ok ⟨1, "0.0.0.0", 9001, 9000, 9002⟩ := by
  have accepted : PeerInfo.fromBindAddrs 1 "0.0.0.0:9001" "0.0.0.0:9000" "0.0.0.0:9002" =
      .ok ⟨1, "0.0.0.0", 9001, 9000, 9002⟩ := by decide +kernel
  exact (peer_spec_iff (by decide) accepted).1.2 (by decide +kernel)

/-- A node that binds an IPv6 address cannot send its peer. -/
theorem colon_host_not_read_back :
    ¬ ∀ (nodeId : Nat) (raftBind httpBind replicationBind : String) (p : PeerInfo), nodeId < 2 ^ 64 →
      PeerInfo.fromBindAddrs nodeId raftBind httpBind replicationBind = .ok p →
      parsePeer p.nodeSpec = .ok p := by
  intro claim
  have accepted : PeerInfo.fromBindAddrs 1 "[::]:9001" "[::]:9000" "[::]:9002" =
      .ok ⟨1, "[::]", 9001, 9000, 9002⟩ := by decide +kernel
  have parsed := claim 1 _ _ _ _ (by decide) accepted
  revert parsed
  decide +kernel

end Save.Common
