import Save.Api.Forward
import Save.Api.Routes

/-!
# In front of the handlers

`lib.rs` puts the routes behind layers, which `middleware.rs` and `auth.rs` define: a
write that comes to a node which is not the leader is sent on to the leader, a node
that is not initialised refuses what is not for its management, and the object API is
behind the signature check. Each node has its own view of who the leader is, and the
views need not agree.

`front_door_guards`: wherever a request enters and whatever the nodes believe, it
is answered after one hop at most, and an operation of the object API is called
at a node that has checked the signature of what it received, for the method,
path and query that it received. These are what came in, unless the request was sent on
and the follower's HTTP client rewrote them. `signature_names_operation`: one signature
is good for one operation.
-/

namespace Save.Api
set_option autoImplicit false
open Save.Text Save.Percent Save.Common Save.Storage

def isWriteMethod (method : String) : Bool := ["PUT", "POST", "DELETE", "PATCH"].contains method

/-- What the layers know of a node, and the node of its cluster. -/
structure FrontNode where
  isLeader : Bool
  leaderHttpAddr : Option String
  isInitialized : Bool
  auth : AuthEnv

/-- `forward_to_leader`: where the request is sent on to. -/
def FrontNode.forwardToLeader (node : FrontNode) (r : HttpRequest) : Option String :=
  if ["/metrics", "/health", "/health/ready", "/cluster/status"].contains r.path then none
  else if !isWriteMethod r.method then none
  else if isAlreadyForwarded r.headers then none
  else if node.isLeader then none
  else node.leaderHttpAddr

def exemptPaths : List String :=
  ["/cluster/initialize", "/cluster/status", "/cluster/members", "/cluster/members/promote",
    "/cluster/trigger-elect", "/health", "/health/ready", "/metrics"]

def isExemptFromInitializationCheck (path : String) : Bool :=
  exemptPaths.contains path ||
    (startsWith path "/cluster/members/" && path != "/cluster/members/promote")

/-- What becomes of a request at a node. -/
inductive Outcome where
  | reply (status : Nat)
  | unauthorized (error : AuthError)
  | manage (call : Management)
  | serve (operation : Operation)
  | forwarded (addr : String) (request : HttpRequest)

variable [Sha256] [HmacSha256] [FormUrlencoded] [ReqwestUrl]

/-- `app`: the layers from the outside in, and the routes behind them. -/
def app (node : FrontNode) (r : HttpRequest) : Outcome :=
  match node.forwardToLeader r with
  | some addr => .forwarded addr (transmit (forward r))
  | none =>
    if !isExemptFromInitializationCheck r.path && !node.isInitialized then .reply 503
    else
      match managementCall r with
      | some (.error status) => .reply status
      | some (.ok call) => .manage call
      | none =>
        match validateSigv4 node.auth r with
        | .error e => .unauthorized e
        | .ok _ =>
          match apiOperation r with
          | .error status => .reply status
          | .ok operation => .serve operation

/-- The node that answers a request, what it received and what becomes of it. -/
structure Answered where
  node : FrontNode
  request : HttpRequest
  outcome : Outcome

/-- The way of a request. An address leads to a node as it is when the request arrives there, or to
none; then the node that sent the request on answers that the gateway is bad. -/
def travel (nodes : Nat → String → Option FrontNode) :
    Nat → FrontNode → HttpRequest → Option Answered
  | 0, _, _ => none
  | hops + 1, node, r =>
    match app node r with
    | .forwarded addr r' =>
      match nodes hops addr with
      | none => some ⟨node, r, .reply 502⟩
      | some next => travel nodes hops next r'
    | outcome => some ⟨node, r, outcome⟩

/-- What is behind an answer. -/
structure Guarded (entry : FrontNode) (r : HttpRequest) (a : Answered) : Prop where
  /-- The request is where it entered, or where it was sent on to from there. -/
  hop : (a.node = entry ∧ a.request = r) ∨
    (a.request = transmit (forward r) ∧ isWriteMethod r.method = true ∧ isAlreadyForwarded r.headers = false ∧
      entry.isLeader = false)
  answered : ∀ addr r', a.outcome ≠ .forwarded addr r'
  /-- An operation is the one that the request names as the node received it. -/
  operation : ∀ operation, a.outcome = .serve operation →
    managementCall a.request = none ∧ apiOperation a.request = .ok operation
  /-- So it is the one that the request named where it entered, if it stayed there or the client kept
  its target. -/
  named : ∀ operation, a.outcome = .serve operation → a.request = r ∨ TargetKept r →
    managementCall r = none ∧ apiOperation r = .ok operation
  /-- The node has checked the signature of what it received. -/
  signed : ∀ operation, a.outcome = .serve operation →
    ∃ info, validateSigv4 a.node.auth a.request = .ok info
  /-- Only keys below one directory of one bucket are served before the cluster is initialised. -/
  ready : ∀ operation, a.outcome = .serve operation →
    a.node.isInitialized = true ∨ startsWith a.request.path "/cluster/members/" = true
  /-- A write is served by a node that takes itself for the leader, knows no leader, or was taken for
  the leader by another. -/
  leader : ∀ operation, a.outcome = .serve operation → isWriteMethod r.method = true →
    a.node.isLeader = true ∨ a.node.leaderHttpAddr = none ∨ isAlreadyForwarded a.request.headers = true

/-! ## The layers -/

section Layers
omit [Sha256] [HmacSha256] [FormUrlencoded] [ReqwestUrl]

variable {node : FrontNode} {r : HttpRequest} {addr : String}

theorem forwardToLeader_some (sent : node.forwardToLeader r = some addr) :
    isWriteMethod r.method = true ∧ isAlreadyForwarded r.headers = false ∧ node.isLeader = false ∧
      node.leaderHttpAddr = some addr := by
  unfold FrontNode.forwardToLeader at sent
  split at sent
  · cases sent
  · split at sent
    · cases sent
    · split at sent
      · cases sent
      · split at sent
        · cases sent
        · simp_all

/-- A write that stays. -/
theorem forwardToLeader_none (stays : node.forwardToLeader r = none)
    (write : isWriteMethod r.method = true) :
    r.path ∈ exemptPaths ∨ isAlreadyForwarded r.headers = true ∨ node.isLeader = true ∨
      node.leaderHttpAddr = none := by
  unfold FrontNode.forwardToLeader at stays
  split at stays
  · rename_i skipped
    refine .inl ?_
    simp only [List.contains_cons, List.contains_nil, Bool.or_false, Bool.or_eq_true, beq_iff_eq] at skipped
    rcases skipped with same | same | same | same <;> simp [same, exemptPaths]
  · rw [write] at stays
    split at stays
    · contradiction
    · split at stays
      · exact .inr (.inl ‹_›)
      · split at stays
        · exact .inr (.inr (.inl ‹_›))
        · exact .inr (.inr (.inr stays))

theorem isAlreadyForwarded_transmit [ReqwestUrl] (r : HttpRequest) :
    isAlreadyForwarded (transmit (forward r)).headers = true := by
  have lower : toLowercase forwardedBy = forwardedBy := by decide +kernel
  simp [isAlreadyForwarded, HeaderMap.get, transmit, forward, forwardedHeaders, lower]

theorem forwardToLeader_transmit [ReqwestUrl] (r : HttpRequest) :
    node.forwardToLeader (transmit (forward r)) = none := by
  unfold FrontNode.forwardToLeader
  rw [isAlreadyForwarded_transmit]
  split
  · rfl
  · split
    · rfl
    · rfl

/-- The paths that need no initialised cluster are the management's, and those below the members. -/
theorem exempt_unmanaged (exempt : isExemptFromInitializationCheck r.path = true)
    (free : managementCall r = none) : startsWith r.path "/cluster/members/" = true := by
  rw [isExemptFromInitializationCheck, Bool.or_eq_true, Bool.and_eq_true] at exempt
  rcases exempt with listed | ⟨below, -⟩
  · have managed : ∀ path ∈ exemptPaths, (matchRoute managementRoutes path).isSome = true := by
      decide +kernel
    exact absurd (managed _ (by simpa using listed)) (managementCall_eq_none.1 free)
  · exact below

end Layers

section App
variable {node : FrontNode} {r : HttpRequest}

theorem app_serve {operation : Operation} (served : app node r = .serve operation) :
    node.forwardToLeader r = none ∧
      (isExemptFromInitializationCheck r.path = true ∨ node.isInitialized = true) ∧
      managementCall r = none ∧ (∃ info, validateSigv4 node.auth r = .ok info) ∧
      apiOperation r = .ok operation := by
  unfold app at served
  split at served
  · cases served
  · rename_i stays
    split at served
    · cases served
    · rename_i open_node
      split at served
      · cases served
      · cases served
      · rename_i free
        split at served
        · cases served
        · rename_i info accepted
          split at served
          · cases served
          · rename_i named
            cases served
            refine ⟨stays, ?_, free, ⟨info, accepted⟩, named⟩
            simp only [Bool.and_eq_true, Bool.not_eq_true', not_and, Bool.not_eq_false] at open_node
            by_cases exempt : isExemptFromInitializationCheck r.path = true
            · exact .inl exempt
            · exact .inr (open_node (by simpa using exempt))

theorem app_forwarded {addr : String} {r' : HttpRequest} (sent : app node r = .forwarded addr r') :
    node.forwardToLeader r = some addr ∧ r' = transmit (forward r) := by
  unfold app at sent
  split at sent
  · rename_i there
    cases sent
    exact ⟨there, rfl⟩
  · split at sent
    · cases sent
    · split at sent
      · cases sent
      · cases sent
      · split at sent
        · cases sent
        · split at sent
          · cases sent
          · cases sent

omit [Sha256] [HmacSha256] [ReqwestUrl] in
/-- Handing a write to the client does not change what it names. -/
theorem operation_forward {operation : Operation} (write : isWriteMethod r.method = true)
    (free : managementCall (forward r) = none) (named : apiOperation (forward r) = .ok operation) :
    managementCall r = none ∧ apiOperation r = .ok operation ∧ (forward r).path = r.path := by
  by_cases empty : r.path = ""
  · -- the path of all buckets takes no writes
    have root : (forward r).path = "/" := by simp [forward, empty]
    have found : matchRoute apiRoutes (forward r).path = some (⟨[.literal ""], [("GET", .listBuckets)]⟩, []) := by
      rw [root]
      rfl
    have refused : Route.endpoint ⟨[.literal ""], [("GET", ApiEndpoint.listBuckets)]⟩ (forward r).method = none := by
      simp only [isWriteMethod, List.contains_cons, List.contains_nil, Bool.or_false, Bool.or_eq_true,
        beq_iff_eq] at write
      have method : (forward r).method = r.method := rfl
      rw [method]
      rcases write with same | same | same | same <;> rw [same] <;> rfl
    unfold apiOperation at named
    rw [found] at named
    simp only [refused] at named
    cases named
  · have path : (forward r).path = r.path := by simp [forward, empty]
    refine ⟨?_, ?_, path⟩
    · rw [managementCall_eq_none] at free ⊢
      rwa [path] at free
    · rw [← named]
      unfold apiOperation
      rw [path]
      rfl

end App

/-! ## The way of a request -/

section Travel
variable {entry next : FrontNode} {r : HttpRequest} {addr : String}

theorem guarded_here (stays : ∀ addr r', app entry r ≠ .forwarded addr r') :
    Guarded entry r ⟨entry, r, app entry r⟩ where
  hop := .inl ⟨rfl, rfl⟩
  answered := stays
  operation operation served := by
    obtain ⟨-, -, free, -, named⟩ := app_serve served
    exact ⟨free, named⟩
  named operation served _ := by
    obtain ⟨-, -, free, -, named⟩ := app_serve served
    exact ⟨free, named⟩
  signed operation served := (app_serve served).2.2.2.1
  ready operation served := by
    obtain ⟨-, exempt | ready, free, -, -⟩ := app_serve served
    · exact .inr (exempt_unmanaged exempt free)
    · exact .inl ready
  leader operation served write := by
    obtain ⟨stays, -, free, -, -⟩ := app_serve served
    rcases forwardToLeader_none stays write with managed | forwarded | leader | unknown
    · have kept : ∀ path ∈ exemptPaths, (matchRoute managementRoutes path).isSome = true := by
        decide +kernel
      exact absurd (kept _ managed) (managementCall_eq_none.1 free)
    · exact .inr (.inr forwarded)
    · exact .inl leader
    · exact .inr (.inl unknown)

theorem guarded_sent (sent : entry.forwardToLeader r = some addr) :
    Guarded entry r ⟨next, transmit (forward r), app next (transmit (forward r))⟩ := by
  obtain ⟨write, fresh, follower, -⟩ := forwardToLeader_some sent
  constructor
  case hop => exact .inr ⟨rfl, write, fresh, follower⟩
  case answered =>
    intro addr' r' again
    have stays := (app_forwarded again).1
    rw [forwardToLeader_transmit] at stays
    cases stays
  case operation =>
    intro operation served
    obtain ⟨-, -, free, -, named⟩ := app_serve served
    exact ⟨free, named⟩
  case named =>
    intro operation served same
    obtain ⟨-, -, free, -, named⟩ := app_serve served
    rcases same with same | kept
    · exact ⟨same ▸ free, same ▸ named⟩
    · rw [transmit_of_kept kept] at free named
      obtain ⟨free, named, -⟩ := operation_forward write free named
      exact ⟨free, named⟩
  case signed => exact fun operation served => (app_serve served).2.2.2.1
  case ready =>
    intro operation served
    obtain ⟨-, exempt | ready, free, -, -⟩ := app_serve served
    · exact .inr (exempt_unmanaged exempt free)
    · exact .inl ready
  case leader => exact fun _ _ _ => .inr (.inr (isAlreadyForwarded_transmit r))

theorem guarded_unreachable : Guarded entry r ⟨entry, r, .reply 502⟩ where
  hop := .inl ⟨rfl, rfl⟩
  answered _ _ := by simp
  operation _ served := by cases served
  named _ served := by cases served
  signed _ served := by cases served
  ready _ served := by cases served
  leader _ served := by cases served

/-- **The front door.** Wherever a request enters and whatever the nodes believe of their leader,
it is answered at the node it enters or at the one it is sent on to, and what is served there is
the operation it names as that node received it, behind the checks of that node; it is the operation
named where the request entered, if the request stayed there or its target was kept on the way. -/
theorem front_door_guards (nodes : Nat → String → Option FrontNode) (hops : Nat) (entry : FrontNode)
    (r : HttpRequest) : ∃ a, travel nodes (hops + 2) entry r = some a ∧ Guarded entry r a := by
  cases first : app entry r with
  | forwarded addr r' =>
    obtain ⟨sent, rfl⟩ := app_forwarded first
    cases there : nodes (hops + 1) addr with
    | none => exact ⟨_, by simp only [travel, first, there], guarded_unreachable⟩
    | some next =>
      have guarded : Guarded entry r ⟨next, transmit (forward r), app next (transmit (forward r))⟩ :=
        guarded_sent sent
      refine ⟨_, ?_, guarded⟩
      simp only [travel, first, there]
      split
      · rename_i addr' r' again
        exact absurd again (guarded.answered addr' r')
      · rfl
  | _ =>
    refine ⟨_, ?_, guarded_here fun addr r' sent => ?_⟩
    · simp only [travel, first]
    · rw [first] at sent
      cases sent

end Travel

/-! ## Signatures and operations -/

section Query
omit [Sha256] [HmacSha256] [ReqwestUrl]

/-- Parameters that have the same values under every name, in any order. -/
def SameFields (params params' : List (String × String)) : Prop :=
  ∀ name, name ≠ "" → (params.filter (·.1 = name)).Perm (params'.filter (·.1 = name))

/-- The decoded parameters are those that are signed, but for some without a name. -/
theorem filter_formParams (query : String) {name : String} (named : name ≠ "") :
    (formParams query).filter (·.1 = name) =
      ((queryParams query).map fun e => (FormUrlencoded.decode e.1, FormUrlencoded.decode e.2)).filter
        (·.1 = name) := by
  unfold formParams queryParams
  split
  · rename_i empty
    rw [empty]
    simp [split]
  · rw [List.map_map, List.filter_map, List.filter_map, List.filter_filter]
    congr 1
    apply List.filter_congr
    intro param _
    by_cases empty : param = ""
    · have other : "" ≠ name := named.symm
      simp [empty, splitFirst, FormUrlencoded.decode_empty, other]
    · simp [empty]

theorem sameFields_of_perm {query query' : String} (perm : (queryParams query).Perm (queryParams query')) :
    SameFields (formParams query) (formParams query') := by
  intro name named
  rw [filter_formParams query named, filter_formParams query' named]
  exact (perm.map _).filter _

omit [FormUrlencoded] in
theorem SameFields.queryField {params params' : List (String × String)} (same : SameFields params params')
    {α : Type} {name : String} (named : name ≠ "") (parse : String → Option α) :
    queryField params name parse = queryField params' name parse := by
  have perm := same name named
  unfold Api.queryField
  revert perm
  generalize params.filter (·.1 = name) = found
  generalize params'.filter (·.1 = name) = found'
  intro perm
  match found, found' with
  | [], found' => rw [perm.nil_eq]
  | [param], found' => rw [List.perm_singleton.1 perm.symm]
  | a :: b :: rest, found' =>
    match found', perm.length_eq with
    | c :: d :: rest', _ => rfl

omit [FormUrlencoded] in
theorem SameFields.operation {params params' : List (String × String)} (same : SameFields params params')
    (endpoint : ApiEndpoint) (names : List String) :
    endpoint.operation params names = endpoint.operation params' names := by
  have multipart : MultipartQueryParams.extract params = MultipartQueryParams.extract params' := by
    unfold MultipartQueryParams.extract
    rw [same.queryField (by decide), same.queryField (by decide)]
  have uploads : initiateQuery params = initiateQuery params' := same.queryField (by decide) some
  have listing : BucketListQuery.extract params = BucketListQuery.extract params' := by
    unfold BucketListQuery.extract
    rw [same.queryField (by decide), same.queryField (by decide), same.queryField (by decide),
      same.queryField (by decide), same.queryField (by decide), same.queryField (by decide)]
  unfold ApiEndpoint.operation Api.getBucketHandler Api.putOrUploadPart Api.deleteOrAbort
    Api.initiateOrComplete
  rw [multipart, uploads, listing]

theorem apiOperation_congr {r r' : HttpRequest} (method : r.method = r'.method) (path : r.path = r'.path)
    (fields : SameFields (formParams (r.query.getD "")) (formParams (r'.query.getD ""))) :
    apiOperation r = apiOperation r' := by
  unfold apiOperation
  simp only [method, path, fields.operation]

/-- No operation is named by an empty path. -/
theorem path_of_operation {r : HttpRequest} {operation : Operation} (named : apiOperation r = .ok operation) :
    canonicalUri r.path = r.path := by
  unfold canonicalUri
  split
  · rename_i empty
    unfold apiOperation at named
    rw [empty] at named
    cases named
  · rfl

end Query

omit [ReqwestUrl] in
/-- **Signatures.** Requests that are accepted, at any two times, with one signature name one
operation: the same bucket, key, upload and part, whatever the order of their parameters and
whatever else differs, unless one of the hashes collides on what the two sign. -/
theorem signature_names_operation {r r' : HttpRequest} (lines : r.OnOneLine) (lines' : r'.OnOneLine)
    {env : AuthEnv} {now : Int} {info info' : AuthInfo} {operation operation' : Operation}
    (accepted : validateSigv4 env r = .ok info) (accepted' : validateSigv4 { env with now := now } r' = .ok info')
    (named : apiOperation r = .ok operation) (named' : apiOperation r' = .ok operation')
    (same : info.signature = info'.signature)
    (noMacCollision : HmacSha256.mac (r.signingKey env.secretKey info) (utf8 (r.stringToSign info)) =
        HmacSha256.mac (r'.signingKey env.secretKey info') (utf8 (r'.stringToSign info')) →
      r.stringToSign info = r'.stringToSign info')
    (noDigestCollision : Sha256.digest (utf8 (r.canonical info.signedHeaders r.contentSha256)) =
        Sha256.digest (utf8 (r'.canonical info'.signedHeaders r'.contentSha256)) →
      r.canonical info.signedHeaders r.contentSha256 = r'.canonical info'.signedHeaders r'.contentSha256) :
    operation = operation' := by
  obtain ⟨⟨auth, shown, -, parsed⟩, -, -, signature⟩ := validateSigv4_ok.1 accepted
  obtain ⟨⟨auth', shown', -, parsed'⟩, -, -, signature'⟩ := validateSigv4_ok.1 accepted'
  rw [signature, signature'] at same
  have texts := noMacCollision (hexEncode_inj same)
  have agree := (canonical_eq_iff lines lines' (oneLine_signedHeaders (oneLine_text shown) parsed)
    (oneLine_signedHeaders (oneLine_text shown') parsed') r.oneLine_contentSha256
    r'.oneLine_contentSha256).1 (noDigestCollision (digest_of_stringToSign texts))
  have path : r.path = r'.path := by
    rw [← path_of_operation named, ← path_of_operation named', agree.path]
  have operations := apiOperation_congr agree.method path (sameFields_of_perm agree.query)
  rw [named, named'] at operations
  exact Except.ok.inj operations

omit [Sha256] [HmacSha256] [FormUrlencoded] [ReqwestUrl] in
/-- The sample writes one object, whatever the order of its parameters. -/
theorem sample_names_operation :
    @apiOperation plainForm sampleRequest = .ok (.putObject "abc" "k") ∧
      ∃ operation, @apiOperation plainForm { sampleRequest with query := some "b=2&a=1" } = .ok operation ∧
        .putObject "abc" "k" = operation := by
  let _ := plainForm
  let _ := sampleSha256
  let _ := sampleHmac
  have lines' : ({ sampleRequest with query := some "b=2&a=1" } : HttpRequest).OnOneLine :=
    ⟨by decide +kernel, by decide +kernel, by decide +kernel⟩
  have canonical := sampleRequest_canonical.trans sampleReordered_canonical.symm
  have path : "/abc/k" = objectPath unreserved "abc" "k" := by decide +kernel
  have named : ∀ query, formParams query = [("a", "1"), ("b", "2")] ∨ formParams query = [("b", "2"), ("a", "1")] →
      apiOperation { sampleRequest with query := some query } = .ok (.putObject "abc" "k") := by
    intro query params
    rw [apiOperation_objectPath unreserved_writes (by decide) (by decide) path]
    unfold callEndpoint
    rcases params with params | params
    · rw [Option.getD_some, params]
      rfl
    · rw [Option.getD_some, params]
      rfl
  have first := named "a=1&b=2" (.inl (by decide +kernel))
  have second := named "b=2&a=1" (.inr (by decide +kernel))
  refine ⟨first, _, second, ?_⟩
  have accepted : validateSigv4 { sampleAuthEnv with now := 1672574400 }
      { sampleRequest with query := some "b=2&a=1" } = .ok sampleInfo :=
    sample_accepted rfl sampleReordered_canonical
  refine signature_names_operation sampleRequest_oneLine lines'
    (sample_accepted rfl sampleRequest_canonical) accepted first second rfl (fun _ => ?_) fun _ => canonical
  exact congrArg (@buildStringToSign sampleSha256 "20230101T120000Z" sampleInfo.scope) canonical

end Save.Api
