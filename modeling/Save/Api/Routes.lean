import Save.Lib.Percent
import Save.Api.Auth
import Save.Api.Listing
import Save.Common.Cluster

/-!
# Routes

`lib.rs` and `routes/`: which handler a request comes to. The routes of the
health checks and of the cluster management go first; what matches none of them
falls back to the object API, whose routes capture a bucket and a key from the
raw path and decode them. The operation depends on the query too: a PUT of an
object is the upload of a part when it names an upload and a part.

`objects_addressed_iff`: the path of an object, with any of its characters
percent-encoded, leads to the object, unless it is one of the paths the management
keeps to itself; and there is another path that leads to it then.
-/

namespace Save.Api
set_option autoImplicit false
open Save.Text Save.Percent Save.Common

/-! ## Route tables -/

/-- A part of a route between slashes: itself, `{name}` or `{*name}`. -/
inductive Segment where
  | literal (text : String)
  | capture
  | captureRest
  deriving DecidableEq, Repr

/-- What a route captures of the parts of a path. A capture is never empty. -/
def captures : List Segment → List String → Option (List String)
  | [], [] => some []
  | .literal text :: route, part :: parts => if part = text then captures route parts else none
  | .capture :: route, part :: parts =>
    if part = "" then none else (captures route parts).map (part :: ·)
  | [.captureRest], part :: parts =>
    if join '/' (part :: parts) = "" then none else some [join '/' (part :: parts)]
  | _, _ => none

structure Route (Endpoint : Type) where
  pattern : List Segment
  /-- The handlers by method. -/
  methods : List (String × Endpoint)

/-- A GET handler answers HEAD when there is no other. -/
def Route.endpoint {Endpoint : Type} (route : Route Endpoint) (method : String) : Option Endpoint :=
  (route.methods.lookup method).or (if method = "HEAD" then route.methods.lookup "GET" else none)

/-- The parts of a path behind its first slash. -/
def pathParts (path : String) : Option (List String) :=
  match path.toList with
  | '/' :: rest => some (split (String.ofList rest) '/')
  | _ => none

/-- The first route that matches, and what it captures. Literal parts go before captures in the
tables, as they do in the router. -/
def matchRoute {Endpoint : Type} (routes : List (Route Endpoint)) (path : String) :
    Option (Route Endpoint × List String) := do
  let parts ← pathParts path
  routes.findSome? fun route => (captures route.pattern parts).map (route, ·)

/-! ## Queries -/

/-- The decoding of names and values by the `form_urlencoded` crate. -/
class FormUrlencoded where
  decode : String → String
  decode_empty : decode "" = ""

section
variable [FormUrlencoded]

/-- The parameters of a query, decoded. -/
def formParams (query : String) : List (String × String) :=
  ((split query '&').filter (· ≠ "")).map fun param =>
    let parts := splitFirst param '='
    (FormUrlencoded.decode parts.1, FormUrlencoded.decode (parts.2.getD ""))

/-- A field that may be absent. A field that is there twice, or that cannot be read, fails the
request. -/
def queryField {α : Type} (params : List (String × String)) (name : String)
    (parse : String → Option α) : Option (Option α) :=
  match params.filter (·.1 = name) with
  | [] => some none
  | [param] => (parse param.2).map some
  | _ => none

structure MultipartQueryParams where
  partNumber : Option Nat
  uploadId : Option String

def MultipartQueryParams.extract (params : List (String × String)) : Option MultipartQueryParams := do
  let partNumber ← queryField params "partNumber" (parseUnsigned (2 ^ 32))
  let uploadId ← queryField params "uploadId" some
  return ⟨partNumber, uploadId⟩

/-- `InitiateQuery`, which has one field. -/
def initiateQuery (params : List (String × String)) : Option (Option String) :=
  queryField params "uploads" some

structure BucketListQuery where
  objects : ListObjectsQuery
  uploads : Option String

def BucketListQuery.extract (params : List (String × String)) : Option BucketListQuery := do
  let keyPrefix ← queryField params "prefix" some
  let marker ← queryField params "marker" some
  let maxKeys ← queryField params "max-keys" (parseUnsigned (2 ^ 64))
  let uploads ← queryField params "uploads" some
  let listType ← queryField params "list-type" some
  let continuationToken ← queryField params "continuation-token" some
  return ⟨⟨keyPrefix, marker, maxKeys, listType, continuationToken⟩, uploads⟩

/-! ## The object API -/

/-- What a handler of the object API is called with. -/
inductive Operation where
  | listBuckets
  | createBucket (bucket : String)
  | deleteBucket (bucket : String)
  | headBucket (bucket : String)
  | listObjects (bucket : String) (query : ListObjectsQuery)
  | listMultipartUploads (bucket : String)
  | getObject (bucket key : String)
  | headObject (bucket key : String)
  | putObject (bucket key : String)
  | uploadPart (bucket key uploadId : String) (partNumber : Nat)
  | deleteObject (bucket key : String)
  | abortMultipart (bucket key uploadId : String)
  | initiateMultipart (bucket key : String)
  | completeMultipart (bucket key uploadId : String)

def getBucketHandler (bucket : String) (params : List (String × String)) : Option Operation := do
  let query ← BucketListQuery.extract params
  if query.uploads.isSome then return .listMultipartUploads bucket
  return .listObjects bucket query.objects

def putOrUploadPart (bucket key : String) (params : List (String × String)) : Option Operation := do
  let query ← MultipartQueryParams.extract params
  match query.partNumber, query.uploadId with
  | some partNumber, some uploadId => return .uploadPart bucket key uploadId partNumber
  | _, _ => return .putObject bucket key

def deleteOrAbort (bucket key : String) (params : List (String × String)) : Option Operation := do
  let query ← MultipartQueryParams.extract params
  match query.uploadId with
  | some uploadId => return .abortMultipart bucket key uploadId
  | none => return .deleteObject bucket key

def initiateOrComplete (bucket key : String) (params : List (String × String)) : Option Operation := do
  let query ← MultipartQueryParams.extract params
  let uploads ← initiateQuery params
  match query.uploadId with
  | some uploadId => return .completeMultipart bucket key uploadId
  | none => if uploads.isSome then return .initiateMultipart bucket key else none

inductive ApiEndpoint where
  | listBuckets | createBucket | deleteBucket | getBucketHandler | headBucket
  | getObject | putOrUploadPart | deleteOrAbort | headObject | initiateOrComplete
  deriving DecidableEq, Repr

/-- The call an endpoint makes. What the extractors refuse, and a POST that names no upload and
starts none, is a bad request. -/
def ApiEndpoint.operation (params : List (String × String)) : ApiEndpoint → List String → Option Operation
  | .listBuckets, [] => some .listBuckets
  | .createBucket, [bucket] => some (.createBucket bucket)
  | .deleteBucket, [bucket] => some (.deleteBucket bucket)
  | .getBucketHandler, [bucket] => Api.getBucketHandler bucket params
  | .headBucket, [bucket] => some (.headBucket bucket)
  | .getObject, [bucket, key] => some (.getObject bucket key)
  | .putOrUploadPart, [bucket, key] => Api.putOrUploadPart bucket key params
  | .deleteOrAbort, [bucket, key] => Api.deleteOrAbort bucket key params
  | .headObject, [bucket, key] => some (.headObject bucket key)
  | .initiateOrComplete, [bucket, key] => Api.initiateOrComplete bucket key params
  | _, _ => none

/-- The handlers of a bucket, with and without a slash behind it. -/
def bucketMethods : List (String × ApiEndpoint) :=
  [("PUT", .createBucket), ("DELETE", .deleteBucket), ("GET", .getBucketHandler), ("HEAD", .headBucket)]

def objectMethods : List (String × ApiEndpoint) :=
  [("POST", .initiateOrComplete), ("GET", .getObject), ("PUT", .putOrUploadPart),
    ("DELETE", .deleteOrAbort), ("HEAD", .headObject)]

def apiRoutes : List (Route ApiEndpoint) :=
  [⟨[.literal ""], [("GET", .listBuckets)]⟩,
    ⟨[.capture], bucketMethods⟩,
    ⟨[.capture, .literal ""], bucketMethods⟩,
    ⟨[.capture, .captureRest], objectMethods⟩]

/-- The operation of a request, or the status it is refused with. -/
def apiOperation (r : HttpRequest) : Except Nat Operation :=
  match matchRoute apiRoutes r.path with
  | none => .error 404
  | some (route, captured) =>
    match route.endpoint r.method with
    | none => .error 405
    | some endpoint =>
      match captured.mapM decoded with
      | none => .error 400
      | some names =>
        match endpoint.operation (formParams (r.query.getD "")) names with
        | none => .error 400
        | some operation => .ok operation

end

/-! ## The management -/

inductive Management where
  | healthCheck | readinessCheck | metricsHandler
  | clusterStatus | clusterInitialize | addLearner | promoteVoters | triggerElect
  | removeNode (nodeId : Nat)
  deriving DecidableEq, Repr

/-- The calls of the management by what the route captures: only `remove_node` reads it. -/
def calls (management : Management) : List String → Option Management := fun _ => some management

def removeNode (names : List String) : Option Management := do
  let [nodeId] := names | none
  return .removeNode (← parseUnsigned (2 ^ 64) nodeId)

def managementRoutes : List (Route (List String → Option Management)) :=
  [⟨[.literal "health"], [("GET", calls .healthCheck)]⟩,
    ⟨[.literal "health", .literal "ready"], [("GET", calls .readinessCheck)]⟩,
    ⟨[.literal "metrics"], [("GET", calls .metricsHandler)]⟩,
    ⟨[.literal "cluster", .literal "status"], [("GET", calls .clusterStatus)]⟩,
    ⟨[.literal "cluster", .literal "initialize"], [("POST", calls .clusterInitialize)]⟩,
    ⟨[.literal "cluster", .literal "members"], [("POST", calls .addLearner)]⟩,
    ⟨[.literal "cluster", .literal "members", .literal "promote"], [("POST", calls .promoteVoters)]⟩,
    ⟨[.literal "cluster", .literal "members", .capture], [("DELETE", removeNode)]⟩,
    ⟨[.literal "cluster", .literal "trigger-elect"], [("POST", calls .triggerElect)]⟩]

/-- The call of the management a request makes, or the status it is refused with, when its path is
one of the management's. -/
def managementCall (r : HttpRequest) : Option (Except Nat Management) :=
  (matchRoute managementRoutes r.path).map fun found =>
    match found.1.endpoint r.method with
    | none => .error 405
    | some call =>
      match (found.2.mapM decoded).bind call with
      | none => .error 400
      | some management => .ok management

/-! ## Paths of objects and buckets -/

/-- What URIs leave as it is. -/
def unreserved (b : UInt8) : Bool :=
  (65 ≤ b && b ≤ 90) || (97 ≤ b && b ≤ 122) || (48 ≤ b && b ≤ 57) || [45, 46, 95, 126].contains b

/-- No byte is written as itself. -/
def nothing (_ : UInt8) : Bool := false

/-- The path of an object, the slashes of its key left as they are. -/
def objectPath (keep : UInt8 → Bool) (bucket key : String) : String :=
  "/" ++ join '/' (escape keep bucket :: (split key '/').map (escape keep))

/-- The paths the management keeps to itself, as bucket and key. -/
def ManagedObject (bucket key : String) : Prop :=
  (bucket = "health" ∧ key = "ready") ∨
    (bucket = "cluster" ∧ (key ∈ ["status", "initialize", "members", "trigger-elect"] ∨
      ∃ node, node ≠ "" ∧ containsChar node '/' = false ∧ key = "members/" ++ node))

def ManagedBucket (bucket : String) : Prop := bucket = "health" ∨ bucket = "metrics"

/-- What the routes do with a method, once they have captured what they capture. -/
def callEndpoint (methods : List (String × ApiEndpoint)) (r : HttpRequest) [FormUrlencoded]
    (names : List String) : Except Nat Operation :=
  match Route.endpoint ⟨[], methods⟩ r.method with
  | none => .error 405
  | some endpoint =>
    match endpoint.operation (formParams (r.query.getD "")) names with
    | none => .error 400
    | some operation => .ok operation

/-! ### Writing and reading them -/

/-- A writer of paths: it escapes the percent sign, the slash, and what is not ASCII. -/
structure Writes (keep : UInt8 → Bool) : Prop where
  plain : Plain keep
  slash : keep 47 = false

theorem unreserved_writes : Writes unreserved where
  plain := by
    intro b kept
    have all : ∀ n < 256, unreserved (UInt8.ofNat n) = true →
        UInt8.ofNat n < 128 ∧ UInt8.ofNat n ≠ 37 := by
      decide +kernel
    have here := all b.toNat b.toNat_lt
    rw [UInt8.ofNat_toNat] at here
    exact here kept
  slash := by decide

theorem nothing_writes : Writes nothing where
  plain _ kept := by cases kept
  slash := rfl

section Paths
variable {keep : UInt8 → Bool} {bucket key : String}

theorem Writes.free (writes : Writes keep) (s : String) : containsChar (escape keep s) '/' = false := by
  refine escape_free (fun b kept same => ?_) (by decide) (by decide) s
  have low : b.toNat < 128 := UInt8.lt_iff_toNat_lt.1 (writes.plain b kept).1
  have slash : b.toNat = 47 := by
    rw [← toNat_ofNat_ascii low, same]
    rfl
  have byte : b = 47 := UInt8.toNat_inj.1 slash
  rw [byte, writes.slash] at kept
  cases kept

theorem pathParts_join {parts : List String} (free : ∀ p ∈ parts, containsChar p '/' = false)
    (nonempty : parts ≠ []) : pathParts ("/" ++ join '/' parts) = some parts := by
  have chars : ("/" ++ join '/' parts).toList = '/' :: (join '/' parts).toList := by simp
  rw [pathParts, chars]
  simp only [String.ofList_toList, split_join free nonempty]

theorem exists_split (s : String) : ∃ q rest, split s '/' = q :: rest :=
  List.exists_cons_of_ne_nil fun empty =>
    List.splitOn_ne_nil '/' s.toList (List.map_eq_nil_iff.1 empty)

theorem objectPath_eq (keep : UInt8 → Bool) (bucket key : String) : objectPath keep bucket key =
    "/" ++ escape keep bucket ++ "/" ++ join '/' ((split key '/').map (escape keep)) := by
  obtain ⟨q, rest, cut⟩ := exists_split key
  have slash : String.singleton '/' = "/" := rfl
  rw [objectPath, cut, List.map_cons, join_cons_cons, slash, ← String.append_assoc, ← String.append_assoc]

end Paths

/-! ### Matching them -/

section Matching
variable {path p q : String} {rest : List String}

theorem matchRoute_apiRoutes_object (parts : pathParts path = some (p :: q :: rest)) (bucket : p ≠ "")
    (key : join '/' (q :: rest) ≠ "") : matchRoute apiRoutes path =
      some (⟨[.capture, .captureRest], objectMethods⟩, [p, join '/' (q :: rest)]) := by
  have slash : q = "" → rest ≠ [] := by
    rintro rfl rfl
    exact key (join_singleton '/' "")
  simp only [matchRoute, parts, Option.bind_eq_bind, Option.bind_some, apiRoutes, List.findSome?_cons,
    captures, if_neg bucket, if_neg key]
  by_cases empty : q = ""
  · obtain ⟨x, xs, rfl⟩ := List.exists_cons_of_ne_nil (slash empty)
    simp [empty, captures]
  · simp [empty]

theorem matchRoute_apiRoutes_bucket (parts : pathParts path = some [p]) (bucket : p ≠ "") :
    matchRoute apiRoutes path = some (⟨[.capture], bucketMethods⟩, [p]) := by
  simp [matchRoute, parts, apiRoutes, captures, bucket]

theorem matchRoute_apiRoutes_bucket_slash (parts : pathParts path = some [p, ""]) (bucket : p ≠ "") :
    matchRoute apiRoutes path = some (⟨[.capture, .literal ""], bucketMethods⟩, [p]) := by
  simp [matchRoute, parts, apiRoutes, captures, bucket]

/-- The paths of the management, part by part. -/
theorem matchRoute_managementRoutes (parts : pathParts path = some (p :: rest)) :
    (matchRoute managementRoutes path).isSome = true ↔
      (p = "health" ∧ (rest = [] ∨ rest = ["ready"])) ∨ (p = "metrics" ∧ rest = []) ∨
        (p = "cluster" ∧ (rest ∈ [["status"], ["initialize"], ["members"], ["trigger-elect"]] ∨
          ∃ node, node ≠ "" ∧ rest = ["members", node])) := by
  have some_route : (matchRoute managementRoutes path).isSome = true ↔
      ∃ route ∈ managementRoutes, (captures route.pattern (p :: rest)).isSome = true := by
    rw [matchRoute, parts, Option.bind_eq_bind, Option.bind_some, List.findSome?_isSome_iff]
    simp only [Option.isSome_map]
  rw [some_route]
  simp only [managementRoutes, List.mem_cons, List.not_mem_nil, or_false, exists_eq_or_imp, exists_eq_left]
  rcases rest with _ | ⟨q, _ | ⟨x, _ | ⟨y, rest⟩⟩⟩
  · simp [captures, apply_ite]
  · simp [captures, apply_ite]
    tauto
  · -- the promotion is one of the paths below the members
    have promote : x = "promote" → x ≠ "" := by
      rintro rfl
      decide
    simp [captures, apply_ite]
    tauto
  · simp [captures]

end Matching

variable [FormUrlencoded] {r : HttpRequest} {keep : UInt8 → Bool} {bucket key : String}

theorem apiOperation_of_match {pattern : List Segment} {methods : List (String × ApiEndpoint)}
    {captured names : List String}
    (found : matchRoute apiRoutes r.path = some (⟨pattern, methods⟩, captured))
    (read : captured.mapM decoded = some names) : apiOperation r = callEndpoint methods r names := by
  simp only [apiOperation, callEndpoint, found, read]
  rfl

/-- The path leads to the handlers of the object or bucket. -/
def Reaches (path : String) (methods : List (String × ApiEndpoint)) (names : List String) : Prop :=
  ∀ r : HttpRequest, r.path = path → managementCall r = none ∧ apiOperation r = callEndpoint methods r names

omit [FormUrlencoded] in
theorem managementCall_eq_none :
    managementCall r = none ↔ ¬ (matchRoute managementRoutes r.path).isSome = true := by
  simp [managementCall]

theorem reaches_iff {path : String} {methods : List (String × ApiEndpoint)} {names : List String}
    (leads : ∀ r : HttpRequest, r.path = path → apiOperation r = callEndpoint methods r names) :
    Reaches path methods names ↔ ¬ (matchRoute managementRoutes path).isSome = true := by
  constructor
  · intro reaches
    exact managementCall_eq_none.1 (reaches ⟨"GET", path, none, ⟨[], fun _ member => absurd member List.not_mem_nil⟩, []⟩ rfl).1
  · rintro free r rfl
    exact ⟨managementCall_eq_none.2 free, leads r rfl⟩

/-! ### Any way of writing them -/

section Written

variable {written writtenKey : String}

omit [FormUrlencoded] in
theorem pathParts_singleton (free : containsChar written '/' = false) :
    pathParts ("/" ++ written) = some [written] := by
  have free : ∀ p ∈ [written], containsChar p '/' = false := by simpa using free
  have parts := pathParts_join free (List.cons_ne_nil written [])
  rwa [join_singleton] at parts

omit [FormUrlencoded] in
theorem pathParts_written (free : containsChar written '/' = false) :
    pathParts ("/" ++ written ++ "/" ++ writtenKey) = some (written :: split writtenKey '/') := by
  obtain ⟨q, rest, cut⟩ := exists_split writtenKey
  have parts : ∀ p ∈ written :: split writtenKey '/', containsChar p '/' = false := by
    intro p member
    rcases List.mem_cons.1 member with rfl | later
    · exact free
    · exact (mem_split later).1
  have slash : String.singleton '/' = "/" := rfl
  have path := pathParts_join parts (by simp)
  rw [cut, join_cons_cons, slash, ← cut, join_split, ← String.append_assoc, ← String.append_assoc] at path
  exact path

/-- Texts that are read as the bucket and the key lead to the handlers of the object, when the
management does not keep the path. -/
theorem apiOperation_written (free : containsChar written '/' = false)
    (read : decoded written = some bucket) (readKey : decoded writtenKey = some key)
    (named : bucket ≠ "") (filled : key ≠ "") (path : r.path = "/" ++ written ++ "/" ++ writtenKey) :
    apiOperation r = callEndpoint objectMethods r [bucket, key] := by
  have parts : pathParts ("/" ++ written ++ "/" ++ writtenKey) = some (written :: split writtenKey '/') :=
    pathParts_written free
  obtain ⟨q, rest, cut⟩ := exists_split writtenKey
  have whole : join '/' (q :: rest) = writtenKey := by rw [← cut, join_split]
  have empty_read : decoded "" = some "" := by rfl
  rw [cut, ← path] at parts
  refine apiOperation_of_match (matchRoute_apiRoutes_object parts ?_ ?_) ?_
  · rintro rfl
    exact named (Option.some.inj (read.symm.trans empty_read))
  · rw [whole]
    rintro rfl
    exact filled (Option.some.inj (readKey.symm.trans empty_read))
  · simp [whole, read, readKey]

/-- Nor does it matter for a bucket whether there is a slash behind it. -/
theorem apiOperation_writtenBucket (free : containsChar written '/' = false)
    (read : decoded written = some bucket) (named : bucket ≠ "") {slash : String}
    (ends : slash = "" ∨ slash = "/") (path : r.path = "/" ++ written ++ slash) :
    apiOperation r = callEndpoint bucketMethods r [bucket] := by
  have shown : written ≠ "" := by
    rintro rfl
    exact named (Option.some.inj (read.symm.trans (by rfl)))
  have names : [written].mapM decoded = some [bucket] := by simp [read]
  rcases ends with rfl | rfl
  · have parts : pathParts r.path = some [written] := by
      rw [path, String.append_empty, pathParts_singleton free]
    exact apiOperation_of_match (matchRoute_apiRoutes_bucket parts shown) names
  · have parts : pathParts ("/" ++ written ++ "/" ++ "") = some [written, ""] := pathParts_written free
    rw [String.append_empty, ← path] at parts
    exact apiOperation_of_match (matchRoute_apiRoutes_bucket_slash parts shown) names

omit [FormUrlencoded] in
/-- A text is cut into some parts if and only if it is they, joined. -/
theorem split_eq_iff {parts : List String} (free : ∀ p ∈ parts, containsChar p '/' = false)
    (nonempty : parts ≠ []) : split writtenKey '/' = parts ↔ writtenKey = join '/' parts := by
  constructor
  · rintro rfl
    exact (join_split writtenKey '/').symm
  · rintro rfl
    exact split_join free nonempty

omit [FormUrlencoded] in
theorem managed_written (free : containsChar written '/' = false) :
    (matchRoute managementRoutes ("/" ++ written ++ "/" ++ writtenKey)).isSome = true ↔
      ManagedObject written writtenKey := by
  have one : ∀ text, containsChar text '/' = false →
      (split writtenKey '/' = [text] ↔ writtenKey = text) := by
    intro text plain
    rw [split_eq_iff (by simpa using plain) (by simp), join_singleton]
  have two : (∃ node, node ≠ "" ∧ split writtenKey '/' = ["members", node]) ↔
      ∃ node, node ≠ "" ∧ containsChar node '/' = false ∧ writtenKey = "members/" ++ node := by
    have joined : ∀ node, join '/' ["members", node] = "members/" ++ node := by
      intro node
      rw [join_cons_cons, join_singleton]
      rfl
    constructor
    · rintro ⟨node, shown, cut⟩
      refine ⟨node, shown, (mem_split (by simp [cut] : node ∈ split writtenKey '/')).1, ?_⟩
      rw [← joined, ← cut, join_split]
    · rintro ⟨node, shown, plain, rfl⟩
      refine ⟨node, shown, ?_⟩
      rw [← joined]
      exact split_join (by simpa using ⟨rfl, plain⟩) (by simp)
  have several : split writtenKey '/' ≠ [] := by
    obtain ⟨q, rest, cut⟩ := exists_split writtenKey
    simp [cut]
  rw [matchRoute_managementRoutes (pathParts_written free)]
  simp (disch := decide) only [ManagedObject, List.mem_cons, several, false_or, and_false,
    List.not_mem_nil, or_false, one, two]

omit [FormUrlencoded] in
theorem managed_writtenBucket (free : containsChar written '/' = false) :
    (matchRoute managementRoutes ("/" ++ written)).isSome = true ↔ ManagedBucket written := by
  rw [matchRoute_managementRoutes (pathParts_singleton free)]
  simp [ManagedBucket]

end Written

/-- The path of an object leads to its handlers when the management does not keep it. -/
theorem apiOperation_objectPath (writes : Writes keep) (named : bucket ≠ "") (filled : key ≠ "")
    (path : r.path = objectPath keep bucket key) :
    apiOperation r = callEndpoint objectMethods r [bucket, key] := by
  have read := decoded_join_escape writes.plain (by decide : '/'.toNat < 128) (by decide) (split key '/')
  rw [join_split] at read
  rw [objectPath_eq] at path
  exact apiOperation_written (writes.free bucket) (decoded_escape writes.plain bucket) read named filled
    path

omit [FormUrlencoded] in
/-- The names that are parts of the paths of the management. -/
theorem escape_nothing_ne {s text : String}
    (name : text ∈ ["health", "metrics", "cluster"]) : escape nothing s ≠ text := by
  have differs : ∀ text ∈ ["health", "metrics", "cluster"],
      decoded text = some text ∧ escape nothing text ≠ text := by
    decide +kernel
  obtain ⟨read, escaped⟩ := differs text name
  rintro rfl
  -- the escapes are read as `s`, so that they would be `s` itself
  have found := decoded_escape nothing_writes.plain s
  rw [read] at found
  exact escaped (congrArg (escape nothing) (Option.some.inj found))

/-- **Addressing.** Whatever texts write a bucket and a key, the path that they make leads to the
handlers of the object unless it is one of the few that the management keeps, and an object whose path
is kept has another that leads to it; the same goes for buckets. -/
theorem objects_addressed_iff {written writtenKey : String} (free : containsChar written '/' = false)
    (read : decoded written = some bucket) (readKey : decoded writtenKey = some key)
    (named : bucket ≠ "") (filled : key ≠ "") :
    (Reaches ("/" ++ written ++ "/" ++ writtenKey) objectMethods [bucket, key] ↔
      ¬ ManagedObject written writtenKey) ∧
    Reaches (objectPath nothing bucket key) objectMethods [bucket, key] ∧
    (Reaches ("/" ++ written) bucketMethods [bucket] ↔ ¬ ManagedBucket written) ∧
    Reaches ("/" ++ written ++ "/") bucketMethods [bucket] := by
  refine ⟨?_, ?_, ?_, ?_⟩
  · rw [reaches_iff fun r => apiOperation_written free read readKey named filled, managed_written free]
  · rw [reaches_iff fun r => apiOperation_objectPath nothing_writes named filled, objectPath_eq,
      managed_written (nothing_writes.free bucket)]
    simp (disch := decide) [ManagedObject, escape_nothing_ne]
  · have leads : ∀ r : HttpRequest, r.path = "/" ++ written →
        apiOperation r = callEndpoint bucketMethods r [bucket] := fun r path =>
      apiOperation_writtenBucket free read named (.inl rfl) (path.trans (String.append_empty).symm)
    rw [reaches_iff leads, managed_writtenBucket free]
  · rw [reaches_iff fun r => apiOperation_writtenBucket free read named (.inr rfl)]
    have kept : (matchRoute managementRoutes ("/" ++ written ++ "/" ++ "")).isSome = true ↔
        ManagedObject written "" := managed_written free
    rw [String.append_empty] at kept
    rw [kept]
    simp [ManagedObject]

/-- Decoding where there is nothing to decode. -/
@[reducible] def plainForm : FormUrlencoded := ⟨id, rfl⟩

omit [FormUrlencoded] in
/-- The object `status` of the bucket `cluster` is not found where it should be, but one character that
is written otherwise leads to it. -/
theorem clusterStatus_addressed :
    ¬ @Reaches plainForm "/cluster/status" objectMethods ["cluster", "status"] ∧
      @Reaches plainForm "/clu%73ter/status" objectMethods ["cluster", "status"] := by
  let _ := plainForm
  have written : decoded "cluster" = some "cluster" ∧ decoded "clu%73ter" = some "cluster" ∧
      decoded "status" = some "status" := by decide +kernel
  have literal := (objects_addressed_iff (by decide) written.1 written.2.2 (by decide) (by decide)).1
  have escaped := (objects_addressed_iff (by decide) written.2.1 written.2.2 (by decide) (by decide)).1
  refine ⟨fun reaches => literal.1 reaches ?_, escaped.2 ?_⟩
  · exact .inr ⟨rfl, .inl (by decide)⟩
  · rintro (⟨other, -⟩ | ⟨other, -⟩)
    · exact absurd other (by decide)
    · exact absurd other (by decide)

end Save.Api
