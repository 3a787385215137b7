import Save.Api.Auth

/-!
# Forwarding to the leader

`forward.rs`: a node that is not the leader sends a write on with the headers of
a fixed list, and with a marker of its own, before any signature is checked. The
signature is checked by the leader over the headers the client chose to sign.
`forwarding_preserves_iff`: the leader flattens the request to the string the
client signed exactly when the list lets through what the client signed
(`Forwardable`), and then it accepts the request.

`forward` hands the target to the HTTP client as text, and the client reads it
again as a URL (`ReqwestUrl`) before it sends the request (`transmit`): dot
segments are resolved away, and characters that do not belong in a URL are
percent-encoded. A target that is a URL's already is kept (`PlainTarget`).
-/

namespace Save.Api
set_option autoImplicit false
open Save.Text Save.Kv Save.Files Save.Storage

def traceIdHeader : String := "x-trace-id"

def parentSpanHeader : String := "x-parent-span-id"

def requestIdHeader : String := "x-request-id"

def shouldForwardHeader (name : String) : Bool :=
  let lower := toLowercase name
  ["content-type", "content-length", "authorization", "x-amz-date", "x-amz-content-sha256",
    "x-amz-decoded-content-length", "x-amz-meta-", "host"].contains lower ||
  startsWith lower "x-amz-" || lower == traceIdHeader || lower == parentSpanHeader ||
  lower == requestIdHeader

/-- The marker that a forwarded request carries. -/
def forwardedBy : String := "x-forwarded-by"

/-- `is_already_forwarded`. -/
def isAlreadyForwarded (headers : HeaderMap) : Bool := (headers.get forwardedBy).isSome

/-- The headers that are sent on: those of the list with a readable value, and the marker. -/
def forwardedHeaders (headers : HeaderMap) : HeaderMap where
  entries := headers.entries.filter (fun e => (toStr e.2).isSome && shouldForwardHeader e.1) ++
    [(forwardedBy, utf8 "save-node")]
  named := by
    intro e member
    rcases List.mem_append.1 member with kept | marker
    · exact headers.named e (List.mem_of_mem_filter kept)
    · rw [List.mem_singleton.1 marker]
      decide +kernel

/-- The request `forward` makes for its HTTP client: `build_target_uri` keeps the path and the query. -/
def forward (r : HttpRequest) : HttpRequest :=
  { r with path := if r.path = "" then "/" else r.path, headers := forwardedHeaders r.headers }

/-! ## The HTTP client's URL -/

/-- The characters that a URL keeps as they are, both in its path and in its query. -/
def urlChar (c : Char) : Bool := c.isAlphanum || "-._~!$&()*+,;=:@%/".toList.contains c

/-- A segment that is resolved away, with what it stands for. -/
def isDotSegment (segment : String) : Bool :=
  [".", "..", "%2e", ".%2e", "%2e.", "%2e%2e"].contains (toLowercase segment)

/-- A path as a URL has it. -/
structure PlainPath (path : String) : Prop where
  rooted : startsWith path "/" = true
  chars : path.toList.all urlChar = true
  segments : ∀ segment ∈ split path '/', isDotSegment segment = false

/-- `Url::parse` of the `reqwest` client, as it does with the path and the query of its target. -/
class ReqwestUrl where
  path : String → String
  query : String → String
  path_plain : ∀ {p : String}, PlainPath p → path p = p
  query_plain : ∀ {q : String}, q.toList.all urlChar = true → query q = q

/-- The request that goes out when the client is given `r`. -/
def transmit [ReqwestUrl] (r : HttpRequest) : HttpRequest :=
  { r with path := ReqwestUrl.path r.path, query := r.query.map ReqwestUrl.query }

/-- The client sends the request with the target it is given. -/
structure TargetKept [ReqwestUrl] (r : HttpRequest) : Prop where
  path : ReqwestUrl.path r.path = r.path
  query : r.query.map ReqwestUrl.query = r.query

/-- A path and a query as a URL has them. -/
structure PlainTarget (r : HttpRequest) : Prop where
  path : PlainPath r.path
  query : ∀ q, r.query = some q → q.toList.all urlChar = true

section
variable [ReqwestUrl] {r : HttpRequest}

theorem PlainTarget.kept (plain : PlainTarget r) : TargetKept r where
  path := ReqwestUrl.path_plain plain.path
  query := by
    cases query : r.query with
    | none => rfl
    | some q => rw [Option.map_some, ReqwestUrl.query_plain (plain.query q query)]

/-- The path of a request without one is sent as the root. -/
theorem transmit_root : ReqwestUrl.path "/" = "/" :=
  ReqwestUrl.path_plain ⟨by decide +kernel, by decide +kernel, by decide +kernel⟩

theorem transmit_of_kept (kept : TargetKept r) : transmit (forward r) = forward r := by
  have path : ReqwestUrl.path (forward r).path = (forward r).path := by
    by_cases empty : r.path = ""
    · simp only [forward, empty, if_pos, transmit_root]
    · simp only [forward, if_neg empty, kept.path]
  have query : (forward r).query.map ReqwestUrl.query = (forward r).query := kept.query
  rw [transmit, path, query]

end

/-- The first value of the header that can be read. -/
def HeaderMap.readable (h : HeaderMap) (name : String) : Option String :=
  h.entries.findSome? fun e => if e.1 == toLowercase name then toStr e.2 else none

/-- What the client signed gets through. -/
structure Forwardable (r : HttpRequest) (signedHeaders : List String) : Prop where
  /-- A signed header that is there is on the list. -/
  listed : ∀ name ∈ signedHeaders, (r.headers.text name).isSome = true → shouldForwardHeader name = true
  /-- A listed header whose first value is dropped has no other that is not. -/
  first : ∀ name ∈ signedHeaders, shouldForwardHeader name = true →
    r.headers.text name = r.headers.readable name
  /-- The marker is not signed. -/
  marker : forwardedBy ∉ signedHeaders.map toLowercase
  payload : r.contentSha256 = (r.headers.readable "x-amz-content-sha256").getD "UNSIGNED-PAYLOAD"

/-! ## What the leader reads -/

theorem shouldForwardHeader_toLowercase (name : String) :
    shouldForwardHeader (toLowercase name) = shouldForwardHeader name := by
  simp only [shouldForwardHeader, toLowercase_toLowercase]

/-- The marker is not on the list. -/
theorem ne_forwardedBy {name : String} (listed : shouldForwardHeader name = true) :
    toLowercase name ≠ forwardedBy := by
  intro same
  rw [← shouldForwardHeader_toLowercase, same] at listed
  exact absurd listed (by decide +kernel)

theorem text_eq_readable {h : HeaderMap} {name v : String} (read : h.text name = some v) :
    h.readable name = some v := by
  obtain ⟨bytes, found, shown⟩ := Option.bind_eq_some_iff.1 read
  obtain ⟨e, first, rfl⟩ := Option.map_eq_some_iff.1 found
  obtain ⟨named, before, after, list, others⟩ := List.find?_eq_some_iff_append.1 first
  rw [HeaderMap.readable, list, List.findSome?_append, List.findSome?_cons, if_pos named, shown]
  have skipped : before.findSome? (fun e => if e.1 == toLowercase name then toStr e.2 else none) = none := by
    rw [List.findSome?_eq_none_iff]
    intro x member
    rw [if_neg (by simpa using others x member)]
  rw [skipped]
  rfl

/-- The first value in a list of those that can be read is the first that can be read. -/
theorem find?_filter_readable (entries : List (String × Bytes)) {name : String}
    (listed : shouldForwardHeader name = true) :
    ((entries.filter fun e => (toStr e.2).isSome && shouldForwardHeader e.1).find?
      fun e => e.1 == name).bind (fun e => toStr e.2) =
      entries.findSome? fun e => if e.1 == name then toStr e.2 else none := by
  induction entries with
  | nil => rfl
  | cons e entries ih =>
    rw [List.findSome?_cons]
    by_cases here : e.1 = name
    · cases shown : toStr e.2 with
      | none =>
        rw [List.filter_cons, if_neg (by simp [shown]), ih]
        simp [here]
      | some v =>
        rw [List.filter_cons, if_pos (by simp [shown, here, listed])]
        simp [here, shown]
    · rw [List.filter_cons]
      split
      · rw [List.find?_cons, beq_false_of_ne here]
        simp only [Bool.false_eq_true, if_false]
        exact ih
      · rw [ih]
        simp [here]

theorem find?_filter_unlisted (entries : List (String × Bytes)) {name : String}
    (unlisted : shouldForwardHeader name = false) :
    (entries.filter fun e => (toStr e.2).isSome && shouldForwardHeader e.1).find?
      (fun e => e.1 == name) = none := by
  rw [List.find?_eq_none]
  intro e member same
  obtain ⟨-, kept⟩ := List.mem_filter.1 member
  rw [eq_of_beq same, unlisted, Bool.and_false] at kept
  cases kept

/-- A header at the leader: the marker, or the first readable value when it is on the list. -/
theorem text_forwardedHeaders (h : HeaderMap) (name : String) :
    (forwardedHeaders h).text name =
      if toLowercase name = forwardedBy then some "save-node"
      else if shouldForwardHeader name then h.readable name else none := by
  have marked : toStr (utf8 "save-node") = some "save-node" := by decide +kernel
  have own : shouldForwardHeader forwardedBy = false := by decide +kernel
  have found : (forwardedHeaders h).text name =
      (((h.entries.filter fun e => (toStr e.2).isSome && shouldForwardHeader e.1).find?
        fun e => e.1 == toLowercase name).or
          (if toLowercase name = forwardedBy then some (forwardedBy, utf8 "save-node") else none)).bind
            fun e => toStr e.2 := by
    rw [HeaderMap.text, HeaderMap.get, forwardedHeaders, List.find?_append, Option.bind_map]
    congr 2
    by_cases same : toLowercase name = forwardedBy
    · simp [same]
    · simp [same, Ne.symm same]
  rw [found]
  by_cases same : toLowercase name = forwardedBy
  · rw [if_pos same, if_pos same, same, find?_filter_unlisted _ own, Option.none_or, Option.bind_some,
      marked]
  · rw [if_neg same, if_neg same, Option.or_none]
    split
    · rename_i listed
      exact find?_filter_readable _ (by rwa [shouldForwardHeader_toLowercase])
    · rename_i unlisted
      rw [find?_filter_unlisted _ (by simpa [shouldForwardHeader_toLowercase] using unlisted),
        Option.bind_none]

/-- A header on the list that the node reads is what the leader reads. -/
theorem text_listed {h : HeaderMap} {name v : String} (listed : shouldForwardHeader name = true)
    (read : h.text name = some v) : (forwardedHeaders h).text name = some v := by
  rw [text_forwardedHeaders, if_neg (ne_forwardedBy listed), if_pos listed, text_eq_readable read]

/-- The signed headers have the same values at the leader exactly when they get through. -/
theorem signedValue_forwarded_iff {h : HeaderMap} (fresh : isAlreadyForwarded h = false)
    (signedHeaders : List String) :
    (∀ k, signedValue (forwardedHeaders h) signedHeaders k = signedValue h signedHeaders k) ↔
      (∀ name ∈ signedHeaders, (h.text name).isSome = true → shouldForwardHeader name = true) ∧
      (∀ name ∈ signedHeaders, shouldForwardHeader name = true → h.text name = h.readable name) ∧
      forwardedBy ∉ signedHeaders.map toLowercase := by
  have unmarked : ∀ name, toLowercase name = forwardedBy → h.text name = none := by
    intro name same
    have absent : h.get name = none := by
      have := fresh
      unfold isAlreadyForwarded at this
      rw [HeaderMap.get, same]
      simpa [HeaderMap.get, show toLowercase forwardedBy = forwardedBy by decide +kernel] using this
    rw [HeaderMap.text, absent, Option.bind_none]
  constructor
  · intro same
    have at_name : ∀ name ∈ signedHeaders, ((forwardedHeaders h).text name).map normalizedValue =
        (h.text name).map normalizedValue := by
      intro name member
      have value := same (toLowercase name)
      have signed : toLowercase name ∈ signedHeaders.map toLowercase := List.mem_map_of_mem member
      rwa [signedValue, signedValue, if_pos signed, if_pos signed, text_toLowercase,
        text_toLowercase] at value
    refine ⟨fun name member there => ?_, fun name member listed => ?_, fun signed => ?_⟩
    · have value := at_name name member
      rw [text_forwardedHeaders] at value
      split at value
      · rename_i marker
        rw [unmarked name marker] at there
        cases there
      · split at value
        · assumption
        · rw [Option.map_none, eq_comm, Option.map_eq_none_iff] at value
          rw [value] at there
          cases there
    · cases read : h.text name with
      | some v => rw [text_eq_readable read]
      | none =>
        have value := at_name name member
        rw [text_forwardedHeaders, if_neg (ne_forwardedBy listed), if_pos listed, read, Option.map_none,
          Option.map_eq_none_iff] at value
        exact value.symm
    · obtain ⟨name, member, marker⟩ := List.mem_map.1 signed
      have value := at_name name member
      rw [text_forwardedHeaders, if_pos marker, unmarked name marker] at value
      cases value
  · rintro ⟨listed, first, marker⟩ k
    unfold signedValue
    split
    · rename_i signed
      obtain ⟨name, member, rfl⟩ := List.mem_map.1 signed
      have other : toLowercase name ≠ forwardedBy := fun same => marker (same ▸ signed)
      rw [text_toLowercase, text_toLowercase, text_forwardedHeaders, if_neg other]
      split
      · rename_i through
        rw [first name member through]
      · rename_i dropped
        cases read : h.text name with
        | none => rfl
        | some v => exact absurd (listed name member (by rw [read]; rfl)) dropped
    · rfl

variable [Sha256] [HmacSha256]

/-- **Forwarding.** For a request that the node would accept and sends on instead, the leader's
canonical request is the one that was signed exactly when what was signed gets through; and then the
leader accepts it. -/
theorem forwarding_preserves_iff {env : AuthEnv} {r : HttpRequest} {info : AuthInfo}
    (lines : r.OnOneLine) (fresh : isAlreadyForwarded r.headers = false)
    (accepted : validateSigv4 env r = .ok info) :
    ((forward r).canonical info.signedHeaders (forward r).contentSha256 =
        r.canonical info.signedHeaders r.contentSha256 ↔ Forwardable r info.signedHeaders) ∧
      (Forwardable r info.signedHeaders → validateSigv4 env (forward r) = .ok info) := by
  obtain ⟨⟨auth, shown, start, parsed⟩, key, ⟨date, dated, now⟩, signature⟩ := validateSigv4_ok.1 accepted
  have names := oneLine_signedHeaders (oneLine_text shown) parsed
  have uri : canonicalUri (forward r).path = canonicalUri r.path := by
    simp only [forward, canonicalUri]
    split
    · rfl
    · rfl
  have lines' : (forward r).OnOneLine := by
    refine ⟨lines.method, ?_, lines.query⟩
    simp only [forward]
    split
    · decide
    · exact lines.path
  have payload : (forward r).contentSha256 =
      (r.headers.readable "x-amz-content-sha256").getD "UNSIGNED-PAYLOAD" := by
    have listed : shouldForwardHeader "x-amz-content-sha256" = true := by decide +kernel
    simp only [HttpRequest.contentSha256, forward, text_forwardedHeaders, if_neg (ne_forwardedBy listed),
      listed, if_true]
  have same : (forward r).canonical info.signedHeaders (forward r).contentSha256 =
      r.canonical info.signedHeaders r.contentSha256 ↔ Forwardable r info.signedHeaders := by
    rw [canonical_eq_iff lines' lines names names (forward r).oneLine_contentSha256
      r.oneLine_contentSha256]
    have headers := signedValue_forwarded_iff fresh info.signedHeaders
    constructor
    · intro agree
      obtain ⟨listed, first, marker⟩ := headers.1 agree.headers
      exact ⟨listed, first, marker, agree.payload.symm.trans payload⟩
    · intro through
      exact ⟨rfl, uri, .refl _, headers.2 ⟨through.listed, through.first, through.marker⟩, rfl,
        payload.trans through.payload.symm⟩
  refine ⟨same, fun through => ?_⟩
  have shown' : (forward r).headers.text "authorization" = some auth :=
    text_listed (by decide +kernel) shown
  have dated' : (forward r).headers.text "x-amz-date" = some date :=
    text_listed (by decide +kernel) dated
  have dates : (forward r).amzDate = r.amzDate := by
    rw [HttpRequest.amzDate, HttpRequest.amzDate, dated, dated']
  refine validateSigv4_ok.2 ⟨⟨auth, shown', start, parsed⟩, key, ⟨date, dated', now⟩, ?_⟩
  rw [signature, HttpRequest.stringToSign, HttpRequest.stringToSign, HttpRequest.signingKey,
    HttpRequest.signingKey, dates, same.2 through]

section Sample
omit [Sha256] [HmacSha256]

theorem sampleRequest_fresh : isAlreadyForwarded sampleRequest.headers = false := by decide +kernel

/-- The sample has a header that is signed and not on the list. -/
theorem sample_unlisted : "content-md5" ∈ sampleInfo.signedHeaders ∧
    (sampleRequest.headers.text "content-md5").isSome = true ∧
    shouldForwardHeader "content-md5" = false := by
  decide +kernel

theorem forwarded_sample_differs :
    (forward sampleRequest).canonical sampleInfo.signedHeaders (forward sampleRequest).contentSha256 ≠
      sampleRequest.canonical sampleInfo.signedHeaders sampleRequest.contentSha256 := by
  intro same
  have accepted := sample_accepted rfl sampleRequest_canonical
  have through := (@forwarding_preserves_iff sampleSha256 sampleHmac _ _ _ sampleRequest_oneLine
    sampleRequest_fresh accepted).1.1 same
  obtain ⟨signed, there, unlisted⟩ := sample_unlisted
  rw [through.listed _ signed there] at unlisted
  cases unlisted

/-- A signed `content-md5` is not sent on. -/
theorem forwarding_drops_signed_header :
    ¬ ∀ [Sha256] [HmacSha256] (env : AuthEnv) (r : HttpRequest) (info : AuthInfo), r.OnOneLine →
      isAlreadyForwarded r.headers = false → validateSigv4 env r = .ok info →
      (forward r).canonical info.signedHeaders (forward r).contentSha256 =
        r.canonical info.signedHeaders r.contentSha256 := by
  intro claim
  have accepted := sample_accepted rfl sampleRequest_canonical
  have same := @claim sampleSha256 sampleHmac _ _ _ sampleRequest_oneLine sampleRequest_fresh accepted
  have names : ∀ name ∈ sampleInfo.signedHeaders, OneLine name := by decide +kernel
  have lines : (forward sampleRequest).OnOneLine := ⟨by decide +kernel, by decide +kernel, by decide +kernel⟩
  have agree := (canonical_eq_iff lines sampleRequest_oneLine names names
    (forward sampleRequest).oneLine_contentSha256 sampleRequest.oneLine_contentSha256).1 same
  obtain ⟨signed, there, unlisted⟩ := sample_unlisted
  have listed := ((signedValue_forwarded_iff sampleRequest_fresh _).1 agree.headers).1 _ signed there
  rw [listed] at unlisted
  cases unlisted

end Sample

end Save.Api
