import Save.Api.FrontDoor

/-!
# Signed requests

The other side of the check in `auth.rs`: a client that builds the canonical request
as the node does, signs it and sends the signature in an authorization header. The
header is text that the node takes apart again, and a follower (`forward.rs`) sends
the request on without some of its headers, to a target that its HTTP client reads
as a URL. `signed_request_served`: the header is read back as the client wrote it,
and a signed request that names an operation is served wherever it enters the
cluster, if what is signed gets through to the node that serves it.
-/

namespace Save.Api
set_option autoImplicit false
open Save.Text Save.Percent Save.Common Save.Storage Save.Files

/-! ## Signing -/

/-- Who signs, and for what. -/
structure Signer where
  accessKey : String
  secretKey : String
  region : String
  service : String

/-- What is not taken for the punctuation of an authorization. -/
def wordChar (c : Char) : Bool :=
  32 < c.toNat && c.toNat < 127 && c != '/' && c != ',' && c != ';'

/-- Text that is kept as it is in an authorization. -/
def Word (s : String) : Prop := ∀ c ∈ s.toList, wordChar c = true

instance (s : String) : Decidable (Word s) := List.decidableBAll (fun c => wordChar c = true) s.toList

def Signer.scope (s : Signer) (date : String) : String :=
  String.ofList (date.toList.take 8) ++ "/" ++ s.region ++ "/" ++ s.service ++ "/aws4_request"

def Signer.authorization (s : Signer) (date : String) (signedHeaders : List String)
    (signature : String) : String :=
  "AWS4-HMAC-SHA256 Credential=" ++ s.accessKey ++ "/" ++ s.scope date ++ ", SignedHeaders=" ++
    join ';' signedHeaders ++ ", Signature=" ++ signature

/-- The headers with an authorization behind them. -/
def HeaderMap.authorize (h : HeaderMap) (authorization : String) : HeaderMap where
  entries := h.entries ++ [("authorization", utf8 authorization)]
  named := by
    intro e member
    rcases List.mem_append.1 member with old | new
    · exact h.named e old
    · rw [List.mem_singleton.1 new]
      exact (by decide +kernel : isHeaderName "authorization" = true)

section
variable [Sha256] [HmacSha256]

def Signer.signature (s : Signer) (r : HttpRequest) (date : String) (signedHeaders : List String) :
    String :=
  calculateSignature s.secretKey date s.region s.service
    (buildStringToSign date (s.scope date) (r.canonical signedHeaders r.contentSha256))

/-- The request with its signature. -/
def Signer.sign (s : Signer) (r : HttpRequest) (date : String) (signedHeaders : List String) :
    HttpRequest :=
  { r with headers := r.headers.authorize (s.authorization date signedHeaders (s.signature r date signedHeaders)) }

end

/-- A request and the headers to sign. -/
structure Signable (s : Signer) (r : HttpRequest) (date : String) (signedHeaders : List String) : Prop where
  unsigned : r.headers.get "authorization" = none
  dated : r.headers.text "x-amz-date" = some date
  words : Word s.accessKey ∧ Word s.region ∧ Word s.service ∧ Word date
  nonempty : signedHeaders ≠ []
  named : ∀ name ∈ signedHeaders, isHeaderName name = true ∧ toLowercase name ≠ "authorization"

/-! ## The authorization as text -/

theorem wordChar_spec {c : Char} (word : wordChar c = true) :
    32 < c.toNat ∧ c.toNat < 127 ∧ c ≠ '/' ∧ c ≠ ',' ∧ c ≠ ';' := by
  simpa [wordChar, and_assoc] using word

/-- What a header value may be made of. -/
def visibleChar (c : Char) : Bool := 32 ≤ c.toNat && c.toNat < 127

theorem visible_of_all {l : List Char} (all : l.all visibleChar = true) :
    ∀ c ∈ l, visibleChar c = true := List.all_eq_true.1 all

theorem Word.visible {s : String} (word : Word s) : ∀ c ∈ s.toList, visibleChar c = true := by
  intro c member
  obtain ⟨low, high, -⟩ := wordChar_spec (word c member)
  simp only [visibleChar, Bool.and_eq_true, decide_eq_true_eq]
  omega

theorem word_headerName {name : String} (named : isHeaderName name = true) : Word name := by
  simp only [isHeaderName, Bool.and_eq_true, List.all_eq_true] at named
  intro c member
  have char := named.2 c member
  have low : c.toNat < 128 := by
    simp only [headerNameChar, Bool.or_eq_true, Bool.and_eq_true, decide_eq_true_eq] at char
    rcases char with (⟨-, below⟩ | ⟨-, below⟩) | other
    · exact Nat.lt_of_le_of_lt (UInt32.le_iff_toNat_le.1 below) (by decide)
    · exact Nat.lt_of_le_of_lt (UInt32.le_iff_toNat_le.1 below) (by decide)
    · have all : ("!#$%&'*+-.^_`|~".toList.all fun d => decide (d.toNat < 128)) = true := by decide
      exact of_decide_eq_true (List.all_eq_true.1 all c (by simpa using other))
  have all : ∀ n < 128, headerNameChar (Char.ofNat n) = true → wordChar (Char.ofNat n) = true := by
    decide +kernel
  have same := all c.toNat low
  rw [Char.ofNat_toNat] at same
  exact same char

theorem word_hexEncode (b : Bytes) : Word (hexEncode b) := by
  intro c member
  rw [hexEncode, String.toList_ofList, List.mem_flatMap] at member
  obtain ⟨x, -, inside⟩ := member
  have small := x.toNat_lt
  have digits : ∀ n < 16, wordChar (Nat.digitChar n) = true := by decide
  simp only [List.mem_cons, List.not_mem_nil, or_false] at inside
  rcases inside with rfl | rfl
  · exact digits _ (by omega)
  · exact digits _ (by omega)

theorem toStr_utf8 {s : String} (printed : ∀ c ∈ s.toList, visibleChar c = true) :
    toStr (utf8 s) = some s := by
  have visible : ∀ c ∈ s.toList, 32 ≤ c.toNat ∧ c.toNat < 127 := by
    simpa [visibleChar] using printed
  have bytes : utf8 s = s.toList.map fun c => UInt8.ofNat c.toNat := by
    have ascii : ∀ c ∈ s.toList, c.toNat < 128 := by
      intro c member
      have := visible c member
      omega
    have written := bytesOf_ofList ascii
    rwa [String.ofList_toList] at written
  have all : (utf8 s).all visibleAscii = true := by
    rw [bytes, List.all_map, List.all_eq_true]
    intro c member
    obtain ⟨low, high⟩ := visible c member
    have every : ∀ n < 127, 32 ≤ n → visibleAscii (UInt8.ofNat n) = true := by decide
    exact every _ high low
  have back : (utf8 s).map (fun b => Char.ofNat b.toNat) = s.toList := by
    rw [bytes, List.map_map]
    have same : ∀ c ∈ s.toList, ((fun b : UInt8 => Char.ofNat b.toNat) ∘ fun c : Char => UInt8.ofNat c.toNat) c = c := by
      intro c member
      have small : c.toNat < 256 := by have := visible c member; omega
      simp [Nat.mod_eq_of_lt small]
    rw [List.map_congr_left same, List.map_id']
  rw [toStr, if_pos all, back, String.ofList_toList]

theorem splitComma_append {a rest : List Char} (free : ',' ∉ a) :
    splitComma (a ++ ',' :: ' ' :: rest) = a :: splitComma rest := by
  induction a with
  | nil => rw [List.nil_append, splitComma]
  | cons c a ih =>
    have other : c ≠ ',' := fun same => free (same ▸ List.mem_cons_self)
    rw [List.cons_append, splitComma, ih fun member => free (List.mem_cons_of_mem _ member)]
    · rfl
    · rintro rest' rfl
      exact absurd rfl other

theorem splitComma_free {a : List Char} (free : ',' ∉ a) : splitComma a = [a] := by
  induction a with
  | nil => rfl
  | cons c a ih =>
    have other : c ≠ ',' := fun same => free (same ▸ List.mem_cons_self)
    rw [splitComma, ih fun member => free (List.mem_cons_of_mem _ member)]
    · rfl
    · rintro rest' rfl
      exact absurd rfl other

theorem expectPrefix_append (p msg : String) (rest : List Char) :
    expectPrefix (p.toList ++ rest) p msg = .ok rest := by
  rw [expectPrefix, if_pos (by simp), List.drop_left]

/-- The parts of a text that is put together as an authorization is. -/
theorem toList_parts {slash last headers signed : String} {request headersWord signatureWord : List Char}
    (slashes : slash.toList = ['/']) (ends : last.toList = '/' :: request)
    (before : headers.toList = ',' :: ' ' :: headersWord)
    (behind : signed.toList = ',' :: ' ' :: signatureWord) (start key region service names signature : String)
    (day : List Char) :
    (start ++ key ++ slash ++ (String.ofList day ++ slash ++ region ++ slash ++ service ++ last) ++ headers ++
        names ++ signed ++ signature).toList =
      (start.toList ++ ['/'].intercalate [key.toList, day, region.toList, service.toList, request]) ++
        ',' :: ' ' :: ((headersWord ++ names.toList) ++ ',' :: ' ' :: (signatureWord ++ signature.toList)) := by
  simp [List.intercalate, slashes, ends, before, behind]

theorem Signer.authorization_startsWith (s : Signer) (date : String) (signedHeaders : List String)
    (signature : String) :
    startsWith (s.authorization date signedHeaders signature) "AWS4-HMAC-SHA256 Credential=" = true := by
  unfold Signer.authorization
  generalize "AWS4-HMAC-SHA256 Credential=" = start
  rw [startsWith_iff_append]
  refine ⟨s.accessKey ++ "/" ++ s.scope date ++ ", SignedHeaders=" ++ join ';' signedHeaders ++
    ", Signature=" ++ signature, ?_⟩
  simp only [String.append_assoc]

theorem ofList_parts {slash : String} (slashes : slash.toList = ['/']) (region service last : String)
    (day : List Char) : String.ofList (day ++ '/' :: region.toList ++ '/' :: service.toList ++ last.toList) =
      String.ofList day ++ slash ++ region ++ slash ++ service ++ last := by
  rw [← String.toList_inj]
  simp [slashes]

/-- The parts of an authorization. -/
theorem authorization_parts (s : Signer) (date : String) (signedHeaders : List String) (signature : String) :
    (s.authorization date signedHeaders signature).toList =
      ("AWS4-HMAC-SHA256 Credential=".toList ++ ['/'].intercalate [s.accessKey.toList, date.toList.take 8,
          s.region.toList, s.service.toList, "aws4_request".toList]) ++ ',' :: ' ' ::
        (("SignedHeaders=".toList ++ (join ';' signedHeaders).toList) ++ ',' :: ' ' ::
          ("Signature=".toList ++ signature.toList)) :=
  toList_parts (by decide) (by decide) (by decide) (by decide) _ _ _ _ _ _ _

theorem visible_parts {start parts headersWord names signatureWord signature : List Char}
    (starts : ∀ c ∈ start, visibleChar c = true) (inside : ∀ c ∈ parts, visibleChar c = true)
    (headers : ∀ c ∈ headersWord, visibleChar c = true) (joined : ∀ c ∈ names, visibleChar c = true)
    (signed : ∀ c ∈ signatureWord, visibleChar c = true) (word : ∀ c ∈ signature, visibleChar c = true) :
    ∀ c ∈ (start ++ parts) ++ ',' :: ' ' :: ((headersWord ++ names) ++ ',' :: ' ' :: (signatureWord ++ signature)),
      visibleChar c = true := by
  have comma : visibleChar ',' = true := by decide
  have space : visibleChar ' ' = true := by decide
  intro c member
  simp only [List.mem_append, List.mem_cons] at member
  grind

theorem Word.free {s : String} (word : Word s) {c : Char} (other : wordChar c = false) : c ∉ s.toList := by
  intro member
  rw [word c member] at other
  cases other

/-- What is written is read back. -/
theorem parse_authorization {s : Signer} {r : HttpRequest} {date : String} {signedHeaders : List String}
    (signable : Signable s r date signedHeaders) {signature : String} (word : Word signature) :
    parseAuthorizationHeader (s.authorization date signedHeaders signature) =
      .ok ⟨s.accessKey, s.scope date, s.region, s.service, signedHeaders, signature⟩ := by
  obtain ⟨key, region, service, dated⟩ := signable.words
  have names : ∀ name ∈ signedHeaders, Word name := fun name member =>
    word_headerName (signable.named name member).1
  have day : ∀ c, wordChar c = false → c ∉ date.toList.take 8 := fun c other member =>
    dated.free other (List.mem_of_mem_take member)
  have comma : wordChar ',' = false := by decide
  have slash : wordChar '/' = false := by decide
  have credential : ',' ∉ "AWS4-HMAC-SHA256 Credential=".toList ++ ['/'].intercalate [s.accessKey.toList,
      date.toList.take 8, s.region.toList, s.service.toList, "aws4_request".toList] := by
    simp [List.intercalate, key.free comma, day _ comma, region.free comma, service.free comma]
  have headers : ',' ∉ "SignedHeaders=".toList ++ (join ';' signedHeaders).toList := by
    have start : ',' ∉ "SignedHeaders=".toList := by decide
    have joined : containsChar (join ';' signedHeaders) ',' = false :=
      join_contains (by decide) fun name member => containsChar_eq_false.2 ((names name member).free comma)
    rw [List.mem_append, not_or]
    exact ⟨start, containsChar_eq_false.1 joined⟩
  have signed : ',' ∉ "Signature=".toList ++ signature.toList := by
    rw [List.mem_append, not_or]
    exact ⟨by decide, word.free comma⟩
  have components : (['/'].intercalate [s.accessKey.toList, date.toList.take 8, s.region.toList,
      s.service.toList, "aws4_request".toList]).splitOn '/' = [s.accessKey.toList, date.toList.take 8,
        s.region.toList, s.service.toList, "aws4_request".toList] := by
    apply List.splitOn_intercalate
    · simp [key.free slash, day _ slash, region.free slash, service.free slash]
    · simp
  have list : ((join ';' signedHeaders).toList.splitOn ';').map String.ofList = signedHeaders :=
    split_join (fun name member => containsChar_eq_false.2 ((names name member).free (by decide)))
      signable.nonempty
  rw [parseAuthorizationHeader, authorization_parts, splitComma_append credential, splitComma_append headers,
    splitComma_free signed]
  simp only [expectPrefix_append, bind, Except.bind, components, list, String.ofList_toList]
  have scope : String.ofList (date.toList.take 8 ++ '/' :: s.region.toList ++ '/' :: s.service.toList ++
      "/aws4_request".toList) = s.scope date := ofList_parts (by decide) _ _ _ _
  rw [scope]
  rfl

theorem Signable.visible {s : Signer} {r : HttpRequest} {date : String} {signedHeaders : List String}
    (signable : Signable s r date signedHeaders) {signature : String} (word : Word signature) :
    ∀ c ∈ (s.authorization date signedHeaders signature).toList, visibleChar c = true := by
  obtain ⟨key, region, service, dated⟩ := signable.words
  have names : ∀ name ∈ signedHeaders, Word name := fun name member =>
    word_headerName (signable.named name member).1
  have day : ∀ c ∈ date.toList.take 8, visibleChar c = true := fun c member =>
    dated.visible c (List.mem_of_mem_take member)
  have joined : ∀ c ∈ (join ';' signedHeaders).toList, visibleChar c = true := by
    intro c member
    rcases mem_join member with rfl | ⟨name, listed, inside⟩
    · decide
    · exact (names name listed).visible c inside
  rw [authorization_parts]
  apply visible_parts
  · exact visible_of_all (by decide +kernel)
  · have slash : visibleChar '/' = true := by decide
    have request : ∀ c ∈ "aws4_request".toList, visibleChar c = true := visible_of_all (by decide)
    intro c member
    simp only [List.intercalate, List.intersperse, List.flatten_cons, List.flatten_nil, List.append_nil,
      List.mem_append, List.mem_singleton] at member
    rcases member with inside | rfl | inside | rfl | inside | rfl | inside | rfl | inside
    · exact key.visible c inside
    · exact slash
    · exact day c inside
    · exact slash
    · exact region.visible c inside
    · exact slash
    · exact service.visible c inside
    · exact slash
    · exact request c inside
  · exact visible_of_all (by decide +kernel)
  · exact joined
  · exact visible_of_all (by decide +kernel)
  · exact word.visible

/-! ## What is signed -/

section Headers
variable {h : HeaderMap} {authorization name : String}

theorem get_authorize_other (other : toLowercase name ≠ "authorization") :
    (h.authorize authorization).get name = h.get name := by
  have last : ("authorization" == toLowercase name) = false := by simpa using other.symm
  simp [HeaderMap.get, HeaderMap.authorize, List.find?_append, last]

theorem text_authorize_other (other : toLowercase name ≠ "authorization") :
    (h.authorize authorization).text name = h.text name := by
  rw [HeaderMap.text, get_authorize_other other, HeaderMap.text]

theorem text_authorize (unsigned : h.get "authorization" = none)
    (visible : ∀ c ∈ authorization.toList, visibleChar c = true) :
    (h.authorize authorization).text "authorization" = some authorization := by
  have lower : toLowercase "authorization" = "authorization" := by decide +kernel
  have absent : h.entries.find? (fun e => e.1 == "authorization") = none := by
    rw [HeaderMap.get, lower] at unsigned
    simpa using unsigned
  rw [HeaderMap.text, HeaderMap.get, lower, HeaderMap.authorize, List.find?_append, absent, Option.none_or]
  simp [toStr_utf8 visible]

theorem readable_authorize_other (other : toLowercase name ≠ "authorization") :
    (h.authorize authorization).readable name = h.readable name := by
  simp [HeaderMap.readable, HeaderMap.authorize, List.findSome?_append, other.symm]

/-- The header block is the same when the signed headers read the same. -/
theorem canonicalHeadersMap_congr {h h' : HeaderMap} {signedHeaders : List String}
    (same : ∀ name ∈ signedHeaders, h'.text name = h.text name) :
    canonicalHeadersMap h' signedHeaders = canonicalHeadersMap h signedHeaders := by
  unfold canonicalHeadersMap
  generalize Kv.Store.empty = map
  induction signedHeaders generalizing map with
  | nil => rfl
  | cons name names ih =>
    have first : addHeader h' map name = addHeader h map name := by
      rw [addHeader, addHeader, same name List.mem_cons_self]
    rw [List.foldl_cons, List.foldl_cons, first, ih fun name' member => same name' (List.mem_cons_of_mem _ member)]

end Headers

/-- Another copy of a request, with headers that read the same where it counts. -/
structure Reads (r' r : HttpRequest) (signedHeaders : List String) : Prop where
  method : r'.method = r.method
  path : canonicalUri r'.path = canonicalUri r.path
  query : r'.query = r.query
  headers : ∀ name ∈ signedHeaders, r'.headers.text name = r.headers.text name
  payload : r'.contentSha256 = r.contentSha256

theorem Reads.canonical {r' r : HttpRequest} {signedHeaders : List String} (reads : Reads r' r signedHeaders) :
    r'.canonical signedHeaders r'.contentSha256 = r.canonical signedHeaders r.contentSha256 := by
  unfold HttpRequest.canonical buildCanonicalRequest
  rw [reads.method, reads.path, reads.query, reads.payload, canonicalHeadersMap_congr reads.headers]

section Check
variable [Sha256] [HmacSha256] {s : Signer} {r : HttpRequest} {date : String} {signedHeaders : List String}

/-- A node that knows the signer and takes the date for one of now. -/
structure Admits (env : AuthEnv) (s : Signer) (date : String) : Prop where
  accessKey : s.accessKey = env.accessKey
  secretKey : s.secretKey = env.secretKey
  fresh : validateTimestamp env date = .ok ()

/-- A copy of a signed request is accepted. -/
theorem validateSigv4_of_reads {env : AuthEnv} (admits : Admits env s date)
    (signable : Signable s r date signedHeaders) {r' : HttpRequest} (reads : Reads r' r signedHeaders)
    (shown : r'.headers.text "authorization" =
      some (s.authorization date signedHeaders (s.signature r date signedHeaders)))
    (dated : r'.headers.text "x-amz-date" = some date) :
    validateSigv4 env r' = .ok ⟨s.accessKey, s.scope date, s.region, s.service, signedHeaders,
      s.signature r date signedHeaders⟩ := by
  have word : Word (s.signature r date signedHeaders) := word_hexEncode _
  have starts : startsWith (s.authorization date signedHeaders (s.signature r date signedHeaders))
      "AWS4-HMAC-SHA256" = true := by
    have shorter : startsWith "AWS4-HMAC-SHA256 Credential=" "AWS4-HMAC-SHA256" = true := by decide +kernel
    exact startsWith_of_startsWith (s.authorization_startsWith _ _ _) shorter
  refine validateSigv4_ok.2 ⟨⟨_, shown, starts, parse_authorization signable word⟩, admits.accessKey,
    ⟨date, dated, admits.fresh⟩, ?_⟩
  rw [HttpRequest.signingKey, HttpRequest.stringToSign, HttpRequest.amzDate, dated, Option.getD_some,
    reads.canonical, ← admits.secretKey]
  rfl

theorem Signable.sign_reads (signable : Signable s r date signedHeaders) :
    Reads (s.sign r date signedHeaders) r signedHeaders where
  method := rfl
  path := rfl
  query := rfl
  headers name member := text_authorize_other (signable.named name member).2
  payload := by
    have other : toLowercase "x-amz-content-sha256" ≠ "authorization" := by decide +kernel
    rw [HttpRequest.contentSha256, HttpRequest.contentSha256]
    exact congrArg (fun text : Option String => text.getD "UNSIGNED-PAYLOAD") (text_authorize_other other)

theorem Signable.sign_shown (signable : Signable s r date signedHeaders) :
    (s.sign r date signedHeaders).headers.text "authorization" =
        some (s.authorization date signedHeaders (s.signature r date signedHeaders)) ∧
      (s.sign r date signedHeaders).headers.text "x-amz-date" = some date := by
  have other : toLowercase "x-amz-date" ≠ "authorization" := by decide +kernel
  exact ⟨text_authorize signable.unsigned (signable.visible (word_hexEncode _)),
    (text_authorize_other other).trans signable.dated⟩

/-- What is signed reads the same at the leader. -/
theorem Signable.forward_reads (signable : Signable s r date signedHeaders)
    (through : Forwardable r signedHeaders) :
    Reads (forward (s.sign r date signedHeaders)) r signedHeaders where
  method := rfl
  path := by
    by_cases empty : r.path = ""
    · simp [forward, Signer.sign, canonicalUri, empty]
    · simp [forward, Signer.sign, canonicalUri, empty]
  query := rfl
  headers name member := by
    have other : toLowercase name ≠ forwardedBy := fun same =>
      through.marker (same ▸ List.mem_map_of_mem member)
    rw [forward, text_forwardedHeaders, if_neg other]
    split
    · rename_i listed
      rw [through.first name member listed]
      exact readable_authorize_other (signable.named name member).2
    · rename_i dropped
      cases read : r.headers.text name with
      | none => rfl
      | some v => exact absurd (through.listed name member (by rw [read]; rfl)) dropped
  payload := by
    have listed : shouldForwardHeader "x-amz-content-sha256" = true := by decide +kernel
    have other : toLowercase "x-amz-content-sha256" ≠ "authorization" := by decide +kernel
    rw [through.payload, HttpRequest.contentSha256, forward, text_forwardedHeaders,
      if_neg (ne_forwardedBy listed), if_pos listed]
    exact congrArg (fun text : Option String => text.getD "UNSIGNED-PAYLOAD") (readable_authorize_other other)

variable [FormUrlencoded] [ReqwestUrl]

theorem app_served {node : FrontNode} {operation : Operation} {info : AuthInfo}
    (stays : node.forwardToLeader r = none) (ready : node.isInitialized = true)
    (free : managementCall r = none) (accepted : validateSigv4 node.auth r = .ok info)
    (named : apiOperation r = .ok operation) : app node r = .serve operation := by
  simp [app, stays, ready, free, accepted, named]

/-- A node of an initialised cluster that admits the signer. -/
structure FrontNode.Admits (node : FrontNode) (s : Signer) (date : String) : Prop where
  ready : node.isInitialized = true
  auth : Api.Admits node.auth s date

omit [Sha256] [HmacSha256] [FormUrlencoded] [ReqwestUrl] in
theorem isAlreadyForwarded_authorize {h : HeaderMap} {authorization : String} :
    isAlreadyForwarded (h.authorize authorization) = isAlreadyForwarded h := by
  have other : toLowercase forwardedBy ≠ "authorization" := by decide +kernel
  rw [isAlreadyForwarded, isAlreadyForwarded, get_authorize_other other]

omit [FormUrlencoded] [ReqwestUrl] in
/-- Signing does not change where a request goes. -/
theorem forwardToLeader_sign (node : FrontNode) :
    node.forwardToLeader (s.sign r date signedHeaders) = node.forwardToLeader r := by
  simp only [FrontNode.forwardToLeader, Signer.sign, isAlreadyForwarded_authorize]

/-- **Signed requests.** The authorization of a signed request is read back as it was written, and a
signed request that names an operation is served: where it enters, or at the leader that the node it
enters sends it on to, if the signed headers get through and the client keeps the target. -/
theorem signed_request_served {operation : Operation} (signable : Signable s r date signedHeaders)
    (free : managementCall r = none) (named : apiOperation r = .ok operation)
    (nodes : Nat → String → Option FrontNode) (hops : Nat) {entry : FrontNode}
    (here : entry.forwardToLeader r = none → entry.Admits s date)
    (there : ∀ addr, entry.forwardToLeader r = some addr →
      Forwardable r signedHeaders ∧ TargetKept r ∧
        ∃ leader, nodes (hops + 1) addr = some leader ∧ leader.Admits s date) :
    (∃ authorization, (s.sign r date signedHeaders).headers.text "authorization" = some authorization ∧
        parseAuthorizationHeader authorization = .ok ⟨s.accessKey, s.scope date, s.region, s.service,
          signedHeaders, s.signature r date signedHeaders⟩) ∧
      ∃ a, travel nodes (hops + 2) entry (s.sign r date signedHeaders) = some a ∧
        a.outcome = .serve operation := by
  obtain ⟨shown, dated⟩ := signable.sign_shown
  refine ⟨⟨_, shown, parse_authorization signable (word_hexEncode _)⟩, ?_⟩
  have named' : apiOperation (s.sign r date signedHeaders) = .ok operation := named
  have free' : managementCall (s.sign r date signedHeaders) = none := free
  cases goes : entry.forwardToLeader r with
  | none =>
    have admits := here goes
    have accepted := validateSigv4_of_reads admits.auth signable signable.sign_reads shown dated
    have served := app_served ((forwardToLeader_sign entry).trans goes) admits.ready free' accepted named'
    refine ⟨⟨entry, s.sign r date signedHeaders, .serve operation⟩, ?_, rfl⟩
    simp only [travel, served]
  | some addr =>
    obtain ⟨through, kept, leader, found, admits⟩ := there addr goes
    have shown' := text_listed (by decide +kernel) shown
    have dated' := text_listed (by decide +kernel) dated
    have accepted := validateSigv4_of_reads admits.auth signable (signable.forward_reads through) shown' dated'
    have kept : TargetKept (s.sign r date signedHeaders) := ⟨kept.path, kept.query⟩
    have sent : app entry (s.sign r date signedHeaders) =
        .forwarded addr (forward (s.sign r date signedHeaders)) := by
      rw [app, (forwardToLeader_sign entry).trans goes, transmit_of_kept kept]
    have stays : leader.forwardToLeader (forward (s.sign r date signedHeaders)) = none := by
      rw [← transmit_of_kept kept, forwardToLeader_transmit]
    -- the path is not empty, so it is sent on as it is
    have path : (forward (s.sign r date signedHeaders)).path = r.path := by
      have filled := path_of_operation named
      simp only [forward, Signer.sign]
      exact filled
    have free'' : managementCall (forward (s.sign r date signedHeaders)) = none := by
      rw [managementCall_eq_none, path]
      exact managementCall_eq_none.1 free
    have named'' : apiOperation (forward (s.sign r date signedHeaders)) = .ok operation := by
      rw [← named]
      unfold apiOperation
      rw [path]
      rfl
    have served := app_served stays admits.ready free'' accepted named''
    refine ⟨⟨leader, forward (s.sign r date signedHeaders), .serve operation⟩, ?_, rfl⟩
    simp only [travel, sent, found, served]

end Check

def sampleSigner : Signer := ⟨"AK", "SK", "us-east-1", "s3"⟩

/-- The headers of the sample, to be signed. -/
def unsignedHeaders : HeaderMap where
  entries := sampleHeaders.entries.take 3
  named := fun e member => sampleHeaders.named e (List.mem_of_mem_take member)

def unsignedRequest : HttpRequest := { sampleRequest with headers := unsignedHeaders }

def sampleSigned : List String := ["host", "x-amz-content-sha256", "x-amz-date"]

theorem unsigned_signable : Signable sampleSigner unsignedRequest "20230101T120000Z" sampleSigned where
  unsigned := by decide +kernel
  dated := by decide +kernel
  words := by decide +kernel
  nonempty := by decide
  named := by decide +kernel

theorem unsigned_forwardable : Forwardable unsignedRequest sampleSigned where
  listed := by decide +kernel
  first := by decide +kernel
  marker := by decide +kernel
  payload := by decide +kernel

theorem unsigned_plainTarget : PlainTarget unsignedRequest where
  path := ⟨by decide +kernel, by decide +kernel, by decide +kernel⟩
  query q there := by
    obtain rfl : "a=1&b=2" = q := Option.some.inj there
    decide +kernel

/-- A URL parser that keeps every target, as the real one does the sample's. -/
@[reducible] def keptUrl : ReqwestUrl := ⟨id, id, fun _ => rfl, fun _ => rfl⟩

/-- A write that enters at a follower is served at the leader. -/
theorem signed_sample_served :
    (∃ authorization, (@Signer.sign sampleSha256 sampleHmac sampleSigner unsignedRequest
        "20230101T120000Z" sampleSigned).headers.text "authorization" = some authorization ∧
      parseAuthorizationHeader authorization = .ok ⟨"AK", sampleSigner.scope "20230101T120000Z", "us-east-1",
        "s3", sampleSigned, @Signer.signature sampleSha256 sampleHmac sampleSigner unsignedRequest
          "20230101T120000Z" sampleSigned⟩) ∧
      ∃ a, @travel sampleSha256 sampleHmac plainForm keptUrl
          (fun _ addr => if addr = "http://leader:9000" then some ⟨true, none, true, sampleAuthEnv⟩ else none) 2
          ⟨false, some "http://leader:9000", true, sampleAuthEnv⟩
          (@Signer.sign sampleSha256 sampleHmac sampleSigner unsignedRequest "20230101T120000Z" sampleSigned) =
            some a ∧ a.outcome = .serve (.putObject "abc" "k") := by
  let _ := plainForm
  let _ := keptUrl
  let _ := sampleSha256
  let _ := sampleHmac
  have path : unsignedRequest.path = objectPath unreserved "abc" "k" := by decide +kernel
  have named : apiOperation unsignedRequest = .ok (.putObject "abc" "k") := by
    rw [apiOperation_objectPath unreserved_writes (by decide) (by decide) path]
    have params : formParams (unsignedRequest.query.getD "") = [("a", "1"), ("b", "2")] := by decide +kernel
    unfold callEndpoint
    rw [params]
    rfl
  have free : managementCall unsignedRequest = none := by decide +kernel
  refine signed_request_served unsigned_signable free named _ 0 (fun stays => ?_) fun addr goes => ?_
  · exact absurd stays (by decide +kernel)
  · have leader : some "http://leader:9000" = some addr := Eq.trans (by decide +kernel) goes
    refine ⟨unsigned_forwardable, unsigned_plainTarget.kept, ⟨true, none, true, sampleAuthEnv⟩, ?_, rfl,
      rfl, rfl, rfl⟩
    exact if_pos (Option.some.inj leader).symm

end Save.Api
