import Save.Lib.Kv
import Save.Metadata.Records
import Save.Storage.Objects
import Mathlib.Data.List.Sort
import Mathlib.Data.Prod.Lex

/-!
# Request signatures

`auth.rs`: the SigV4 check in front of the handlers. A request is flattened into
one string, the canonical request, whose hash is signed. The headers that take
part are the client's choice, the header block may be empty or of any length,
and the query is split, sorted and joined again. `canonical_request_injective`:
over requests without newlines the canonical request determines all that is
flattened into it, so one signature is good for one such request only.

The two hash functions are those of third-party crates. The digest is the one
the object store uses; the keyed hash is `HmacSha256`. Neither is assumed to be
injective: the collisions a statement rules out are named in it.
-/

namespace Save.Api
set_option autoImplicit false
open Save.Text Save.Kv Save.Files Save.Storage
open Save.Metadata (bind_ok)

/-- The keyed hash of the `hmac` crate over SHA-256. -/
class HmacSha256 where
  mac : Bytes → Bytes → Bytes

/-! ## Headers -/

def headerNameChar (c : Char) : Bool :=
  ('a' ≤ c && c ≤ 'z') || ('0' ≤ c && c ≤ '9') || "!#$%&'*+-.^_`|~".toList.contains c

/-- The form of a `HeaderName`, which is kept in lower case. -/
def isHeaderName (s : String) : Bool := s != "" && s.toList.all headerNameChar

/-- A `HeaderMap`, in the order of its iteration: a name may have several values. -/
structure HeaderMap where
  entries : List (String × Bytes)
  named : ∀ e ∈ entries, isHeaderName e.1 = true

/-- `str::to_lowercase`, on the ASCII text that header names are. -/
def toLowercase (s : String) : String := String.ofList (s.toList.map Char.toLower)

/-- `headers.get(name)`: the first value, whatever the case of the name. -/
def HeaderMap.get (h : HeaderMap) (name : String) : Option Bytes :=
  (h.entries.find? fun e => e.1 == toLowercase name).map Prod.snd

def visibleAscii (b : UInt8) : Bool := (32 ≤ b && b < 127) || b == 9

/-- `HeaderValue::to_str`. -/
def toStr (v : Bytes) : Option String :=
  if v.all visibleAscii then some (String.ofList (v.map fun b => Char.ofNat b.toNat)) else none

/-- `headers.get(name).and_then(|h| h.to_str().ok())`. -/
def HeaderMap.text (h : HeaderMap) (name : String) : Option String := (h.get name).bind toStr

/-- `str::trim`. -/
def trim (s : List Char) : List Char :=
  ((s.dropWhile Char.isWhitespace).reverse.dropWhile Char.isWhitespace).reverse

/-- `replace("  ", " ")`: pairs of spaces, from the left. -/
def halveSpaces : List Char → List Char
  | ' ' :: ' ' :: rest => ' ' :: halveSpaces rest
  | c :: rest => c :: halveSpaces rest
  | [] => []

def normalizedValue (s : String) : String := String.ofList (halveSpaces (trim s.toList))

/-! ## The canonical request -/

/-- The parameters of a query, in their order. -/
def queryParams (query : String) : List (String × String) :=
  if query = "" then []
  else (split query '&').map fun param =>
    let parts := splitFirst param '='
    (parts.1, parts.2.getD "")

/-- By key and then by value. -/
def paramLe (a b : String × String) : Prop := toLex a ≤ toLex b

instance : DecidableRel paramLe := fun a b => inferInstanceAs (Decidable (toLex a ≤ toLex b))

def paramText (p : String × String) : String := if p.2 = "" then p.1 ++ "=" else p.1 ++ "=" ++ p.2

def canonicalizeQueryString (query : String) : String :=
  join '&' (((queryParams query).insertionSort paramLe).map paramText)

/-- A signed header takes part when it is present and readable, under its name in lower case. -/
def addHeader (headers : HeaderMap) (map : Store String) (name : String) : Store String :=
  match headers.text name with
  | some value => map.put (toLowercase name) (normalizedValue value)
  | none => map

/-- The loop over the signed headers. -/
def canonicalHeadersMap (headers : HeaderMap) (signedHeaders : List String) : Store String :=
  signedHeaders.foldl (addHeader headers) Store.empty

def headerLine (e : String × String) : String := e.1 ++ ":" ++ e.2

/-- An empty path counts as the root. -/
def canonicalUri (path : String) : String := if path = "" then "/" else path

/-- `build_canonical_request`, which never fails. -/
def buildCanonicalRequest (method path query : String) (headers : HeaderMap)
    (signedHeaders : List String) (payloadHash : String) : String :=
  let canonicalHeaders :=
    join '\n' ((canonicalHeadersMap headers signedHeaders).entries.map headerLine)
  method ++ "\n" ++ canonicalUri path ++ "\n" ++ canonicalizeQueryString query ++ "\n" ++
    canonicalHeaders ++ "\n\n" ++ join ';' signedHeaders ++ "\n" ++ payloadHash

/-! ## One line a field -/

/-- `s` stands on one line. -/
def OneLine (s : String) : Prop := containsChar s '\n' = false

instance (s : String) : Decidable (OneLine s) := inferInstanceAs (Decidable (_ = false))

theorem oneLine_iff {s : String} : OneLine s ↔ '\n' ∉ s.toList := containsChar_eq_false

/-- What has no character of its own stands on one line with the text it is from. -/
theorem OneLine.of_subset {s t : String} (line : OneLine s) (inside : ∀ c ∈ t.toList, c ∈ s.toList) :
    OneLine t := by
  rw [oneLine_iff] at *
  exact fun newline => line (inside _ newline)

theorem OneLine.append {s t : String} (line : OneLine s) (line' : OneLine t) : OneLine (s ++ t) := by
  rw [oneLine_iff] at *
  simp [line, line']

/-- A header name has neither a newline nor a colon. -/
theorem headerName_free {s : String} (named : isHeaderName s = true) :
    OneLine s ∧ containsChar s ':' = false := by
  have chars : ∀ c ∈ s.toList, headerNameChar c = true := by
    simp only [isHeaderName, Bool.and_eq_true, List.all_eq_true] at named
    exact named.2
  constructor
  · rw [oneLine_iff]
    exact fun newline => absurd (chars _ newline) (by decide)
  · rw [containsChar_eq_false]
    exact fun colon => absurd (chars _ colon) (by decide)

theorem oneLine_toStr {v : Bytes} {s : String} (read : toStr v = some s) : OneLine s := by
  unfold toStr at read
  split at read
  · rename_i visible
    cases read
    rw [oneLine_iff, String.toList_ofList, List.mem_map]
    rintro ⟨b, member, newline⟩
    have none : ∀ n < 256, visibleAscii (UInt8.ofNat n) = true → Char.ofNat n ≠ '\n' := by
      decide +kernel
    refine none b.toNat b.toNat_lt ?_ newline
    rw [UInt8.ofNat_toNat]
    exact List.all_eq_true.1 visible b member
  · cases read

theorem oneLine_text {h : HeaderMap} {name s : String} (read : h.text name = some s) : OneLine s := by
  obtain ⟨v, -, shown⟩ := Option.bind_eq_some_iff.1 read
  exact oneLine_toStr shown

theorem mem_trim {s : List Char} {c : Char} (member : c ∈ trim s) : c ∈ s := by
  rw [trim, List.mem_reverse] at member
  have inner := (List.dropWhile_suffix _).subset member
  exact (List.dropWhile_suffix _).subset (List.mem_reverse.1 inner)

theorem mem_halveSpaces {s : List Char} {c : Char} (member : c ∈ halveSpaces s) : c ∈ s := by
  fun_induction halveSpaces s with
  | case1 rest ih =>
    rcases List.mem_cons.1 member with rfl | later
    · exact List.mem_cons_self
    · exact List.mem_cons_of_mem _ (List.mem_cons_of_mem _ (ih later))
  | case2 x rest _ ih =>
    rcases List.mem_cons.1 member with rfl | later
    · exact List.mem_cons_self
    · exact List.mem_cons_of_mem _ (ih later)
  | case3 => exact member

theorem oneLine_normalizedValue {s : String} (line : OneLine s) : OneLine (normalizedValue s) := by
  apply line.of_subset
  intro c member
  rw [normalizedValue, String.toList_ofList] at member
  exact mem_trim (mem_halveSpaces member)

/-- A header that is found has the name it was asked for, in lower case. -/
theorem name_of_text {h : HeaderMap} {name s : String} (read : h.text name = some s) :
    isHeaderName (toLowercase name) = true := by
  obtain ⟨v, found, -⟩ := Option.bind_eq_some_iff.1 read
  obtain ⟨e, first, -⟩ := Option.map_eq_some_iff.1 found
  have same := List.find?_some first
  rw [← eq_of_beq same]
  exact h.named e (List.mem_of_find?_eq_some first)

theorem toLower_toLower (c : Char) : c.toLower.toLower = c.toLower := by
  have other : ∀ d : Char, ¬ (d.val ≥ 'A'.val ∧ d.val ≤ 'Z'.val) → d.toLower = d :=
    fun d outside => dif_neg outside
  by_cases upper : c.val ≥ 'A'.val ∧ c.val ≤ 'Z'.val
  · have lower : c.toLower.val = c.val + 32 := congrArg Char.val (dif_pos upper : c.toLower = _)
    apply other
    rw [lower]
    rintro ⟨-, below⟩
    have first : c.val.toNat ≥ 65 := UInt32.le_iff_toNat_le.1 upper.1
    have last : c.val.toNat ≤ 90 := UInt32.le_iff_toNat_le.1 upper.2
    have below : (c.val + 32).toNat ≤ 90 := UInt32.le_iff_toNat_le.1 below
    rw [UInt32.toNat_add] at below
    have shift : (32 : UInt32).toNat = 32 := rfl
    omega
  · rw [other c upper, other c upper]

theorem toLowercase_toLowercase (s : String) : toLowercase (toLowercase s) = toLowercase s := by
  have chars : Char.toLower ∘ Char.toLower = Char.toLower := funext toLower_toLower
  simp [toLowercase, chars]

/-- A lookup does not depend on the case of the name. -/
theorem text_toLowercase (h : HeaderMap) (name : String) : h.text (toLowercase name) = h.text name := by
  rw [HeaderMap.text, HeaderMap.get, toLowercase_toLowercase]
  rfl

/-- The value that the header `k` has in the block, when it is signed and can be read. -/
def signedValue (headers : HeaderMap) (signedHeaders : List String) (k : String) : Option String :=
  if k ∈ signedHeaders.map toLowercase then (headers.text k).map normalizedValue else none

/-- The value of a signed header. -/
theorem signedValue_of_mem (headers : HeaderMap) {signedHeaders : List String} {name : String}
    (signed : name ∈ signedHeaders) :
    signedValue headers signedHeaders (toLowercase name) = (headers.text name).map normalizedValue := by
  rw [signedValue, if_pos (List.mem_map_of_mem signed), text_toLowercase]

theorem signedValue_cons (headers : HeaderMap) (name : String) (names : List String) (k : String) :
    signedValue headers (name :: names) k =
      if toLowercase name = k then (headers.text name).map normalizedValue
      else signedValue headers names k := by
  by_cases here : toLowercase name = k
  · rw [if_pos here, ← here, signedValue_of_mem headers List.mem_cons_self]
  · have apart : k ≠ toLowercase name := fun same => here same.symm
    simp only [signedValue, List.map_cons, List.mem_cons, apart, false_or, here, if_false]

theorem get_addHeader (headers : HeaderMap) (map : Store String) (name k : String) :
    (addHeader headers map name).get k =
      if toLowercase name = k then ((headers.text name).map normalizedValue).or (map.get k)
      else map.get k := by
  unfold addHeader
  cases headers.text name with
  | none => simp
  | some value => simp

/-- The loop over the signed headers gathers the values they have. -/
theorem get_canonicalHeadersMap (headers : HeaderMap) (signedHeaders : List String) (k : String) :
    (canonicalHeadersMap headers signedHeaders).get k = signedValue headers signedHeaders k := by
  -- a header that is signed again is put again with the value it has
  have loop : ∀ (names : List String) (map : Store String),
      (names.foldl (addHeader headers) map).get k = (signedValue headers names k).or (map.get k) := by
    intro names
    induction names with
    | nil => simp [signedValue]
    | cons name names ih =>
      intro map
      rw [List.foldl_cons, ih, get_addHeader, signedValue_cons]
      by_cases here : toLowercase name = k
      · rw [if_pos here, if_pos here]
        have again : signedValue headers names k = none ∨
            signedValue headers names k = (headers.text name).map normalizedValue := by
          rw [signedValue, ← here, text_toLowercase]
          split
          · exact .inr rfl
          · exact .inl rfl
        rcases again with rest | rest
        · rw [rest, Option.none_or]
        · rw [rest, ← Option.or_assoc, Option.or_self]
      · rw [if_neg here, if_neg here]
  rw [canonicalHeadersMap, loop, get_empty, Option.or_none]

/-- A signed header that has a value has a name of a header, and the value is on one line. -/
theorem signedValue_form {headers : HeaderMap} {signedHeaders : List String} {k v : String}
    (value : signedValue headers signedHeaders k = some v) : isHeaderName k = true ∧ OneLine v := by
  unfold signedValue at value
  split at value
  · rename_i signed
    obtain ⟨name, -, lower⟩ := List.mem_map.1 signed
    obtain ⟨s, read, rfl⟩ := Option.map_eq_some_iff.1 value
    refine ⟨?_, oneLine_normalizedValue (oneLine_text read)⟩
    have named := name_of_text read
    rwa [← lower, toLowercase_toLowercase, lower] at named
  · cases value

/-! ## The lines of a canonical request -/

/-- The header block: one line a header, or one empty line. -/
def headerBlock (entries : List (String × String)) : List String :=
  if entries = [] then [""] else entries.map headerLine

theorem join_headerBlock (entries : List (String × String)) :
    join '\n' (entries.map headerLine) = join '\n' (headerBlock entries) := by
  cases entries with
  | nil => rfl
  | cons e rest => rfl

theorem headerBlock_ne_nil (entries : List (String × String)) : headerBlock entries ≠ [] := by
  cases entries with
  | nil => simp [headerBlock]
  | cons e rest => simp [headerBlock]

/-- The canonical request, line by line. -/
theorem canonical_lines (method path query : String) (headers : HeaderMap)
    (signedHeaders : List String) (payloadHash : String) :
    buildCanonicalRequest method path query headers signedHeaders payloadHash =
      join '\n' ([method, canonicalUri path, canonicalizeQueryString query] ++
        headerBlock (canonicalHeadersMap headers signedHeaders).entries ++
        ["", join ';' signedHeaders, payloadHash]) := by
  rw [join_append '\n' (by simp) (by simp), join_append '\n' (by simp) (headerBlock_ne_nil _),
    ← join_headerBlock]
  simp only [buildCanonicalRequest, join_cons_cons, join_singleton]
  rw [← String.toList_inj]
  simp

theorem canonicalHeaders_form {headers : HeaderMap} {signedHeaders : List String}
    {e : String × String} (member : e ∈ (canonicalHeadersMap headers signedHeaders).entries) :
    containsChar e.1 ':' = false ∧ OneLine (headerLine e) := by
  have found : (canonicalHeadersMap headers signedHeaders).get e.1 = some e.2 :=
    Std.ExtTreeMap.mem_toList_iff_getElem?_eq_some.1 member
  rw [get_canonicalHeadersMap] at found
  obtain ⟨named, line⟩ := signedValue_form found
  obtain ⟨name, colon⟩ := headerName_free named
  refine ⟨colon, (name.append ?_).append line⟩
  decide

theorem headerBlock_inj {entries entries' : List (String × String)}
    (free : ∀ e ∈ entries, containsChar e.1 ':' = false)
    (free' : ∀ e ∈ entries', containsChar e.1 ':' = false)
    (same : headerBlock entries = headerBlock entries') : entries = entries' := by
  -- the line of a header has its colon, so it is not the empty line
  have filled : ∀ e : String × String, headerLine e ≠ "" := by
    intro e empty
    have := congrArg String.toList empty
    simp [headerLine] at this
  have mapped : entries.map headerLine = entries'.map headerLine := by
    cases entries with
    | nil =>
      cases entries' with
      | nil => rfl
      | cons e rest => exact absurd (List.cons.inj same).1.symm (filled e)
    | cons e rest =>
      cases entries' with
      | nil => exact absurd (List.cons.inj same).1 (filled e)
      | cons e' rest' => exact same
  exact map_pairs_inj free free' mapped

/-- The loop ends with the same map just when the signed values are the same. -/
theorem canonicalHeadersMap_eq_iff {headers headers' : HeaderMap}
    {signedHeaders signedHeaders' : List String} :
    canonicalHeadersMap headers signedHeaders = canonicalHeadersMap headers' signedHeaders' ↔
      ∀ name, signedValue headers signedHeaders name = signedValue headers' signedHeaders' name := by
  constructor
  · intro maps name
    rw [← get_canonicalHeadersMap, ← get_canonicalHeadersMap, maps]
  · intro values
    apply Store.ext
    intro name
    rw [get_canonicalHeadersMap, get_canonicalHeadersMap, values]

/-- The header block tells the signed values. -/
theorem signedValue_of_headerBlock {headers headers' : HeaderMap}
    {signedHeaders signedHeaders' : List String}
    (same : headerBlock (canonicalHeadersMap headers signedHeaders).entries =
      headerBlock (canonicalHeadersMap headers' signedHeaders').entries) (name : String) :
    signedValue headers signedHeaders name = signedValue headers' signedHeaders' name := by
  have entries := headerBlock_inj (fun e member => (canonicalHeaders_form member).1)
    (fun e member => (canonicalHeaders_form member).1) same
  exact canonicalHeadersMap_eq_iff.1 (entries_inj.1 entries) name

/-! ## The query -/

/-- The parameters of a query have the characters of the query, none has `&` and no key has `=`. -/
theorem queryParams_form {query : String} {p : String × String} (member : p ∈ queryParams query) :
    (containsChar p.1 '&' = false ∧ containsChar p.2 '&' = false ∧ containsChar p.1 '=' = false) ∧
      (∀ c ∈ p.1.toList, c ∈ query.toList) ∧ ∀ c ∈ p.2.toList, c ∈ query.toList := by
  unfold queryParams at member
  split at member
  · cases member
  · obtain ⟨param, there, rfl⟩ := List.mem_map.1 member
    obtain ⟨free, inside⟩ := mem_split there
    obtain ⟨free_key, key, value⟩ := splitFirst_spec param '='
    have value : ∀ c ∈ ((splitFirst param '=').2.getD "").toList, c ∈ param.toList := by
      cases rest : (splitFirst param '=').2 with
      | none => simp
      | some t => exact value t rest
    have apart : ∀ t : String, (∀ c ∈ t.toList, c ∈ param.toList) → containsChar t '&' = false := by
      intro t sub
      rw [containsChar_eq_false]
      exact fun amp => containsChar_eq_false.1 free (sub _ amp)
    exact ⟨⟨apart _ key, apart _ value, free_key⟩, fun c h => inside c (key c h),
      fun c h => inside c (value c h)⟩

theorem paramText_eq (p : String × String) : paramText p = p.1 ++ "=" ++ p.2 := by
  unfold paramText
  split
  · rename_i empty
    simp [empty]
  · rfl

instance : IsTrans (String × String) paramLe := ⟨fun _ _ _ h h' => Preorder.le_trans _ _ _ h h'⟩
instance : Std.Total paramLe := ⟨fun a b => le_total (toLex a) (toLex b)⟩
instance : Std.Antisymm paramLe := ⟨fun _ _ h h' => toLex.injective (le_antisymm h h')⟩

/-- The canonical query tells which parameters there are, and how often. -/
theorem canonicalizeQueryString_iff (query query' : String) :
    canonicalizeQueryString query = canonicalizeQueryString query' ↔
      (queryParams query).Perm (queryParams query') := by
  constructor
  · intro same
    have sorted : (queryParams query).insertionSort paramLe = (queryParams query').insertionSort paramLe := by
      have text : ∀ q : String, ∀ p ∈ ((queryParams q).insertionSort paramLe).map paramText,
          containsChar p '&' = false ∧ p ≠ "" := by
        intro q p member
        obtain ⟨param, there, rfl⟩ := List.mem_map.1 member
        obtain ⟨⟨key, value, -⟩, -⟩ := queryParams_form ((List.mem_insertionSort paramLe).1 there)
        rw [paramText_eq]
        rw [containsChar_eq_false] at *
        refine ⟨by simp [key, value], fun empty => ?_⟩
        have := congrArg String.toList empty
        simp at this
      have mapped := join_inj_filled (text query) (text query') same
      have free : ∀ q : String, ∀ p ∈ (queryParams q).insertionSort paramLe,
          containsChar p.1 '=' = false := by
        intro q p member
        exact (queryParams_form ((List.mem_insertionSort paramLe).1 member)).1.2.2
      simp only [funext paramText_eq] at mapped
      exact map_pairs_inj (free query) (free query') mapped
    calc (queryParams query).Perm ((queryParams query).insertionSort paramLe) :=
          (List.perm_insertionSort paramLe _).symm
      _ = (queryParams query').insertionSort paramLe := sorted
      _ |>.Perm (queryParams query') := List.perm_insertionSort paramLe _
  · intro perm
    unfold canonicalizeQueryString
    rw [List.Perm.eq_of_pairwise' (List.pairwise_insertionSort paramLe _)
      (List.pairwise_insertionSort paramLe _)
      (((List.perm_insertionSort paramLe _).trans perm).trans (List.perm_insertionSort paramLe _).symm)]

theorem oneLine_canonicalizeQueryString {query : String} (line : OneLine query) :
    OneLine (canonicalizeQueryString query) := by
  apply join_contains (by decide)
  intro p member
  obtain ⟨param, there, rfl⟩ := List.mem_map.1 member
  obtain ⟨-, key, value⟩ := queryParams_form ((List.mem_insertionSort paramLe).1 there)
  rw [paramText_eq]
  exact ((line.of_subset key).append (by decide)).append (line.of_subset value)

/-! ## Requests -/

structure HttpRequest where
  method : String
  path : String
  query : Option String
  headers : HeaderMap
  body : Bytes

/-- The payload hash a request claims. -/
def HttpRequest.contentSha256 (r : HttpRequest) : String :=
  (r.headers.text "x-amz-content-sha256").getD "UNSIGNED-PAYLOAD"

def HttpRequest.canonical (r : HttpRequest) (signedHeaders : List String) (payloadHash : String) :
    String :=
  buildCanonicalRequest r.method r.path (r.query.getD "") r.headers signedHeaders payloadHash

/-- The request line has no newline, as in every HTTP request. -/
structure HttpRequest.OnOneLine (r : HttpRequest) : Prop where
  method : OneLine r.method
  path : OneLine r.path
  query : OneLine (r.query.getD "")

/-- Two requests with what they are signed with agree in all that is signed. -/
structure SameSigned (r r' : HttpRequest) (signedHeaders signedHeaders' : List String)
    (payloadHash payloadHash' : String) : Prop where
  method : r.method = r'.method
  path : canonicalUri r.path = canonicalUri r'.path
  query : (queryParams (r.query.getD "")).Perm (queryParams (r'.query.getD ""))
  headers : ∀ name, signedValue r.headers signedHeaders name = signedValue r'.headers signedHeaders' name
  signed : join ';' signedHeaders = join ';' signedHeaders'
  payload : payloadHash = payloadHash'

theorem oneLine_canonicalUri {path : String} (line : OneLine path) : OneLine (canonicalUri path) := by
  unfold canonicalUri
  split
  · decide
  · exact line

theorem oneLine_headerBlock {headers : HeaderMap} {signedHeaders : List String} :
    ∀ line ∈ headerBlock (canonicalHeadersMap headers signedHeaders).entries, OneLine line := by
  intro line member
  unfold headerBlock at member
  split at member
  · rw [List.mem_singleton.1 member]
    decide
  · obtain ⟨e, there, rfl⟩ := List.mem_map.1 member
    exact (canonicalHeaders_form there).2

theorem canonical_eq_iff {r r' : HttpRequest} (lines : r.OnOneLine) (lines' : r'.OnOneLine)
    {signedHeaders signedHeaders' : List String} {payloadHash payloadHash' : String}
    (names : ∀ name ∈ signedHeaders, OneLine name) (names' : ∀ name ∈ signedHeaders', OneLine name)
    (hash : OneLine payloadHash) (hash' : OneLine payloadHash') :
    r.canonical signedHeaders payloadHash = r'.canonical signedHeaders' payloadHash' ↔
      SameSigned r r' signedHeaders signedHeaders' payloadHash payloadHash' := by
  unfold HttpRequest.canonical
  constructor
  · intro same
    rw [canonical_lines, canonical_lines] at same
    have free : ∀ {q : HttpRequest} {signed : List String} {payload : String}, q.OnOneLine →
        (∀ name ∈ signed, OneLine name) → OneLine payload →
        ∀ line ∈ [q.method, canonicalUri q.path, canonicalizeQueryString (q.query.getD "")] ++
          headerBlock (canonicalHeadersMap q.headers signed).entries ++ ["", join ';' signed, payload],
        OneLine line := by
      intro q signed payload line names hash
      have joined : OneLine (join ';' signed) := join_contains (by decide) names
      have empty : OneLine "" := by decide
      simp only [List.forall_mem_append, List.forall_mem_cons, List.not_mem_nil, false_implies,
        implies_true, and_true]
      exact ⟨⟨⟨line.method, oneLine_canonicalUri line.path,
        oneLine_canonicalizeQueryString line.query⟩, oneLine_headerBlock⟩, empty, joined, hash⟩
    have split := join_inj (free lines names hash) (by simp) (free lines' names' hash') (by simp) same
    -- three lines before the block and three after it, so the block is told apart whatever its length
    simp only [List.cons_append, List.nil_append, List.cons.injEq] at split
    obtain ⟨method, path, query, rest⟩ := split
    obtain ⟨block, last⟩ := List.append_inj' rest rfl
    simp only [List.cons.injEq, and_true, true_and] at last
    exact ⟨method, path, (canonicalizeQueryString_iff _ _).1 query, signedValue_of_headerBlock block,
      last.1, last.2⟩
  · intro agree
    have maps := canonicalHeadersMap_eq_iff.2 agree.headers
    rw [canonical_lines, canonical_lines, agree.method, agree.path,
      (canonicalizeQueryString_iff _ _).2 agree.query, maps, agree.signed, agree.payload]

/-! ## The signature -/

/-- `hex::encode`. -/
def hexEncode (b : Bytes) : String :=
  String.ofList (b.flatMap fun x => [Nat.digitChar (x.toNat / 16), Nat.digitChar (x.toNat % 16)])

theorem hexEncode_inj {a b : Bytes} (same : hexEncode a = hexEncode b) : a = b := by
  have digits : ∀ m < 16, ∀ n < 16, Nat.digitChar m = Nat.digitChar n → m = n := by decide
  have lists : a.flatMap (fun x => [Nat.digitChar (x.toNat / 16), Nat.digitChar (x.toNat % 16)]) =
      b.flatMap fun x => [Nat.digitChar (x.toNat / 16), Nat.digitChar (x.toNat % 16)] :=
    String.ofList_injective same
  clear same
  induction a generalizing b with
  | nil =>
    cases b with
    | nil => rfl
    | cons y b => simp at lists
  | cons x a ih =>
    cases b with
    | nil => simp at lists
    | cons y b =>
      simp only [List.flatMap_cons, List.cons_append, List.nil_append, List.cons.injEq] at lists
      obtain ⟨high, low, rest⟩ := lists
      have bound := x.toNat_lt
      have bound' := y.toNat_lt
      have high := digits _ (by omega) _ (by omega) high
      have low := digits _ (by omega) _ (by omega) low
      have byte : x = y := UInt8.toNat_inj.1 (by omega)
      rw [byte, ih rest]

theorem utf8_inj {s t : String} (same : utf8 s = utf8 t) : s = t := by
  rw [← String.toByteArray_inj]
  exact ByteArray.ext (Array.toList_inj.1 same)

def constantTimeCompare (a b : String) : Bool :=
  if (utf8 a).length ≠ (utf8 b).length then false
  else ((utf8 a).zip (utf8 b)).foldl (fun acc e => acc ||| (e.1 ^^^ e.2)) 0 == 0

/-- The comparison is that of the strings. -/
theorem constantTimeCompare_iff {a b : String} : constantTimeCompare a b = true ↔ a = b := by
  have loop : ∀ (x y : Bytes) (acc : UInt8), x.length = y.length →
      ((x.zip y).foldl (fun acc e => acc ||| (e.1 ^^^ e.2)) acc = 0 ↔ acc = 0 ∧ x = y) := by
    intro x
    induction x with
    | nil =>
      intro y acc long
      cases y with
      | nil => simp
      | cons _ _ => cases long
    | cons u x ih =>
      intro y acc long
      cases y with
      | nil => cases long
      | cons v y =>
        rw [List.zip_cons_cons, List.foldl_cons, ih y _ (Nat.succ.inj long)]
        simp only [UInt8.or_eq_zero_iff, UInt8.xor_eq_zero_iff, List.cons.injEq, and_assoc]
  unfold constantTimeCompare
  split
  · rename_i differ
    constructor
    · intro never
      cases never
    · rintro rfl
      exact absurd rfl differ
  · rename_i long
    rw [beq_iff_eq, loop _ _ _ (not_not.1 long)]
    exact ⟨fun same => utf8_inj same.2, fun same => ⟨rfl, by rw [same]⟩⟩

/-! ## The authorization header -/

inductive AuthError where
  | unauthorized
  | invalidSignatureException (msg : String)
  | requestTimeTooSkewed
  | signatureDoesNotMatch
  deriving DecidableEq, Repr

structure AuthInfo where
  accessKey : String
  scope : String
  region : String
  service : String
  signedHeaders : List String
  signature : String
  deriving DecidableEq, Repr

/-- `split(", ")`. -/
def splitComma : List Char → List (List Char)
  | ',' :: ' ' :: rest => [] :: splitComma rest
  | c :: rest => (splitComma rest).modifyHead (c :: ·)
  | [] => [[]]

/-- `s.strip_prefix(p)`, or an error. -/
def expectPrefix (s : List Char) (p msg : String) : Except AuthError (List Char) :=
  if p.toList.isPrefixOf s then .ok (s.drop p.toList.length)
  else .error (.invalidSignatureException msg)

def parseAuthorizationHeader (authHeader : String) : Except AuthError AuthInfo :=
  match splitComma authHeader.toList with
  | credential :: signed :: last :: _ => do
    let credentialPart ← expectPrefix credential "AWS4-HMAC-SHA256 Credential="
      "Missing Credential in authorization"
    match credentialPart.splitOn '/' with
    | [accessKey, date, region, service, _] =>
      let signedHeadersPart ← expectPrefix signed "SignedHeaders="
        "Missing SignedHeaders in authorization"
      let signature ← expectPrefix last "Signature=" "Missing Signature in authorization"
      return {
        accessKey := String.ofList accessKey
        scope := String.ofList (date ++ '/' :: region ++ '/' :: service ++ "/aws4_request".toList)
        region := String.ofList region
        service := String.ofList service
        signedHeaders := (signedHeadersPart.splitOn ';').map String.ofList
        signature := String.ofList signature }
    | _ => .error (.invalidSignatureException "Invalid credential format")
  | _ => .error (.invalidSignatureException "Malformed authorization header")

theorem mem_splitComma {s piece : List Char} {c : Char} (member : piece ∈ splitComma s)
    (inside : c ∈ piece) : c ∈ s := by
  induction s using splitComma.induct generalizing piece with
  | case1 rest ih =>
    rw [splitComma] at member
    rcases List.mem_cons.1 member with rfl | later
    · cases inside
    · exact List.mem_cons_of_mem _ (List.mem_cons_of_mem _ (ih later inside))
  | case2 x rest other ih =>
    rw [splitComma] at member
    · cases pieces : splitComma rest with
      | nil => simp [pieces] at member
      | cons first others =>
        rw [pieces, List.modifyHead_cons] at member
        rcases List.mem_cons.1 member with rfl | later
        · rcases List.mem_cons.1 inside with rfl | within
          · exact List.mem_cons_self
          · exact List.mem_cons_of_mem _ (ih (by simp [pieces]) within)
        · exact List.mem_cons_of_mem _ (ih (by simp [pieces, later]) inside)
    · exact other
  | case3 =>
    simp only [splitComma, List.mem_singleton] at member
    rwa [member] at inside


theorem HttpRequest.oneLine_contentSha256 (r : HttpRequest) : OneLine r.contentSha256 := by
  unfold HttpRequest.contentSha256
  cases read : r.headers.text "x-amz-content-sha256" with
  | none => decide
  | some s => exact oneLine_text read

theorem expectPrefix_ok {s rest : List Char} {p msg : String} (ok : expectPrefix s p msg = .ok rest) :
    rest <:+ s := by
  unfold expectPrefix at ok
  split at ok
  · cases ok
    exact List.drop_suffix _ _
  · cases ok

/-- The signed headers of an authorization on one line are on one line each. -/
theorem oneLine_signedHeaders {authHeader : String} {info : AuthInfo} (line : OneLine authHeader)
    (parsed : parseAuthorizationHeader authHeader = .ok info) :
    ∀ name ∈ info.signedHeaders, OneLine name := by
  unfold parseAuthorizationHeader at parsed
  split at parsed
  · rename_i credential signed last others pieces
    obtain ⟨credentialPart, -, parsed⟩ := bind_ok parsed
    split at parsed
    · obtain ⟨signedHeadersPart, cut, parsed⟩ := bind_ok parsed
      obtain ⟨signature, -, parsed⟩ := bind_ok parsed
      cases parsed
      intro name member
      obtain ⟨piece, there, rfl⟩ := List.mem_map.1 member
      apply line.of_subset
      intro c inside
      rw [String.toList_ofList] at inside
      have part : c ∈ signedHeadersPart := (mem_splitOn piece there).2 c inside
      exact mem_splitComma (by simp [pieces]) ((expectPrefix_ok cut).subset part)
    · cases parsed
  · cases parsed

/-! ## The check -/

/-- What the check reads besides the request. -/
structure AuthEnv where
  accessKey : String
  secretKey : String
  /-- `Utc::now()` in seconds. -/
  now : Int
  /-- The time an `x-amz-date` names, as `chrono` reads it. -/
  parseDate : String → Option Int

def maxTimeSkewSecs : Nat := 15 * 60

def validateTimestamp (env : AuthEnv) (amzDate : String) : Except AuthError Unit :=
  match env.parseDate amzDate with
  | none => .error (.invalidSignatureException "Invalid X-Amz-Date format")
  | some time =>
    if (env.now - time).natAbs > maxTimeSkewSecs then .error .requestTimeTooSkewed else .ok ()

section Check
variable [Sha256] [HmacSha256]

def buildStringToSign (amzDate scope canonicalRequest : String) : String :=
  "AWS4-HMAC-SHA256\n" ++ amzDate ++ "\n" ++ scope ++ "\n" ++ Sha256.digest (utf8 canonicalRequest)

/-- The key of a day, region and service. -/
def signingKey (secretKey amzDate region service : String) : Bytes :=
  let date := String.ofList (amzDate.toList.take 8)
  let kDate := HmacSha256.mac (utf8 ("AWS4" ++ secretKey)) (utf8 date)
  let kRegion := HmacSha256.mac kDate (utf8 region)
  let kService := HmacSha256.mac kRegion (utf8 service)
  HmacSha256.mac kService (utf8 "aws4_request")

def calculateSignature (secretKey amzDate region service stringToSign : String) : String :=
  hexEncode (HmacSha256.mac (signingKey secretKey amzDate region service) (utf8 stringToSign))

/-- `validate_sigv4`: what the request was signed with, when it goes on to its handler. -/
def validateSigv4 (env : AuthEnv) (r : HttpRequest) : Except AuthError AuthInfo := do
  let authHeader ← match r.headers.text "authorization" with
    | some text => .ok text
    | none => .error .unauthorized
  if !startsWith authHeader "AWS4-HMAC-SHA256" then
    .error (.invalidSignatureException "Authorization header format is invalid")
  let info ← parseAuthorizationHeader authHeader
  if info.accessKey ≠ env.accessKey then .error .unauthorized
  let amzDate ← match r.headers.text "x-amz-date" with
    | some text => .ok text
    | none => .error (.invalidSignatureException "Missing x-amz-date header")
  validateTimestamp env amzDate
  let canonicalRequest := r.canonical info.signedHeaders r.contentSha256
  let stringToSign := buildStringToSign amzDate info.scope canonicalRequest
  let calculated := calculateSignature env.secretKey amzDate info.region info.service stringToSign
  if constantTimeCompare info.signature calculated then .ok info else .error .signatureDoesNotMatch

/-- The date a request claims. -/
def HttpRequest.amzDate (r : HttpRequest) : String := (r.headers.text "x-amz-date").getD ""

/-- The text that is signed. -/
def HttpRequest.stringToSign (r : HttpRequest) (info : AuthInfo) : String :=
  buildStringToSign r.amzDate info.scope (r.canonical info.signedHeaders r.contentSha256)

/-- The key it is signed with. -/
def HttpRequest.signingKey (r : HttpRequest) (secretKey : String) (info : AuthInfo) : Bytes :=
  Api.signingKey secretKey r.amzDate info.region info.service

/-- A request goes on to its handler when it names the access key, its date is of now, and the
signature is that of its canonical request. -/
theorem validateSigv4_ok {env : AuthEnv} {r : HttpRequest} {info : AuthInfo} :
    validateSigv4 env r = .ok info ↔
      (∃ auth, r.headers.text "authorization" = some auth ∧
        startsWith auth "AWS4-HMAC-SHA256" = true ∧ parseAuthorizationHeader auth = .ok info) ∧
      info.accessKey = env.accessKey ∧
      (∃ date, r.headers.text "x-amz-date" = some date ∧ validateTimestamp env date = .ok ()) ∧
      info.signature =
        hexEncode (HmacSha256.mac (r.signingKey env.secretKey info) (utf8 (r.stringToSign info))) := by
  unfold validateSigv4 HttpRequest.stringToSign HttpRequest.signingKey HttpRequest.amzDate
  cases present : r.headers.text "authorization" with
  | none => simp [bind, Except.bind]
  | some auth =>
    by_cases start : startsWith auth "AWS4-HMAC-SHA256" = true
    · cases parsed : parseAuthorizationHeader auth with
      | error e => simp [bind, Except.bind, start, parsed]
      | ok found =>
        by_cases key : found.accessKey = env.accessKey
        · cases dated : r.headers.text "x-amz-date" with
          | none => simp [bind, Except.bind, start, parsed, key]
          | some date =>
            cases fresh : validateTimestamp env date with
            | error e => simp [bind, Except.bind, start, parsed, key, fresh]
            | ok _ =>
              simp only [bind, Except.bind, start, parsed, key, fresh, ne_eq, not_true_eq_false,
                if_false, Bool.not_true, Bool.false_eq_true, constantTimeCompare_iff, Option.some.injEq, exists_eq_left', true_and, Option.getD_some]
              constructor
              · intro ok
                split at ok
                · rename_i same
                  cases ok
                  exact ⟨rfl, key, same⟩
                · cases ok
              · rintro ⟨⟨⟩, -, same⟩
                exact if_pos same
        · simp [bind, Except.bind, start, parsed, key]
          rintro rfl same
          exact absurd same key
    · simp [bind, Except.bind, start]

omit [HmacSha256] in
/-- The digest ends the text that is signed. -/
theorem digest_of_stringToSign {amzDate amzDate' scope scope' canonical canonical' : String}
    (same : buildStringToSign amzDate scope canonical = buildStringToSign amzDate' scope' canonical') :
    Sha256.digest (utf8 canonical) = Sha256.digest (utf8 canonical') := by
  have lists : ("AWS4-HMAC-SHA256\n" ++ amzDate ++ "\n" ++ scope ++ "\n").toList ++
        (Sha256.digest (utf8 canonical)).toList =
      ("AWS4-HMAC-SHA256\n" ++ amzDate' ++ "\n" ++ scope' ++ "\n").toList ++
        (Sha256.digest (utf8 canonical')).toList := by
    rw [← String.toList_append, ← String.toList_append]
    exact congrArg String.toList same
  have long : (Sha256.digest (utf8 canonical)).toList.length =
      (Sha256.digest (utf8 canonical')).toList.length := by
    rw [Sha256.length, Sha256.length]
  exact String.toList_inj.1 (List.append_inj' lists long).2

/-- The canonical request of requests on one line each determines, and is determined by, all that
is signed. So a signature that is accepted with two requests is of one and the same, but for a
collision of one of the hashes on these two. -/
theorem canonical_request_injective {r r' : HttpRequest} (lines : r.OnOneLine) (lines' : r'.OnOneLine) :
    (∀ (signedHeaders signedHeaders' : List String) (payloadHash payloadHash' : String),
      (∀ name ∈ signedHeaders, OneLine name) → (∀ name ∈ signedHeaders', OneLine name) →
      OneLine payloadHash → OneLine payloadHash' →
      (r.canonical signedHeaders payloadHash = r'.canonical signedHeaders' payloadHash' ↔
        SameSigned r r' signedHeaders signedHeaders' payloadHash payloadHash')) ∧
    ∀ (env : AuthEnv) (now : Int) (info info' : AuthInfo),
      validateSigv4 env r = .ok info → validateSigv4 { env with now := now } r' = .ok info' →
      info.signature = info'.signature →
      (HmacSha256.mac (r.signingKey env.secretKey info) (utf8 (r.stringToSign info)) =
          HmacSha256.mac (r'.signingKey env.secretKey info') (utf8 (r'.stringToSign info')) →
        r.stringToSign info = r'.stringToSign info') →
      (Sha256.digest (utf8 (r.canonical info.signedHeaders r.contentSha256)) =
          Sha256.digest (utf8 (r'.canonical info'.signedHeaders r'.contentSha256)) →
        r.canonical info.signedHeaders r.contentSha256 =
          r'.canonical info'.signedHeaders r'.contentSha256) →
      SameSigned r r' info.signedHeaders info'.signedHeaders r.contentSha256 r'.contentSha256 := by
  refine ⟨fun _ _ _ _ names names' hash hash' => canonical_eq_iff lines lines' names names' hash hash', ?_⟩
  intro env now info info' accepted accepted' same noMacCollision noDigestCollision
  obtain ⟨⟨auth, shown, -, parsed⟩, -, -, signature⟩ := validateSigv4_ok.1 accepted
  obtain ⟨⟨auth', shown', -, parsed'⟩, -, -, signature'⟩ := validateSigv4_ok.1 accepted'
  rw [signature, signature'] at same
  have texts := noMacCollision (hexEncode_inj same)
  have requests := noDigestCollision (digest_of_stringToSign texts)
  exact (canonical_eq_iff lines lines' (oneLine_signedHeaders (oneLine_text shown) parsed)
    (oneLine_signedHeaders (oneLine_text shown') parsed') r.oneLine_contentSha256
    r'.oneLine_contentSha256).1 requests

end Check

/-! ## A signed request -/

/-- The canonical request of the sample. -/
def sampleCanonical : String :=
  "PUT\n/abc/k\na=1&b=2\ncontent-md5:VaVACK0bpYmqIQ0mKcHfQQ==\nhost:save\n" ++
  "x-amz-content-sha256:4bf5122f344554c53bde2ebb8cd2b7e3d1600ad631c385a5d7cce23c7785459a\n" ++
  "x-amz-date:20230101T120000Z\n\ncontent-md5;host;x-amz-content-sha256;x-amz-date\n" ++
  "4bf5122f344554c53bde2ebb8cd2b7e3d1600ad631c385a5d7cce23c7785459a"

def sampleDigest : String := "d54da268ea1bb0fc74668fe2253097551c991624211521e7f62d66de80597452"

/-- The digest of the canonical request beside the sampled ones. -/
def signedDigest (b : Bytes) : String := if b = utf8 sampleCanonical then sampleDigest else Sha256.sample b

theorem signedDigest_form (b : Bytes) :
    (signedDigest b).toList.length = 64 ∧ ∀ c ∈ (signedDigest b).toList, hexChar c = true := by
  unfold signedDigest
  split
  · exact (isDigest_iff _).1 (by decide +kernel)
  · exact Sha256.sample_form b

@[reducible] def sampleSha256 : Sha256 :=
  ⟨signedDigest, fun b => (signedDigest_form b).1, fun b => (signedDigest_form b).2⟩

def sampleText : String :=
  "AWS4-HMAC-SHA256\n20230101T120000Z\n20230101/us-east-1/s3/aws4_request\n" ++ sampleDigest

/-- The keys derived for one day, region and service. -/
def sampleDateKey : Bytes :=
  [107, 137, 232, 21, 160, 192, 116, 48, 34, 106, 206, 104, 149, 240, 29, 219,
   188, 169, 72, 249, 179, 105, 89, 193, 41, 119, 27, 114, 94, 216, 184, 50]

def sampleRegionKey : Bytes :=
  [69, 75, 209, 32, 161, 71, 14, 254, 10, 162, 72, 70, 183, 188, 255, 96,
   211, 85, 136, 254, 183, 47, 157, 31, 116, 31, 245, 18, 245, 32, 50, 198]

def sampleServiceKey : Bytes :=
  [153, 180, 208, 11, 144, 224, 175, 212, 237, 151, 213, 47, 93, 134, 123, 135,
   10, 89, 35, 167, 31, 191, 167, 185, 85, 92, 92, 11, 165, 206, 62, 221]

def sampleSigningKey : Bytes :=
  [205, 236, 226, 94, 241, 255, 170, 213, 225, 98, 50, 75, 182, 36, 4, 127,
   218, 165, 75, 28, 229, 97, 240, 6, 107, 203, 134, 113, 247, 237, 168, 55]

/-- Keys, messages and keyed hashes of the derivation, and of one signature. -/
def hmacSamples : List (Bytes × String × Bytes) :=
  [(utf8 "AWS4SK", "20230101", sampleDateKey),
   (sampleDateKey, "us-east-1", sampleRegionKey),
   (sampleRegionKey, "s3", sampleServiceKey),
   (sampleServiceKey, "aws4_request", sampleSigningKey),
   (sampleSigningKey, sampleText,
     [229, 210, 78, 53, 162, 113, 190, 16, 101, 40, 210, 69, 137, 5, 97, 145,
      53, 179, 207, 31, 237, 65, 169, 229, 123, 70, 111, 92, 3, 114, 181, 134])]

@[reducible] def sampleHmac : HmacSha256 :=
  ⟨fun key message =>
    match hmacSamples.find? fun e => e.1 == key && utf8 e.2.1 == message with
    | some e => e.2.2
    | none => []⟩

def sampleAuthEnv : AuthEnv :=
  ⟨"AK", "SK", 1672574400, fun date => if date = "20230101T120000Z" then some 1672574400 else none⟩

/-- The authorization of the sample. -/
def sampleAuthorization : Bytes :=
  utf8 ("AWS4-HMAC-SHA256 Credential=AK/20230101/us-east-1/s3/aws4_request, " ++
    "SignedHeaders=content-md5;host;x-amz-content-sha256;x-amz-date, " ++
    "Signature=e5d24e35a271be106528d2458905619135b3cf1fed41a9e57b466f5c0372b586")

def sampleHeaders : HeaderMap where
  entries :=
    [("host", utf8 "save"),
     ("x-amz-date", utf8 "20230101T120000Z"),
     ("x-amz-content-sha256", utf8 "4bf5122f344554c53bde2ebb8cd2b7e3d1600ad631c385a5d7cce23c7785459a"),
     ("content-md5", utf8 "VaVACK0bpYmqIQ0mKcHfQQ=="),
     ("authorization", sampleAuthorization)]
  named := by decide +kernel

def sampleInfo : AuthInfo where
  accessKey := "AK"
  scope := "20230101/us-east-1/s3/aws4_request"
  region := "us-east-1"
  service := "s3"
  signedHeaders := ["content-md5", "host", "x-amz-content-sha256", "x-amz-date"]
  signature := "e5d24e35a271be106528d2458905619135b3cf1fed41a9e57b466f5c0372b586"

/-- A write of the body `[1]`. -/
def sampleRequest : HttpRequest := ⟨"PUT", "/abc/k", some "a=1&b=2", sampleHeaders, [1]⟩

theorem sampleRequest_oneLine : sampleRequest.OnOneLine :=
  ⟨by decide +kernel, by decide +kernel, by decide +kernel⟩

theorem sampleRequest_canonical :
    sampleRequest.canonical sampleInfo.signedHeaders sampleRequest.contentSha256 = sampleCanonical := by
  decide +kernel

theorem sampleText_eq :
    @buildStringToSign sampleSha256 "20230101T120000Z" sampleInfo.scope sampleCanonical = sampleText := by
  decide +kernel

theorem sampleSignature_eq :
    sampleInfo.signature = hexEncode (sampleHmac.mac
      (@signingKey sampleHmac sampleAuthEnv.secretKey "20230101T120000Z" sampleInfo.region
        sampleInfo.service) (utf8 sampleText)) := by
  decide +kernel

/-- A request with the headers and the canonical request of the sample is accepted. -/
theorem sample_accepted {r : HttpRequest} (headers : r.headers = sampleHeaders)
    (canonical : r.canonical sampleInfo.signedHeaders r.contentSha256 = sampleCanonical) :
    @validateSigv4 sampleSha256 sampleHmac sampleAuthEnv r = .ok sampleInfo := by
  have shown : sampleHeaders.text "authorization" =
      some (String.ofList (sampleAuthorization.map fun b => Char.ofNat b.toNat)) := by
    have found : sampleHeaders.get "authorization" = some sampleAuthorization := by decide +kernel
    rw [HeaderMap.text, found, Option.bind_some, toStr, if_pos (by decide +kernel)]
  have dated : sampleHeaders.text "x-amz-date" = some "20230101T120000Z" := by decide +kernel
  rw [@validateSigv4_ok sampleSha256 sampleHmac, headers]
  refine ⟨⟨_, shown, ?_, ?_⟩, rfl, ⟨_, dated, by decide +kernel⟩, ?_⟩
  · rw [startsWith, String.toList_ofList]
    decide +kernel
  · rw [parseAuthorizationHeader, String.toList_ofList]
    decide +kernel
  · have date : r.amzDate = "20230101T120000Z" := by
      rw [HttpRequest.amzDate, headers, dated, Option.getD_some]
    have text : @HttpRequest.stringToSign sampleSha256 r sampleInfo = sampleText := by
      unfold HttpRequest.stringToSign
      rw [date, canonical]
      exact sampleText_eq
    unfold HttpRequest.signingKey
    rw [date, text]
    exact sampleSignature_eq

/-- The sample with its parameters in another order. -/
theorem sampleReordered_canonical :
    ({ sampleRequest with query := some "b=2&a=1" } : HttpRequest).canonical
      sampleInfo.signedHeaders sampleRequest.contentSha256 = sampleCanonical := by
  have query : canonicalizeQueryString "b=2&a=1" = canonicalizeQueryString "a=1&b=2" := by
    decide +kernel
  rw [← sampleRequest_canonical, HttpRequest.canonical, buildCanonicalRequest, Option.getD_some, query]
  rfl

/-- One signature is good for the sample with its parameters in any order. -/
theorem canonical_request_reordered :
    SameSigned sampleRequest { sampleRequest with query := some "b=2&a=1" }
      sampleInfo.signedHeaders sampleInfo.signedHeaders
      sampleRequest.contentSha256 sampleRequest.contentSha256 := by
  have lines' : ({ sampleRequest with query := some "b=2&a=1" } : HttpRequest).OnOneLine :=
    ⟨by decide +kernel, by decide +kernel, by decide +kernel⟩
  have same := sampleRequest_canonical.trans sampleReordered_canonical.symm
  refine (@canonical_request_injective sampleSha256 sampleHmac _ _ sampleRequest_oneLine lines').2 sampleAuthEnv
    1672574400 sampleInfo sampleInfo (sample_accepted rfl sampleRequest_canonical)
    (sample_accepted rfl sampleReordered_canonical) rfl (fun _ => ?_) fun _ => same
  exact congrArg (@buildStringToSign sampleSha256 "20230101T120000Z" sampleInfo.scope) same

end Save.Api
