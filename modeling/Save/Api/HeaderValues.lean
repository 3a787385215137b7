import Save.Lib.Runs
import Save.Api.Auth

/-!
# The values of signed headers

`auth.rs` normalises the value of a signed header with `trim` and one call of
`replace`, which puts one space for each pair, from the left. A run of `n` spaces
is left with half of them, rounded up (`halveSpaces_regaps`), where SigV4 wants
one. The two are the same pass up to runs of two; from three spaces on they are
not, the code's is not idempotent, and whether two spellings of a value are
signed alike depends on the lengths of their runs (`header_values_iff`).
-/

namespace Save.Api
set_option autoImplicit false
open Save.Text Save.Kv Save.Files Save.Storage Save.Runs

/-! ## What SigV4 prescribes -/

/-- Without the spaces at either end. -/
def trimSpaces (s : List Char) : List Char :=
  ((s.dropWhile (· == ' ')).reverse.dropWhile (· == ' ')).reverse

/-- The value without spaces at its ends and with one space for each run of them. -/
def sigv4Value (v : String) : String := String.ofList (squeeze ' ' (trimSpaces v.toList))

/-! ## The runs of a value -/

/-- The value without any of its spaces. -/
def withoutSpaces (v : String) : List Char := solid ' ' v.toList

/-- The lengths of the runs of spaces in a value that is trimmed, one before each other character
and one at the end. -/
def spaceRuns (v : String) : List Nat := gaps ' ' (trim v.toList)

/-- The half, rounded up. -/
def half (n : Nat) : Nat := (n + 1) / 2

/-- No run has three spaces or more. -/
def ShortRuns (v : String) : Prop := ∀ n ∈ spaceRuns v, n ≤ 2

/-- The first character but for spaces, and the last one, are not white space of another kind. -/
def EndsInSpaces (v : String) : Prop :=
  ∀ c, (withoutSpaces v).head? = some c ∨ (withoutSpaces v).getLast? = some c → c.isWhitespace = false

instance (v : String) : Decidable (ShortRuns v) := inferInstanceAs (Decidable (∀ n ∈ _, n ≤ 2))

theorem trim_eq_strip (s : List Char) : trim s = strip Char.isWhitespace s := rfl

theorem trimSpaces_eq_strip (s : List Char) : trimSpaces s = strip (· == ' ') s := rfl

/-- Nothing but spaces is trimmed from a value that ends in spaces only, and only from such. -/
theorem trim_eq_trimSpaces_iff (v : String) : trim v.toList = trimSpaces v.toList ↔ EndsInSpaces v := by
  rw [trim_eq_strip, trimSpaces_eq_strip, strip_eq_strip_sep_iff (by decide), strip_eq_self_iff]
  rfl

instance (v : String) : Decidable (EndsInSpaces v) := decidable_of_iff _ (trim_eq_trimSpaces_iff v)

/-- One pass of `replace` halves every run. -/
theorem halveSpaces_regaps : Regaps ' ' half halveSpaces where
  solid s := by
    fun_induction halveSpaces s with
    | case1 rest ih => rw [solid_cons_sep, ih, solid_cons_sep, solid_cons_sep]
    | case2 c rest _ ih =>
      by_cases here : c = ' '
      · rw [here, solid_cons_sep, solid_cons_sep, ih]
      · rw [solid_cons _ here, solid_cons _ here, ih]
    | case3 => rfl
  gaps s := by
    fun_induction halveSpaces s with
    | case1 rest ih =>
      -- two spaces more before the pass are one more after it
      obtain ⟨n, more, first⟩ := exists_gaps ' ' rest
      have longer : half (n + 1 + 1) = half n + 1 := by
        unfold half
        omega
      rw [gaps_cons_sep, ih, gaps_cons_sep, gaps_cons_sep, first]
      simp only [List.map_cons, List.modifyHead_cons, longer]
    | case2 c rest single ih =>
      by_cases here : c = ' '
      · subst here
        have other : rest.head? ≠ some ' ' := by
          intro next
          cases rest with
          | nil => cases next
          | cons d rest =>
            cases next
            exact single rest rfl rfl
        obtain ⟨more, first⟩ := gaps_of_head other
        rw [gaps_cons_sep, gaps_cons_sep, ih, first]
        rfl
      · rw [gaps_cons _ here, gaps_cons _ here, ih]
        rfl
    | case3 => rfl

theorem half_eq_min_iff (n : Nat) : half n = min n 1 ↔ n ≤ 2 := by
  unfold half
  omega

theorem half_half_iff (n : Nat) : half (half n) = half n ↔ n ≤ 2 := by
  unfold half
  omega

/-! ## A value normalised again -/

theorem head?_halveSpaces (s : List Char) : (halveSpaces s).head? = s.head? := by
  fun_cases halveSpaces s <;> rfl

theorem getLast?_halveSpaces (s : List Char) : (halveSpaces s).getLast? = s.getLast? := by
  fun_induction halveSpaces s with
  | case1 rest ih => rw [List.getLast?_cons, ih, List.getLast?_cons, List.getLast?_cons, Option.getD_some]
  | case2 c rest _ ih => rw [List.getLast?_cons, ih, List.getLast?_cons]
  | case3 => rfl

/-- What is normalised is trimmed. -/
theorem trim_halveSpaces (s : List Char) : trim (halveSpaces (trim s)) = halveSpaces (trim s) := by
  rw [trim_eq_strip, strip_eq_self_iff, head?_halveSpaces, getLast?_halveSpaces, trim_eq_strip,
    ← strip_eq_self_iff, strip_strip]

/-- Normalising again changes nothing just when there are no long runs. -/
theorem normalizedValue_idempotent_iff (v : String) :
    normalizedValue (normalizedValue v) = normalizedValue v ↔ ShortRuns v := by
  rw [normalizedValue, normalizedValue, String.toList_ofList, String.ofList_inj, trim_halveSpaces,
    halveSpaces_regaps.idempotent_iff]
  exact forall₂_congr fun n _ => half_half_iff n

/-! ## A value and what is prescribed for it -/

/-- The spaces between which a value is trimmed count for nothing. -/
theorem solid_normalizedValue (v : String) :
    withoutSpaces (normalizedValue v) = solid ' ' (trim v.toList) := by
  rw [withoutSpaces, normalizedValue, String.toList_ofList, halveSpaces_regaps.solid]

theorem solid_sigv4Value (v : String) : withoutSpaces (sigv4Value v) = withoutSpaces v := by
  rw [withoutSpaces, sigv4Value, String.toList_ofList, squeeze_regaps.solid, trimSpaces_eq_strip,
    solid_strip_sep, withoutSpaces]

/-- The value is the one prescribed just when it has no long runs and nothing but spaces is
trimmed. -/
theorem normalizedValue_eq_iff (v : String) :
    normalizedValue v = sigv4Value v ↔ EndsInSpaces v ∧ ShortRuns v := by
  have runs : halveSpaces (trim v.toList) = squeeze ' ' (trim v.toList) ↔ ShortRuns v := by
    rw [halveSpaces_regaps.eq_iff squeeze_regaps]
    exact forall₂_congr fun n _ => half_eq_min_iff n
  constructor
  · intro same
    -- the prescribed value has lost nothing but spaces
    have kept : solid ' ' (trim v.toList) = withoutSpaces v := by
      rw [← solid_normalizedValue, same, solid_sigv4Value]
    have ends : EndsInSpaces v := by
      rw [trim_eq_strip, solid_strip (by decide)] at kept
      exact strip_eq_self_iff.1 kept
    refine ⟨ends, runs.1 ?_⟩
    rw [normalizedValue, sigv4Value, String.ofList_inj, ← (trim_eq_trimSpaces_iff v).2 ends] at same
    exact same
  · rintro ⟨ends, short⟩
    rw [normalizedValue, sigv4Value, runs.2 short, (trim_eq_trimSpaces_iff v).2 ends]

/-- Values that are the same but for their spaces are normalised to one just when their runs are
of the same lengths, halved. -/
theorem normalizedValue_eq_normalizedValue {v v' : String} (same : withoutSpaces v = withoutSpaces v') :
    normalizedValue v = normalizedValue v' ↔ (spaceRuns v).map half = (spaceRuns v').map half := by
  have trimmed : solid ' ' (trim v.toList) = solid ' ' (trim v'.toList) := by
    rw [trim_eq_strip, trim_eq_strip, solid_strip (by decide), solid_strip (by decide)]
    exact congrArg (strip Char.isWhitespace) same
  rw [normalizedValue, normalizedValue, String.ofList_inj, halveSpaces_regaps.same_iff]
  exact and_iff_right trimmed

/-! ## Canonical requests -/

/-- The canonical requests of requests that differ in their headers only are the same just when
the signed headers have the same values, normalised. -/
theorem canonical_headers_iff (method path query : String) (headers headers' : HeaderMap)
    (signedHeaders : List String) (payloadHash : String) :
    buildCanonicalRequest method path query headers signedHeaders payloadHash =
        buildCanonicalRequest method path query headers' signedHeaders payloadHash ↔
      ∀ name ∈ signedHeaders,
        (headers.text name).map normalizedValue = (headers'.text name).map normalizedValue := by
  constructor
  · intro same name signed
    rw [← String.toList_inj] at same
    -- the lines before the header block and after it are the same, whatever they are
    simp only [buildCanonicalRequest, String.toList_append, List.append_cancel_right_eq,
      List.append_cancel_left_eq, String.toList_inj] at same
    rw [join_headerBlock, join_headerBlock] at same
    have block := join_inj oneLine_headerBlock (headerBlock_ne_nil _) oneLine_headerBlock
      (headerBlock_ne_nil _) same
    rw [← signedValue_of_mem headers signed, ← signedValue_of_mem headers' signed]
    exact signedValue_of_headerBlock block _
  · intro values
    have maps : canonicalHeadersMap headers signedHeaders = canonicalHeadersMap headers' signedHeaders := by
      apply canonicalHeadersMap_eq_iff.2
      intro k
      by_cases signed : k ∈ signedHeaders.map toLowercase
      · obtain ⟨name, there, rfl⟩ := List.mem_map.1 signed
        rw [signedValue_of_mem headers there, signedValue_of_mem headers' there, values name there]
      · rw [signedValue, if_neg signed, signedValue, if_neg signed]
    rw [buildCanonicalRequest, buildCanonicalRequest, maps]

/-- **Header values.** A signed header has the value that SigV4 prescribes for it just when no run
of spaces within the value is of three or more and nothing but spaces is trimmed; normalising the
value again changes nothing just when there is no such run. Requests whose signed values are the
same but for their spaces have one canonical request just when their runs are of the same lengths,
halved. -/
theorem header_values_iff (method path query : String) (headers headers' : HeaderMap)
    (signedHeaders : List String) (payloadHash : String) :
    (∀ name ∈ signedHeaders, ∀ v, headers.text name = some v →
      ((canonicalHeadersMap headers signedHeaders).get (toLowercase name) = some (sigv4Value v) ↔
        EndsInSpaces v ∧ ShortRuns v) ∧
      (normalizedValue (normalizedValue v) = normalizedValue v ↔ ShortRuns v)) ∧
    ((∀ name ∈ signedHeaders,
        (headers.text name).map withoutSpaces = (headers'.text name).map withoutSpaces) →
      (buildCanonicalRequest method path query headers signedHeaders payloadHash =
          buildCanonicalRequest method path query headers' signedHeaders payloadHash ↔
        ∀ name ∈ signedHeaders, (headers.text name).map (fun v => (spaceRuns v).map half) =
          (headers'.text name).map fun v => (spaceRuns v).map half)) := by
  constructor
  · intro name signed v read
    refine ⟨?_, normalizedValue_idempotent_iff v⟩
    rw [get_canonicalHeadersMap, signedValue_of_mem headers signed, read, Option.map_some, Option.some.injEq, normalizedValue_eq_iff]
  · intro spaced
    rw [canonical_headers_iff]
    apply forall₂_congr
    intro name signed
    have same := spaced name signed
    cases read : headers.text name with
    | none =>
      rw [read, Option.map_none, eq_comm, Option.map_eq_none_iff] at same
      rw [same]
      simp only [Option.map_none]
    | some v =>
      rw [read, Option.map_some, eq_comm, Option.map_eq_some_iff] at same
      obtain ⟨v', read', same⟩ := same
      rw [read', Option.map_some, Option.map_some, Option.map_some, Option.map_some,
        Option.some.injEq, Option.some.injEq, normalizedValue_eq_normalizedValue same.symm]

/-- One header of the user's own. -/
def noteHeaders (value : String) : HeaderMap where
  entries := [("x-amz-meta-note", utf8 value)]
  named e member := by
    have named : isHeaderName "x-amz-meta-note" = true := by decide
    rw [List.mem_singleton.1 member]
    exact named

/-- A pair of spaces is signed as one space, in the value and in the request. -/
theorem header_values_iff_pair :
    (canonicalHeadersMap (noteHeaders "a  b") ["x-amz-meta-note"]).get (toLowercase "x-amz-meta-note") =
        some (sigv4Value "a  b") ∧
      buildCanonicalRequest "PUT" "/abc/k" "" (noteHeaders "a  b") ["x-amz-meta-note"] "UNSIGNED-PAYLOAD" =
        buildCanonicalRequest "PUT" "/abc/k" "" (noteHeaders "a b") ["x-amz-meta-note"] "UNSIGNED-PAYLOAD" := by
  have values := header_values_iff "PUT" "/abc/k" "" (noteHeaders "a  b") (noteHeaders "a b")
    ["x-amz-meta-note"] "UNSIGNED-PAYLOAD"
  refine ⟨((values.1 "x-amz-meta-note" (by decide) "a  b" (by decide +kernel)).1).2 ⟨?_, ?_⟩,
    (values.2 ?_).2 ?_⟩
  · decide +kernel
  · decide +kernel
  · decide +kernel
  · decide +kernel

/-- Three spaces are signed as two. So the value is not the one prescribed, would change again,
and is not signed as the same value with one space. -/
theorem header_value_three_spaces :
    (canonicalHeadersMap (noteHeaders "a   b") ["x-amz-meta-note"]).get "x-amz-meta-note" =
        some "a  b" ∧
      sigv4Value "a   b" = "a b" ∧
      normalizedValue (normalizedValue "a   b") ≠ normalizedValue "a   b" ∧
      squeeze ' ' "a   b".toList = squeeze ' ' "a b".toList ∧
      buildCanonicalRequest "PUT" "/abc/k" "" (noteHeaders "a   b") ["x-amz-meta-note"] "UNSIGNED-PAYLOAD" ≠
        buildCanonicalRequest "PUT" "/abc/k" "" (noteHeaders "a b") ["x-amz-meta-note"] "UNSIGNED-PAYLOAD" := by
  decide +kernel

end Save.Api
