import Save.Metadata.Catalog
import Save.Api.Objects

/-!
# Listing a bucket in pages

`list_objects` (`handlers/objects/list.rs`, over that of `object.rs`) scans the
bucket's records under the prefix, keeps those after the token, and answers the
first of them with the last key as the next token. `pages_exact_iff`: following the
tokens ends, with each object once and in byte order, unless `max-keys` is zero and
there is something to list. Such a page is truncated, and has no last key to go on
from.
-/

namespace Save.Api
set_option autoImplicit false
open Save.Text Save.Kv Save.Common Save.Metadata

structure ListObjectsQuery where
  keyPrefix : Option String
  marker : Option String
  maxKeys : Option Nat
  listType : Option String
  continuationToken : Option String

inductive StorageClass where
  | standard
  deriving DecidableEq, Repr

structure ObjectEntry where
  key : String
  lastModified : DateTime
  etag : String
  size : Nat
  storageClass : StorageClass
  deriving DecidableEq, Repr

structure ListBucketResult where
  name : String
  keyPrefix : String
  marker : String
  maxKeys : Nat
  isTruncated : Bool
  contents : List ObjectEntry
  deriving DecidableEq, Repr

structure ListBucketResultV2 where
  name : String
  keyPrefix : String
  maxKeys : Nat
  isTruncated : Bool
  keyCount : Nat
  continuationToken : String
  nextContinuationToken : Option String
  contents : List ObjectEntry
  deriving DecidableEq, Repr

/-- What the handler passes on of an object's record. -/
abbrev Listed := String × DateTime × String × Nat

def Listed.entry : Listed → ObjectEntry
  | (key, lastModified, etag, size) => ⟨key, lastModified, etag, size, .standard⟩

def ListBucketResult.new (name : String) (keyPrefix marker : Option String) (maxKeys : Nat)
    (isTruncated : Bool) (contents : List Listed) : ListBucketResult where
  name
  keyPrefix := keyPrefix.getD ""
  marker := marker.getD ""
  maxKeys
  isTruncated
  contents := contents.map Listed.entry

def ListBucketResultV2.new (name : String) (keyPrefix continuationToken : Option String)
    (maxKeys : Nat) (isTruncated : Bool) (contents : List Listed) : ListBucketResultV2 where
  name
  keyPrefix := keyPrefix.getD ""
  maxKeys
  isTruncated
  keyCount := contents.length
  continuationToken := continuationToken.getD ""
  nextContinuationToken := if isTruncated then contents.getLast?.map (·.1) else none
  contents := contents.map Listed.entry

/-- The answer, as it is before it is written as XML. -/
inductive ListResponse where
  | v1 (result : ListBucketResult)
  | v2 (result : ListBucketResultV2)
  deriving DecidableEq, Repr

/-! ## The handler -/

def ensureReadConsistency (env : ReadEnv) : Except ApiError Unit :=
  if env.strong then
    env.linearizable.mapError fun e => .internal ("Consistency check failed: " ++ e)
  else .ok ()

def validateBucketExists (cached : Bool) (db : Store Value) (bucket : String) :
    Except ApiError Unit :=
  if cached then .ok ()
  else
    match getBucket db bucket with
    | .ok _ => .ok ()
    | .error (.bucketNotFound _) => .error (.bucketNotFound bucket)
    | .error e => .error (.internal ("Metadata error: " ++ e.toString))

/-- Only the objects after the token, or after the marker of the first version. -/
def ListObjectsQuery.retained (params : ListObjectsQuery) (isV2 : Bool) (objects : List ObjectMetadata) :
    List ObjectMetadata :=
  match if isV2 then params.continuationToken else params.marker with
  | none => objects
  | some token => objects.filter fun obj => token < obj.key

def ListObjectsQuery.limit (params : ListObjectsQuery) : Nat := min (params.maxKeys.getD 1000) 1000

def listObjects (env : ReadEnv) (cached : Bool) (db : Store Value) (bucket : String)
    (params : ListObjectsQuery) : Except ApiError ListResponse := do
  (validateBucketName bucket).mapError fun e => .invalidRequest e.toString
  validateBucketExists cached db bucket
  ensureReadConsistency env
  let objects ← (Metadata.listObjects db bucket params.keyPrefix).mapError fun e =>
    .internal ("Failed to list objects: " ++ e.toString)
  let isV2 := params.listType == some "2"
  let objects := params.retained isV2 objects
  let maxKeys := params.limit
  let isTruncated := decide (maxKeys < objects.length)
  let objectList : List Listed :=
    (objects.take maxKeys).map fun obj => (obj.key, obj.modifiedAt, obj.etag, obj.size)
  if isV2 then
    return .v2 (.new bucket params.keyPrefix params.continuationToken maxKeys isTruncated objectList)
  else
    return .v1 (.new bucket params.keyPrefix params.marker maxKeys isTruncated objectList)

/-! ## Following the tokens -/

/-- The query of a client of the second version. -/
def pageQuery (keyPrefix : Option String) (maxKeys : Option Nat) (token : Option String) :
    ListObjectsQuery :=
  ⟨keyPrefix, none, maxKeys, some "2", token⟩

/-- The request of such a client. -/
def listPage (env : ReadEnv) (cached : Bool) (db : Store Value) (bucket : String)
    (keyPrefix : Option String) (maxKeys : Option Nat) (token : Option String) :
    Except ApiError ListResponse :=
  listObjects env cached db bucket (pageQuery keyPrefix maxKeys token)

/-- The pages of a client that goes on from each token while the listing is truncated. -/
def followPages (call : Option String → Except ApiError ListResponse) :
    Nat → Option String → Option (List ListBucketResultV2)
  | 0, _ => none
  | fuel + 1, token =>
    match call token with
    | .ok (.v2 page) =>
      if page.isTruncated then
        match page.nextContinuationToken with
        | none => none
        | some next => (followPages call fuel (some next)).map (page :: ·)
      else some [page]
    | _ => none

/-- The entry of a record. -/
def objectListed (obj : ObjectMetadata) : ObjectEntry :=
  ⟨obj.key, obj.modifiedAt, obj.etag, obj.size, .standard⟩

/-- The pages list the bucket's objects under the prefix. -/
structure ExactPages (c : Catalog) (bucket : String) (keyPrefix : Option String) (limit : Nat)
    (pages : List ListBucketResultV2) : Prop where
  ascending : (pages.flatMap (·.contents)).Pairwise fun e e' => e.key < e'.key
  objects : ∀ e, e ∈ pages.flatMap (·.contents) ↔ ∃ o, c.objects (bucket, e.key) = some o ∧
    startsWith e.key (keyPrefix.getD "") = true ∧ e = objectListed o
  bounded : ∀ page ∈ pages, page.contents.length ≤ min limit 1000
  token : ∀ page ∈ pages, page.isTruncated = true ↔ page.nextContinuationToken.isSome = true

/-! ## One page -/

/-- In byte order, what comes after an object's key are the objects behind it. -/
theorem filter_after_getElem {os : List ObjectMetadata}
    (order : os.Pairwise fun o o' => o.key < o'.key) {i : Nat} (inside : i < os.length) :
    os.filter (fun obj => os[i].key < obj.key) = os.drop (i + 1) := by
  induction os generalizing i with
  | nil => cases inside
  | cons o os ih =>
    rw [List.pairwise_cons] at order
    cases i with
    | zero =>
      have all : ∀ obj ∈ os, decide (o.key < obj.key) = true := fun obj member =>
        decide_eq_true (order.1 obj member)
      simp only [List.getElem_cons_zero, List.drop_succ_cons, List.drop_zero]
      rw [List.filter_cons_of_neg (by simp), List.filter_eq_self.2 all]
    | succ i =>
      have inside' : i < os.length := Nat.lt_of_succ_lt_succ inside
      have first : ¬ os[i].key < o.key :=
        not_lt_of_gt (order.1 _ (List.getElem_mem inside'))
      simp only [List.getElem_cons_succ, List.drop_succ_cons]
      rw [List.filter_cons_of_neg (by simpa using first), ih order.2 inside']

/-- The page of the records that are left. -/
def pageOf (bucket : String) (params : ListObjectsQuery) (left : List ObjectMetadata) :
    ListBucketResultV2 :=
  .new bucket params.keyPrefix params.continuationToken params.limit
    (decide (params.limit < left.length))
    ((left.take params.limit).map fun obj => (obj.key, obj.modifiedAt, obj.etag, obj.size))

section

variable (bucket : String) {params : ListObjectsQuery} {left : List ObjectMetadata}

theorem pageOf_contents :
    (pageOf bucket params left).contents = (left.take params.limit).map objectListed := by
  simp only [pageOf, ListBucketResultV2.new, List.map_map]
  rfl

theorem pageOf_bounded : (pageOf bucket params left).contents.length ≤ params.limit := by
  rw [pageOf_contents, List.length_map]
  exact List.length_take_le _ _

theorem pageOf_isTruncated :
    (pageOf bucket params left).isTruncated = true ↔ params.limit < left.length :=
  decide_eq_true_iff

theorem pageOf_token_last (short : left.length ≤ params.limit) :
    (pageOf bucket params left).nextContinuationToken = none := by
  simp [pageOf, ListBucketResultV2.new, Nat.not_lt.2 short]

/-- A truncated page with entries goes on from its last key. -/
theorem pageOf_token (some_keys : 0 < params.limit) (long : params.limit < left.length) :
    (pageOf bucket params left).nextContinuationToken =
      some (left.get ⟨params.limit - 1, by omega⟩).key := by
  have last : (left.take params.limit).getLast? = some (left.get ⟨params.limit - 1, by omega⟩) := by
    rw [List.getLast?_eq_getElem?, List.length_take, Nat.min_eq_left (Nat.le_of_lt long),
      List.getElem?_take_of_lt (by omega), List.getElem?_eq_getElem (by omega)]
    rfl
  simp only [pageOf, ListBucketResultV2.new, decide_eq_true long, if_true, List.getLast?_map, last,
    Option.map_some]

/-- A truncated page without entries has no key to go on from. -/
theorem pageOf_token_zero (none_kept : params.limit = 0) :
    (pageOf bucket params left).nextContinuationToken = none := by
  simp [pageOf, ListBucketResultV2.new, none_kept]

end

/-! ## All pages -/

section

variable {env : ReadEnv} {cached : Bool} {db : Store Value} {bucket : String}
  {keyPrefix : Option String} {os : List ObjectMetadata}

/-- A request that passes its checks answers the page of what its token leaves. -/
theorem listObjects_page (valid : ValidBucket bucket)
    (found : validateBucketExists cached db bucket = .ok ()) (consistent : ensureReadConsistency env = .ok ())
    (listed : Metadata.listObjects db bucket keyPrefix = .ok os) (maxKeys : Option Nat)
    (token : Option String) :
    listPage env cached db bucket keyPrefix maxKeys token =
      .ok (.v2 (pageOf bucket (pageQuery keyPrefix maxKeys token)
        ((pageQuery keyPrefix maxKeys token).retained true os))) := by
  have named : validateBucketName bucket = .ok () := valid
  simp only [listPage, listObjects, named, found, consistent, pageQuery, listed]
  rfl

/-- The key of an object, as the token, leaves what is behind it. -/
theorem retained_behind (order : os.Pairwise fun o o' => o.key < o'.key) {k j : Nat}
    (inside : j < (os.drop k).length) (keyPrefix : Option String) (maxKeys : Option Nat) :
    (pageQuery keyPrefix maxKeys (some ((os.drop k).get ⟨j, inside⟩).key)).retained true os =
      os.drop (k + j + 1) := by
  have room : k + j < os.length := by
    rw [List.length_drop] at inside
    omega
  rw [← filter_after_getElem order room]
  simp only [ListObjectsQuery.retained, pageQuery, if_true, List.get_eq_getElem, List.getElem_drop]

theorem limit_pos {maxKeys : Option Nat} (asked : maxKeys ≠ some 0) (keyPrefix token : Option String) :
    0 < (pageQuery keyPrefix maxKeys token).limit := by
  have positive : 0 < maxKeys.getD 1000 := by
    cases maxKeys with
    | none => exact Nat.zero_lt_succ _
    | some n => exact Nat.pos_of_ne_zero fun zero => asked (congrArg some zero)
  simp only [ListObjectsQuery.limit, pageQuery]
  omega

/-- The token of a truncated page leaves the objects behind the page. -/
theorem token_behind (order : os.Pairwise fun o o' => o.key < o'.key) {maxKeys : Option Nat}
    {token : Option String} {k : Nat} (bucket : String)
    (some_keys : 0 < (pageQuery keyPrefix maxKeys token).limit)
    (long : (pageQuery keyPrefix maxKeys token).limit < (os.drop k).length) :
    ∃ next, (pageOf bucket (pageQuery keyPrefix maxKeys token) (os.drop k)).nextContinuationToken =
        some next ∧
      (pageQuery keyPrefix maxKeys (some next)).retained true os =
        os.drop (k + (pageQuery keyPrefix maxKeys token).limit) := by
  refine ⟨_, pageOf_token bucket some_keys long, ?_⟩
  rw [retained_behind order]
  congr 1
  omega

/-- **The pages.** From a token that leaves what is behind the first `k` objects, the pages have just
these. -/
theorem followPages_drop {maxKeys : Option Nat} (order : os.Pairwise fun o o' => o.key < o'.key)
    (goes_on : maxKeys ≠ some 0 ∨ os = [])
    (pages : ∀ token, listPage env cached db bucket keyPrefix maxKeys token =
      .ok (.v2 (pageOf bucket (pageQuery keyPrefix maxKeys token)
        ((pageQuery keyPrefix maxKeys token).retained true os))))
    {fuel k : Nat} {token : Option String} (enough : (os.drop k).length < fuel)
    (left : (pageQuery keyPrefix maxKeys token).retained true os = os.drop k) :
    ∃ found, followPages (listPage env cached db bucket keyPrefix maxKeys) fuel token = some found ∧
      found.flatMap (·.contents) = (os.drop k).map objectListed ∧
      (∀ page ∈ found, page.contents.length ≤ min (maxKeys.getD 1000) 1000) ∧
      ∀ page ∈ found, page.isTruncated = true ↔ page.nextContinuationToken.isSome = true := by
  induction fuel generalizing k token with
  | zero => cases enough
  | succ fuel ih =>
    by_cases long : (pageQuery keyPrefix maxKeys token).limit < (os.drop k).length
    · -- the next request starts behind the last key of this page
      have asked : maxKeys ≠ some 0 := by
        refine goes_on.resolve_right ?_
        rintro rfl
        simp at long
      have some_keys := limit_pos asked keyPrefix token
      have truncated := (pageOf_isTruncated bucket).2 long
      obtain ⟨next, carried, behind⟩ := token_behind order bucket some_keys long
      have fewer : (os.drop (k + (pageQuery keyPrefix maxKeys token).limit)).length < fuel := by
        rw [List.length_drop] at enough long ⊢
        omega
      obtain ⟨found, followed, same, bounded, tokens⟩ := ih fewer behind
      refine ⟨pageOf bucket (pageQuery keyPrefix maxKeys token) (os.drop k) :: found, ?_, ?_, ?_, ?_⟩
      · simp only [followPages, pages, left, truncated, if_true, carried, followed, Option.map_some]
      · rw [List.flatMap_cons, pageOf_contents, same, ← List.map_append, ← List.drop_drop,
          List.take_append_drop]
      · rw [List.forall_mem_cons]
        exact ⟨pageOf_bounded bucket, bounded⟩
      · rw [List.forall_mem_cons, truncated, carried]
        exact ⟨iff_of_true rfl rfl, tokens⟩
    · have short : (os.drop k).length ≤ (pageQuery keyPrefix maxKeys token).limit := Nat.le_of_not_lt long
      have whole : (pageOf bucket (pageQuery keyPrefix maxKeys token) (os.drop k)).isTruncated = false := by
        rw [Bool.eq_false_iff]
        exact fun truncated => long ((pageOf_isTruncated bucket).1 truncated)
      have last := pageOf_token_last bucket short
      refine ⟨[pageOf bucket (pageQuery keyPrefix maxKeys token) (os.drop k)], ?_, ?_, ?_, ?_⟩
      · simp only [followPages, pages, left, whole, Bool.false_eq_true, if_false]
      · rw [List.flatMap_singleton, pageOf_contents, List.take_of_length_le short]
      · rw [List.forall_mem_singleton]
        exact pageOf_bounded bucket
      · rw [List.forall_mem_singleton, whole, last]
        exact iff_of_false nofun nofun

/-- With no keys asked for, the first page is truncated and the listing stops. -/
theorem followPages_stuck
    (pages : ∀ token, listPage env cached db bucket keyPrefix (some 0) token =
      .ok (.v2 (pageOf bucket (pageQuery keyPrefix (some 0) token)
        ((pageQuery keyPrefix (some 0) token).retained true os)))) (some_object : os ≠ []) (fuel : Nat) :
    followPages (listPage env cached db bucket keyPrefix (some 0)) fuel none = none := by
  cases fuel with
  | zero => rfl
  | succ fuel =>
    have long : (pageQuery keyPrefix (some 0) none).limit < os.length := List.length_pos_iff.2 some_object
    have truncated := (pageOf_isTruncated bucket).2 long
    have stuck : (pageOf bucket (pageQuery keyPrefix (some 0) none) os).nextContinuationToken = none :=
      pageOf_token_zero bucket rfl
    have left : (pageQuery keyPrefix (some 0) none).retained true os = os := rfl
    simp only [followPages, pages, left, truncated, if_true, stuck]

end

section

variable {c : Catalog} {env : ReadEnv} {cached : Bool} {db : Store Value} {bucket : String}

/-- A bucket that is in the catalog is found in the store. -/
theorem validateBucketExists_ok (stored : c.StoredIn db) (valid : ValidBucket bucket)
    (found : cached = true ∨ (c.buckets bucket).isSome = true) :
    validateBucketExists cached db bucket = .ok () := by
  unfold validateBucketExists
  split
  · rfl
  · rename_i miss
    obtain ⟨b, live⟩ := Option.isSome_iff_exists.1 (found.resolve_left miss)
    have record := stored.bucket bucket
    rw [live] at record
    simp only [getBucket, checkBucketName_ok.2 valid, bind, Except.bind, record, Option.map_some]
    rfl

/-- What the client of the second version is answered, over the objects under its prefix. -/
theorem listPage_over (stored : c.StoredIn db) (valid : ValidBucket bucket)
    (found : cached = true ∨ (c.buckets bucket).isSome = true)
    (consistent : ensureReadConsistency env = .ok ()) (keyPrefix : Option String) :
    ∃ os : List ObjectMetadata, os.Pairwise (fun o o' => o.key < o'.key) ∧
      (∀ o, o ∈ os ↔
        c.objects (bucket, o.key) = some o ∧ startsWith o.key (keyPrefix.getD "") = true) ∧
      ∀ maxKeys token, listPage env cached db bucket keyPrefix maxKeys token =
        .ok (.v2 (pageOf bucket (pageQuery keyPrefix maxKeys token)
          ((pageQuery keyPrefix maxKeys token).retained true os))) := by
  obtain ⟨os, listed, order, same⟩ := stored.readFrom.objects bucket keyPrefix valid
  have exists' := validateBucketExists_ok stored valid found
  exact ⟨os, order, same, listObjects_page valid exists' consistent listed⟩

/-- A listing of no keys never ends when there is an object to list. -/
theorem listing_stuck (stored : c.StoredIn db) (valid : ValidBucket bucket)
    (found : cached = true ∨ (c.buckets bucket).isSome = true)
    (consistent : ensureReadConsistency env = .ok ()) (keyPrefix : Option String) {key : String}
    {o : ObjectMetadata} (live : c.objects (bucket, key) = some o)
    (start : startsWith key (keyPrefix.getD "") = true) (fuel : Nat) :
    followPages (listPage env cached db bucket keyPrefix (some 0)) fuel none = none := by
  obtain ⟨os, -, same, pages⟩ := listPage_over stored valid found consistent keyPrefix
  obtain ⟨-, rfl, -⟩ := stored.object _ _ _ live
  refine followPages_stuck (pages (some 0)) ?_ fuel
  exact List.ne_nil_of_mem ((same o).2 ⟨live, start⟩)

end

/-- **Listing.** Following the tokens lists the objects under the prefix exactly, unless no keys are
asked for and there is an object. -/
theorem pages_exact_iff (ops : List CatalogOp) (valid : ∀ op ∈ ops, op.Valid) (env : ReadEnv)
    (consistent : ensureReadConsistency env = .ok ()) (cached : Bool) {bucket : String}
    (named : ValidBucket bucket) (keyPrefix : Option String) (maxKeys : Option Nat)
    (found : cached = true ∨ ((ops.foldl CatalogOp.on .empty).buckets bucket).isSome = true) :
    (∃ fuel pages, followPages (listPage env cached (ops.foldl CatalogOp.after Store.empty) bucket
        keyPrefix maxKeys) fuel none = some pages ∧
      ExactPages (ops.foldl CatalogOp.on .empty) bucket keyPrefix (maxKeys.getD 1000) pages) ↔
    maxKeys ≠ some 0 ∨ ∀ key o, (ops.foldl CatalogOp.on .empty).objects (bucket, key) = some o →
      startsWith key (keyPrefix.getD "") = false := by
  have stored := Catalog.StoredIn.empty.run valid
  constructor
  · rintro ⟨fuel, pages, followed, -⟩
    by_contra! zero
    obtain ⟨rfl, key, o, live, start⟩ := zero
    rw [listing_stuck stored named found consistent keyPrefix live (eq_true_of_ne_false start) fuel] at followed
    cases followed
  · intro goes_on
    obtain ⟨os, order, same, pages⟩ := listPage_over stored named found consistent keyPrefix
    have goes_on' : maxKeys ≠ some 0 ∨ os = [] := by
      refine goes_on.imp_right fun empty => List.eq_nil_iff_forall_not_mem.2 fun o member => ?_
      obtain ⟨live, start⟩ := (same o).1 member
      rw [empty _ o live] at start
      cases start
    have whole : (pageQuery keyPrefix maxKeys none).retained true os = os.drop 0 := rfl
    obtain ⟨found, followed, contents, bounded, tokens⟩ :=
      followPages_drop order goes_on' (pages maxKeys) (Nat.lt_succ_self _) whole
    rw [List.drop_zero] at contents
    refine ⟨_, found, followed, ?_, fun e => ?_, bounded, tokens⟩
    · rw [contents, List.pairwise_map]
      exact order
    · rw [contents, List.mem_map]
      constructor
      · rintro ⟨o, member, rfl⟩
        exact ⟨o, ((same o).1 member).1, ((same o).1 member).2, rfl⟩
      · rintro ⟨o, live, start, rfl⟩
        exact ⟨o, (same o).2 ⟨live, start⟩, rfl⟩

def sampleReadEnv : ReadEnv := ⟨false, .ok (), .ok ()⟩

theorem pages_exact_sample :
    ∃ fuel pages, followPages (listPage sampleReadEnv false
        (sampleCatalog.foldl CatalogOp.after Store.empty) "abc" none (some 1)) fuel none = some pages ∧
      ExactPages (sampleCatalog.foldl CatalogOp.on .empty) "abc" none 1 pages :=
  (pages_exact_iff sampleCatalog sampleCatalog_valid sampleReadEnv rfl false (by decide) none (some 1)
    (.inr rfl)).2 (.inl nofun)

/-- A page of no keys is truncated and has no token. -/
theorem listing_of_no_keys_stuck :
    ¬ ∀ (ops : List CatalogOp), (∀ op ∈ ops, op.Valid) →
      ∀ env : ReadEnv, ensureReadConsistency env = .ok () → ∀ (cached : Bool) (bucket : String),
      ValidBucket bucket → ∀ (keyPrefix : Option String) (maxKeys : Option Nat),
      cached = true ∨ ((ops.foldl CatalogOp.on .empty).buckets bucket).isSome = true →
      ∃ fuel pages, followPages (listPage env cached (ops.foldl CatalogOp.after Store.empty) bucket
          keyPrefix maxKeys) fuel none = some pages ∧
        ExactPages (ops.foldl CatalogOp.on .empty) bucket keyPrefix (maxKeys.getD 1000) pages := by
  intro claim
  have live : (sampleCatalog.foldl CatalogOp.on .empty).objects ("abc", "k") = some sampleObject := rfl
  have stuck := listing_stuck (Catalog.StoredIn.empty.run sampleCatalog_valid) (by decide)
    (.inr rfl : false = true ∨ _) (show ensureReadConsistency sampleReadEnv = .ok () from rfl)
    none live rfl
  obtain ⟨fuel, pages, followed, -⟩ := claim sampleCatalog sampleCatalog_valid sampleReadEnv rfl false
    "abc" (by decide) none (some 0) (.inr rfl)
  rw [stuck fuel] at followed
  cases followed

end Save.Api
