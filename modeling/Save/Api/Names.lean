import Save.Metadata.Locks
import Save.Api.Objects

/-!
# Names on both sides of the storage

The handlers check a bucket name and an object key apart (`validation.rs`), the
storage checks the two joined by a slash with the check of a key. The checks agree
up to the two rules that the joined name can break on its own: it is longer than the
key, and it has the dots of the bucket name (`names_agree_iff`). The names that two
objects have for the storage, its files and their locks are apart, however their
keys use the slash, as long as the digests of the joined names are
(`storage_names_isolated`).
-/

namespace Save.Api
set_option autoImplicit false
open Save.Text Save.Common Save.Files Save.Storage
open Save.Metadata (lockKey lockKey_inj)

/-- The storage refuses the name itself. -/
def RefusesName {α : Type} (answer : Except StorageError α) : Prop :=
  ∃ msg, answer = .error (.invalidKey msg)

variable [Sha256] {s : ObjectStorage} {name bucket key : String}

/-- No operation of the storage fails for the name: the id that all go through, and the one that
uploads and completions start with, reads and deletes. -/
structure TakesName (s : ObjectStorage) (name : String) : Prop where
  id : ∃ id, objectId name = .ok id
  create : ¬ RefusesName (s.createTempObject name)
  get : ∀ fs, ¬ RefusesName (s.getObject fs name)
  delete : ∀ fs, ¬ RefusesName (s.deleteObject fs name)

theorem takesName_iff (s : ObjectStorage) (name : String) : TakesName s name ↔ ValidKey name := by
  constructor
  · intro takes
    obtain ⟨id, ok⟩ := takes.id
    exact (objectId_eq_ok.1 ok).1
  · intro valid
    have path := objectPath_eq s valid
    have id : objectId name = .ok (Sha256.digest (utf8 name)) := objectId_eq_ok.2 ⟨valid, rfl⟩
    refine ⟨⟨_, id⟩, ?_, fun fs => ?_, fun fs => ?_⟩
    · rintro ⟨msg, refused⟩
      rw [ObjectStorage.createTempObject, id] at refused
      cases refused
    · rintro ⟨msg, refused⟩
      rw [getObject_ok s fs valid] at refused
      split at refused <;> cases refused
    · rintro ⟨msg, refused⟩
      rw [ObjectStorage.deleteObject, path] at refused
      simp only [bind, Except.bind] at refused
      split at refused <;> cases refused

omit [Sha256] in
/-- A bucket name is not empty. -/
theorem toList_ne_nil (valid : ValidBucket bucket) : bucket.toList ≠ [] := by
  intro empty
  have size := (validBucket_iff.1 valid).1.1
  rw [String.toList_eq_nil_iff.1 empty] at size
  revert size
  decide

omit [Sha256] in
theorem storageKey_toList : (storageKey bucket key).toList = bucket.toList ++ '/' :: key.toList := by
  simp [storageKey]

omit [Sha256] in
/-- Of the rules for a key, the joined name can break only the length and the dots. -/
theorem validKey_storageKey (validBucket : ValidBucket bucket) (validKey : ValidKey key) :
    ValidKey (storageKey bucket key) ↔
      bucket.utf8ByteSize + 1 + key.utf8ByteSize ≤ maxObjectKeyLength ∧
        containsStr bucket ".." = false := by
  obtain ⟨nonempty, -, plain, dots, -, last⟩ := validKey_iff.1 validKey
  have keyFilled : key.toList ≠ [] := by simpa using nonempty
  have filled : storageKey bucket key ≠ "" := by
    intro empty
    have chars := congrArg String.toList empty
    simp [storageKey_toList] at chars
  have size : (storageKey bucket key).utf8ByteSize = bucket.utf8ByteSize + 1 + key.utf8ByteSize := by
    have slash : "/".utf8ByteSize = 1 := by decide
    rw [storageKey, String.utf8ByteSize_append, String.utf8ByteSize_append, slash]
  have noNull : containsChar (storageKey bucket key) (Char.ofNat 0) = false := by
    have inBucket := containsChar_eq_false.1 (validBucket.without (c := Char.ofNat 0) rfl)
    have inKey := containsChar_eq_false.1 plain
    rw [containsChar_eq_false, storageKey_toList, List.mem_append, List.mem_cons]
    rintro (there | same | there)
    · exact inBucket there
    · cases same
    · exact inKey there
  have dotsOf : containsStr (storageKey bucket key) ".." = containsStr bucket ".." := by
    have free : '/' ∉ "..".toList := by decide
    have inKey : ¬ "..".toList <:+: key.toList := by simpa [containsStr] using dots
    rw [containsStr, containsStr, storageKey_toList]
    exact decide_eq_decide.2 ((infix_sep free).trans (or_iff_left inKey))
  have start : startsWith (storageKey bucket key) "/" = false := by
    obtain ⟨c, rest, chars⟩ := List.exists_cons_of_ne_nil (toList_ne_nil validBucket)
    have other := containsChar_eq_false.1 validBucket.no_slash
    rw [← Bool.not_eq_true, startsWith_slash, storageKey_toList, chars]
    rintro ⟨t, same⟩
    obtain ⟨rfl, -⟩ := List.cons.inj same
    exact other (by simp [chars])
  have finish : endsWith (storageKey bucket key) "/" = false := by
    rw [← Bool.not_eq_true, endsWith_iff, storageKey_toList]
    intro ends
    have inKey : "/".toList <:+ key.toList := by
      refine List.suffix_of_suffix_length_le ends ?_ (List.length_pos_iff.2 keyFilled)
      exact (List.suffix_cons _ _).trans (List.suffix_append _ _)
    rw [endsWith_iff.2 inKey] at last
    cases last
  rw [validKey_iff, size, dotsOf]
  exact ⟨fun h => ⟨h.2.1, h.2.2.2.1⟩, fun h => ⟨filled, h.1, noNull, h.2, start, finish⟩⟩

/-- **Names.** For a bucket name and a key that the handlers accept, no storage operation fails for the
joined name exactly when it is not too long and the bucket name has no two dots in a row. -/
theorem names_agree_iff (s : ObjectStorage) (validBucket : ValidBucket bucket)
    (validKey : ValidKey key) :
    TakesName s (storageKey bucket key) ↔
      bucket.utf8ByteSize + 1 + key.utf8ByteSize ≤ maxObjectKeyLength ∧
        containsStr bucket ".." = false :=
  (takesName_iff s _).trans (validKey_storageKey validBucket validKey)

omit [Sha256] in
theorem names_agree_sample :
    letI : Sha256 := Sha256.sampled
    TakesName sampleStorage (storageKey "abc" "k") := by
  let _ : Sha256 := Sha256.sampled
  have validBucket : ValidBucket "abc" := by decide
  have validKey : ValidKey "k" := by decide
  exact (names_agree_iff sampleStorage validBucket validKey).2 (by decide)

omit [Sha256] in
/-- A bucket name may have two dots in a row, an object in it cannot be stored. -/
theorem dotted_bucket_refused :
    ¬ ∀ [Sha256] (s : ObjectStorage) (bucket key : String), ValidBucket bucket → ValidKey key →
      TakesName s (storageKey bucket key) := by
  intro claim
  let _ : Sha256 := Sha256.sampled
  have validBucket : ValidBucket "a..b" := by decide
  have validKey : ValidKey "k" := by decide
  have takes := claim sampleStorage "a..b" "k" validBucket validKey
  obtain ⟨id, accepted⟩ := takes.id
  have refused : objectId (storageKey "a..b" "k") =
      .error (.invalidKey "Validation error: Object key cannot contain '..'") := by rfl
  rw [refused] at accepted
  cases accepted

/-! ## The names of an object -/

/-- `&s[..n]`, in bytes: out of range past the end and inside a character. -/
def sliceTo : Nat → List Char → Option (List Char)
  | 0, _ => some []
  | _ + 1, [] => none
  | n + 1, c :: rest =>
    if c.utf8Size ≤ n + 1 then (sliceTo (n + 1 - c.utf8Size) rest).map (c :: ·) else none

/-- `object_path_from_id` with the check of the slice. -/
def slicedPathFromId (s : ObjectStorage) (id : String) : Option Path :=
  (sliceTo 2 id.toList).map fun start =>
    ((s.basePath.join "objects").join (String.ofList start)).join id

/-- What one object is called. -/
structure ObjectNames where
  storageKey : String
  lockKey : String
  objectPath : Path
  tempPath : Path
  deriving DecidableEq

/-- The names of an object whose storage key has an id. -/
def objectNames (s : ObjectStorage) (bucket key : String) : Except StorageError ObjectNames := do
  let id ← objectId (storageKey bucket key)
  return ⟨storageKey bucket key, lockKey bucket key, s.objectPathFromId id, s.tempPathFromId id⟩

omit [Sha256] in
theorem utf8Size_of_hexChar {c : Char} (hex : hexChar c = true) : c.utf8Size = 1 := by
  rw [Char.utf8Size_eq_one_iff, UInt32.le_iff_toNat_le]
  simp only [hexChar, Bool.or_eq_true, Bool.and_eq_true, decide_eq_true_eq] at hex
  rcases hex with ⟨-, below⟩ | ⟨-, below⟩
  · have digit : c.val.toNat ≤ 57 := UInt32.le_iff_toNat_le.1 below
    exact Nat.le_trans digit (by decide)
  · have letter : c.val.toNat ≤ 102 := UInt32.le_iff_toNat_le.1 below
    exact Nat.le_trans letter (by decide)

omit [Sha256] in
/-- Among characters of one byte a slice up to the length is in range. -/
theorem sliceTo_eq_take {n : Nat} {cs : List Char} (bytes : ∀ c ∈ cs, c.utf8Size = 1)
    (long : n ≤ cs.length) : sliceTo n cs = some (cs.take n) := by
  induction n generalizing cs with
  | zero => rw [sliceTo, List.take_zero]
  | succ n ih =>
    cases cs with
    | nil => cases long
    | cons c rest =>
      have one := bytes c List.mem_cons_self
      have later : sliceTo n rest = some (rest.take n) :=
        ih (fun d member => bytes d (List.mem_cons_of_mem c member)) (Nat.le_of_succ_le_succ long)
      rw [sliceTo, one, if_pos (Nat.succ_le_succ (Nat.zero_le n)), Nat.add_sub_cancel, later]
      rfl

/-- The slice of an id is in range. -/
theorem slicedPathFromId_eq (s : ObjectStorage) {id : String} (accepted : objectId name = .ok id) :
    slicedPathFromId s id = some (s.objectPathFromId id) := by
  obtain ⟨-, rfl⟩ := objectId_eq_ok.1 accepted
  have bytes : ∀ c ∈ (Sha256.digest (utf8 name)).toList, c.utf8Size = 1 :=
    fun c member => utf8Size_of_hexChar (Sha256.hex _ c member)
  have long : 2 ≤ (Sha256.digest (utf8 name)).toList.length := by
    rw [Sha256.length]
    decide
  rw [slicedPathFromId, sliceTo_eq_take bytes long]
  rfl

theorem objectNames_eq {names : ObjectNames} (accepted : objectNames s bucket key = .ok names) :
    objectId (storageKey bucket key) = .ok (Sha256.digest (utf8 (storageKey bucket key))) ∧
      names = ⟨storageKey bucket key, lockKey bucket key, s.pathOf (storageKey bucket key),
        s.tempOf (storageKey bucket key)⟩ := by
  unfold objectNames at accepted
  cases answer : objectId (storageKey bucket key) with
  | error e =>
    rw [answer] at accepted
    cases accepted
  | ok id =>
    obtain ⟨-, rfl⟩ := objectId_eq_ok.1 answer
    rw [answer] at accepted
    cases accepted
    exact ⟨rfl, rfl⟩

omit [Sha256] in
/-- A bucket name ends at the first slash, whatever the key. -/
theorem storageKey_inj {bucket' key' : String} (validBucket : ValidBucket bucket)
    (validBucket' : ValidBucket bucket') (same : storageKey bucket key = storageKey bucket' key') :
    bucket = bucket' ∧ key = key' :=
  sep_inj validBucket.no_slash validBucket'.no_slash same

omit [Sha256] in
/-- A lock key has a colon before its first slash. -/
theorem storageKey_ne_lockKey {bucket' key' : String} (validBucket : ValidBucket bucket)
    (validBucket' : ValidBucket bucket') : storageKey bucket key ≠ lockKey bucket' key' := by
  intro same
  have free : containsChar ("lock:" ++ bucket') '/' = false := by
    have inBucket := containsChar_eq_false.1 validBucket'.no_slash
    rw [containsChar_eq_false, String.toList_append, List.mem_append]
    rintro (there | there)
    · exact absurd there (by decide)
    · exact inBucket there
  obtain ⟨rfl, -⟩ := sep_inj validBucket.no_slash free same
  have colon := containsChar_eq_false.1 validBucket.no_colon
  exact colon (by simp)

/-- **Isolation.** Two objects in buckets with valid names, whose storage keys have ids and do not
collide under SHA-256, have different storage keys, lock keys, object paths and temp paths; none of
their object paths is a temp path and none of their storage keys a lock key; and the slices of both
ids are in range. -/
theorem storage_names_isolated (s : ObjectStorage) {bucket key bucket' key' : String}
    (validBucket : ValidBucket bucket) (validBucket' : ValidBucket bucket')
    {names names' : ObjectNames} (accepted : objectNames s bucket key = .ok names)
    (accepted' : objectNames s bucket' key' = .ok names')
    (noCollision : Sha256.digest (utf8 (storageKey bucket key)) =
      Sha256.digest (utf8 (storageKey bucket' key')) → storageKey bucket key = storageKey bucket' key') :
    ((bucket, key) ≠ (bucket', key') →
      names.storageKey ≠ names'.storageKey ∧ names.lockKey ≠ names'.lockKey ∧
        names.objectPath ≠ names'.objectPath ∧ names.tempPath ≠ names'.tempPath) ∧
    (∀ a ∈ [names, names'], ∀ b ∈ [names, names'],
      a.objectPath ≠ b.tempPath ∧ a.storageKey ≠ b.lockKey) ∧
    (∀ id, objectId (storageKey bucket key) = .ok id → slicedPathFromId s id = some names.objectPath) ∧
    ∀ id, objectId (storageKey bucket' key') = .ok id →
      slicedPathFromId s id = some names'.objectPath := by
  obtain ⟨answer, rfl⟩ := objectNames_eq accepted
  obtain ⟨answer', rfl⟩ := objectNames_eq accepted'
  have sliced : ∀ {name id : String}, objectId name = .ok id →
      slicedPathFromId s id = some (s.pathOf name) := by
    intro name id accepted
    rw [slicedPathFromId_eq s accepted, (objectId_eq_ok.1 accepted).2]
    rfl
  refine ⟨fun distinct => ?_, ?_, fun id => sliced, fun id => sliced⟩
  · have apart : storageKey bucket key ≠ storageKey bucket' key' := by
      intro same
      obtain ⟨rfl, rfl⟩ := storageKey_inj validBucket validBucket' same
      exact distinct rfl
    refine ⟨apart, fun same => ?_, fun same => ?_, fun same => ?_⟩
    · obtain ⟨rfl, rfl⟩ := lockKey_inj validBucket.no_slash validBucket'.no_slash same
      exact distinct rfl
    · exact apart (noCollision (pathOf_inj same))
    · exact apart (noCollision (tempOf_inj same))
  · simp only [List.forall_mem_cons, List.not_mem_nil, false_implies, implies_true, and_true]
    exact ⟨⟨⟨(tempOf_ne_pathOf s _ _).symm, storageKey_ne_lockKey validBucket validBucket⟩,
      (tempOf_ne_pathOf s _ _).symm, storageKey_ne_lockKey validBucket validBucket'⟩,
      ⟨(tempOf_ne_pathOf s _ _).symm, storageKey_ne_lockKey validBucket' validBucket⟩,
      (tempOf_ne_pathOf s _ _).symm, storageKey_ne_lockKey validBucket' validBucket'⟩

omit [Sha256] in
theorem storage_names_isolated_sample :
    letI : Sha256 := Sha256.sampled
    ∃ names names', objectNames sampleStorage "abc" "k" = .ok names ∧
      objectNames sampleStorage "abc" "l" = .ok names' ∧ names.objectPath ≠ names'.objectPath ∧
      names.tempPath ≠ names'.tempPath := by
  let _ : Sha256 := Sha256.sampled
  have valid : ValidBucket "abc" := by decide
  have apart : Sha256.digest (utf8 (storageKey "abc" "k")) ≠
      Sha256.digest (utf8 (storageKey "abc" "l")) := by decide +kernel
  have named : ∀ key, ValidKey (storageKey "abc" key) → ∃ names,
      objectNames sampleStorage "abc" key = .ok names := by
    intro key valid
    unfold objectNames
    rw [objectId_eq_ok.2 ⟨valid, rfl⟩]
    exact ⟨_, rfl⟩
  obtain ⟨names, accepted⟩ := named "k" (by decide)
  obtain ⟨names', accepted'⟩ := named "l" (by decide)
  have isolated := (storage_names_isolated sampleStorage valid valid accepted accepted'
    fun same => absurd same apart).1 (by decide)
  exact ⟨names, names', accepted, accepted', isolated.2.2⟩

end Save.Api
