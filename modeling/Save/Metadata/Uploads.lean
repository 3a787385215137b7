import Save.Lib.Run
import Save.Metadata.Multipart

/-!
# The multipart store as a map of uploads

The functions of `multipart.rs` against a map keyed by bucket, object key and
upload id. The store joins the three with colons, which keys and ids may contain
themselves, tells an upload's parts by the start of their key, and a listing
tells uploads from parts by the text `:part:`. `multipart_refines`: in every run
in which no operation is on a name whose keys run into those of another upload,
and no listing is made while the key of an upload contains `:part:`
(`NoAlias`), every answer is the map's.

The keys that an upload is stored under (`StoredUnder`) and those that the functions
take for a name's own (`UploadName.Claims`) may differ, which is the whole
difficulty: an operation keeps the store and the map alike when no other upload has
a key among its claims. Names that are `Apart` give that for whole runs
(`along_noAlias`).
-/

namespace Save.Metadata
set_option autoImplicit false
open Save.Text Save.Kv Save.Common Save.Run

structure UploadName where
  bucket : String
  key : String
  uploadId : String
  deriving DecidableEq, Repr

def UploadName.dbKey (w : UploadName) : String := multipartDbKey w.bucket w.key w.uploadId

def UploadName.partsPrefix (w : UploadName) : String := partKeyPrefix w.bucket w.key w.uploadId

def UploadName.partKey (w : UploadName) (n : Nat) : String :=
  Metadata.partKey w.bucket w.key w.uploadId n

/-- The names the functions are called with. -/
structure UploadName.Valid (w : UploadName) : Prop where
  bucket : ValidBucket w.bucket
  key : ValidKey w.key
  uploadId : validateUploadId w.uploadId = .ok ()

inductive UploadOp where
  | initiate (now : DateTime) (w : UploadName) (contentType : Option String)
  | recordPart (w : UploadName) (partNumber : Nat) (etag : String) (size : Nat)
  | get (w : UploadName)
  | complete (w : UploadName)
  | abort (w : UploadName)
  | list (bucket : String)
  | listAll

def UploadOp.Valid : UploadOp → Prop
  | .initiate _ w _ => w.Valid
  | .recordPart w _ _ _ => w.Valid
  | .get w => w.Valid
  | .complete w => w.Valid
  | .abort w => w.Valid
  | .list bucket => ValidBucket bucket
  | .listAll => True

inductive UploadAnswer where
  | done
  | upload (u : MultipartUpload)
  | uploads (us : List MultipartUpload)

/-- The function called, with its writes. -/
def UploadOp.call (db : Store Value) : UploadOp → Result (UploadAnswer × List (Write Value))
  | .initiate now w contentType => do
    let (u, ws) ← initiateMultipartUpload now w.bucket w.key w.uploadId contentType
    return (.upload u, ws)
  | .recordPart w partNumber etag size => do
    let ws ← Metadata.recordPart db w.bucket w.key w.uploadId partNumber etag size
    return (.done, ws)
  | .get w => do
    let u ← getMultipartUpload db w.bucket w.key w.uploadId
    return (.upload u, [])
  | .complete w => do
    let (u, ws) ← completeMultipartUpload db w.bucket w.key w.uploadId
    return (.upload u, ws)
  | .abort w => do
    let ws ← abortMultipartUpload db w.bucket w.key w.uploadId
    return (.done, ws)
  | .list bucket => do
    let us ← listMultipartUploads db bucket
    return (.uploads us, [])
  | .listAll => do
    let us ← listAllMultipartUploads db
    return (.uploads us, [])

def UploadOp.answer (db : Store Value) (op : UploadOp) : Result UploadAnswer :=
  (op.call db).map Prod.fst

/-- A call that fails has written nothing. -/
def UploadOp.after (db : Store Value) (op : UploadOp) : Store Value :=
  match op.call db with
  | .ok (_, ws) => applyAll db ws
  | .error _ => db

/-! ## The map -/

abbrev Uploads := UploadName → Option MultipartUpload

def UploadOp.on (m : Uploads) : UploadOp → Uploads
  | .initiate now w contentType =>
    Function.update m w (some ⟨w.uploadId, w.bucket, w.key, ∅, now, contentType⟩)
  | .recordPart w n etag size =>
    Function.update m w ((m w).map fun u => { u with parts := u.parts.insert n ⟨n, etag, size⟩ })
  | .complete w => Function.update m w none
  | .abort w => Function.update m w none
  | _ => m

def Uploads.find (m : Uploads) (w : UploadName) : Result UploadAnswer :=
  match m w with
  | some u => .ok (.upload u)
  | none => .error (.multipartUploadNotFound w.uploadId)

/-- A listing has every upload of these names once. -/
def Uploads.Listed (m : Uploads) (among : UploadName → Prop) (answer : Result UploadAnswer) : Prop :=
  ∃ us, answer = .ok (.uploads us) ∧ us.Nodup ∧ ∀ u, u ∈ us ↔ ∃ w, among w ∧ m w = some u

/-- What the map answers. -/
def UploadOp.Answers (m : Uploads) (answer : Result UploadAnswer) : UploadOp → Prop
  | .initiate now w contentType =>
    answer = .ok (.upload ⟨w.uploadId, w.bucket, w.key, ∅, now, contentType⟩)
  | .recordPart w _ _ _ =>
    answer = if (m w).isSome then .ok .done else .error (.multipartUploadNotFound w.uploadId)
  | .get w => answer = m.find w
  | .complete w => answer = m.find w
  | .abort _ => answer = .ok .done
  | .list bucket => m.Listed (fun w => w.bucket = bucket) answer
  | .listAll => m.Listed (fun _ => True) answer

/-! ## Runs -/

/-- The store, and the map it stands for. -/
structure Uploading where
  db : Store Value
  uploads : Uploads

def Uploading.empty : Uploading := ⟨Store.empty, fun _ => none⟩

/-- Upload ids are distinct: an upload is initiated under a name that no upload has. -/
def UploadOp.Fresh (m : Uploads) : UploadOp → Bool
  | .initiate _ w _ => (m w).isNone
  | _ => true

def Uploading.step (s : Uploading) (op : UploadOp) : Option Uploading :=
  if op.Fresh s.uploads then some ⟨op.after s.db, op.on s.uploads⟩ else none

/-- The keys an upload of this name is stored under. -/
def StoredUnder (w : UploadName) (u : Option MultipartUpload) (x : String) : Prop :=
  ∃ u', u = some u' ∧ (x = w.dbKey ∨ ∃ n p, u'.parts[n]? = some p ∧ x = w.partKey n)

/-- The key is one that the functions take for the name's own: that of its record or, by its
start, of a part. -/
def UploadName.Claims (w : UploadName) (x : String) : Prop :=
  x = w.dbKey ∨ startsWith x w.partsPrefix = true

/-- No operation meets the keys of another upload, and no listing an upload with the key of a part. -/
def NoAlias (s : Uploading) : UploadOp → Prop
  | .initiate _ w _ =>
    (∀ w' x, w' ≠ w → StoredUnder w' (s.uploads w') x → ¬ w.Claims x) ∧
      ∀ w', w' ≠ w → (s.uploads w').isSome → ¬ w'.Claims w.dbKey
  | .recordPart w n _ _ =>
    (s.uploads w = none → ∀ w', w' ≠ w → ¬ StoredUnder w' (s.uploads w') w.dbKey) ∧
      ((s.uploads w).isSome → ∀ w', w' ≠ w → (s.uploads w').isSome → ¬ w'.Claims (w.partKey n))
  | .get w => ∀ w', w' ≠ w → ¬ StoredUnder w' (s.uploads w') w.dbKey
  | .complete w => ∀ w', w' ≠ w → ¬ StoredUnder w' (s.uploads w') w.dbKey
  | .abort w => ∀ w' x, w' ≠ w → StoredUnder w' (s.uploads w') x → ¬ w.Claims x
  | .list bucket =>
    ∀ w, w.bucket = bucket → (s.uploads w).isSome → containsStr w.dbKey ":part:" = false
  | .listAll => ∀ w, (s.uploads w).isSome → containsStr w.dbKey ":part:" = false

/-! ## Keys -/

theorem partsPrefix_eq (w : UploadName) : w.partsPrefix = w.dbKey ++ ":part:" := rfl

theorem partKey_eq (w : UploadName) (n : Nat) : w.partKey n = w.partsPrefix ++ toString n := rfl

theorem claims_partKey (w : UploadName) (n : Nat) : w.Claims (w.partKey n) :=
  .inr (startsWith_append _ _)

theorem partKey_inj {w : UploadName} {n n' : Nat} (same : w.partKey n = w.partKey n') : n = n' := by
  -- the digits read back give the number
  have digits : toString n = toString n' := append_right_inj same
  simpa using congrArg (fun s : String => Nat.ofDigitChars 10 s.toList 0) digits

theorem dbKey_not_part (w : UploadName) : startsWith w.dbKey w.partsPrefix = false := by
  rw [Bool.eq_false_iff]
  intro start
  have short := (startsWith_iff.1 start).length_le
  simp [partsPrefix_eq] at short

theorem partKey_ne_dbKey (w : UploadName) (n : Nat) : w.partKey n ≠ w.dbKey := by
  intro same
  have start : startsWith w.dbKey w.partsPrefix = true := same ▸ startsWith_append _ _
  rw [dbKey_not_part] at start
  cases start

theorem partKey_contains (w : UploadName) (n : Nat) : containsStr (w.partKey n) ":part:" = true := by
  simp only [containsStr, partKey_eq, partsPrefix_eq, decide_eq_true_eq, String.toList_append]
  exact ⟨w.dbKey.toList, (toString n).toList, rfl⟩

/-- A bucket name has no colon: the keys of a bucket's uploads are told by their start. -/
theorem dbKey_of_bucket {w : UploadName} {bucket : String} (valid : ValidBucket w.bucket)
    (valid' : ValidBucket bucket) :
    startsWith w.dbKey ("mpu:" ++ bucket ++ ":") = true ↔ w.bucket = bucket := by
  constructor
  · intro start
    obtain ⟨rest, same⟩ := startsWith_iff_append.1 start
    have joined : "mpu:" ++ (w.bucket ++ ":" ++ (w.key ++ ":" ++ w.uploadId)) =
        "mpu:" ++ (bucket ++ ":" ++ rest) := by
      simpa only [UploadName.dbKey, multipartDbKey, String.append_assoc] using same
    exact (sep_inj valid.no_colon valid'.no_colon (append_right_inj joined)).1
  · rintro rfl
    refine startsWith_iff_append.2 ⟨w.key ++ ":" ++ w.uploadId, ?_⟩
    simp only [UploadName.dbKey, multipartDbKey, String.append_assoc]

theorem StoredUnder.claims {w : UploadName} {u : Option MultipartUpload} {x : String}
    (stored : StoredUnder w u x) : w.Claims x := by
  obtain ⟨u', -, rfl | ⟨n, p, -, rfl⟩⟩ := stored
  · exact .inl rfl
  · exact claims_partKey w n

theorem StoredUnder.live {w : UploadName} {u : Option MultipartUpload} {x : String}
    (stored : StoredUnder w u x) : u.isSome = true := by
  obtain ⟨u', rfl, -⟩ := stored
  rfl

/-! ## The store stands for the map -/

/-- The stored record of an upload. -/
def MultipartUpload.metadata (u : MultipartUpload) : MultipartMetadata :=
  ⟨u.uploadId, u.bucket, u.key, u.initiatedAt, u.contentType⟩

/-- The records of one upload. -/
structure Recorded (db : Store Value) (w : UploadName) (u : MultipartUpload) : Prop where
  name : (⟨u.bucket, u.key, u.uploadId⟩ : UploadName) = w
  valid : w.Valid
  record : db.get w.dbKey = some (.upload u.metadata)
  parts : ∀ n p, u.parts[n]? = some p → p.partNumber = n ∧ db.get (w.partKey n) = some (.part p)

/-- The store has the records of the uploads and no others, and no upload claims the key of
another. -/
structure StoresUploads (db : Store Value) (m : Uploads) : Prop where
  recorded : ∀ w u, m w = some u → Recorded db w u
  owned : ∀ x v, db.get x = some v → ∃ w, StoredUnder w (m w) x
  apart : ∀ w w' x, w' ≠ w → (m w).isSome → StoredUnder w' (m w') x → ¬ w.Claims x

section

variable {db db' : Store Value} {m : Uploads} {w : UploadName} {u : MultipartUpload}

/-- The loop over part records that are those of a map. -/
theorem collectParts_eq {es : List (String × Value)}
    {acc parts : Std.ExtTreeMap Nat MultipartPart compare}
    (each : ∀ e ∈ es, ∃ p, e.2 = .part p ∧ parts[p.partNumber]? = some p)
    (all : ∀ (n : Nat) p, parts[n]? = some p →
      acc[n]? = some p ∨ ∃ e ∈ es, e.2 = .part p ∧ p.partNumber = n)
    (old : ∀ (n : Nat) p, acc[n]? = some p → parts[n]? = some p) : collectParts acc es = .ok parts := by
  induction es generalizing acc with
  | nil =>
    have same : acc = parts := by
      refine Std.ExtTreeMap.ext_getElem? fun {n} => Option.ext fun p => ⟨old n p, fun there => ?_⟩
      rcases all n p there with before | ⟨e, member, -⟩
      · exact before
      · cases member
    rw [collectParts, same]
  | cons e es ih =>
    obtain ⟨x, v⟩ := e
    obtain ⟨p, rfl, there⟩ := each _ List.mem_cons_self
    have inserted : ∀ n, (acc.insert p.partNumber p)[n]? =
        if p.partNumber = n then some p else acc[n]? := by
      intro n
      rw [Std.ExtTreeMap.getElem?_insert]
      simp only [Std.LawfulEqCmp.compare_eq_iff_eq]
    refine ih (fun e member => each e (List.mem_cons_of_mem _ member)) ?_ ?_
    · intro n q part
      rw [inserted]
      rcases all n q part with before | ⟨e, member, value, number⟩
      · split
        · rename_i same
          subst same
          rw [there] at part
          exact .inl part
        · exact .inl before
      · rcases List.mem_cons.1 member with rfl | member
        · cases value
          rw [if_pos number]
          exact .inl rfl
        · exact .inr ⟨e, member, value, number⟩
    · intro n q part
      rw [inserted] at part
      split at part
      · rename_i same
        cases part
        rw [← same]
        exact there
      · exact old n q part

/-- The keys with an upload's part prefix are those of its parts. -/
theorem StoresUploads.mem_scan_parts (rep : StoresUploads db m) (live : m w = some u)
    {x : String} {v : Value} :
    (x, v) ∈ scan db w.partsPrefix ↔ ∃ n p, u.parts[n]? = some p ∧ x = w.partKey n ∧ v = .part p := by
  rw [mem_scan]
  constructor
  · rintro ⟨stored, hit⟩
    obtain ⟨w', under⟩ := rep.owned x v stored
    by_cases same : w' = w
    · subst same
      obtain ⟨u', live', rfl | ⟨n, p, part, rfl⟩⟩ := under
      · rw [dbKey_not_part] at hit
        cases hit
      · rw [live] at live'
        cases live'
        rw [((rep.recorded w' u live).parts n p part).2] at stored
        cases stored
        exact ⟨n, p, part, rfl, rfl⟩
    · exact absurd (.inr hit) (rep.apart w w' x same (by rw [live]; rfl) under)
  · rintro ⟨n, p, part, rfl, rfl⟩
    exact ⟨((rep.recorded w u live).parts n p part).2, startsWith_append _ _⟩

theorem StoresUploads.collectParts (rep : StoresUploads db m) (live : m w = some u) :
    Metadata.collectParts ∅ (scan db w.partsPrefix) = .ok u.parts := by
  refine collectParts_eq ?_ ?_ ?_
  · rintro ⟨x, v⟩ member
    obtain ⟨n, p, part, rfl, rfl⟩ := (rep.mem_scan_parts live).1 member
    have number := ((rep.recorded w u live).parts n p part).1
    exact ⟨p, rfl, number ▸ part⟩
  · intro n p part
    have number := ((rep.recorded w u live).parts n p part).1
    exact .inr ⟨_, (rep.mem_scan_parts live).2 ⟨n, p, part, rfl, rfl⟩, rfl, number⟩
  · intro n p none
    simp at none

/-! ## The records of one upload -/

/-- The keys that the name claims hold the record of the upload and those of its parts. -/
structure UploadRecords (w : UploadName) (metadata : MultipartMetadata) (db : Store Value)
    (parts : Std.ExtTreeMap Nat MultipartPart compare) : Prop where
  upload : db.get w.dbKey = some (.upload metadata)
  stored : ∀ x v, startsWith x w.partsPrefix = true →
    (db.get x = some v ↔ ∃ (n : Nat) (p : MultipartPart),
      parts[n]? = some p ∧ x = w.partKey n ∧ v = .part p)
  numbered : ∀ (n : Nat) p, parts[n]? = some p → p.partNumber = n

section Records

variable {metadata : MultipartMetadata} {parts : Std.ExtTreeMap Nat MultipartPart compare}

theorem UploadRecords.frame (records : UploadRecords w metadata db parts)
    (same : ∀ x, w.Claims x → db'.get x = db.get x) : UploadRecords w metadata db' parts := by
  refine ⟨(same _ (.inl rfl)).trans records.upload, fun x v start => ?_, records.numbered⟩
  rw [same x (.inr start)]
  exact records.stored x v start

/-- The record of a part. -/
theorem UploadRecords.record (records : UploadRecords w metadata db parts) (p : MultipartPart) :
    UploadRecords w metadata (db.put (w.partKey p.partNumber) (.part p))
      (parts.insert p.partNumber p) := by
  have inserted : ∀ n : Nat, (parts.insert p.partNumber p)[n]? =
      if p.partNumber = n then some p else parts[n]? := by
    intro n
    simp only [Std.ExtTreeMap.getElem?_insert, Std.LawfulEqCmp.compare_eq_iff_eq]
  refine ⟨?_, fun x v start => ?_, fun n q there => ?_⟩
  · rw [get_put, if_neg (partKey_ne_dbKey w p.partNumber)]
    exact records.upload
  · rw [get_put]
    by_cases same : w.partKey p.partNumber = x
    · rw [if_pos same]
      subst same
      constructor
      · rintro ⟨⟩
        exact ⟨p.partNumber, p, by rw [inserted, if_pos rfl], rfl, rfl⟩
      · rintro ⟨n, q, there, key, rfl⟩
        obtain rfl := partKey_inj key
        rw [inserted, if_pos rfl] at there
        cases there
        rfl
    · rw [if_neg same, records.stored x v start]
      have others : ∀ n, x = w.partKey n → (parts.insert p.partNumber p)[n]? = parts[n]? := by
        rintro n rfl
        rw [inserted, if_neg]
        rintro rfl
        exact same rfl
      constructor
      · rintro ⟨n, q, there, key, value⟩
        exact ⟨n, q, (others n key).trans there, key, value⟩
      · rintro ⟨n, q, there, key, value⟩
        exact ⟨n, q, (others n key).symm.trans there, key, value⟩
  · rw [inserted] at there
    split at there
    · rename_i number
      cases there
      exact number
    · exact records.numbered n q there

theorem UploadRecords.collectParts (records : UploadRecords w metadata db parts) :
    Metadata.collectParts ∅ (scan db w.partsPrefix) = .ok parts := by
  refine collectParts_eq ?_ ?_ ?_
  · rintro ⟨x, v⟩ member
    obtain ⟨stored, start⟩ := mem_scan.1 member
    obtain ⟨n, p, there, -, rfl⟩ := (records.stored x v start).1 stored
    exact ⟨p, rfl, by rw [records.numbered n p there]; exact there⟩
  · intro n p there
    have start : startsWith (w.partKey n) w.partsPrefix = true := startsWith_append _ _
    refine .inr ⟨(w.partKey n, .part p), mem_scan.2 ⟨?_, start⟩, rfl, records.numbered n p there⟩
    exact (records.stored _ _ start).2 ⟨n, p, there, rfl, rfl⟩
  · intro n p never
    simp at never

end Records

/-! ## Answers -/

theorem UploadName.Valid.checked (valid : w.Valid) : checkObjectKey w.key = .ok () :=
  checkObjectKey_ok.2 valid.key

section Records

variable {metadata : MultipartMetadata} {parts : Std.ExtTreeMap Nat MultipartPart compare}

/-- The lookup, after its checks, collects the parts. -/
theorem UploadRecords.lookup (records : UploadRecords w metadata db parts) :
    getMultipartUpload db w.bucket w.key w.uploadId = do
      checkObjectKey w.key
      validateUploadId w.uploadId
      return ⟨metadata.uploadId, metadata.bucket, metadata.key, parts, metadata.initiatedAt,
        metadata.contentType⟩ := by
  have record : db.get (multipartDbKey w.bucket w.key w.uploadId) = some (.upload metadata) :=
    records.upload
  have collected : Metadata.collectParts ∅ (scan db (partKeyPrefix w.bucket w.key w.uploadId)) =
      .ok parts := records.collectParts
  unfold getMultipartUpload
  rw [record]
  simp only [collected, bind, Except.bind]

theorem UploadRecords.get (records : UploadRecords w metadata db parts) (valid : w.Valid) :
    getMultipartUpload db w.bucket w.key w.uploadId =
      .ok ⟨metadata.uploadId, metadata.bucket, metadata.key, parts, metadata.initiatedAt,
        metadata.contentType⟩ := by
  rw [records.lookup, valid.checked, valid.uploadId]
  rfl

theorem UploadRecords.found (records : UploadRecords w metadata db parts) {upload : MultipartUpload}
    (call : getMultipartUpload db w.bucket w.key w.uploadId = .ok upload) :
    upload = ⟨metadata.uploadId, metadata.bucket, metadata.key, parts, metadata.initiatedAt,
      metadata.contentType⟩ := by
  rw [records.lookup] at call
  obtain ⟨-, -, call⟩ := bind_ok call
  obtain ⟨-, -, call⟩ := bind_ok call
  cases call
  rfl

end Records

/-- A name that no upload has, and whose key no other upload is stored under. -/
theorem StoresUploads.absent (rep : StoresUploads db m) (gone : m w = none)
    (clear : ∀ w', w' ≠ w → ¬ StoredUnder w' (m w') w.dbKey) : db.get w.dbKey = none := by
  cases stored : db.get w.dbKey with
  | none => rfl
  | some v =>
    obtain ⟨w', under⟩ := rep.owned _ v stored
    by_cases same : w' = w
    · subst same
      obtain ⟨u, live, -⟩ := under
      rw [gone] at live
      cases live
    · exact absurd under (clear w' same)

theorem StoresUploads.get (rep : StoresUploads db m) (valid : w.Valid)
    (clear : ∀ w', w' ≠ w → ¬ StoredUnder w' (m w') w.dbKey) :
    (getMultipartUpload db w.bucket w.key w.uploadId).map UploadAnswer.upload = m.find w := by
  unfold getMultipartUpload Uploads.find
  simp only [valid.checked, valid.uploadId, bind, Except.bind]
  cases live : m w with
  | none =>
    have absent : db.get (multipartDbKey w.bucket w.key w.uploadId) = none := rep.absent live clear
    rw [absent]
    rfl
  | some u =>
    have record : db.get (multipartDbKey w.bucket w.key w.uploadId) = some (.upload u.metadata) :=
      (rep.recorded w u live).record
    have parts : Metadata.collectParts ∅ (scan db (partKeyPrefix w.bucket w.key w.uploadId)) =
      .ok u.parts := rep.collectParts live
    rw [record]
    simp only [parts]
    rfl

/-- The loop over upload records, where every record it does not skip is that of an upload
of the map. -/
theorem collectUploads_ok {es : List (String × Value)} {P : MultipartUpload → Prop}
    (each : ∀ e ∈ es, containsStr e.1 ":part:" = false → ∃ u, P u ∧ e.2 = .upload u.metadata ∧
      e.1 = multipartDbKey u.bucket u.key u.uploadId ∧
      Metadata.collectParts ∅ (scan db (partKeyPrefix u.bucket u.key u.uploadId)) = .ok u.parts) :
    ∃ us, collectUploads db es = .ok us ∧ (∀ u ∈ us, P u) ∧
      us.map (fun u => multipartDbKey u.bucket u.key u.uploadId) =
        (es.filter fun e => !containsStr e.1 ":part:").map Prod.fst := by
  induction es with
  | nil => exact ⟨[], rfl, by simp, rfl⟩
  | cons e es ih =>
    obtain ⟨us, rest, all, keys⟩ := ih fun e member => each e (List.mem_cons_of_mem _ member)
    obtain ⟨x, v⟩ := e
    cases part : containsStr x ":part:" with
    | true => exact ⟨us, by simp only [collectUploads, part, if_true, rest], all, by simp [part, keys]⟩
    | false =>
      obtain ⟨u, holds, rfl, rfl, parts⟩ := each _ List.mem_cons_self part
      refine ⟨u :: us, ?_, ?_, ?_⟩
      · simp only [collectUploads, part, Bool.false_eq_true, if_false, MultipartUpload.metadata, bind,
          Except.bind, parts, rest]
        rfl
      · intro u' member
        rcases List.mem_cons.1 member with rfl | member
        · exact holds
        · exact all u' member
      · simp [part, keys]

/-- A listing over a prefix that selects the names of a kind. -/
theorem StoresUploads.listed (rep : StoresUploads db m) {p : String} {among : UploadName → Prop}
    (selects : ∀ w, (m w).isSome → (startsWith w.dbKey p = true ↔ among w))
    (clear : ∀ w, among w → (m w).isSome → containsStr w.dbKey ":part:" = false) :
    m.Listed among ((collectUploads db (scan db p)).map UploadAnswer.uploads) := by
  have each : ∀ e ∈ scan db p, containsStr e.1 ":part:" = false →
      ∃ u, (∃ w, among w ∧ m w = some u) ∧ e.2 = .upload u.metadata ∧
        e.1 = multipartDbKey u.bucket u.key u.uploadId ∧
        Metadata.collectParts ∅ (scan db (partKeyPrefix u.bucket u.key u.uploadId)) = .ok u.parts := by
    rintro ⟨x, v⟩ member whole
    obtain ⟨stored, hit⟩ := mem_scan.1 member
    obtain ⟨w, u, live, rfl | ⟨n, p, -, rfl⟩⟩ := rep.owned x v stored
    · have recorded := rep.recorded w u live
      rw [recorded.record] at stored
      cases stored
      have own : among w := (selects w (by rw [live]; rfl)).1 hit
      have parts := rep.collectParts live
      obtain rfl := recorded.name
      exact ⟨u, ⟨_, own, live⟩, rfl, rfl, parts⟩
    · rw [partKey_contains] at whole
      cases whole
  obtain ⟨us, listed, all, keys⟩ := collectUploads_ok each
  refine ⟨us, by rw [listed]; rfl, ?_, fun u => ⟨all u, ?_⟩⟩
  · have distinct : (us.map fun u => multipartDbKey u.bucket u.key u.uploadId).Nodup := by
      rw [keys]
      exact List.Pairwise.map Prod.fst (fun a b less => less.ne) ((pairwise_scan db p).filter _)
    refine List.Pairwise.of_map _ (fun u u' differ same => ?_) distinct
    exact differ (by rw [same])
  · rintro ⟨w, own, live⟩
    have recorded := rep.recorded w u live
    have live' : (m w).isSome := by rw [live]; rfl
    have scanned : (w.dbKey, Value.upload u.metadata) ∈ scan db p :=
      mem_scan.2 ⟨recorded.record, (selects w live').2 own⟩
    have there : w.dbKey ∈ us.map fun u => multipartDbKey u.bucket u.key u.uploadId := by
      rw [keys]
      exact List.mem_map_of_mem (List.mem_filter.2 ⟨scanned, by simp [clear w own live']⟩)
    obtain ⟨u', member, same⟩ := List.mem_map.1 there
    obtain ⟨w', -, live''⟩ := all u' member
    -- one key, one name
    have name := (rep.recorded w' u' live'').name
    have equal : w' = w := by
      by_contra other
      refine rep.apart w w' w'.dbKey other live' ⟨u', live'', .inl rfl⟩ (.inl ?_)
      rw [← name]
      exact same
    subst equal
    rw [live] at live''
    cases live''
    exact member

/-! ## Steps -/

theorem StoresUploads.foreign (rep : StoresUploads db m) (live : m w = some u) :
    ∀ w' x, w' ≠ w → StoredUnder w' (m w') x → ¬ w.Claims x :=
  fun w' x other under => rep.apart w w' x other (by rw [live]; rfl) under

/-- One upload changes: it has its new records, the others keep theirs, nothing else is
stored, and no upload claims the keys of another. -/
theorem StoresUploads.update (rep : StoresUploads db m) {u' : Option MultipartUpload}
    (own : ∀ u, u' = some u → Recorded db' w u)
    (others : ∀ w' x, w' ≠ w → StoredUnder w' (m w') x → db'.get x = db.get x)
    (only : ∀ x v, db'.get x = some v →
      StoredUnder w u' x ∨ ∃ w', w' ≠ w ∧ StoredUnder w' (m w') x)
    (foreign : u'.isSome → ∀ w' x, w' ≠ w → StoredUnder w' (m w') x → ¬ w.Claims x)
    (new : ∀ w' x, w' ≠ w → (m w').isSome → StoredUnder w u' x → ¬ w'.Claims x) :
    StoresUploads db' (Function.update m w u') := by
  refine ⟨fun w' u live => ?_, fun x v stored => ?_, fun w₁ w₂ x differ live under => ?_⟩
  · by_cases same : w' = w
    · subst same
      rw [Function.update_self] at live
      exact own u live
    · rw [Function.update_of_ne same] at live
      have old := rep.recorded w' u live
      refine ⟨old.name, old.valid, ?_, fun n p part => ⟨(old.parts n p part).1, ?_⟩⟩
      · rw [others w' _ same ⟨u, live, .inl rfl⟩]
        exact old.record
      · rw [others w' _ same ⟨u, live, .inr ⟨n, p, part, rfl⟩⟩]
        exact (old.parts n p part).2
  · rcases only x v stored with mine | ⟨w', other, under⟩
    · exact ⟨w, by rwa [Function.update_self]⟩
    · exact ⟨w', by rwa [Function.update_of_ne other]⟩
  · by_cases first : w₁ = w
    · subst first
      rw [Function.update_self] at live
      rw [Function.update_of_ne differ] at under
      exact foreign live w₂ x differ under
    · rw [Function.update_of_ne first] at live
      by_cases second : w₂ = w
      · subst second
        rw [Function.update_self] at under
        exact new w₁ x first live under
      · rw [Function.update_of_ne second] at under
        exact rep.apart w₁ w₂ x differ live under

theorem StoresUploads.initiate (rep : StoresUploads db m) (valid : w.Valid) (fresh : m w = none)
    {now : DateTime} {contentType : Option String}
    (foreign : ∀ w' x, w' ≠ w → StoredUnder w' (m w') x → ¬ w.Claims x)
    (new : ∀ w', w' ≠ w → (m w').isSome → ¬ w'.Claims w.dbKey) :
    StoresUploads (db.put w.dbKey (.upload ⟨w.uploadId, w.bucket, w.key, now, contentType⟩))
      (Function.update m w (some ⟨w.uploadId, w.bucket, w.key, ∅, now, contentType⟩)) := by
  refine rep.update ?_ ?_ ?_ (fun _ => foreign) ?_
  · rintro u ⟨⟩
    refine ⟨rfl, valid, by rw [get_put, if_pos rfl]; rfl, fun n p part => ?_⟩
    simp at part
  · intro w' x other under
    have differ : w.dbKey ≠ x := fun same => foreign w' x other under (.inl same.symm)
    rw [get_put, if_neg differ]
  · intro x v stored
    rw [get_put] at stored
    split at stored
    · rename_i same
      exact .inl ⟨_, rfl, .inl same.symm⟩
    · obtain ⟨w', under⟩ := rep.owned x v stored
      refine .inr ⟨w', ?_, under⟩
      rintro rfl
      obtain ⟨u, live, -⟩ := under
      rw [fresh] at live
      cases live
  · rintro w' x other live ⟨u, same, rfl | ⟨n, p, part, -⟩⟩
    · exact new w' other live
    · cases same
      simp at part

theorem StoresUploads.recordPart (rep : StoresUploads db m) (live : m w = some u) {n : Nat}
    {etag : String} {size : Nat}
    (new : ∀ w', w' ≠ w → (m w').isSome → ¬ w'.Claims (w.partKey n)) :
    StoresUploads (db.put (w.partKey n) (.part ⟨n, etag, size⟩))
      (Function.update m w (some { u with parts := u.parts.insert n ⟨n, etag, size⟩ })) := by
  have recorded := rep.recorded w u live
  have inserted : ∀ n', (u.parts.insert n ⟨n, etag, size⟩)[n']? =
      if n = n' then some ⟨n, etag, size⟩ else u.parts[n']? := by
    intro n'
    rw [Std.ExtTreeMap.getElem?_insert]
    simp only [Std.LawfulEqCmp.compare_eq_iff_eq]
  have foreign := rep.foreign live
  refine rep.update ?_ ?_ ?_ (fun _ => foreign) ?_
  · rintro _ ⟨⟩
    refine ⟨recorded.name, recorded.valid, ?_, fun n' p part => ?_⟩
    · rw [get_put, if_neg (partKey_ne_dbKey w n)]
      exact recorded.record
    · simp only [inserted] at part
      split at part
      · rename_i same
        subst same
        cases part
        exact ⟨rfl, by rw [get_put, if_pos rfl]⟩
      · rename_i differ
        obtain ⟨number, stored⟩ := recorded.parts n' p part
        refine ⟨number, ?_⟩
        rw [get_put, if_neg fun same => differ (partKey_inj same)]
        exact stored
  · intro w' x other under
    have differ : w.partKey n ≠ x := fun same => foreign w' x other under (same ▸ claims_partKey w n)
    rw [get_put, if_neg differ]
  · intro x v stored
    rw [get_put] at stored
    split at stored
    · rename_i same
      refine .inl ⟨_, rfl, .inr ⟨n, ⟨n, etag, size⟩, ?_, same.symm⟩⟩
      simp only [inserted, if_true]
    · obtain ⟨w', under⟩ := rep.owned x v stored
      by_cases same : w' = w
      · subst same
        obtain ⟨u₀, live₀, place⟩ := under
        rw [live] at live₀
        cases live₀
        refine .inl ⟨_, rfl, place.imp_right ?_⟩
        rintro ⟨n', p, part, key⟩
        by_cases number : n = n'
        · exact ⟨n', ⟨n, etag, size⟩, (inserted n').trans (if_pos number), key⟩
        · exact ⟨n', p, (inserted n').trans ((if_neg number).trans part), key⟩
      · exact .inr ⟨w', same, under⟩
  · rintro w' x other live' ⟨u', same, place⟩
    cases same
    -- the keys it had before stay clear of the others'
    have before : StoredUnder w (m w) x ∨ x = w.partKey n := by
      rcases place with rfl | ⟨n', p, part, rfl⟩
      · exact .inl ⟨u, live, .inl rfl⟩
      · simp only [inserted] at part
        split at part
        · rename_i number
          exact .inr (by rw [number])
        · exact .inl ⟨u, live, .inr ⟨n', p, part, rfl⟩⟩
    rcases before with under | rfl
    · exact rep.apart w' w x other.symm live' under
    · exact new w' other live'

/-- What is left after the writes of `complete` and of `abort`. -/
theorem get_uploadDeletes (db : Store Value) (w : UploadName) (x : String) :
    (applyAll db (.delete w.dbKey :: scanDeletes (db.delete w.dbKey) w.partsPrefix)).get x =
      if startsWith x w.partsPrefix then none else if w.dbKey = x then none else db.get x := by
  show (applyAll (db.delete w.dbKey) (scanDeletes (db.delete w.dbKey) w.partsPrefix)).get x = _
  rw [get_scanDeletes, get_delete]

/-- The writes of `complete` and of `abort`: every key the name claims is deleted. -/
theorem StoresUploads.remove (rep : StoresUploads db m)
    (foreign : ∀ w' x, w' ≠ w → StoredUnder w' (m w') x → ¬ w.Claims x) :
    StoresUploads (applyAll db (.delete w.dbKey :: scanDeletes (db.delete w.dbKey) w.partsPrefix))
      (Function.update m w none) := by
  have after := get_uploadDeletes db w
  refine rep.update (fun u never => by cases never) ?_ ?_ (fun never => by cases never) ?_
  · intro w' x other under
    have clear := foreign w' x other under
    rw [after, if_neg fun hit => clear (.inr hit), if_neg fun same => clear (.inl same.symm)]
  · intro x v stored
    rw [after] at stored
    split at stored
    · cases stored
    · rename_i whole
      split at stored
      · cases stored
      · rename_i differ
        obtain ⟨w', under⟩ := rep.owned x v stored
        refine .inr ⟨w', ?_, under⟩
        rintro rfl
        rcases under.claims with same | hit
        · exact differ same.symm
        · exact whole hit
  · rintro w' x other live ⟨u, never, -⟩
    cases never

/-- The calls, for a name that is accepted. -/
theorem recordPart_call (db : Store Value) (valid : w.Valid) (n : Nat) (etag : String) (size : Nat) :
    (UploadOp.recordPart w n etag size).call db =
      if (db.get w.dbKey).isNone then .error (.multipartUploadNotFound w.uploadId)
      else .ok (.done, [.put (w.partKey n) (.part ⟨n, etag, size⟩)]) := by
  have key : multipartDbKey w.bucket w.key w.uploadId = w.dbKey := rfl
  simp only [UploadOp.call, Metadata.recordPart, valid.checked, valid.uploadId, bind, Except.bind, key]
  by_cases absent : (db.get w.dbKey).isNone = true
  · rw [if_pos absent, if_pos absent]
  · rw [if_neg absent, if_neg absent]
    rfl

theorem complete_call (db : Store Value) (valid : w.Valid) :
    (UploadOp.complete w).call db =
      (getMultipartUpload db w.bucket w.key w.uploadId).map fun u => (.upload u,
        .delete w.dbKey :: scanDeletes (db.delete w.dbKey) w.partsPrefix) := by
  simp only [UploadOp.call, completeMultipartUpload, valid.checked, valid.uploadId, bind, Except.bind]
  cases getMultipartUpload db w.bucket w.key w.uploadId <;> rfl

theorem abort_call (valid : w.Valid) :
    (UploadOp.abort w).call db =
      .ok (.done, .delete w.dbKey :: scanDeletes (db.delete w.dbKey) w.partsPrefix) := by
  simp only [UploadOp.call, abortMultipartUpload, valid.checked, valid.uploadId, bind, Except.bind]
  rfl

theorem initiate_call (valid : w.Valid) (now : DateTime) (contentType : Option String) :
    (UploadOp.initiate now w contentType).call db =
      .ok (.upload ⟨w.uploadId, w.bucket, w.key, ∅, now, contentType⟩,
        [.put w.dbKey (.upload ⟨w.uploadId, w.bucket, w.key, now, contentType⟩)]) := by
  simp only [UploadOp.call, initiateMultipartUpload, valid.checked, valid.uploadId, bind, Except.bind]
  rfl

theorem answer_of_call {op : UploadOp} {r : UploadAnswer × List (Write Value)}
    (call : op.call db = .ok r) : op.answer db = .ok r.1 ∧ op.after db = applyAll db r.2 := by
  simp [UploadOp.answer, UploadOp.after, call, Except.map]

theorem answer_of_error {op : UploadOp} {e : MetadataError} (call : op.call db = .error e) :
    op.answer db = .error e ∧ op.after db = db := by
  simp [UploadOp.answer, UploadOp.after, call, Except.map]

/-- What a record call finds. -/
theorem StoresUploads.isNone (rep : StoresUploads db m)
    (clear : m w = none → ∀ w', w' ≠ w → ¬ StoredUnder w' (m w') w.dbKey) :
    (db.get w.dbKey).isNone = (m w).isNone := by
  cases live : m w with
  | none =>
    rw [rep.absent live (clear live)]
    rfl
  | some u =>
    rw [(rep.recorded w u live).record]
    rfl

theorem StoresUploads.answers (rep : StoresUploads db m) {op : UploadOp} (valid : op.Valid)
    (clear : NoAlias ⟨db, m⟩ op) : op.Answers m (op.answer db) := by
  cases op with
  | initiate now w contentType => exact (answer_of_call (initiate_call valid now contentType)).1
  | recordPart w n etag size =>
    have call := recordPart_call db valid n etag size
    rw [rep.isNone clear.1] at call
    cases live : m w with
    | none =>
      simp only [live, Option.isNone_none, if_true] at call
      simp [UploadOp.Answers, live, (answer_of_error call).1]
    | some u =>
      simp only [live, Option.isNone_some, Bool.false_eq_true, if_false] at call
      simp [UploadOp.Answers, live, (answer_of_call call).1]
  | get w =>
    rw [UploadOp.Answers, ← rep.get valid clear]
    simp only [UploadOp.answer, UploadOp.call]
    cases getMultipartUpload db w.bucket w.key w.uploadId <;> rfl
  | complete w =>
    rw [UploadOp.Answers, ← rep.get valid clear]
    simp only [UploadOp.answer, complete_call db valid]
    cases getMultipartUpload db w.bucket w.key w.uploadId <;> rfl
  | abort w => exact (answer_of_call (abort_call valid)).1
  | list bucket =>
    have listed : m.Listed (fun w => w.bucket = bucket)
        ((listMultipartUploads db bucket).map UploadAnswer.uploads) := by
      refine rep.listed (fun w live => ?_) clear
      obtain ⟨u, live⟩ := Option.isSome_iff_exists.1 live
      exact dbKey_of_bucket (rep.recorded w u live).valid.bucket valid
    simp only [UploadOp.Answers, UploadOp.answer, UploadOp.call]
    cases call : listMultipartUploads db bucket with
    | error e => rwa [call] at listed
    | ok us => rwa [call] at listed
  | listAll =>
    have listed : m.Listed (fun _ => True)
        ((listAllMultipartUploads db).map UploadAnswer.uploads) := by
      refine rep.listed (fun w live => iff_of_true ?_ trivial) fun w _ => clear w
      exact multipartDbKey_startsWith w.bucket w.key w.uploadId
    simp only [UploadOp.Answers, UploadOp.answer, UploadOp.call]
    cases call : listAllMultipartUploads db with
    | error e => rwa [call] at listed
    | ok us => rwa [call] at listed

/-- **One operation.** The store stands for the map's next state. -/
theorem StoresUploads.step (rep : StoresUploads db m) {op : UploadOp} (valid : op.Valid)
    (fresh : op.Fresh m = true) (clear : NoAlias ⟨db, m⟩ op) :
    StoresUploads (op.after db) (op.on m) := by
  cases op with
  | initiate now w contentType =>
    rw [(answer_of_call (initiate_call valid now contentType)).2]
    exact rep.initiate valid (Option.isNone_iff_eq_none.1 fresh) clear.1 clear.2
  | recordPart w n etag size =>
    have call := recordPart_call db valid n etag size
    rw [rep.isNone clear.1] at call
    cases live : m w with
    | none =>
      simp only [live, Option.isNone_none, if_true] at call
      rw [(answer_of_error call).2, UploadOp.on, live, Option.map_none,
        ← live, Function.update_eq_self]
      exact rep
    | some u =>
      simp only [live, Option.isNone_some, Bool.false_eq_true, if_false] at call
      rw [(answer_of_call call).2, UploadOp.on, live]
      exact rep.recordPart live (clear.2 (Option.isSome_iff_exists.2 ⟨u, live⟩))
  | get w =>
    have same : (UploadOp.get w).after db = db := by
      simp only [UploadOp.after, UploadOp.call]
      cases getMultipartUpload db w.bucket w.key w.uploadId <;> rfl
    rw [same]
    exact rep
  | complete w =>
    have found := rep.get valid clear
    have call := complete_call db valid
    cases live : m w with
    | none =>
      rw [Uploads.find, live] at found
      cases get : getMultipartUpload db w.bucket w.key w.uploadId with
      | error e =>
        rw [get] at call
        rw [(answer_of_error call).2, UploadOp.on, ← live, Function.update_eq_self]
        exact rep
      | ok u =>
        rw [get] at found
        cases found
    | some u =>
      rw [Uploads.find, live] at found
      cases get : getMultipartUpload db w.bucket w.key w.uploadId with
      | error e =>
        rw [get] at found
        cases found
      | ok u' =>
        rw [get] at call
        rw [(answer_of_call call).2]
        exact rep.remove (rep.foreign live)
  | abort w =>
    rw [(answer_of_call (abort_call valid)).2]
    exact rep.remove clear
  | list bucket =>
    have same : (UploadOp.list bucket).after db = db := by
      simp only [UploadOp.after, UploadOp.call]
      cases listMultipartUploads db bucket <;> rfl
    rw [same]
    exact rep
  | listAll =>
    have same : UploadOp.listAll.after db = db := by
      simp only [UploadOp.after, UploadOp.call]
      cases listAllMultipartUploads db <;> rfl
    rw [same]
    exact rep

end

theorem StoresUploads.empty : StoresUploads Uploading.empty.db Uploading.empty.uploads where
  recorded w u live := by cases live
  owned x v stored := by
    rw [Uploading.empty, get_empty] at stored
    cases stored
  apart w w' x other live := by cases live

theorem Uploading.stored (ops : List UploadOp) {s : Uploading}
    (valid : ∀ op ∈ ops, op.Valid) (clear : Along Uploading.step NoAlias Uploading.empty ops)
    (ran : exec Uploading.step Uploading.empty ops = some s) : StoresUploads s.db s.uploads := by
  have accepted : Along Uploading.step (fun _ op => op.Valid) Uploading.empty ops :=
    along_of_mem (fun op member _ => valid op member) _
  refine exec_invariant (I := fun s => StoresUploads s.db s.uploads) ?_ StoresUploads.empty
    (along_and accepted clear) ran
  rintro s op s' rep ⟨valid, clear⟩ step
  unfold Uploading.step at step
  split at step
  · rename_i fresh
    cases step
    exact rep.step valid fresh clear
  · cases step

/-- **Refinement.** After every run whose operations keep clear of the keys of other uploads,
the answer of the next such operation is the map's. -/
theorem multipart_refines (ops : List UploadOp) {s : Uploading} (valid : ∀ op ∈ ops, op.Valid)
    (clear : Along Uploading.step NoAlias Uploading.empty ops)
    (ran : exec Uploading.step Uploading.empty ops = some s) (next : UploadOp) (accepted : next.Valid)
    (apart : NoAlias s next) : next.Answers s.uploads (next.answer s.db) :=
  (Uploading.stored ops valid clear ran).answers accepted apart

/-! ## Uploads that keep clear of each other -/

/-- Neither name goes on where the other ends and its parts begin. -/
def UploadName.Apart (w w' : UploadName) : Prop :=
  startsWith (w.dbKey ++ ":") (w'.dbKey ++ ":") = false ∧
    startsWith (w'.dbKey ++ ":") (w.dbKey ++ ":") = false

instance (w w' : UploadName) : Decidable (w.Apart w') := inferInstanceAs (Decidable (_ ∧ _))

theorem UploadName.Claims.startsWith {w : UploadName} {x : String} (claims : w.Claims x) :
    Text.startsWith (x ++ ":") (w.dbKey ++ ":") = true := by
  rcases claims with rfl | part
  · exact startsWith_iff_append.2 ⟨"", by simp⟩
  · obtain ⟨rest, rfl⟩ := startsWith_iff_append.1 part
    refine startsWith_iff_append.2 ⟨"part:" ++ rest ++ ":", ?_⟩
    rw [partsPrefix_eq, show ":part:" = ":" ++ "part:" by rfl]
    simp only [String.append_assoc]

theorem UploadName.Apart.not_claims {w w' : UploadName} (apart : w.Apart w') {x : String}
    (claims : w.Claims x) : ¬ w'.Claims x := by
  intro claims'
  have one : (w.dbKey ++ ":").toList <+: (x ++ ":").toList :=
    List.isPrefixOf_iff_prefix.1 claims.startsWith
  have other : (w'.dbKey ++ ":").toList <+: (x ++ ":").toList :=
    List.isPrefixOf_iff_prefix.1 claims'.startsWith
  rcases List.prefix_or_prefix_of_prefix one other with first | second
  · have starts : Text.startsWith (w'.dbKey ++ ":") (w.dbKey ++ ":") = true :=
      List.isPrefixOf_iff_prefix.2 first
    rw [apart.2] at starts
    cases starts
  · have starts : Text.startsWith (w.dbKey ++ ":") (w'.dbKey ++ ":") = true :=
      List.isPrefixOf_iff_prefix.2 second
    rw [apart.1] at starts
    cases starts

/-- An operation on one of the names, and no listing. -/
def UploadOp.On (names : List UploadName) : UploadOp → Prop
  | .initiate _ w _ => w ∈ names
  | .recordPart w _ _ _ => w ∈ names
  | .get w => w ∈ names
  | .complete w => w ∈ names
  | .abort w => w ∈ names
  | .list _ => False
  | .listAll => False

/-- The uploads have these names. -/
def Uploads.Within (m : Uploads) (names : List UploadName) : Prop := ∀ w, (m w).isSome = true → w ∈ names

theorem Uploads.Within.update {m : Uploads} {names : List UploadName} (within : m.Within names)
    {w : UploadName} (named : w ∈ names) (u : Option MultipartUpload) : Uploads.Within (Function.update m w u) names := by
  intro w' live
  by_cases same : w' = w
  · exact same ▸ named
  · rw [Function.update_of_ne same] at live
    exact within w' live

theorem Uploads.Within.on {m : Uploads} {names : List UploadName} (within : m.Within names) {op : UploadOp}
    (named : op.On names) : (op.on m).Within names := by
  cases op with
  | initiate now w contentType => exact within.update named _
  | recordPart w n etag size => exact within.update named _
  | complete w => exact within.update named _
  | abort w => exact within.update named _
  | get w => exact within
  | list bucket => exact named.elim
  | listAll => exact named.elim

/-- Uploads with names apart keep clear of each other, whatever is done to them. -/
theorem noAlias_of_apart {names : List UploadName}
    (apart : ∀ w ∈ names, ∀ w' ∈ names, w' ≠ w → w'.Apart w) {s : Uploading}
    (within : s.uploads.Within names) {op : UploadOp} (named : op.On names) : NoAlias s op := by
  have clear {w : UploadName} (member : w ∈ names) {w' : UploadName} (other : w' ≠ w)
      (live : (s.uploads w').isSome = true) {x : String} (claims : w'.Claims x) : ¬ w.Claims x :=
    (apart w member w' (within w' live) other).not_claims claims
  have stored {w : UploadName} (member : w ∈ names) {w' : UploadName} (other : w' ≠ w) {x : String}
      (there : StoredUnder w' (s.uploads w') x) : ¬ w.Claims x :=
    clear member other there.live there.claims
  cases op with
  | initiate now w contentType =>
    exact ⟨fun w' x other there => stored named other there,
      fun w' other live claims => clear named other live claims (.inl rfl)⟩
  | recordPart w n etag size =>
    exact ⟨fun _ w' other there => stored named other there (.inl rfl),
      fun _ w' other live claims => clear named other live claims (claims_partKey w n)⟩
  | get w => exact fun w' other there => stored named other there (.inl rfl)
  | complete w => exact fun w' other there => stored named other there (.inl rfl)
  | abort w => exact fun w' x other there => stored named other there
  | list bucket => exact named.elim
  | listAll => exact named.elim

theorem along_noAlias {names : List UploadName}
    (apart : ∀ w ∈ names, ∀ w' ∈ names, w' ≠ w → w'.Apart w) {ops : List UploadOp}
    (named : ∀ op ∈ ops, op.On names) {s : Uploading} (within : s.uploads.Within names) :
    Along Uploading.step NoAlias s ops ∧
      ∀ s', exec Uploading.step s ops = some s' → s'.uploads.Within names := by
  induction ops generalizing s with
  | nil =>
    refine ⟨trivial, fun s' ran => ?_⟩
    cases ran
    exact within
  | cons op ops ih =>
    have first := named op List.mem_cons_self
    have later {s' : Uploading} (step : s.step op = some s') : s'.uploads.Within names := by
      unfold Uploading.step at step
      split at step
      · cases step
        exact within.on first
      · cases step
    have rest : ∀ op ∈ ops, op.On names := fun op member => named op (List.mem_cons_of_mem _ member)
    refine ⟨⟨noAlias_of_apart apart within first, fun s' step => (ih rest (later step)).1⟩, fun s' ran => ?_⟩
    obtain ⟨mid, step, ran⟩ := exec_cons.1 ran
    exact (ih rest (later step)).2 s' ran

def sampleUpload : UploadName := ⟨"abc", "k", "u"⟩

/-- The key of its record begins with that of the other. -/
def longerUpload : UploadName := ⟨"abc", "k", "u2"⟩

theorem sampleUpload_valid : sampleUpload.Valid where
  bucket := by decide
  key := by decide
  uploadId := by decide

theorem longerUpload_valid : longerUpload.Valid where
  bucket := by decide
  key := by decide
  uploadId := by decide

def sampleUploading : List UploadOp :=
  [.initiate 7 sampleUpload none, .initiate 8 longerUpload none, .recordPart longerUpload 2 "f" 6,
    .recordPart sampleUpload 1 "e" 5]

theorem multipart_refines_sample :
    ∃ s, exec Uploading.step Uploading.empty sampleUploading = some s ∧
      (UploadOp.get sampleUpload).answer s.db =
        .ok (.upload ⟨"u", "abc", "k", Std.ExtTreeMap.insert ∅ 1 ⟨1, "e", 5⟩, 7, none⟩) := by
  have apart : ∀ w ∈ [sampleUpload, longerUpload], ∀ w' ∈ [sampleUpload, longerUpload],
      w' ≠ w → w'.Apart w := by
    decide
  have named : ∀ op ∈ sampleUploading, op.On [sampleUpload, longerUpload] := by
    simp [sampleUploading, UploadOp.On]
  have none : Uploading.empty.uploads.Within [sampleUpload, longerUpload] := by
    intro w live
    cases live
  obtain ⟨clear, within⟩ := along_noAlias apart named none
  have last : (UploadOp.get sampleUpload).On [sampleUpload, longerUpload] := List.mem_cons_self
  refine ⟨_, rfl, (multipart_refines sampleUploading ?_ clear rfl (.get sampleUpload)
    sampleUpload_valid (noAlias_of_apart apart (within _ rfl) last)).trans rfl⟩
  simp only [sampleUploading, List.mem_cons, List.not_mem_nil, or_false]
  rintro op (rfl | rfl | rfl | rfl)
  · exact sampleUpload_valid
  · exact longerUpload_valid
  · exact longerUpload_valid
  · exact sampleUpload_valid

/-- An object key may contain the text that listings tell parts by. -/
def hiddenUpload : UploadName := ⟨"abc", "a:part:b", "u"⟩

theorem listing_hides_upload :
    ∃ s, exec Uploading.step Uploading.empty [.initiate 7 hiddenUpload none] = some s ∧
      hiddenUpload.Valid ∧ ¬ UploadOp.listAll.Answers s.uploads (UploadOp.listAll.answer s.db) := by
  refine ⟨_, rfl, ⟨by decide, by decide, by decide⟩, ?_⟩
  rintro ⟨us, listed, -, all⟩
  cases listed
  have member := (all _).2 ⟨hiddenUpload, trivial, rfl⟩
  cases member

end Save.Metadata
