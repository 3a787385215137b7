import Save.Metadata.Locks
import Save.Metadata.Uploads

/-!
# Buckets and objects as two maps

Buckets, objects, locks and uploads (`bucket.rs`, `object.rs`, `lock.rs`,
`multipart.rs`) share one key space. `catalog_refines`: after any operations on
valid names, the reads of buckets and objects are those of two maps. An object is
read as it was last written, a listing has the live objects of its bucket under its
prefix and no others, and both listings are in byte order.

`Catalog.StoredIn` relates a store to the two maps: a bucket or an object of theirs
is under its key, and no other key with the prefix of objects is taken. A command
changes one key, so the reads follow from the invariant and from the prefixes, of
which none is the start of another.
-/

namespace Save.Metadata
set_option autoImplicit false
open Save.Text Save.Kv Save.Common

inductive CatalogOp where
  | createBucket (now : DateTime) (name : String)
  | deleteBucket (name : String)
  | putObject (metadata : ObjectMetadata)
  | commitObject (metadata : ObjectMetadata)
  | deleteObject (bucket key : String)
  | lock (op : LockOp)
  | upload (op : UploadOp)

def LockOp.call (db : Store Value) : LockOp → Result (List (Write Value))
  | .acquire bucket key lockType holder => (acquireLock db bucket key lockType holder).map Prod.snd
  | .release bucket key holder => releaseLock db bucket key holder

def CatalogOp.call (db : Store Value) : CatalogOp → Result (List (Write Value))
  | .createBucket now name => (Metadata.createBucket now db name).map Prod.snd
  | .deleteBucket name => Metadata.deleteBucket name
  | .putObject metadata => putObjectMetadata metadata
  | .commitObject metadata => commitObjectMetadata metadata
  | .deleteObject bucket key => deleteObjectMetadata bucket key
  | .lock op => op.call db
  | .upload op => (op.call db).map Prod.snd

/-- A call that fails has written nothing. -/
def CatalogOp.after (db : Store Value) (op : CatalogOp) : Store Value :=
  match op.call db with
  | .ok ws => applyAll db ws
  | .error _ => db

/-- The names of buckets and objects are accepted. Those of locks and uploads may be any. -/
def CatalogOp.Valid : CatalogOp → Prop
  | .createBucket _ name => ValidBucket name
  | .deleteBucket name => ValidBucket name
  | .putObject metadata => ValidBucket metadata.bucket ∧ ValidKey metadata.key
  | .commitObject metadata => ValidBucket metadata.bucket ∧ ValidKey metadata.key
  | .deleteObject bucket key => ValidBucket bucket ∧ ValidKey key
  | .lock _ => True
  | .upload _ => True

/-! ## The maps -/

structure Catalog where
  buckets : String → Option Bucket
  objects : String × String → Option ObjectMetadata

def Catalog.empty : Catalog := ⟨fun _ => none, fun _ => none⟩

def CatalogOp.on (c : Catalog) : CatalogOp → Catalog
  | .createBucket now name =>
    if (c.buckets name).isSome then c
    else { c with buckets := Function.update c.buckets name (some ⟨name, now⟩) }
  | .deleteBucket name => { c with buckets := Function.update c.buckets name none }
  | .putObject o => { c with objects := Function.update c.objects (o.bucket, o.key) (some o) }
  | .commitObject o => { c with objects := Function.update c.objects (o.bucket, o.key) (some o) }
  | .deleteObject bucket key => { c with objects := Function.update c.objects (bucket, key) none }
  | .lock _ => c
  | .upload _ => c

/-- The reads of the store are those of the maps. -/
structure Catalog.ReadFrom (c : Catalog) (db : Store Value) : Prop where
  get : ∀ bucket key, ValidBucket bucket → ValidKey key →
    getObjectMetadata db bucket key =
      match c.objects (bucket, key) with
      | some o => .ok o
      | none => .error (.objectNotFound bucket key)
  objects : ∀ bucket keyPrefix, ValidBucket bucket → ∃ os, listObjects db bucket keyPrefix = .ok os ∧
    os.Pairwise (fun o o' => o.key < o'.key) ∧
    ∀ o, o ∈ os ↔ c.objects (bucket, o.key) = some o ∧ startsWith o.key (keyPrefix.getD "") = true
  buckets : ∃ bs, listBuckets db = .ok bs ∧ bs.Pairwise (fun b b' => b.name < b'.name) ∧
    ∀ b, b ∈ bs ↔ c.buckets b.name = some b

/-! ## The invariant -/

structure Catalog.StoredIn (c : Catalog) (db : Store Value) : Prop where
  bucket : ∀ name, db.get (bucketKey name) = (c.buckets name).map .bucket
  named : ∀ name b, c.buckets name = some b → b.name = name
  object : ∀ bucket key o, c.objects (bucket, key) = some o → o.bucket = bucket ∧ o.key = key ∧
    ValidBucket bucket ∧ db.get (objectDbKey bucket key) = some (.object o)
  owned : ∀ x v, db.get x = some v → startsWith x objectPrefix = true →
    ∃ bucket key o, c.objects (bucket, key) = some o ∧ x = objectDbKey bucket key

section

variable {c : Catalog} {db db' : Store Value}

theorem Catalog.StoredIn.get_object (stored : c.StoredIn db) {bucket key : String}
    (valid : ValidBucket bucket) :
    db.get (objectDbKey bucket key) = (c.objects (bucket, key)).map .object := by
  cases live : c.objects (bucket, key) with
  | some o => exact (stored.object bucket key o live).2.2.2
  | none =>
    cases there : db.get (objectDbKey bucket key) with
    | none => rfl
    | some v =>
      obtain ⟨bucket', key', o, live', same⟩ :=
        stored.owned _ v there (objectDbKey_startsWith bucket key)
      obtain ⟨rfl, rfl⟩ := objectDbKey_inj valid (stored.object _ _ o live').2.2.1 same
      rw [live] at live'
      cases live'

/-- Only the keys of buckets and objects count. -/
theorem Catalog.StoredIn.frame (stored : c.StoredIn db)
    (buckets : ∀ x, startsWith x bucketPrefix = true → db'.get x = db.get x)
    (objects : ∀ x, startsWith x objectPrefix = true → db'.get x = db.get x) : c.StoredIn db' where
  bucket name := (buckets _ (bucketKey_startsWith name)).trans (stored.bucket name)
  named := stored.named
  object bucket key o live := by
    rw [objects _ (objectDbKey_startsWith bucket key)]
    exact stored.object bucket key o live
  owned x v there start := by
    rw [objects x start] at there
    exact stored.owned x v there start

/-! ## Reads -/

/-- What an object is stored as. -/
def objectEntry (o : ObjectMetadata) : String × Value := (objectDbKey o.bucket o.key, .object o)

/-- What a bucket is stored as. -/
def bucketEntry (b : Bucket) : String × Value := (bucketKey b.name, .bucket b)

theorem objectEntry_injective : Function.Injective objectEntry := by
  intro o o' same
  cases (Prod.mk.inj same).2
  rfl

theorem bucketEntry_injective : Function.Injective bucketEntry := by
  intro b b' same
  cases (Prod.mk.inj same).2
  rfl

theorem decodeObjects_ok {es : List (String × Value)} (each : ∀ e ∈ es, ∃ o, e = objectEntry o) :
    ∃ os, decodeObjects es = .ok os ∧ es = os.map objectEntry := by
  induction es with
  | nil => exact ⟨[], rfl, rfl⟩
  | cons e es ih =>
    obtain ⟨os, rest, rfl⟩ := ih fun e member => each e (List.mem_cons_of_mem _ member)
    obtain ⟨o, rfl⟩ := each _ List.mem_cons_self
    exact ⟨o :: os, by rw [objectEntry, decodeObjects, rest]; rfl, rfl⟩

theorem decodeBuckets_ok {es : List (String × Value)} (each : ∀ e ∈ es, ∃ b, e = bucketEntry b) :
    ∃ bs, decodeBuckets es = .ok bs ∧ es = bs.map bucketEntry := by
  induction es with
  | nil => exact ⟨[], rfl, rfl⟩
  | cons e es ih =>
    obtain ⟨bs, rest, rfl⟩ := ih fun e member => each e (List.mem_cons_of_mem _ member)
    obtain ⟨b, rfl⟩ := each _ List.mem_cons_self
    exact ⟨b :: bs, by rw [bucketEntry, decodeBuckets, rest]; rfl, rfl⟩

/-- The keys of a bucket's objects under a prefix are told by their start. -/
theorem objectDbKey_under {bucket bucket' key p : String} (valid : ValidBucket bucket)
    (valid' : ValidBucket bucket') :
    startsWith (objectDbKey bucket' key) (objectDbKey bucket p) = true ↔
      bucket' = bucket ∧ startsWith key p = true := by
  constructor
  · intro start
    obtain ⟨rest, same⟩ := startsWith_iff_append.1 start
    have joined : objectDbKey bucket' key = objectDbKey bucket (p ++ rest) := by
      rw [same]
      simp only [objectDbKey, String.append_assoc]
    obtain ⟨rfl, rfl⟩ := objectDbKey_inj valid' valid joined
    exact ⟨rfl, startsWith_append p rest⟩
  · rintro ⟨rfl, start⟩
    obtain ⟨rest, rfl⟩ := startsWith_iff_append.1 start
    refine startsWith_iff_append.2 ⟨rest, ?_⟩
    simp only [objectDbKey, String.append_assoc]

theorem listObjects_eq (db : Store Value) (bucket : String) (keyPrefix : Option String) :
    listObjects db bucket keyPrefix =
      decodeObjects (scan db (objectDbKey bucket (keyPrefix.getD ""))) := by
  cases keyPrefix with
  | none => simp [listObjects, objectDbKey]
  | some p => rfl

theorem Catalog.StoredIn.listObjects (stored : c.StoredIn db) {bucket : String}
    (valid : ValidBucket bucket) (p : String) :
    ∃ os, decodeObjects (scan db (objectDbKey bucket p)) = .ok os ∧
      os.Pairwise (fun o o' => o.key < o'.key) ∧
      ∀ o, o ∈ os ↔ c.objects (bucket, o.key) = some o ∧ startsWith o.key p = true := by
  -- what the scan meets is a live object of the bucket
  have hits : ∀ x v, (x, v) ∈ scan db (objectDbKey bucket p) ↔ ∃ o, x = objectDbKey bucket o.key ∧
      v = .object o ∧ c.objects (bucket, o.key) = some o ∧ startsWith o.key p = true := by
    intro x v
    rw [mem_scan]
    constructor
    · rintro ⟨there, start⟩
      have inside := startsWith_of_startsWith start (objectDbKey_startsWith bucket p)
      obtain ⟨bucket', key, o, live, rfl⟩ := stored.owned x v there inside
      obtain ⟨-, rfl, valid', record⟩ := stored.object _ _ o live
      obtain ⟨rfl, hit⟩ := (objectDbKey_under valid valid').1 start
      rw [record] at there
      cases there
      exact ⟨o, rfl, rfl, live, hit⟩
    · rintro ⟨o, rfl, rfl, live, start⟩
      exact ⟨(stored.object _ _ o live).2.2.2, (objectDbKey_under valid valid).2 ⟨rfl, start⟩⟩
  obtain ⟨os, decoded, same⟩ : ∃ os, decodeObjects (scan db (objectDbKey bucket p)) = .ok os ∧
      scan db (objectDbKey bucket p) = os.map objectEntry := by
    refine decodeObjects_ok ?_
    rintro ⟨x, v⟩ member
    obtain ⟨o, rfl, rfl, live, -⟩ := (hits x v).1 member
    obtain ⟨rfl, -⟩ := stored.object _ _ o live
    exact ⟨o, rfl⟩
  have listed : ∀ o, o ∈ os ↔ c.objects (bucket, o.key) = some o ∧ startsWith o.key p = true := by
    intro o
    rw [← List.mem_map_of_injective objectEntry_injective, ← same, objectEntry, hits]
    constructor
    · rintro ⟨o', -, equal, live⟩
      cases equal
      exact live
    · intro live
      obtain ⟨rfl, -⟩ := stored.object _ _ o live.1
      exact ⟨o, rfl, rfl, live⟩
  refine ⟨os, decoded, ?_, listed⟩
  have order := pairwise_scan db (objectDbKey bucket p)
  rw [same, List.pairwise_map] at order
  refine order.imp_of_mem fun {o o'} member member' less => ?_
  have mine := (stored.object _ _ o ((listed o).1 member).1).1
  have mine' := (stored.object _ _ o' ((listed o').1 member').1).1
  simp only [objectEntry, mine, mine'] at less
  exact lt_of_append_lt less

theorem Catalog.StoredIn.listBuckets (stored : c.StoredIn db) :
    ∃ bs, Metadata.listBuckets db = .ok bs ∧ bs.Pairwise (fun b b' => b.name < b'.name) ∧
      ∀ b, b ∈ bs ↔ c.buckets b.name = some b := by
  have hits : ∀ x v, (x, v) ∈ scan db "bkt:" ↔ ∃ b, x = bucketKey b.name ∧ v = .bucket b ∧
      c.buckets b.name = some b := by
    intro x v
    rw [mem_scan]
    constructor
    · rintro ⟨there, start⟩
      obtain ⟨name, rfl⟩ := startsWith_iff_append.1 start
      have record := stored.bucket name
      rw [show db.get (bucketKey name) = some v from there] at record
      obtain ⟨b, live, rfl⟩ := Option.map_eq_some_iff.1 record.symm
      obtain rfl := stored.named name b live
      exact ⟨b, rfl, rfl, live⟩
    · rintro ⟨b, rfl, rfl, live⟩
      refine ⟨?_, bucketKey_startsWith b.name⟩
      rw [stored.bucket, live]
      rfl
  obtain ⟨bs, decoded, same⟩ : ∃ bs, decodeBuckets (scan db "bkt:") = .ok bs ∧
      scan db "bkt:" = bs.map bucketEntry := by
    refine decodeBuckets_ok ?_
    rintro ⟨x, v⟩ member
    obtain ⟨b, rfl, rfl, -⟩ := (hits x v).1 member
    exact ⟨b, rfl⟩
  refine ⟨bs, decoded, ?_, fun b => ?_⟩
  · have order := pairwise_scan db "bkt:"
    rw [same, List.pairwise_map] at order
    exact order.imp fun less => lt_of_append_lt less
  · rw [← List.mem_map_of_injective bucketEntry_injective, ← same, bucketEntry, hits]
    constructor
    · rintro ⟨b', -, equal, live⟩
      cases equal
      exact live
    · intro live
      exact ⟨b, rfl, rfl, live⟩

theorem Catalog.StoredIn.readFrom (stored : c.StoredIn db) : c.ReadFrom db where
  get bucket key valid valid' := by
    unfold getObjectMetadata
    rw [checkObjectKey_ok.2 valid']
    simp only [bind, Except.bind, stored.get_object valid]
    cases c.objects (bucket, key) <;> rfl
  objects bucket keyPrefix valid := by
    rw [listObjects_eq]
    exact stored.listObjects valid _
  buckets := stored.listBuckets

/-! ## Writes -/

theorem after_of_call {op : CatalogOp} {ws : List (Write Value)} (call : op.call db = .ok ws) :
    op.after db = applyAll db ws := by
  rw [CatalogOp.after, call]

theorem Catalog.StoredIn.setBucket (stored : c.StoredIn db) {name : String} {b : Option Bucket}
    (own : ∀ b', b = some b' → b'.name = name)
    (sets : ∀ x, db'.get x = if bucketKey name = x then b.map .bucket else db.get x) :
    Catalog.StoredIn { c with buckets := Function.update c.buckets name b } db' where
  bucket name' := by
    rw [sets]
    by_cases same : name' = name
    · subst same
      rw [if_pos rfl]
      simp only [Function.update_self]
    · rw [if_neg fun key => same (bucketKey_inj.1 key).symm]
      simp only [Function.update_of_ne same]
      exact stored.bucket name'
  named name' b' live := by
    by_cases same : name' = name
    · subst same
      simp only [Function.update_self] at live
      exact own b' live
    · simp only [Function.update_of_ne same] at live
      exact stored.named name' b' live
  object bucket key o live := by
    rw [sets, if_neg (bucketKey_ne_objectDbKey name bucket key)]
    exact stored.object bucket key o live
  owned x v there start := by
    rw [sets] at there
    split at there
    · rename_i same
      have other : bucketKey name ≠ x :=
        ne_of_startsWith (by decide) (by decide) (bucketKey_startsWith name) start
      exact absurd same other
    · exact stored.owned x v there start

theorem Catalog.StoredIn.setObject (stored : c.StoredIn db) {bucket key : String}
    {o : Option ObjectMetadata} (valid : ValidBucket bucket)
    (own : ∀ o', o = some o' → o'.bucket = bucket ∧ o'.key = key)
    (sets : ∀ x, db'.get x = if objectDbKey bucket key = x then o.map .object else db.get x) :
    Catalog.StoredIn { c with objects := Function.update c.objects (bucket, key) o } db' where
  bucket name := by
    rw [sets, if_neg (bucketKey_ne_objectDbKey name bucket key).symm]
    exact stored.bucket name
  named := stored.named
  object bucket' key' o' live := by
    by_cases same : (bucket', key') = (bucket, key)
    · cases same
      simp only [Function.update_self] at live
      subst live
      obtain ⟨rfl, rfl⟩ := own o' rfl
      refine ⟨rfl, rfl, valid, ?_⟩
      rw [sets, if_pos rfl]
      rfl
    · simp only [Function.update_of_ne same] at live
      obtain ⟨rfl, rfl, valid', record⟩ := stored.object bucket' key' o' live
      refine ⟨rfl, rfl, valid', ?_⟩
      rw [sets, if_neg ?_]
      · exact record
      · intro key
        obtain ⟨rfl, rfl⟩ := objectDbKey_inj valid valid' key
        exact same rfl
  owned x v there start := by
    rw [sets] at there
    split at there
    · rename_i same
      obtain ⟨o', rfl, -⟩ := Option.map_eq_some_iff.1 there
      refine ⟨bucket, key, o', ?_, same.symm⟩
      simp only [Function.update_self]
    · rename_i other
      obtain ⟨bucket', key', o', live, rfl⟩ := stored.owned x v there start
      refine ⟨bucket', key', o', ?_, rfl⟩
      have differ : (bucket', key') ≠ (bucket, key) := by
        rintro ⟨⟩
        exact other rfl
      simp only [Function.update_of_ne differ]
      exact live

/-- Locks have keys of their own. -/
theorem Catalog.StoredIn.lock (stored : c.StoredIn db) {op : LockOp} {ws : List (Write Value)}
    (call : op.call db = .ok ws) : c.StoredIn (applyAll db ws) := by
  have applied : applyCommand 0 db op.command = .ok ws := by
    cases op with
    | acquire bucket key lockType holder =>
      have call : (acquireLock db bucket key lockType holder).map Prod.snd = .ok ws := call
      simp [LockOp.command, applyCommand, call, Except.mapError]
    | release bucket key holder =>
      have call : releaseLock db bucket key holder = .ok ws := call
      simp [LockOp.command, applyCommand, call, Except.mapError]
  obtain ⟨v, -, sets⟩ := applyCommand_sets applied
  have own : startsWith op.command.cell lockPrefix = true := by
    cases op with
    | acquire bucket key lockType holder => exact lockKey_startsWith bucket key
    | release bucket key holder => exact lockKey_startsWith bucket key
  refine stored.frame (fun x start => ?_) fun x start => ?_
  · rw [sets.2, if_neg (ne_of_startsWith (by decide) (by decide) own start)]
  · rw [sets.2, if_neg (ne_of_startsWith (by decide) (by decide) own start)]

/-- So have uploads. -/
theorem UploadOp.call_local {op : UploadOp} {r : UploadAnswer × List (Write Value)}
    (call : op.call db = .ok r) : Local r.2 := by
  have nothing : Local [] := by
    intro write member
    cases member
  cases op with
  | initiate now w contentType =>
    obtain ⟨⟨u, ws⟩, call', done⟩ := bind_ok call
    obtain ⟨-, -, call'⟩ := bind_ok call'
    obtain ⟨-, -, call'⟩ := bind_ok call'
    cases call'
    cases done
    exact local_put _ (multipartDbKey_startsWith w.bucket w.key w.uploadId)
  | recordPart w n etag size =>
    obtain ⟨ws, call', done⟩ := bind_ok call
    obtain ⟨-, -, call'⟩ := bind_ok call'
    obtain ⟨-, -, call'⟩ := bind_ok call'
    split at call'
    · cases call'
    · cases call'
      cases done
      refine local_put _ ?_
      exact startsWith_of_startsWith (startsWith_append w.partsPrefix (toString n))
        (partKeyPrefix_startsWith w.bucket w.key w.uploadId)
  | get w =>
    obtain ⟨u, -, done⟩ := bind_ok call
    cases done
    exact nothing
  | complete w =>
    obtain ⟨⟨u, ws⟩, call', done⟩ := bind_ok call
    obtain ⟨-, -, call'⟩ := bind_ok call'
    obtain ⟨-, -, call'⟩ := bind_ok call'
    obtain ⟨u', -, call'⟩ := bind_ok call'
    cases call'
    cases done
    exact local_deletes db w.bucket w.key w.uploadId
  | abort w =>
    obtain ⟨ws, call', done⟩ := bind_ok call
    cases done
    exact abortMultipartUpload_local call'
  | list bucket =>
    obtain ⟨us, -, done⟩ := bind_ok call
    cases done
    exact nothing
  | listAll =>
    obtain ⟨us, -, done⟩ := bind_ok call
    cases done
    exact nothing

theorem Catalog.StoredIn.local (stored : c.StoredIn db) {ws : List (Write Value)} (own : Local ws) :
    c.StoredIn (applyAll db ws) := by
  refine stored.frame (fun x start => ?_) fun x start => ?_
  · refine get_applyAll_of_ne fun w member => ?_
    exact ne_of_startsWith (by decide) (by decide) (own w member) start
  · refine get_applyAll_of_ne fun w member => ?_
    exact ne_of_startsWith (by decide) (by decide) (own w member) start

/-- **One operation.** -/
theorem Catalog.StoredIn.step (stored : c.StoredIn db) {op : CatalogOp} (valid : op.Valid) :
    (op.on c).StoredIn (op.after db) := by
  cases op with
  | createBucket now name =>
    have there : (db.get (bucketKey name)).isSome = (c.buckets name).isSome := by
      rw [stored.bucket, Option.isSome_map]
    simp only [CatalogOp.after, CatalogOp.call, Metadata.createBucket, checkBucketName_ok.2 valid, bind,
      Except.bind, there, CatalogOp.on]
    by_cases exists' : (c.buckets name).isSome = true
    · rw [if_pos exists', if_pos exists']
      exact stored
    · rw [if_neg exists', if_neg exists']
      exact stored.setBucket (fun b same => by cases same; rfl) fun x => get_put db _ x _
  | deleteBucket name =>
    have call : (CatalogOp.deleteBucket name).call db = .ok [.delete (bucketKey name)] := by
      simp only [CatalogOp.call, Metadata.deleteBucket, checkBucketName_ok.2 valid]
      rfl
    rw [after_of_call call]
    exact stored.setBucket (fun b never => by cases never) fun x => get_delete db _ x
  | putObject o =>
    have call : (CatalogOp.putObject o).call db =
        .ok [.put (objectDbKey o.bucket o.key) (.object o)] := by
      simp only [CatalogOp.call, putObjectMetadata, prepareMetadataWrite, checkObjectKey_ok.2 valid.2]
      rfl
    rw [after_of_call call]
    exact stored.setObject valid.1 (fun o' same => by cases same; exact ⟨rfl, rfl⟩)
      fun x => get_put db _ x _
  | commitObject o =>
    have call : (CatalogOp.commitObject o).call db =
        .ok [.put (objectDbKey o.bucket o.key) (.object o)] := by
      simp only [CatalogOp.call, commitObjectMetadata, prepareMetadataWrite,
        checkObjectKey_ok.2 valid.2]
      rfl
    rw [after_of_call call]
    exact stored.setObject valid.1 (fun o' same => by cases same; exact ⟨rfl, rfl⟩)
      fun x => get_put db _ x _
  | deleteObject bucket key =>
    have call : (CatalogOp.deleteObject bucket key).call db =
        .ok [.delete (objectDbKey bucket key)] := by
      simp only [CatalogOp.call, deleteObjectMetadata, checkObjectKey_ok.2 valid.2]
      rfl
    rw [after_of_call call]
    exact stored.setObject valid.1 (fun o never => by cases never) fun x => get_delete db _ x
  | lock op =>
    simp only [CatalogOp.after, CatalogOp.call]
    cases call : op.call db with
    | error e => exact stored
    | ok ws => exact stored.lock call
  | upload op =>
    simp only [CatalogOp.after, CatalogOp.call]
    cases call : op.call db with
    | error e => exact stored
    | ok r => exact stored.local (UploadOp.call_local call)

end

theorem Catalog.StoredIn.empty : Catalog.empty.StoredIn Store.empty where
  bucket name := get_empty _
  named name b live := by cases live
  object bucket key o live := by cases live
  owned x v there := by
    rw [get_empty] at there
    cases there

/-- **A whole run.** -/
theorem Catalog.StoredIn.run {ops : List CatalogOp} (valid : ∀ op ∈ ops, op.Valid) {c : Catalog}
    {db : Store Value} (stored : c.StoredIn db) :
    (ops.foldl CatalogOp.on c).StoredIn (ops.foldl CatalogOp.after db) := by
  induction ops generalizing c db with
  | nil => exact stored
  | cons op ops ih =>
    exact ih (fun op member => valid op (List.mem_cons_of_mem _ member))
      (stored.step (valid op List.mem_cons_self))

/-- **Refinement.** After any operations on valid names the reads are those of the maps. -/
theorem catalog_refines (ops : List CatalogOp) (valid : ∀ op ∈ ops, op.Valid) :
    (ops.foldl CatalogOp.on Catalog.empty).ReadFrom (ops.foldl CatalogOp.after Store.empty) :=
  (Catalog.StoredIn.empty.run valid).readFrom

def sampleObject : ObjectMetadata := ⟨"abc", "k", 1, "e", none, 0, 0, []⟩

def sampleCatalog : List CatalogOp :=
  [.createBucket 1 "abc", .putObject { sampleObject with size := 2 },
    .upload (.initiate 2 ⟨"abc", "k", "u"⟩ none), .commitObject sampleObject]

theorem sampleCatalog_valid : ∀ op ∈ sampleCatalog, op.Valid := by
  simp only [sampleCatalog, List.mem_cons, List.not_mem_nil, or_false]
  rintro op (rfl | rfl | rfl | rfl)
  · show ValidBucket "abc"
    decide
  · show ValidBucket "abc" ∧ ValidKey "k"
    decide
  · trivial
  · show ValidBucket "abc" ∧ ValidKey "k"
    decide

theorem catalog_refines_sample :
    getObjectMetadata (sampleCatalog.foldl CatalogOp.after Store.empty) "abc" "k" =
      .ok sampleObject :=
  ((catalog_refines sampleCatalog sampleCatalog_valid).get "abc" "k" (by decide) (by decide)).trans rfl

end Save.Metadata
