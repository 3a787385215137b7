import Save.Common.Validation
import Save.Lib.Kv

/-!
# Metadata records and their keys

The values of the default column family and the keys they are stored under. The
source stores each record in its bincode encoding; here a stored value is the record
itself, tagged with its type (`bucket.rs`, `object.rs`, `lock.rs`, `multipart.rs`).
bincode writes no tags, so that bytes of one type may decode as another; that such a
read is an error is a choice of this model. All metadata of a node, replicated or
local, lives in one store and is told apart by the start of its key only.
-/

namespace Save.Metadata
set_option autoImplicit false
open Save.Text Save.Kv Save.Common

/-- `DateTime<Utc>`, in nanoseconds from the epoch. -/
abbrev DateTime := Int

abbrev NodeId := Nat

structure Bucket where
  name : String
  createdAt : DateTime
  deriving DecidableEq, Repr

/-- `Bucket::new`, with the reading of `Utc::now()` it makes. -/
def Bucket.new (now : DateTime) (name : String) : Bucket := ⟨name, now⟩

structure ObjectMetadata where
  bucket : String
  key : String
  size : Nat
  etag : String
  contentType : Option String
  createdAt : DateTime
  modifiedAt : DateTime
  replicaNodes : List NodeId
  deriving DecidableEq, Repr

inductive LockType where
  | read
  | write
  deriving DecidableEq, Repr

structure LockHolder where
  nodeId : NodeId
  lockId : Nat
  deriving DecidableEq, Repr

structure LockState where
  lockType : LockType
  holders : List LockHolder
  deriving DecidableEq, Repr

structure MultipartPart where
  partNumber : Nat
  etag : String
  size : Nat
  deriving DecidableEq, Repr

/-- The stored part of a `MultipartUpload`; its parts have records of their own. -/
structure MultipartMetadata where
  uploadId : String
  bucket : String
  key : String
  initiatedAt : DateTime
  contentType : Option String
  deriving DecidableEq, Repr

/-- A stored record. -/
inductive Value where
  | bucket (b : Bucket)
  | object (m : ObjectMetadata)
  | lock (s : LockState)
  | upload (u : MultipartMetadata)
  | part (p : MultipartPart)
  deriving DecidableEq, Repr

/-! ## Keys -/

def bucketPrefix : String := "bkt:"

def objectPrefix : String := "obj:"

def multipartPrefix : String := "mpu:"

/-- `DATA_PREFIXES`. -/
def dataPrefixes : List String := [bucketPrefix, objectPrefix, multipartPrefix]

/-- The start of every `lock_key`. -/
def lockPrefix : String := "lock:"

def bucketKey (name : String) : String := "bkt:" ++ name

/-- `ObjectMetadata::db_key`. -/
def objectDbKey (bucket key : String) : String := "obj:" ++ bucket ++ "/" ++ key

def lockKey (bucket key : String) : String := "lock:" ++ bucket ++ "/" ++ key

theorem bucketKey_startsWith (name : String) : startsWith (bucketKey name) bucketPrefix = true :=
  startsWith_append _ _

theorem objectDbKey_startsWith (bucket key : String) :
    startsWith (objectDbKey bucket key) objectPrefix = true := by
  simp only [objectDbKey, String.append_assoc]
  exact startsWith_append _ _

theorem lockKey_startsWith (bucket key : String) :
    startsWith (lockKey bucket key) lockPrefix = true := by
  simp only [lockKey, String.append_assoc]
  exact startsWith_append _ _

theorem bucketKey_inj {a b : String} : bucketKey a = bucketKey b ↔ a = b :=
  ⟨append_right_inj, fun same => same ▸ rfl⟩

/-- Keys of two namespaces never meet. -/
theorem ne_of_startsWith {p q a b : String} (apart : startsWith p q = false)
    (apart' : startsWith q p = false) (first : startsWith a p = true)
    (second : startsWith b q = true) : a ≠ b := by
  obtain ⟨s, rfl⟩ := startsWith_iff_append.1 first
  obtain ⟨t, rfl⟩ := startsWith_iff_append.1 second
  exact append_ne_append apart apart' s t

theorem bucketKey_ne_objectDbKey (n b k : String) : bucketKey n ≠ objectDbKey b k :=
  ne_of_startsWith (by decide) (by decide) (bucketKey_startsWith n) (objectDbKey_startsWith b k)

theorem bucketKey_ne_lockKey (n b k : String) : bucketKey n ≠ lockKey b k :=
  ne_of_startsWith (by decide) (by decide) (bucketKey_startsWith n) (lockKey_startsWith b k)

theorem objectDbKey_ne_lockKey (b k b' k' : String) : objectDbKey b k ≠ lockKey b' k' :=
  ne_of_startsWith (by decide) (by decide) (objectDbKey_startsWith b k) (lockKey_startsWith b' k')

/-- Object keys of valid buckets determine bucket and key. -/
theorem objectDbKey_inj {b b' k k' : String} (valid : ValidBucket b) (valid' : ValidBucket b')
    (same : objectDbKey b k = objectDbKey b' k') : b = b' ∧ k = k' := by
  simp only [objectDbKey, String.append_assoc] at same
  have rest := append_right_inj same
  simp only [← String.append_assoc] at rest
  exact sep_inj valid.no_slash valid'.no_slash rest

/-! ## Errors -/

/-- The `MetadataError` variants the record functions return. The text bincode gives
a failed decoding is not kept. -/
inductive MetadataError where
  | decode
  | bucketNotFound (name : String)
  | bucketAlreadyExists (name : String)
  | objectNotFound (bucket key : String)
  | multipartUploadNotFound (uploadId : String)
  | invalidOperation (msg : String)
  deriving DecidableEq, Repr

def MetadataError.toString : MetadataError → String
  | .decode => "Serialization decode error"
  | .bucketNotFound name => "Bucket not found: " ++ name
  | .bucketAlreadyExists name => "Bucket already exists: " ++ name
  | .objectNotFound bucket key => "Object not found: " ++ bucket ++ "/" ++ key
  | .multipartUploadNotFound uploadId => "Multipart upload not found: " ++ uploadId
  | .invalidOperation msg => "Invalid operation: " ++ msg

abbrev Result (α : Type) := Except MetadataError α

/-- `validate_bucket_name(..).map_err(InvalidOperation)`. -/
def checkBucketName (name : String) : Result Unit :=
  (validateBucketName name).mapError fun e => .invalidOperation e.toString

/-- `validate_object_key(..).map_err(InvalidOperation)`. -/
def checkObjectKey (key : String) : Result Unit :=
  (validateObjectKey key).mapError fun e => .invalidOperation e.toString

theorem mapError_eq_ok {ε ε' α : Type} {f : ε → ε'} {x : Except ε α} {a : α} :
    x.mapError f = .ok a ↔ x = .ok a := by
  cases x <;> simp [Except.mapError]

theorem bind_ok {ε α β : Type} {x : Except ε α} {f : α → Except ε β} {b : β}
    (call : (x >>= f) = .ok b) : ∃ a, x = .ok a ∧ f a = .ok b := by
  cases x with
  | error e => cases call
  | ok a => exact ⟨a, rfl, call⟩

theorem checkBucketName_ok {name : String} : checkBucketName name = .ok () ↔ ValidBucket name :=
  mapError_eq_ok

theorem checkObjectKey_ok {key : String} : checkObjectKey key = .ok () ↔ ValidKey key :=
  mapError_eq_ok

end Save.Metadata
