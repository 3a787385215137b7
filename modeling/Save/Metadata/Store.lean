import Save.Metadata.Records

/-!
# Bucket, object and lock records

The functions of `bucket.rs`, `object.rs` and `lock.rs` over the default column
family. A function that writes returns, beside its answer, the single writes it
issues in order; each of these functions makes all its checks before its first
write, so a failed call writes nothing. `acquired` and `released` are what the
lock functions do to one lock record.
-/

namespace Save.Metadata
set_option autoImplicit false
open Save.Kv Save.Common

/-! ## Buckets -/

def createBucket (now : DateTime) (db : Store Value) (name : String) :
    Result (Bucket × List (Write Value)) := do
  checkBucketName name
  if (db.get (bucketKey name)).isSome then
    .error (.bucketAlreadyExists name)
  else
    let bucket := Bucket.new now name
    return (bucket, [.put (bucketKey name) (.bucket bucket)])

def getBucket (db : Store Value) (name : String) : Result Bucket := do
  checkBucketName name
  match db.get (bucketKey name) with
  | some (.bucket bucket) => return bucket
  | some _ => .error .decode
  | none => .error (.bucketNotFound name)

def deleteBucket (name : String) : Result (List (Write Value)) := do
  checkBucketName name
  return [.delete (bucketKey name)]

/-- Decodes the bucket records of a scan. -/
def decodeBuckets : List (String × Value) → Result (List Bucket)
  | [] => .ok []
  | (_, .bucket bucket) :: rest => (decodeBuckets rest).map (bucket :: ·)
  | _ :: _ => .error .decode

def listBuckets (db : Store Value) : Result (List Bucket) := decodeBuckets (scan db "bkt:")

/-! ## Objects -/

def prepareMetadataWrite (metadata : ObjectMetadata) : Result (String × Value) := do
  checkObjectKey metadata.key
  return (objectDbKey metadata.bucket metadata.key, .object metadata)

def putObjectMetadata (metadata : ObjectMetadata) : Result (List (Write Value)) := do
  let (key, value) ← prepareMetadataWrite metadata
  return [.put key value]

/-- `commit_object_metadata`: the same write, as a synced batch. -/
def commitObjectMetadata (metadata : ObjectMetadata) : Result (List (Write Value)) := do
  let (key, value) ← prepareMetadataWrite metadata
  return [.put key value]

def getObjectMetadata (db : Store Value) (bucket key : String) : Result ObjectMetadata := do
  checkObjectKey key
  match db.get (objectDbKey bucket key) with
  | some (.object metadata) => return metadata
  | some _ => .error .decode
  | none => .error (.objectNotFound bucket key)

/-- Decodes the object records of a scan. -/
def decodeObjects : List (String × Value) → Result (List ObjectMetadata)
  | [] => .ok []
  | (_, .object metadata) :: rest => (decodeObjects rest).map (metadata :: ·)
  | _ :: _ => .error .decode

def listObjects (db : Store Value) (bucket : String) (keyPrefix : Option String) :
    Result (List ObjectMetadata) :=
  let start := match keyPrefix with
    | some p => "obj:" ++ bucket ++ "/" ++ p
    | none => "obj:" ++ bucket ++ "/"
  decodeObjects (scan db start)

def deleteObjectMetadata (bucket key : String) : Result (List (Write Value)) := do
  checkObjectKey key
  return [.delete (objectDbKey bucket key)]

theorem putObjectMetadata_eq {metadata : ObjectMetadata} {ws : List (Write Value)}
    (call : putObjectMetadata metadata = .ok ws) :
    ws = [.put (objectDbKey metadata.bucket metadata.key) (.object metadata)] := by
  obtain ⟨⟨key, value⟩, prepared, call⟩ := bind_ok call
  obtain ⟨-, -, prepared⟩ := bind_ok prepared
  cases prepared
  cases call
  rfl

/-! ## Locks -/

def LockState.isHeldBy (s : LockState) (holder : LockHolder) : Bool := s.holders.any (· == holder)

def LockState.canAcquire (s : LockState) (lockType : LockType) (holder : LockHolder) : Bool :=
  if s.holders.any (· == holder) then
    true
  else
    match s.lockType, lockType with
    | .read, .read => true
    | .read, .write => false
    | .write, _ => false

def getLockState (db : Store Value) (bucket key : String) : Result (Option LockState) :=
  match db.get (lockKey bucket key) with
  | some (.lock state) => .ok (some state)
  | some _ => .error .decode
  | none => .ok none

/-- Whether the lock was granted, and the record written when it changes. -/
def acquireLock (db : Store Value) (bucket key : String) (lockType : LockType)
    (holder : LockHolder) : Result (Bool × List (Write Value)) := do
  match ← getLockState db bucket key with
  | none => return (true, [.put (lockKey bucket key) (.lock ⟨lockType, [holder]⟩)])
  | some state =>
    if state.isHeldBy holder then
      return (true, [])
    else if !state.canAcquire lockType holder then
      return (false, [])
    else
      return (true, [.put (lockKey bucket key)
        (.lock { state with holders := state.holders ++ [holder] })])

def releaseLock (db : Store Value) (bucket key : String) (holder : LockHolder) :
    Result (List (Write Value)) := do
  match ← getLockState db bucket key with
  | none => return []
  | some state =>
    let holders := state.holders.filter (· != holder)
    if holders.isEmpty then
      return [.delete (lockKey bucket key)]
    else
      return [.put (lockKey bucket key) (.lock { state with holders })]

/-! ## One lock record -/

/-- The record an acquisition leaves. -/
def acquired (lockType : LockType) (holder : LockHolder) : Option LockState → LockState
  | none => ⟨lockType, [holder]⟩
  | some state =>
    if state.isHeldBy holder then state
    else if !state.canAcquire lockType holder then state
    else { state with holders := state.holders ++ [holder] }

/-- The record a release leaves. -/
def released (holder : LockHolder) : Option LockState → Option LockState
  | none => none
  | some state =>
    let holders := state.holders.filter (· != holder)
    if holders.isEmpty then none else some { state with holders }

end Save.Metadata
