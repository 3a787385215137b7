import Save.Metadata.Store

/-!
# Multipart upload records

`multipart.rs`: an upload has one record for itself and one for each part, under
keys that extend the upload's. These records are local to a node: the functions
below write the database directly, not through the replicated state machine.
-/

namespace Save.Metadata
set_option autoImplicit false
open Save.Text Save.Kv Save.Common

def validateUploadId (uploadId : String) : Result Unit :=
  if uploadId = "" then
    .error (.invalidOperation "Upload ID cannot be empty")
  else if uploadId.utf8ByteSize > 256 then
    .error (.invalidOperation ("Upload ID too long: " ++ toString uploadId.utf8ByteSize ++
      " bytes (max 256)"))
  else
    .ok ()

structure MultipartUpload where
  uploadId : String
  bucket : String
  key : String
  /-- In the order of the part numbers. -/
  parts : Std.ExtTreeMap Nat MultipartPart compare
  initiatedAt : DateTime
  contentType : Option String

/-- `MultipartUpload::db_key`. -/
def multipartDbKey (bucket key uploadId : String) : String :=
  "mpu:" ++ bucket ++ ":" ++ key ++ ":" ++ uploadId

def partKeyPrefix (bucket key uploadId : String) : String :=
  "mpu:" ++ bucket ++ ":" ++ key ++ ":" ++ uploadId ++ ":part:"

def partKey (bucket key uploadId : String) (partNumber : Nat) : String :=
  "mpu:" ++ bucket ++ ":" ++ key ++ ":" ++ uploadId ++ ":part:" ++ toString partNumber

def initiateMultipartUpload (now : DateTime) (bucket key uploadId : String)
    (contentType : Option String) : Result (MultipartUpload × List (Write Value)) := do
  checkObjectKey key
  validateUploadId uploadId
  let metadata : MultipartMetadata := ⟨uploadId, bucket, key, now, contentType⟩
  return (⟨uploadId, bucket, key, ∅, now, contentType⟩,
    [.put (multipartDbKey bucket key uploadId) (.upload metadata)])

/-- The loop over the part records: each is inserted under its own number. Bytes of another record
that would decode as a part are an error here. -/
def collectParts (parts : Std.ExtTreeMap Nat MultipartPart compare) :
    List (String × Value) → Result (Std.ExtTreeMap Nat MultipartPart compare)
  | [] => .ok parts
  | (_, .part part) :: rest => collectParts (parts.insert part.partNumber part) rest
  | _ :: _ => .error .decode

def getMultipartUpload (db : Store Value) (bucket key uploadId : String) :
    Result MultipartUpload := do
  checkObjectKey key
  validateUploadId uploadId
  match db.get (multipartDbKey bucket key uploadId) with
  | some (.upload metadata) =>
    let parts ← collectParts ∅ (scan db (partKeyPrefix bucket key uploadId))
    return ⟨metadata.uploadId, metadata.bucket, metadata.key, parts, metadata.initiatedAt,
      metadata.contentType⟩
  | some _ => .error .decode
  | none => .error (.multipartUploadNotFound uploadId)

/-- The loop over the upload records: keys of parts are skipped by the text they contain. -/
def collectUploads (db : Store Value) : List (String × Value) → Result (List MultipartUpload)
  | [] => .ok []
  | (key, value) :: rest =>
    if containsStr key ":part:" then
      collectUploads db rest
    else
      match value with
      | .upload metadata => do
        let parts ← collectParts ∅
          (scan db (partKeyPrefix metadata.bucket metadata.key metadata.uploadId))
        let uploads ← collectUploads db rest
        return ⟨metadata.uploadId, metadata.bucket, metadata.key, parts, metadata.initiatedAt,
          metadata.contentType⟩ :: uploads
      | _ => .error .decode

def listAllMultipartUploads (db : Store Value) : Result (List MultipartUpload) :=
  collectUploads db (scan db "mpu:")

/-- `list_multipart_uploads`: the same loop over one bucket's keys. -/
def listMultipartUploads (db : Store Value) (bucket : String) : Result (List MultipartUpload) :=
  collectUploads db (scan db ("mpu:" ++ bucket ++ ":"))

def recordPart (db : Store Value) (bucket key uploadId : String) (partNumber : Nat)
    (etag : String) (size : Nat) : Result (List (Write Value)) := do
  checkObjectKey key
  validateUploadId uploadId
  if (db.get (multipartDbKey bucket key uploadId)).isNone then
    .error (.multipartUploadNotFound uploadId)
  else
    return [.put (partKey bucket key uploadId partNumber) (.part ⟨partNumber, etag, size⟩)]

def completeMultipartUpload (db : Store Value) (bucket key uploadId : String) :
    Result (MultipartUpload × List (Write Value)) := do
  checkObjectKey key
  validateUploadId uploadId
  let upload ← getMultipartUpload db bucket key uploadId
  let first : Write Value := .delete (multipartDbKey bucket key uploadId)
  return (upload, first :: scanDeletes (first.apply db) (partKeyPrefix bucket key uploadId))

def abortMultipartUpload (db : Store Value) (bucket key uploadId : String) :
    Result (List (Write Value)) := do
  checkObjectKey key
  validateUploadId uploadId
  let first : Write Value := .delete (multipartDbKey bucket key uploadId)
  return first :: scanDeletes (first.apply db) (partKeyPrefix bucket key uploadId)

theorem multipartDbKey_startsWith (bucket key uploadId : String) :
    startsWith (multipartDbKey bucket key uploadId) multipartPrefix = true := by
  simp only [multipartDbKey, String.append_assoc]
  exact startsWith_append _ _

theorem partKeyPrefix_startsWith (bucket key uploadId : String) :
    startsWith (partKeyPrefix bucket key uploadId) multipartPrefix = true := by
  simp only [partKeyPrefix, String.append_assoc]
  exact startsWith_append _ _

/-- Every write of an upload's functions is to a key of the multipart namespace. -/
def Local (ws : List (Write Value)) : Prop := ∀ w ∈ ws, startsWith w.key multipartPrefix = true

theorem abortMultipartUpload_eq {db : Store Value} {bucket key uploadId : String}
    {ws : List (Write Value)} (call : abortMultipartUpload db bucket key uploadId = .ok ws) :
    ws = .delete (multipartDbKey bucket key uploadId) ::
      scanDeletes (db.delete (multipartDbKey bucket key uploadId))
        (partKeyPrefix bucket key uploadId) := by
  obtain ⟨-, -, call⟩ := bind_ok call
  obtain ⟨-, -, call⟩ := bind_ok call
  cases call
  rfl

theorem recordPart_eq {db : Store Value} {bucket key uploadId etag : String} {partNumber size : Nat}
    {ws : List (Write Value)}
    (call : recordPart db bucket key uploadId partNumber etag size = .ok ws) :
    ws = [.put (partKey bucket key uploadId partNumber) (.part ⟨partNumber, etag, size⟩)] := by
  obtain ⟨-, -, call⟩ := bind_ok call
  obtain ⟨-, -, call⟩ := bind_ok call
  split at call
  · cases call
  · cases call
    rfl

/-- The deletes of an upload's record and of its parts. -/
theorem local_deletes (db : Store Value) (bucket key uploadId : String) :
    Local (.delete (multipartDbKey bucket key uploadId) ::
      scanDeletes (db.delete (multipartDbKey bucket key uploadId))
        (partKeyPrefix bucket key uploadId)) := by
  intro w member
  rcases List.mem_cons.1 member with rfl | member
  · exact multipartDbKey_startsWith bucket key uploadId
  · obtain ⟨⟨k, v⟩, scanned, rfl⟩ := List.mem_map.1 member
    have hit := (mem_scan.1 scanned).2
    exact startsWith_of_startsWith hit (partKeyPrefix_startsWith bucket key uploadId)

theorem local_put {k : String} (v : Value) (own : startsWith k multipartPrefix = true) :
    Local [.put k v] := by
  intro w member
  rw [List.mem_singleton] at member
  subst member
  exact own

theorem abortMultipartUpload_local {db : Store Value} {bucket key uploadId : String}
    {ws : List (Write Value)} (call : abortMultipartUpload db bucket key uploadId = .ok ws) :
    Local ws := by
  rw [abortMultipartUpload_eq call]
  exact local_deletes db bucket key uploadId

theorem abortMultipartUpload_deletes {db : Store Value} {bucket key uploadId : String}
    {ws : List (Write Value)} (call : abortMultipartUpload db bucket key uploadId = .ok ws) :
    ∀ w ∈ ws, w.value = none := by
  rw [abortMultipartUpload_eq call]
  intro w member
  rcases List.mem_cons.1 member with rfl | member
  · rfl
  · obtain ⟨e, -, rfl⟩ := List.mem_map.1 member
    rfl

end Save.Metadata
