import Save.Lib.Text

/-!
# Name validation

`validation.rs` of the common crate: the two checks every request makes before
a name reaches a storage path or a database key. The messages are the source's
texts; `Error.toString` is the `Display` text the other crates embed in theirs.
-/

namespace Save.Common
set_option autoImplicit false
open Save.Text

/-- The variant of `Error` these checks return. -/
inductive Error where
  | validation (msg : String)
  deriving DecidableEq, Repr

def Error.toString : Error → String
  | .validation msg => "Validation error: " ++ msg

def maxObjectKeyLength : Nat := 1024

def minBucketNameLength : Nat := 3

def maxBucketNameLength : Nat := 63

def validateObjectKey (key : String) : Except Error Unit :=
  if key = "" then
    .error (.validation "Object key cannot be empty")
  else if key.utf8ByteSize > maxObjectKeyLength then
    .error (.validation ("Object key too long: " ++ toString key.utf8ByteSize ++ " bytes (max " ++
      toString maxObjectKeyLength ++ ")"))
  else if containsChar key (Char.ofNat 0) then
    .error (.validation "Object key cannot contain null bytes")
  else if containsStr key ".." then
    .error (.validation "Object key cannot contain '..'")
  else if startsWith key "/" || endsWith key "/" then
    .error (.validation "Object key cannot start or end with '/'")
  else
    .ok ()

/-- The characters a bucket name may have. -/
def bucketChar (c : Char) : Bool :=
  ('a' ≤ c && c ≤ 'z') || ('0' ≤ c && c ≤ '9') || c == '-' || c == '.'

def validateBucketName (name : String) : Except Error Unit :=
  if name.utf8ByteSize < minBucketNameLength || name.utf8ByteSize > maxBucketNameLength then
    .error (.validation ("Bucket name must be " ++ toString minBucketNameLength ++ "-" ++
      toString maxBucketNameLength ++ " characters, got " ++ toString name.utf8ByteSize))
  else if !name.toList.all bucketChar then
    .error (.validation
      "Bucket name must contain only lowercase letters, numbers, hyphens, and dots")
  else if startsWith name "-" || startsWith name "." || endsWith name "-" || endsWith name "." then
    .error (.validation "Bucket name cannot start or end with hyphen or dot")
  else
    .ok ()

/-- A key the checks accept. -/
def ValidKey (key : String) : Prop := validateObjectKey key = .ok ()

/-- A bucket name the checks accept. -/
def ValidBucket (name : String) : Prop := validateBucketName name = .ok ()

instance (key : String) : Decidable (ValidKey key) :=
  inferInstanceAs (Decidable (validateObjectKey key = .ok ()))

instance (name : String) : Decidable (ValidBucket name) :=
  inferInstanceAs (Decidable (validateBucketName name = .ok ()))

/-- What the checks of a key ask for. -/
theorem validKey_iff {key : String} : ValidKey key ↔
    key ≠ "" ∧ key.utf8ByteSize ≤ maxObjectKeyLength ∧ containsChar key (Char.ofNat 0) = false ∧
      containsStr key ".." = false ∧ startsWith key "/" = false ∧ endsWith key "/" = false := by
  unfold ValidKey validateObjectKey
  split
  · simp [*]
  · split
    · simp [*]
    · split
      · simp [*]
      · split
        · simp [*]
        · split
          · rename_i slash
            simp only [Bool.or_eq_true] at slash
            rcases slash with slash | slash <;> simp [slash]
          · rename_i nonempty short plain dots slash
            simp only [Bool.or_eq_true, not_or, Bool.not_eq_true] at slash
            simp only [gt_iff_lt, not_lt] at short
            simp only [Bool.not_eq_true] at plain dots
            exact iff_of_true rfl ⟨nonempty, short, plain, dots, slash⟩

/-- What the checks of a bucket name ask for. -/
theorem validBucket_iff {name : String} : ValidBucket name ↔
    (minBucketNameLength ≤ name.utf8ByteSize ∧ name.utf8ByteSize ≤ maxBucketNameLength) ∧
      name.toList.all bucketChar = true ∧
      (startsWith name "-" = false ∧ startsWith name "." = false) ∧
      endsWith name "-" = false ∧ endsWith name "." = false := by
  unfold ValidBucket validateBucketName
  split
  · rename_i size
    simp only [Bool.or_eq_true, decide_eq_true_eq] at size
    refine iff_of_false (by simp) fun valid => ?_
    have bounds := valid.1
    omega
  · rename_i size
    simp only [Bool.or_eq_true, decide_eq_true_eq, not_or, not_lt, gt_iff_lt] at size
    split
    · rename_i other
      simp only [Bool.not_eq_true'] at other
      simp [other]
    · rename_i chars
      simp only [Bool.not_eq_true', Bool.not_eq_false] at chars
      split
      · rename_i ends
        simp only [Bool.or_eq_true] at ends
        rcases ends with ((ends | ends) | ends) | ends <;> simp [ends]
      · rename_i ends
        simp only [Bool.or_eq_true, not_or, Bool.not_eq_true] at ends
        obtain ⟨⟨⟨hyphen, dot⟩, lastHyphen⟩, lastDot⟩ := ends
        exact iff_of_true rfl ⟨size, chars, ⟨hyphen, dot⟩, lastHyphen, lastDot⟩

/-- Every character of an accepted bucket name is a bucket character. -/
theorem ValidBucket.chars {name : String} (valid : ValidBucket name) :
    name.toList.all bucketChar = true :=
  (validBucket_iff.1 valid).2.1

/-- A character that no bucket name may have is in none. -/
theorem ValidBucket.without {name : String} (valid : ValidBucket name) {c : Char}
    (other : bucketChar c = false) : containsChar name c = false := by
  by_contra h
  have there : c ∈ name.toList := by simpa [containsChar] using h
  rw [List.all_eq_true.1 valid.chars c there] at other
  cases other

/-- An accepted bucket name has no slash, so `bucket/key` splits in one way. -/
theorem ValidBucket.no_slash {name : String} (valid : ValidBucket name) :
    containsChar name '/' = false :=
  valid.without rfl

/-- Nor has it a colon. -/
theorem ValidBucket.no_colon {name : String} (valid : ValidBucket name) :
    containsChar name ':' = false :=
  valid.without rfl

end Save.Common
