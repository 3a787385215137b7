import Save.Lib.Text

/-!
# Percent-encoding

The escapes of URIs: a byte is written as itself or as a percent sign and two
hexadecimal digits. `percentDecode` reads the escapes there are and leaves all
else as it is. Which bytes a writer escapes is its choice; as long as the percent
sign is among them, and every byte that is no ASCII character, what it writes is
read back (`decoded_escape`).
-/

namespace Save.Percent
set_option autoImplicit false
open Save.Text

/-- The bytes of a string. -/
def bytesOf (s : String) : List UInt8 := s.toUTF8.data.toList

/-- The string of some bytes, when they are one. -/
def decodeUtf8 (b : List UInt8) : Option String := String.fromUTF8? ⟨b.toArray⟩

/-- The value of a hexadecimal digit, in either case. -/
def hexValue (b : UInt8) : Option UInt8 :=
  if 48 ≤ b ∧ b ≤ 57 then some (b - 48)
  else if 65 ≤ b ∧ b ≤ 70 then some (b - 55)
  else if 97 ≤ b ∧ b ≤ 102 then some (b - 87)
  else none

/-- A percent sign without two digits behind it stands for itself. -/
def percentDecode : List UInt8 → List UInt8
  | 37 :: high :: low :: rest =>
    match hexValue high, hexValue low with
    | some h, some l => (16 * h + l) :: percentDecode rest
    | _, _ => 37 :: percentDecode (high :: low :: rest)
  | b :: rest => b :: percentDecode rest
  | [] => []

/-- `percent_decode(s).decode_utf8()`. -/
def decoded (s : String) : Option String := decodeUtf8 (percentDecode (bytesOf s))

/-! ## Escaping -/

def hexDigit (n : Nat) : Char := if n < 10 then Char.ofNat (48 + n) else Char.ofNat (55 + n)

/-- How a byte is written. -/
def escapeByte (keep : UInt8 → Bool) (b : UInt8) : List Char :=
  if keep b then [Char.ofNat b.toNat] else ['%', hexDigit (b.toNat / 16), hexDigit (b.toNat % 16)]

/-- The bytes of a string, those of `keep` as themselves. -/
def escape (keep : UInt8 → Bool) (s : String) : String :=
  String.ofList ((bytesOf s).flatMap (escapeByte keep))

/-- What may be written as itself. -/
def Plain (keep : UInt8 → Bool) : Prop := ∀ b, keep b = true → b < 128 ∧ b ≠ 37

theorem bytesOf_append (s t : String) : bytesOf (s ++ t) = bytesOf s ++ bytesOf t := by
  simp [bytesOf]

theorem decodeUtf8_bytesOf (s : String) : decodeUtf8 (bytesOf s) = some s := by
  have bytes : (⟨(bytesOf s).toArray⟩ : ByteArray) = s.toByteArray := rfl
  rw [decodeUtf8, bytes, String.fromUTF8?, dif_pos s.isValidUTF8]
  rfl

theorem bytesOf_singleton {c : Char} (ascii : c.toNat < 128) :
    bytesOf (String.singleton c) = [UInt8.ofNat c.toNat] := by
  have small : c.utf8Size = 1 := by
    rw [Char.utf8Size_eq_one_iff, UInt32.le_iff_toNat_le]
    exact Nat.le_of_lt_succ ascii
  rw [bytesOf, String.toUTF8_eq_toByteArray, String.toByteArray_singleton, List.utf8Encode_singleton,
    String.utf8EncodeChar_eq_singleton small]
  rfl

/-- ASCII characters are bytes. -/
theorem bytesOf_ofList {chars : List Char} (ascii : ∀ c ∈ chars, c.toNat < 128) :
    bytesOf (String.ofList chars) = chars.map fun c => UInt8.ofNat c.toNat := by
  induction chars with
  | nil => rfl
  | cons c chars ih =>
    have first : String.ofList (c :: chars) = String.singleton c ++ String.ofList chars := by
      rw [← String.toList_inj]
      simp
    rw [first, bytesOf_append, bytesOf_singleton (ascii c List.mem_cons_self),
      ih fun c' member => ascii c' (List.mem_cons_of_mem _ member)]
    rfl

theorem percentDecode_other {b : UInt8} (other : b ≠ 37) (rest : List UInt8) :
    percentDecode (b :: rest) = b :: percentDecode rest := by
  rw [percentDecode]
  rintro high low rest' rfl
  exact absurd rfl other

theorem hexDigit_spec : ∀ n < 16, (hexDigit n).toNat < 128 ∧
    hexValue (UInt8.ofNat (hexDigit n).toNat) = some (UInt8.ofNat n) := by
  decide +kernel

theorem toNat_ofNat_ascii {n : Nat} (ascii : n < 128) : (Char.ofNat n).toNat = n := by
  have all : ∀ n < 128, (Char.ofNat n).toNat = n := by decide
  exact all n ascii

theorem escapeByte_ascii {keep : UInt8 → Bool} (plain : Plain keep) (b : UInt8) :
    ∀ c ∈ escapeByte keep b, c.toNat < 128 := by
  intro c member
  have small := b.toNat_lt
  unfold escapeByte at member
  split at member
  · rename_i kept
    obtain rfl := List.mem_singleton.1 member
    have low : b.toNat < 128 := UInt8.lt_iff_toNat_lt.1 (plain b kept).1
    rw [toNat_ofNat_ascii low]
    exact low
  · have digits : c = '%' ∨ c = hexDigit (b.toNat / 16) ∨ c = hexDigit (b.toNat % 16) := by
      simpa using member
    rcases digits with rfl | rfl | rfl
    · decide
    · exact (hexDigit_spec _ (by omega)).1
    · exact (hexDigit_spec _ (by omega)).1

theorem percentDecode_escapeByte {keep : UInt8 → Bool} (plain : Plain keep) (b : UInt8)
    (rest : List UInt8) :
    percentDecode ((escapeByte keep b).map (fun c => UInt8.ofNat c.toNat) ++ rest) =
      b :: percentDecode rest := by
  have small := b.toNat_lt
  unfold escapeByte
  split
  · rename_i kept
    obtain ⟨low, other⟩ := plain b kept
    have low : b.toNat < 128 := UInt8.lt_iff_toNat_lt.1 low
    have same : UInt8.ofNat (Char.ofNat b.toNat).toNat = b := by
      rw [toNat_ofNat_ascii low, UInt8.ofNat_toNat]
    rw [List.map_singleton, same]
    exact percentDecode_other other rest
  · have high := (hexDigit_spec (b.toNat / 16) (by omega)).2
    have low := (hexDigit_spec (b.toNat % 16) (by omega)).2
    have whole : 16 * UInt8.ofNat (b.toNat / 16) + UInt8.ofNat (b.toNat % 16) = b := by
      apply UInt8.toNat_inj.1
      have sixteen : (16 : UInt8).toNat = 16 := rfl
      simp only [UInt8.toNat_add, UInt8.toNat_mul, UInt8.toNat_ofNat', sixteen]
      omega
    have percent : UInt8.ofNat '%'.toNat = 37 := rfl
    simp only [List.map_cons, List.map_nil, List.cons_append, List.nil_append, percent]
    rw [percentDecode, high, low]
    simp only [whole]

/-- An escaped string is read back in front of anything. -/
theorem percentDecode_escape {keep : UInt8 → Bool} (plain : Plain keep) (s : String) (rest : List UInt8) :
    percentDecode (bytesOf (escape keep s) ++ rest) = bytesOf s ++ percentDecode rest := by
  have ascii : ∀ c ∈ (bytesOf s).flatMap (escapeByte keep), c.toNat < 128 := by
    intro c member
    obtain ⟨b, -, inside⟩ := List.mem_flatMap.1 member
    exact escapeByte_ascii plain b c inside
  rw [escape, bytesOf_ofList ascii]
  generalize bytesOf s = bytes
  induction bytes with
  | nil => rfl
  | cons b bytes ih =>
    rw [List.flatMap_cons, List.map_append, List.append_assoc, percentDecode_escapeByte plain, ih]
    rfl

/-- What is escaped is read back. -/
theorem decoded_escape {keep : UInt8 → Bool} (plain : Plain keep) (s : String) :
    decoded (escape keep s) = some s := by
  have read := percentDecode_escape plain s []
  rw [List.append_nil] at read
  rw [decoded, read, percentDecode, List.append_nil, decodeUtf8_bytesOf]

/-- Parts that are joined after they have been escaped are read back as they were joined. -/
theorem decoded_join_escape {keep : UInt8 → Bool} (plain : Plain keep) {sep : Char}
    (ascii : sep.toNat < 128) (other : UInt8.ofNat sep.toNat ≠ 37) (parts : List String) :
    decoded (join sep (parts.map (escape keep))) = some (join sep parts) := by
  have read : percentDecode (bytesOf (join sep (parts.map (escape keep)))) = bytesOf (join sep parts) := by
    induction parts with
    | nil => rfl
    | cons part parts ih =>
      cases parts with
      | nil =>
        have alone := percentDecode_escape plain part []
        rw [List.append_nil, percentDecode, List.append_nil] at alone
        rw [List.map_singleton, join_singleton, join_singleton, alone]
      | cons next parts =>
        rw [List.map_cons, List.map_cons, join_cons_cons, join_cons_cons, bytesOf_append, bytesOf_append,
          bytesOf_append, bytesOf_append, bytesOf_singleton ascii, List.append_assoc,
          percentDecode_escape plain, List.singleton_append, percentDecode_other other,
          ← List.map_cons, ih, List.append_assoc]
        rfl
  rw [decoded, read, decodeUtf8_bytesOf]

/-- An escaped string has no character that has to be escaped. -/
theorem escape_free {keep : UInt8 → Bool} {c : Char} (escaped : ∀ b, keep b = true → Char.ofNat b.toNat ≠ c)
    (other : c ≠ '%') (digit : ∀ n < 16, hexDigit n ≠ c) (s : String) :
    containsChar (escape keep s) c = false := by
  rw [containsChar_eq_false, escape, String.toList_ofList]
  intro member
  obtain ⟨b, -, inside⟩ := List.mem_flatMap.1 member
  have small := b.toNat_lt
  unfold escapeByte at inside
  split at inside
  · rename_i kept
    exact escaped b kept (List.mem_singleton.1 inside).symm
  · have digits : c = '%' ∨ c = hexDigit (b.toNat / 16) ∨ c = hexDigit (b.toNat % 16) := by
      simpa using inside
    rcases digits with same | same | same
    · exact other same
    · exact digit _ (by omega) same.symm
    · exact digit _ (by omega) same.symm

end Save.Percent
