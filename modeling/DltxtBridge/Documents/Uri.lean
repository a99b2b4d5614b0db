import DltxtBridge.FsPath

namespace DltxtBridge.Documents

def hexValue (ch : UInt8) : Option UInt8 :=
  if 48 ≤ ch ∧ ch ≤ 57 then some (ch - 48)
  else if 97 ≤ ch ∧ ch ≤ 102 then some (10 + (ch - 97))
  else if 65 ≤ ch ∧ ch ≤ 70 then some (10 + (ch - 65))
  else none

def percentDecode : Bytes → Bytes
  | 37 :: high :: low :: rest =>
    match hexValue high, hexValue low with
    | some hi, some lo => (hi <<< 4 ||| lo) :: percentDecode rest
    | _, _ => 37 :: percentDecode (high :: low :: rest)
  | ch :: rest => ch :: percentDecode rest
  | [] => []

def isAlpha (ch : UInt8) : Bool := (65 ≤ ch && ch ≤ 90) || (97 ≤ ch && ch ≤ 122)

def isUnreserved (ch : UInt8) : Bool :=
  isAlpha ch || (48 ≤ ch && ch ≤ 57) || ch = 45 || ch = 95 || ch = 46 || ch = 126

def hexDigit (value : UInt8) : UInt8 := if value < 10 then 48 + value else 55 + value

def percentEncode (text : Bytes) : Bytes :=
  text.flatMap fun ch =>
    if isUnreserved ch || ch = 47 || ch = 58 then [ch] else [37, hexDigit (ch >>> 4), hexDigit (ch &&& 15)]

def fileScheme : Bytes := ascii "file://"

/-- A decoded path that looks like "/C:" loses its first separator. -/
def dropDriveSeparator : Bytes → Bytes
  | 47 :: drive :: 58 :: rest => if isAlpha drive then drive :: 58 :: rest else 47 :: drive :: 58 :: rest
  | decoded => decoded

def filePathFromUri (uri : Bytes) : FsPath :=
  if fileScheme <+: uri then FsPath.ofBytes (dropDriveSeparator (percentDecode (uri.drop fileScheme.length)))
  else FsPath.ofBytes (percentDecode uri)

def fileUriFromPath (path : FsPath) : Bytes :=
  fileScheme ++ percentEncode path.lexicallyNormal.genericString

section Coding

lemma hexValue_hexDigit {value : UInt8} (h : value < 16) : hexValue (hexDigit value) = some value := by
  have hall : ∀ n : Fin 16, hexValue (hexDigit (UInt8.ofNat n)) = some (UInt8.ofNat n) := by decide
  simpa using hall ⟨value.toNat, h⟩

lemma join_nibbles (ch : UInt8) : (ch >>> 4) <<< 4 ||| ch &&& 15 = ch := by
  have hall : ∀ n : Fin 256, (UInt8.ofNat n >>> 4) <<< 4 ||| UInt8.ofNat n &&& 15 = UInt8.ofNat n := by
    decide +kernel
  simpa using hall ⟨ch.toNat, ch.toNat_lt⟩

lemma nibble_lt (ch : UInt8) : ch >>> 4 < 16 ∧ ch &&& 15 < 16 := by
  have hall : ∀ n : Fin 256, UInt8.ofNat n >>> 4 < 16 ∧ UInt8.ofNat n &&& 15 < 16 := by decide +kernel
  simpa using hall ⟨ch.toNat, ch.toNat_lt⟩

lemma percentDecode_cons {ch : UInt8} (h : ch ≠ 37) (rest : Bytes) :
    percentDecode (ch :: rest) = ch :: percentDecode rest := by
  rw [percentDecode.eq_2]
  rintro high low tail rfl
  exact absurd rfl h

lemma percentDecode_percentEncode (text : Bytes) : percentDecode (percentEncode text) = text := by
  induction text with
  | nil => rfl
  | cons ch text ih =>
    rw [percentEncode, List.flatMap_cons]
    change percentDecode (_ ++ percentEncode text) = _
    split_ifs with hplain
    · have hch : ch ≠ 37 := by
        rintro rfl
        exact absurd hplain (by decide)
      rw [List.singleton_append, percentDecode_cons hch, ih]
    · obtain ⟨hhigh, hlow⟩ := nibble_lt ch
      simp [percentDecode, hexValue_hexDigit, hhigh, hlow, join_nibbles, ih]

end Coding

section Paths

lemma dropDriveSeparator_cases (text : Bytes) :
    dropDriveSeparator text = text ∨ text = 47 :: dropDriveSeparator text := by
  rw [dropDriveSeparator.eq_def]
  split
  · split_ifs
    · exact Or.inr rfl
    · exact Or.inl rfl
  · exact Or.inl rfl

lemma filePathFromUri_fileUriFromPath (path : FsPath) :
    filePathFromUri (fileUriFromPath path) =
      FsPath.ofBytes (dropDriveSeparator path.lexicallyNormal.genericString) := by
  rw [filePathFromUri, fileUriFromPath, if_pos (List.prefix_append _ _), List.drop_left,
    percentDecode_percentEncode]

end Paths

end DltxtBridge.Documents
