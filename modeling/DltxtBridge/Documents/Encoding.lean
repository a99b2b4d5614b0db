import DltxtBridge.Strings

/-! Decoding of file and message bytes. The detector and `iconv` are libraries outside
the repository and stay parameters. -/

namespace DltxtBridge.Documents

/-- `uchardet` names a charset; `iconv` converts from one encoding to another; both may fail. -/
structure Codec where
  uchardet : Bytes → Option Bytes
  iconv : Bytes → Bytes → Bytes → Option Bytes

def utf8 : Bytes := ascii "UTF-8"

def utf16le : Bytes := ascii "UTF-16LE"

def bomEncoding (bytes : Bytes) : Bytes :=
  if [0xEF, 0xBB, 0xBF] <+: bytes then utf8
  else if [0xFF, 0xFE, 0x00, 0x00] <+: bytes then ascii "UTF-32LE"
  else if [0x00, 0x00, 0xFE, 0xFF] <+: bytes then ascii "UTF-32BE"
  else if [0xFF, 0xFE] <+: bytes then utf16le
  else if [0xFE, 0xFF] <+: bytes then ascii "UTF-16BE"
  else []

def normalizeDetectedEncoding (encoding : Bytes) : Bytes :=
  if encoding = [] ∨ encoding = ascii "unknown" then utf8
  else if encoding = ascii "ASCII" then utf8
  else encoding

def detectEncoding (codec : Codec) (bytes : Bytes) : Option Bytes :=
  if bytes = [] then some utf8
  else if bomEncoding bytes ≠ [] then some (bomEncoding bytes)
  else (codec.uchardet bytes).map normalizeDetectedEncoding

def utf16Units : Bytes → Option Text
  | low :: high :: rest => (utf16Units rest).map fun text => (low.toUInt16 ||| high.toUInt16 <<< 8) :: text
  | [] => some []
  | _ => none

/-- The units of little-endian bytes, less a byte order mark in front. -/
def utf16leBytesToString (bytes : Bytes) : Option Text :=
  (utf16Units bytes).map fun text => if text.head? = some 0xFEFF then text.tail else text

def utf16leBytes (text : Text) : Bytes := text.flatMap fun (unit : UInt16) => [unit.toUInt8, (unit >>> 8).toUInt8]

def convertToUtf16 (codec : Codec) (input encoding : Bytes) : Option Text :=
  (codec.iconv encoding utf16le input).bind utf16leBytesToString

def utf8ToUtf16 (codec : Codec) (input : Bytes) : Option Text := convertToUtf16 codec input utf8

def asciiCodec : Codec where
  uchardet _ := some (ascii "ASCII")
  iconv _ _ input :=
    if input.all (· < 128) then some (input.flatMap fun byte => [byte, 0]) else none

lemma unit_of_bytes (u : UInt16) : u.toUInt8.toUInt16 ||| (u >>> 8).toUInt8.toUInt16 <<< 8 = u := by
  have hu : u.toNat < 2 ^ 16 := u.toNat_lt
  have hlow : u.toNat % 2 ^ 8 < 2 ^ 8 := Nat.mod_lt _ (by decide)
  have hhigh : u.toNat / 2 ^ 8 < 2 ^ 8 := by omega
  rw [← UInt16.toNat_inj, UInt16.toNat_or, UInt16.toNat_shiftLeft, UInt8.toNat_toUInt16,
    UInt8.toNat_toUInt16, UInt16.toNat_toUInt8, UInt16.toNat_toUInt8, UInt16.toNat_shiftRight]
  simp only [UInt16.reduceToNat, Nat.reduceMod, Nat.shiftRight_eq_div_pow, Nat.mod_eq_of_lt hhigh]
  rw [Nat.or_comm, Nat.shiftLeft_eq, Nat.mod_eq_of_lt (by omega), mul_comm,
    ← Nat.two_pow_add_eq_or_of_lt hlow]
  omega

lemma utf16Units_utf16leBytes (text : Text) : utf16Units (utf16leBytes text) = some text := by
  induction text with
  | nil => rfl
  | cons unit text ih =>
    change (utf16Units (utf16leBytes text)).map _ = _
    rw [ih, Option.map_some, unit_of_bytes]

section Utf8

variable {codec : Codec} {input : Bytes} {text : Text}

lemma utf8ToUtf16_eq (h : codec.iconv utf8 utf16le input = some (utf16leBytes text)) :
    utf8ToUtf16 codec input = some (if text.head? = some 0xFEFF then text.tail else text) := by
  rw [utf8ToUtf16, convertToUtf16, h, Option.bind_some, utf16leBytesToString, utf16Units_utf16leBytes,
    Option.map_some]

lemma utf8ToUtf16_eq_some (h : codec.iconv utf8 utf16le input = some (utf16leBytes text))
    (hmark : text.head? ≠ some 0xFEFF) : utf8ToUtf16 codec input = some text := by
  rw [utf8ToUtf16_eq h, if_neg hmark]

end Utf8

end DltxtBridge.Documents
