import DltxtBridge.Library.Utf16
import DltxtBridge.Protocol.Requests

namespace DltxtBridge.Protocol

open Documents

section Conversion

def utf8Bytes (chars : List Char) : Bytes := chars.flatMap String.utf8EncodeChar

/-- `iconv` converts every Unicode text between the two encodings and neither adds nor removes
a byte order mark. -/
def Faithful (codec : Codec) : Prop :=
  ∀ chars : List Char,
    codec.iconv utf16le utf8 (utf16leBytes (Utf16.encode chars)) = some (utf8Bytes chars) ∧
      codec.iconv utf8 utf16le (utf8Bytes chars) = some (utf16leBytes (Utf16.encode chars))

def utf8Chars (bytes : Bytes) : Option (List Char) := bytes.toByteArray.utf8Decode?.map Array.toList

lemma utf8Chars_utf8Bytes (chars : List Char) : utf8Chars (utf8Bytes chars) = some chars := by
  have hdecode := @List.utf8Decode?_utf8Encode chars
  rw [List.utf8Encode] at hdecode
  rw [utf8Chars, utf8Bytes, hdecode, Option.map_some]

def unicodeCodec : Codec where
  uchardet _ := some utf8
  iconv source target input :=
    if source = utf16le ∧ target = utf8 then
      (utf16Units input).bind fun units => (Utf16.decode units).map utf8Bytes
    else if source = utf8 ∧ target = utf16le then
      (utf8Chars input).map fun chars => utf16leBytes (Utf16.encode chars)
    else none

lemma faithful_unicodeCodec : Faithful unicodeCodec := by
  intro chars
  constructor
  · rw [unicodeCodec]
    simp only [and_self, if_true]
    rw [utf16Units_utf16leBytes, Option.bind_some, Utf16.decode_encode, Option.map_some]
  · have hother : ¬ (utf8 = utf16le ∧ utf16le = utf8) := by decide
    rw [unicodeCodec]
    simp only [hother, and_self, if_true, if_false]
    rw [utf8Chars_utf8Bytes, Option.map_some]

end Conversion

section Boundary

def Survives (codec : Codec) (text : Text) : Prop :=
  (utf16ToUtf8 codec text).bind (utf8ToUtf16 codec) = some text

/-- The unit U+FEFF in front is taken for a byte order mark. -/
theorem survives_iff (codec : Codec) (hcodec : Faithful codec) (text : Text) (htext : Utf16.WellFormed text) :
    Survives codec text ↔ text.head? ≠ some 0xFEFF := by
  obtain ⟨chars, rfl⟩ := htext
  obtain ⟨hencode, hdecode⟩ := hcodec chars
  rw [Survives, utf16ToUtf8, hencode, Option.bind_some, utf8ToUtf16_eq hdecode, Option.some.injEq]
  split_ifs with hmark
  · obtain ⟨rest, hrest⟩ := List.head?_eq_some_iff.mp hmark
    refine iff_of_false ?_ (not_not_intro hmark)
    rw [hrest, List.tail_cons]
    exact (List.cons_ne_self _ _).symm
  · exact iff_of_true rfl hmark

theorem survives_pair : Survives unicodeCodec [0x3042, 0xD83D, 0xDE00] :=
  (survives_iff _ faithful_unicodeCodec _ ⟨[Char.ofNat 0x3042, Char.ofNat 0x1F600], by decide⟩).mpr (by decide)

theorem mark_does_not_survive :
    ¬ ∀ (codec : Codec), Faithful codec → ∀ text : Text, Utf16.WellFormed text → Survives codec text := by
  intro h
  have hmark := h unicodeCodec faithful_unicodeCodec [0xFEFF, 97] ⟨[Char.ofNat 0xFEFF, Char.ofNat 97], by decide⟩
  have hdecode := faithful_unicodeCodec [Char.ofNat 0xFEFF, Char.ofNat 97]
  have htext : Utf16.encode [Char.ofNat 0xFEFF, Char.ofNat 97] = [0xFEFF, 97] := by decide
  rw [htext] at hdecode
  rw [Survives, utf16ToUtf8, hdecode.1, Option.bind_some, utf8ToUtf16_eq hdecode.2] at hmark
  revert hmark
  decide

end Boundary

end DltxtBridge.Protocol
