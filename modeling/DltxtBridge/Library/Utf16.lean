import Mathlib.Data.List.Basic
import Mathlib.Tactic

namespace Utf16

def encodeChar (c : Char) : List UInt16 :=
  if c.toNat < 0x10000 then [UInt16.ofNat c.toNat]
  else
    [UInt16.ofNat (0xD800 + (c.toNat - 0x10000) / 0x400), UInt16.ofNat (0xDC00 + (c.toNat - 0x10000) % 0x400)]

def encode (chars : List Char) : List UInt16 := chars.flatMap encodeChar

def Single (unit : ℕ) : Prop := unit < 0xD800 ∨ 0xE000 ≤ unit

instance (unit : ℕ) : Decidable (Single unit) := inferInstanceAs (Decidable (_ ∨ _))

def decode : List UInt16 → Option (List Char)
  | [] => some []
  | unit :: units =>
    if Single unit.toNat then (decode units).map (Char.ofNat unit.toNat :: ·)
    else
      match units with
      | [] => none
      | low :: units =>
        if unit.toNat < 0xDC00 ∧ 0xDC00 ≤ low.toNat ∧ low.toNat < 0xE000 then
          (decode units).map (Char.ofNat (0x10000 + (unit.toNat - 0xD800) * 0x400 + (low.toNat - 0xDC00)) :: ·)
        else none

lemma decode_single {unit : UInt16} (h : Single unit.toNat) (units : List UInt16) :
    decode (unit :: units) = (decode units).map (Char.ofNat unit.toNat :: ·) := by
  rw [decode.eq_def]
  exact if_pos h

lemma decode_pair {high low : UInt16} (hhigh : ¬ Single high.toNat)
    (hpair : high.toNat < 0xDC00 ∧ 0xDC00 ≤ low.toNat ∧ low.toNat < 0xE000) (units : List UInt16) :
    decode (high :: low :: units) =
      (decode units).map
        (Char.ofNat (0x10000 + (high.toNat - 0xD800) * 0x400 + (low.toNat - 0xDC00)) :: ·) := by
  rw [decode.eq_def]
  exact (if_neg hhigh).trans (if_pos hpair)

lemma toNat_char_cases (c : Char) : Single c.toNat ∧ c.toNat < 0x110000 := by
  have hvalid : c.toNat.isValidChar := c.valid
  rw [Nat.isValidChar] at hvalid
  rw [Single]
  omega

lemma decode_encodeChar_append (c : Char) (units : List UInt16) :
    decode (encodeChar c ++ units) = (decode units).map (c :: ·) := by
  obtain ⟨hsingle, hbound⟩ := toNat_char_cases c
  rw [encodeChar]
  split_ifs with hplane
  · have hunit : (UInt16.ofNat c.toNat).toNat = c.toNat := UInt16.toNat_ofNat_of_lt hplane
    rw [List.singleton_append, decode_single (by rwa [hunit]), hunit, Char.ofNat_toNat]
  · have hhigh : (UInt16.ofNat (0xD800 + (c.toNat - 0x10000) / 0x400)).toNat =
        0xD800 + (c.toNat - 0x10000) / 0x400 := UInt16.toNat_ofNat_of_lt (by norm_num [UInt16.size]; omega)
    have hlow : (UInt16.ofNat (0xDC00 + (c.toNat - 0x10000) % 0x400)).toNat =
        0xDC00 + (c.toNat - 0x10000) % 0x400 := UInt16.toNat_ofNat_of_lt (by norm_num [UInt16.size]; omega)
    have hpair : ¬ Single (0xD800 + (c.toNat - 0x10000) / 0x400) := by
      rw [Single]
      omega
    have hback : 0x10000 + (0xD800 + (c.toNat - 0x10000) / 0x400 - 0xD800) * 0x400 +
        (0xDC00 + (c.toNat - 0x10000) % 0x400 - 0xDC00) = c.toNat := by
      omega
    rw [List.cons_append, List.singleton_append, decode_pair (by rwa [hhigh]) (by omega), hhigh, hlow, hback,
      Char.ofNat_toNat]

theorem decode_encode (chars : List Char) : decode (encode chars) = some chars := by
  induction chars with
  | nil => rfl
  | cons c chars ih =>
    change decode (encodeChar c ++ encode chars) = _
    rw [decode_encodeChar_append, ih, Option.map_some]

/-- Surrogates only stand in pairs. -/
def WellFormed (units : List UInt16) : Prop := ∃ chars, encode chars = units

end Utf16
