import DltxtBridge.Strings

/-! `std::wstring` with a 32-bit `wchar_t`, and its conversion from and to UTF-16. -/

namespace DltxtBridge

abbrev WideText := List UInt32

def isHighSurrogate (ch : UInt16) : Bool := 0xD800 ≤ ch && ch ≤ 0xDBFF

def isLowSurrogate (ch : UInt16) : Bool := 0xDC00 ≤ ch && ch ≤ 0xDFFF

def combineSurrogates (ch low : UInt16) : UInt32 :=
  (0x10000 : UInt32) + (ch.toUInt32 - 0xD800) <<< (10 : UInt32) + (low.toUInt32 - 0xDC00)

def wstringFromU16 : Text → WideText
  | [] => []
  | [ch] => [ch.toUInt32]
  | ch :: low :: rest =>
    if isHighSurrogate ch && isLowSurrogate low then combineSurrogates ch low :: wstringFromU16 rest
    else ch.toUInt32 :: wstringFromU16 (low :: rest)

def u16FromWideChar (codepoint : UInt32) : Text :=
  if codepoint ≤ 0xFFFF then [codepoint.toUInt16]
  else
    [((0xD800 : UInt32) + (codepoint - 0x10000) >>> (10 : UInt32)).toUInt16,
      ((0xDC00 : UInt32) + ((codepoint - 0x10000) &&& 0x3FF)).toUInt16]

def u16FromWstring (text : WideText) : Text := text.flatMap u16FromWideChar

lemma u16FromWstring_append (front back : WideText) :
    u16FromWstring (front ++ back) = u16FromWstring front ++ u16FromWstring back :=
  List.flatMap_append

lemma u16FromWideChar_toUInt32 (ch : UInt16) : u16FromWideChar ch.toUInt32 = [ch] := by
  have hle : ch.toUInt32 ≤ 0xFFFF := by
    rw [UInt32.le_iff_toNat_le, UInt16.toNat_toUInt32]
    exact Nat.le_of_lt_succ ch.toNat_lt
  rw [u16FromWideChar, if_pos hle, UInt16.toUInt16_toUInt32]

lemma toNat_combineSurrogates {ch low : UInt16} (hch : isHighSurrogate ch) (hlow : isLowSurrogate low) :
    0xD800 ≤ ch.toNat ∧ ch.toNat ≤ 0xDBFF ∧ 0xDC00 ≤ low.toNat ∧ low.toNat ≤ 0xDFFF ∧
      (combineSurrogates ch low).toNat = 0x10000 + (ch.toNat - 0xD800) * 1024 + (low.toNat - 0xDC00) := by
  simp only [isHighSurrogate, isLowSurrogate, Bool.and_eq_true, decide_eq_true_eq, UInt16.le_iff_toNat_le] at hch hlow
  change 0xD800 ≤ ch.toNat ∧ ch.toNat ≤ 0xDBFF at hch
  change 0xDC00 ≤ low.toNat ∧ low.toNat ≤ 0xDFFF at hlow
  have hhigh : (ch.toUInt32 - 0xD800).toNat = ch.toNat - 0xD800 :=
    UInt32.toNat_sub_of_le _ _ (UInt32.le_iff_toNat_le.mpr hch.1)
  have hlow' : (low.toUInt32 - 0xDC00).toNat = low.toNat - 0xDC00 :=
    UInt32.toNat_sub_of_le _ _ (UInt32.le_iff_toNat_le.mpr hlow.1)
  refine ⟨hch.1, hch.2, hlow.1, hlow.2, ?_⟩
  rw [combineSurrogates, UInt32.toNat_add, UInt32.toNat_add, UInt32.toNat_shiftLeft, hhigh, hlow']
  simp only [UInt32.reduceToNat, Nat.reduceMod, Nat.shiftLeft_eq, Nat.reducePow]
  omega

lemma u16FromWideChar_combineSurrogates {ch low : UInt16} (hch : isHighSurrogate ch) (hlow : isLowSurrogate low) :
    u16FromWideChar (combineSurrogates ch low) = [ch, low] := by
  obtain ⟨hch, hch', hlow, hlow', hcombined⟩ := toNat_combineSurrogates hch hlow
  have hle : ¬ combineSurrogates ch low ≤ 0xFFFF := by
    rw [UInt32.le_iff_toNat_le, hcombined, not_le]
    change 0xFFFF < _
    omega
  have hvalue : (combineSurrogates ch low - 0x10000).toNat = (ch.toNat - 0xD800) * 1024 + (low.toNat - 0xDC00) := by
    rw [UInt32.toNat_sub_of_le, hcombined]
    · simp only [UInt32.reduceToNat]
      omega
    · rw [UInt32.le_iff_toNat_le, hcombined]
      change 0x10000 ≤ _
      omega
  rw [u16FromWideChar, if_neg hle]
  congr 1
  · rw [← UInt16.toNat_inj, UInt32.toNat_toUInt16, UInt32.toNat_add, UInt32.toNat_shiftRight, hvalue]
    simp only [UInt32.reduceToNat, Nat.reduceMod, Nat.shiftRight_eq_div_pow, Nat.reducePow]
    omega
  · congr 1
    rw [← UInt16.toNat_inj, UInt32.toNat_toUInt16, UInt32.toNat_add, UInt32.toNat_and, hvalue]
    change (0xDC00 + (_ &&& (2 ^ 10 - 1))) % 2 ^ 32 % 2 ^ 16 = _
    rw [Nat.and_two_pow_sub_one_eq_mod]
    omega

lemma u16FromWstring_wstringFromU16 (text : Text) : u16FromWstring (wstringFromU16 text) = text := by
  fun_induction wstringFromU16 text with
  | case1 => rfl
  | case2 ch => exact congrArg (· ++ []) (u16FromWideChar_toUInt32 ch)
  | case3 ch low rest hpair ih =>
    rw [Bool.and_eq_true] at hpair
    rw [u16FromWstring, List.flatMap_cons, u16FromWideChar_combineSurrogates hpair.1 hpair.2]
    exact congrArg ([ch, low] ++ ·) ih
  | case4 ch low rest _ ih =>
    rw [u16FromWstring, List.flatMap_cons, u16FromWideChar_toUInt32]
    exact congrArg ([ch] ++ ·) ih

end DltxtBridge
