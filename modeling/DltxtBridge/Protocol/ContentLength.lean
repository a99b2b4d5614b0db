import DltxtBridge.Protocol.Framing
import Mathlib.Data.List.TakeWhile

namespace DltxtBridge.Protocol

def headerLines (headers : Bytes) : List Bytes :=
  match h : Delimiter.find crlf headers with
  | none => [headers]
  | some lineEnd => headers.take lineEnd :: headerLines (headers.drop (lineEnd + 2))
termination_by headers.length
decreasing_by
  have hlen := Delimiter.find_add_length_le h
  simp only [crlf, List.length_cons, List.length_nil] at hlen
  rw [List.length_drop]
  omega

def isContentLengthLine (line : Bytes) : Bool := contentLengthKey <+: line.map toLower

def contentLengthLine (headers : Bytes) : Option Bytes := (headerLines headers).find? isContentLengthLine

def isBlank (ch : UInt8) : Bool := ch = 32 || ch = 9

def LengthForm (value : Bytes) (n : ℕ) : Prop :=
  ∃ leading digits trailing, value = leading ++ digits ++ trailing ∧ (∀ ch ∈ leading, isBlank ch) ∧
    digits ≠ [] ∧ (∀ ch ∈ digits, isDigit ch) ∧ (∀ ch ∈ trailing, isBlank ch) ∧ digitsValue digits = n

def GivesContentLength (headers : Bytes) (n : ℕ) : Prop :=
  ∃ line, contentLengthLine headers = some line ∧ LengthForm (line.drop contentLengthKey.length) n ∧
    n ≤ maxContentLength

section Reading

variable {value spaces sign digits tail : Bytes}

/-- The pieces `std::stoull` takes a string for. -/
structure Reading (value spaces sign digits tail : Bytes) : Prop where
  value_eq : value = spaces ++ (sign ++ (digits ++ tail))
  isSpace_spaces : ∀ ch ∈ spaces, isSpace ch
  sign_eq : sign = [] ∨ sign = [43] ∨ sign = [45]
  isDigit_digits : ∀ ch ∈ digits, isDigit ch
  nonempty : digits ≠ []
  stops : ∀ ch, tail.head? = some ch → ¬ isDigit ch

def signedValue (sign : Bytes) (number : ℕ) : ℕ := if sign = [45] then (2 ^ 64 - number) % 2 ^ 64 else number

def WithinLimit (sign : Bytes) (number : ℕ) : Prop :=
  if sign = [45] then number = 0 ∨ (2 ^ 64 - maxContentLength ≤ number ∧ number < 2 ^ 64)
  else number ≤ maxContentLength

def Plain (spaces sign tail : Bytes) : Prop :=
  (∀ ch ∈ spaces, isBlank ch) ∧ sign = [] ∧ ∀ ch ∈ tail, isBlank ch

/-- A number within the limit, with a sign, after white space that is no blank, or before text
that is no blank. -/
def Misread (value : Bytes) : Prop :=
  ∃ spaces sign digits tail, Reading value spaces sign digits tail ∧ WithinLimit sign (digitsValue digits) ∧
    ¬ Plain spaces sign tail

lemma not_isSpace_of_isDigit {ch : UInt8} (h : isDigit ch) : isSpace ch = false := by
  simp only [isDigit, Bool.and_eq_true, decide_eq_true_eq, UInt8.le_iff_toNat_le] at h
  have hlow : 48 ≤ ch.toNat := h.1
  have hspace : ch ≠ 32 := fun heq => absurd (heq ▸ hlow) (by decide)
  have hrange : ¬ ch ≤ 13 := by
    rw [UInt8.le_iff_toNat_le]
    exact fun hle => absurd (hlow.trans hle) (by decide)
  simp [isSpace, hspace, hrange]

lemma isSpace_of_isBlank {ch : UInt8} (h : isBlank ch) : isSpace ch := by
  rw [isBlank, Bool.or_eq_true, decide_eq_true_eq, decide_eq_true_eq] at h
  rcases h with rfl | rfl <;> rfl

lemma not_isDigit_of_isBlank {ch : UInt8} (h : isBlank ch) : ¬ isDigit ch := by
  rw [isBlank, Bool.or_eq_true, decide_eq_true_eq, decide_eq_true_eq] at h
  rcases h with rfl | rfl <;> decide

namespace Reading

lemma dropWhile_value (h : Reading value spaces sign digits tail) :
    value.dropWhile isSpace = sign ++ (digits ++ tail) := by
  rw [h.value_eq, List.dropWhile_append_of_pos h.isSpace_spaces]
  obtain ⟨digit, rest, rfl⟩ := List.exists_cons_of_ne_nil h.nonempty
  have hdigit := not_isSpace_of_isDigit (h.isDigit_digits digit List.mem_cons_self)
  rcases h.sign_eq with rfl | rfl | rfl
  · exact List.dropWhile_cons_of_neg (by rw [hdigit]; exact Bool.false_ne_true)
  · exact List.dropWhile_cons_of_neg (by decide)
  · exact List.dropWhile_cons_of_neg (by decide)

lemma takeWhile_digits (h : Reading value spaces sign digits tail) :
    (digits ++ tail).takeWhile isDigit = digits := by
  rw [List.takeWhile_append_of_pos h.isDigit_digits]
  cases tail with
  | nil => exact List.append_nil _
  | cons ch tail => rw [List.takeWhile_cons_of_neg (h.stops ch rfl), List.append_nil]

lemma head?_ne (h : Reading value spaces sign digits tail) (ch : UInt8) (hch : isDigit ch = false) :
    (digits ++ tail).head? ≠ some ch := by
  obtain ⟨digit, rest, rfl⟩ := List.exists_cons_of_ne_nil h.nonempty
  rw [List.cons_append, List.head?_cons, ne_eq, Option.some.injEq]
  rintro rfl
  rw [h.isDigit_digits digit List.mem_cons_self] at hch
  cases hch

lemma unique {spaces' sign' digits' tail' : Bytes} (h : Reading value spaces sign digits tail)
    (h' : Reading value spaces' sign' digits' tail') :
    spaces = spaces' ∧ sign = sign' ∧ digits = digits' ∧ tail = tail' := by
  have hdrop := h.dropWhile_value.symm.trans h'.dropWhile_value
  have hplus := h.head?_ne 43 rfl
  have hminus := h.head?_ne 45 rfl
  have hplus' := h'.head?_ne 43 rfl
  have hminus' := h'.head?_ne 45 rfl
  have hhead := congrArg List.head? hdrop
  have hsign : sign = sign' := by
    rcases h.sign_eq with rfl | rfl | rfl <;> rcases h'.sign_eq with rfl | rfl | rfl
    · rfl
    · exact absurd hhead hplus
    · exact absurd hhead hminus
    · exact absurd hhead.symm hplus'
    · rfl
    · cases hhead
    · exact absurd hhead.symm hminus'
    · cases hhead
    · rfl
  subst hsign
  have hrest := List.append_cancel_left hdrop
  have hdigits : digits = digits' := by rw [← h.takeWhile_digits, hrest, h'.takeWhile_digits]
  subst hdigits
  have htail := List.append_cancel_left hrest
  subst htail
  exact ⟨List.append_cancel_right (h.value_eq.symm.trans h'.value_eq), rfl, rfl, rfl⟩

lemma stoull_eq (h : Reading value spaces sign digits tail) :
    stoull value = if 2 ^ 64 ≤ digitsValue digits then none else some (signedValue sign (digitsValue digits)) := by
  have hplus := h.head?_ne 43 rfl
  have hminus := h.head?_ne 45 rfl
  have hdigits := h.takeWhile_digits
  rw [stoull, h.dropWhile_value, signedValue]
  rcases h.sign_eq with rfl | rfl | rfl
  · have hminus' : ¬ [] = [(45 : UInt8)] := nofun
    simp only [List.nil_append, hplus, hminus, or_self, if_false, hdigits, h.nonempty, false_or, hminus']
  · simp [hdigits, h.nonempty]
  · simp [hdigits, h.nonempty]

end Reading

lemma exists_reading_of_split (sign : Bytes) {rest : Bytes} (hsplit : value.dropWhile isSpace = sign ++ rest)
    (hne : rest.takeWhile isDigit ≠ []) (hsign : sign = [] ∨ sign = [43] ∨ sign = [45]) :
    ∃ spaces sign digits tail, Reading value spaces sign digits tail := by
  refine ⟨value.takeWhile isSpace, sign, rest.takeWhile isDigit, rest.dropWhile isDigit, ?_, ?_, hsign, ?_, hne, ?_⟩
  · rw [List.takeWhile_append_dropWhile, ← hsplit, List.takeWhile_append_dropWhile]
  · exact fun ch => List.mem_takeWhile_imp
  · exact fun ch => List.mem_takeWhile_imp
  · intro ch hch
    have hstop := List.head?_dropWhile_not isDigit rest
    rw [hch] at hstop
    rw [hstop]
    exact Bool.false_ne_true

lemma exists_reading {n : ℕ} (h : stoull value = some n) :
    ∃ spaces sign digits tail, Reading value spaces sign digits tail := by
  rw [stoull] at h
  by_cases hminus : (value.dropWhile isSpace).head? = some 45
  · obtain ⟨rest, hrest⟩ := List.head?_eq_some_iff.mp hminus
    simp only [hrest, List.head?_cons, true_or, if_true, List.tail_cons] at h
    refine exists_reading_of_split [45] hrest (fun hne => ?_) (.inr (.inr rfl))
    rw [if_pos (.inl hne)] at h
    cases h
  by_cases hplus : (value.dropWhile isSpace).head? = some 43
  · obtain ⟨rest, hrest⟩ := List.head?_eq_some_iff.mp hplus
    simp only [hrest, List.head?_cons, or_true, if_true, List.tail_cons] at h
    refine exists_reading_of_split [43] hrest (fun hne => ?_) (.inr (.inl rfl))
    rw [if_pos (.inl hne)] at h
    cases h
  · simp only [hminus, hplus, or_self, if_false] at h
    refine exists_reading_of_split [] rfl (fun hne => ?_) (.inl rfl)
    rw [if_pos (.inl hne)] at h
    cases h

lemma stoull_dropWhile_isBlank (value : Bytes) : stoull (value.dropWhile isBlank) = stoull value := by
  have hdrop : (value.dropWhile isBlank).dropWhile isSpace = value.dropWhile isSpace := by
    induction value with
    | nil => rfl
    | cons ch value ih =>
      by_cases hch : isBlank ch = true
      · rw [List.dropWhile_cons_of_pos hch, List.dropWhile_cons_of_pos (isSpace_of_isBlank hch), ih]
      · rw [List.dropWhile_cons_of_neg hch]
  rw [stoull, stoull, hdrop]

lemma parseLengthValue_eq (value : Bytes) :
    parseLengthValue value = (stoull value).filter fun parsed => parsed ≤ maxContentLength := by
  have hblank : (value.dropWhile fun ch => ch = 32 || ch = 9) = value.dropWhile isBlank := rfl
  rw [← stoull_dropWhile_isBlank value, parseLengthValue, hblank]
  cases value.dropWhile isBlank with
  | nil => rfl
  | cons first rest => rfl

lemma withinLimit_iff {sign : Bytes} {number : ℕ} :
    WithinLimit sign number ↔ number < 2 ^ 64 ∧ signedValue sign number ≤ maxContentLength := by
  have hmax : maxContentLength < 2 ^ 64 := by decide
  rw [WithinLimit, signedValue]
  split_ifs with hsign
  · constructor
    · rintro (rfl | ⟨hle, hlt⟩)
      · decide
      · refine ⟨hlt, ?_⟩
        omega
    · rintro ⟨hlt, hle⟩
      rcases Nat.eq_zero_or_pos number with rfl | hpos
      · exact .inl rfl
      · rw [Nat.mod_eq_of_lt (by omega)] at hle
        omega
  · exact ⟨fun hle => ⟨hle.trans_lt hmax, hle⟩, And.right⟩

lemma Reading.parseLengthValue_iff (h : Reading value spaces sign digits tail) (n : ℕ) :
    parseLengthValue value = some n ↔
      WithinLimit sign (digitsValue digits) ∧ signedValue sign (digitsValue digits) = n := by
  rw [parseLengthValue_eq, h.stoull_eq, withinLimit_iff]
  split_ifs with hlimit
  · rw [Option.filter_none]
    exact iff_of_false nofun fun h => by omega
  · rw [Option.filter_eq_some_iff, Option.some.injEq, decide_eq_true_eq]
    constructor
    · rintro ⟨rfl, hle⟩
      exact ⟨⟨not_le.mp hlimit, hle⟩, rfl⟩
    · rintro ⟨⟨-, hle⟩, rfl⟩
      exact ⟨rfl, hle⟩

lemma lengthForm_iff_reading (value : Bytes) (n : ℕ) :
    LengthForm value n ↔ ∃ spaces sign digits tail, Reading value spaces sign digits tail ∧
      Plain spaces sign tail ∧ digitsValue digits = n := by
  constructor
  · rintro ⟨leading, digits, trailing, hvalue, hleading, hne, hdigits, htrailing, hn⟩
    refine ⟨leading, [], digits, trailing, ⟨?_, ?_, .inl rfl, hdigits, hne, ?_⟩, ⟨hleading, rfl, htrailing⟩, hn⟩
    · rw [hvalue, List.append_assoc, List.nil_append]
    · exact fun ch hch => isSpace_of_isBlank (hleading ch hch)
    · exact fun ch hch => not_isDigit_of_isBlank (htrailing ch (List.mem_of_head? hch))
  · rintro ⟨spaces, sign, digits, tail, h, ⟨hspaces, rfl, htail⟩, hn⟩
    refine ⟨spaces, digits, tail, ?_, hspaces, h.nonempty, h.isDigit_digits, htail, hn⟩
    rw [h.value_eq, List.append_assoc, List.nil_append]

lemma parseLengthValue_of_lengthForm {n : ℕ} (h : LengthForm value n) (hn : n ≤ maxContentLength) :
    parseLengthValue value = some n := by
  obtain ⟨spaces, sign, digits, tail, hreading, ⟨-, rfl, -⟩, rfl⟩ := (lengthForm_iff_reading value n).mp h
  exact (hreading.parseLengthValue_iff _).mpr ⟨hn, rfl⟩

lemma parseLengthValue_right_iff (value : Bytes) :
    (∀ n, parseLengthValue value = some n ↔ LengthForm value n ∧ n ≤ maxContentLength) ↔ ¬ Misread value := by
  constructor
  · rintro hright ⟨spaces, sign, digits, tail, h, hlimit, hplain⟩
    have hparse := (h.parseLengthValue_iff _).mpr ⟨hlimit, rfl⟩
    obtain ⟨spaces', sign', digits', tail', h', hplain', -⟩ :=
      (lengthForm_iff_reading _ _).mp ((hright _).mp hparse).1
    obtain ⟨rfl, rfl, -, rfl⟩ := h.unique h'
    exact hplain hplain'
  · intro hmisread n
    refine ⟨fun hparse => ?_, fun h => parseLengthValue_of_lengthForm h.1 h.2⟩
    have hstoull := hparse
    rw [parseLengthValue_eq, Option.filter_eq_some_iff] at hstoull
    obtain ⟨spaces, sign, digits, tail, h⟩ := exists_reading hstoull.1
    obtain ⟨hlimit, hvalue⟩ := (h.parseLengthValue_iff n).mp hparse
    have hplain : Plain spaces sign tail := by
      by_contra hplain
      exact hmisread ⟨spaces, sign, digits, tail, h, hlimit, hplain⟩
    obtain ⟨-, rfl, -⟩ := id hplain
    obtain rfl : digitsValue digits = n := hvalue
    exact ⟨(lengthForm_iff_reading _ _).mpr ⟨spaces, [], digits, tail, h, hplain, rfl⟩, hlimit⟩

end Reading

lemma isContentLengthLine_iff (line : Bytes) : isContentLengthLine line ↔ contentLengthKey <+: line.map toLower := by
  rw [isContentLengthLine, decide_eq_true_iff]

lemma contentLengthLine_eq (headers : Bytes) :
    contentLengthLine headers =
      if isContentLengthLine (headers.take ((Delimiter.find crlf headers).getD headers.length)) then
        some (headers.take ((Delimiter.find crlf headers).getD headers.length))
      else (Delimiter.find crlf headers).bind fun lineEnd => contentLengthLine (headers.drop (lineEnd + 2)) := by
  rw [contentLengthLine, headerLines]
  split
  · next hfind =>
    rw [hfind, Option.getD_none, List.take_length, Option.bind_none, List.find?_singleton]
  · next lineEnd hfind =>
    rw [hfind, Option.getD_some, Option.bind_some, List.find?_cons]
    cases isContentLengthLine (headers.take lineEnd) <;> rfl

lemma parseContentLength_eq (headers : Bytes) :
    parseContentLength headers =
      (contentLengthLine headers).bind fun line => parseLengthValue (line.drop contentLengthKey.length) := by
  fun_induction parseContentLength headers with
  | case1 =>
    have hnil : contentLengthLine [] = none := by
      rw [contentLengthLine_eq]
      rfl
    rw [hnil]
    rfl
  | case2 headers _ line hkey =>
    rw [contentLengthLine_eq, if_pos ((isContentLengthLine_iff _).mpr hkey), Option.bind_some]
  | case3 headers _ line hkey hfind =>
    rw [contentLengthLine_eq, if_neg (mt (isContentLengthLine_iff _).mp hkey), hfind]
    rfl
  | case4 headers _ line hkey lineEnd hfind ih =>
    rw [contentLengthLine_eq, if_neg (mt (isContentLengthLine_iff _).mp hkey), hfind, ih]
    rfl

theorem parseContentLength_right_iff (headers : Bytes) :
    (∀ n, parseContentLength headers = some n ↔ GivesContentLength headers n) ↔
      ¬ ∃ line, contentLengthLine headers = some line ∧ Misread (line.drop contentLengthKey.length) := by
  simp only [parseContentLength_eq, GivesContentLength]
  cases contentLengthLine headers with
  | none => simp
  | some line =>
    simp only [Option.bind_some, Option.some.injEq, exists_eq_left']
    exact parseLengthValue_right_iff _

def trailingLetterHeaders : Bytes := ascii "Content-Length: 5x" ++ crlf ++ crlf

theorem parseContentLength_takes_trailing_letter :
    parseContentLength trailingLetterHeaders = some 5 ∧ ¬ GivesContentLength trailingLetterHeaders 5 := by
  have hline : contentLengthLine trailingLetterHeaders = some (ascii "Content-Length: 5x") := by
    rw [contentLengthLine_eq]
    decide
  have hvalue : (ascii "Content-Length: 5x").drop contentLengthKey.length = [32, 53, 120] := by decide
  have hreading : Reading [32, 53, 120] [32] [] [53] [120] := by
    refine ⟨rfl, List.forall_mem_singleton.mpr rfl, .inl rfl, List.forall_mem_singleton.mpr rfl,
      List.cons_ne_nil _ _, ?_⟩
    rintro ch ⟨⟩
    exact Bool.false_ne_true
  constructor
  · rw [parseContentLength_eq, hline, Option.bind_some, hvalue]
    exact (hreading.parseLengthValue_iff 5).mpr ⟨withinLimit_iff.mpr ⟨by decide, by decide⟩, rfl⟩
  · rintro ⟨line, hline', hform, -⟩
    obtain rfl : _ = line := Option.some.inj (hline.symm.trans hline')
    rw [hvalue, lengthForm_iff_reading] at hform
    obtain ⟨spaces, sign, digits, tail, h, hplain, -⟩ := hform
    obtain ⟨-, -, -, rfl⟩ := hreading.unique h
    exact absurd (hplain.2.2 120 List.mem_cons_self) (by decide)

end DltxtBridge.Protocol
