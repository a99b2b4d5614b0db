import DltxtBridge.Documents.Lines
import DltxtBridge.TextParser.Lines

/-! `TextBlockParser`: pairs found by one expression over the whole text, and the lines it reports
for them against the lines of the document. -/

namespace DltxtBridge

def wideNewline : UInt32 := 0x0A

def buildLineStarts (text : WideText) : List ℕ :=
  0 :: (List.range' 1 (text.length - 1)).filter fun index => text[index - 1]? = some wideNewline

/-- `std::upper_bound` on a sorted range, as a position. -/
def upperBound (lineStarts : List ℕ) (index : ℕ) : ℕ := lineStarts.findIdx fun start => index < start

def queryLineNumber (lineStarts : List ℕ) (index : ℕ) : ℕ :=
  if upperBound lineStarts index = 0 then 0 else upperBound lineStarts index - 1

def countNewlines (text : WideText) (start stop : ℕ) : ℕ := ((text.take stop).drop start).count wideNewline

structure Span (text : WideText) (base : ℕ) where
  start : ℕ
  stop : ℕ
  base_le : base ≤ start
  start_le : start ≤ stop
  stop_le : stop ≤ text.length

namespace Span

variable {text : WideText} {base : ℕ}

def str (span : Span text base) : WideText := (text.take span.stop).drop span.start

lemma start_le_length (span : Span text base) : span.start ≤ text.length := span.start_le.trans span.stop_le

end Span

structure BlockMatch (text : WideText) where
  position : ℕ
  jp : Option (Span text position)
  cn : Option (Span text position)

/-- A compiled block expression and the matches an iterator finds with it. -/
abbrev BlockRegex := (text : WideText) → List (BlockMatch text)

structure TextBlockParser where
  blockRegex : BlockRegex
  originalLineRegex : LineRegex
  translatedLineRegex : LineRegex

structure ReportedBlock (text : WideText) where
  position : ℕ
  jp : Span text position
  cn : Span text position
  original : MatchedGroups
  translated : MatchedGroups

namespace ReportedBlock

variable {text : WideText}

def blockLine (block : ReportedBlock text) : ℕ := queryLineNumber (buildLineStarts text) block.position

def originalLine (block : ReportedBlock text) : ℕ :=
  block.blockLine + countNewlines text block.position block.jp.start

def translatedLine (block : ReportedBlock text) : ℕ :=
  block.blockLine + countNewlines text block.position block.cn.start

def pair (block : ReportedBlock text) : Option ParsedPair :=
  (adjust block.original block.translated).map fun (original, translated) =>
    { original := original
      translated := translated
      originalLineIndex := block.originalLine
      translatedLineIndex := block.translatedLine }

lemma exists_pair (block : ReportedBlock text) :
    ∃ pair, block.pair = some pair ∧ pair.originalLineIndex = block.originalLine ∧
      pair.translatedLineIndex = block.translatedLine := by
  obtain ⟨original, translated, hadjust, -⟩ := adjust_eq block.original block.translated
  rw [ReportedBlock.pair, hadjust]
  exact ⟨_, rfl, rfl, rfl⟩

end ReportedBlock

namespace TextBlockParser

/-- `none` is a match the loop passes over. -/
def reportedBlock (parser : TextBlockParser) {text : WideText} (found : BlockMatch text) :
    Option (ReportedBlock text) := do
  let jp ← found.jp
  let cn ← found.cn
  let original ← matchLine (u16FromWstring jp.str) parser.originalLineRegex
  let translated ← matchLine (u16FromWstring cn.str) parser.translatedLineRegex
  some
    { position := found.position
      jp := jp
      cn := cn
      original := original
      translated := translated }

def reportedBlocks (parser : TextBlockParser) (text : WideText) : List (ReportedBlock text) :=
  (parser.blockRegex text).filterMap parser.reportedBlock

def parse (parser : TextBlockParser) : TextParser := fun text =>
  (parser.reportedBlocks (wstringFromU16 text)).mapM ReportedBlock.pair

lemma exists_parse (parser : TextBlockParser) (text : Text) :
    ∃ pairs, parser.parse text = some pairs ∧
      List.Forall₂ (fun block pair => pair.originalLineIndex = block.originalLine ∧
        pair.translatedLineIndex = block.translatedLine) (parser.reportedBlocks (wstringFromU16 text)) pairs := by
  rw [parse]
  induction parser.reportedBlocks (wstringFromU16 text) with
  | nil => exact ⟨[], rfl, .nil⟩
  | cons block blocks ih =>
    obtain ⟨pairs, hpairs, hall⟩ := ih
    obtain ⟨pair, hpair, hlines⟩ := block.exists_pair
    refine ⟨pair :: pairs, ?_, .cons hlines hall⟩
    rw [List.mapM_cons, hpair, hpairs]
    rfl

end TextBlockParser

section LineStarts

variable {text : WideText} {index : ℕ}

def newlinesBefore (text : WideText) (index : ℕ) : ℕ := (text.take index).count wideNewline

/-- The position behind a newline that ends the text; the table has no line that starts there. -/
def AfterLastNewline (text : WideText) (index : ℕ) : Prop :=
  index = text.length ∧ text.getLast? = some wideNewline

lemma upperBound_eq_countP {lineStarts : List ℕ} (hsorted : lineStarts.Pairwise (· < ·)) (index : ℕ) :
    upperBound lineStarts index = lineStarts.countP fun start => start ≤ index := by
  induction hsorted with
  | nil => rfl
  | @cons start rest hlater hsorted ih =>
    rw [upperBound] at ih
    rw [upperBound, List.findIdx_cons, List.countP_cons]
    by_cases hstart : start ≤ index
    · rw [ih, decide_eq_false (not_lt.mpr hstart), decide_eq_true hstart]
      rfl
    · have hnone : rest.countP (fun start => start ≤ index) = 0 := by
        rw [List.countP_eq_zero]
        intro later hmem
        have hlt := hlater later hmem
        rw [decide_eq_true_eq]
        omega
      rw [hnone, decide_eq_true (not_le.mp hstart), decide_eq_false hstart]
      rfl

lemma sorted_buildLineStarts (text : WideText) : (buildLineStarts text).Pairwise (· < ·) := by
  refine List.pairwise_cons.mpr ⟨fun start hmem => ?_, List.Pairwise.filter _ List.pairwise_lt_range'⟩
  have hrange := List.mem_range'_1.mp (List.mem_of_mem_filter hmem)
  exact hrange.1

lemma countP_starts (text : WideText) (index count : ℕ) (hcount : count ≤ text.length) :
    ((List.range' 1 count).filter fun start => text[start - 1]? = some wideNewline).countP
        (fun start => start ≤ index) =
      newlinesBefore text (min index count) := by
  induction count with
  | zero => rw [Nat.min_zero]; rfl
  | succ count ih =>
    obtain ⟨ch, hread⟩ : ∃ ch, text[count]? = some ch := ⟨_, List.getElem?_eq_getElem hcount⟩
    rw [List.range'_1_concat, List.filter_append, List.countP_append, ih (Nat.le_of_succ_le hcount)]
    rcases Nat.lt_or_ge count index with hlt | hge
    · rw [min_eq_right hlt.le, min_eq_right (Nat.succ_le_of_lt hlt), newlinesBefore, newlinesBefore,
        List.take_add_one, hread, List.count_append]
      by_cases hnewline : ch = wideNewline
      · simp [hread, hnewline, Nat.add_comm 1 count, hlt]
      · simp [hread, hnewline]
    · rw [min_eq_left hge, min_eq_left (hge.trans count.le_succ)]
      have hnone : ¬ 1 + count ≤ index := by omega
      by_cases hnewline : ch = wideNewline
      · simp [hread, hnewline, hnone]
      · simp [hread, hnewline]

lemma queryLineNumber_eq (text : WideText) (index : ℕ) :
    queryLineNumber (buildLineStarts text) index = newlinesBefore text (min index (text.length - 1)) := by
  have hupper : upperBound (buildLineStarts text) index =
      newlinesBefore text (min index (text.length - 1)) + 1 := by
    rw [upperBound_eq_countP (sorted_buildLineStarts text), buildLineStarts, List.countP_cons,
      countP_starts text index _ (Nat.sub_le _ _), decide_eq_true index.zero_le]
    rfl
  rw [queryLineNumber, hupper, if_neg (Nat.succ_ne_zero _), Nat.add_sub_cancel]

lemma newlinesBefore_length (init : WideText) (last : UInt32) :
    newlinesBefore (init ++ [last]) (init ++ [last]).length =
      newlinesBefore (init ++ [last]) ((init ++ [last]).length - 1) + if last = wideNewline then 1 else 0 := by
  have hlength : (init ++ [last]).length - 1 = init.length := by simp
  rw [newlinesBefore, newlinesBefore, hlength, List.take_length, List.take_left, List.count_append]
  simp [List.count_singleton]

lemma queryLineNumber_add (hindex : index ≤ text.length) [Decidable (AfterLastNewline text index)] :
    queryLineNumber (buildLineStarts text) index + (if AfterLastNewline text index then 1 else 0) =
      newlinesBefore text index := by
  rw [queryLineNumber_eq]
  rcases List.eq_nil_or_concat' text with rfl | ⟨init, last, rfl⟩
  · have hnot : ¬ AfterLastNewline [] index := fun h => by cases h.2
    rw [if_neg hnot, Nat.le_zero.mp hindex]
    rfl
  · rcases hindex.lt_or_eq with hlt | rfl
    · have hnot : ¬ AfterLastNewline (init ++ [last]) index := fun h => hlt.ne h.1
      rw [if_neg hnot, min_eq_left (Nat.le_sub_one_of_lt hlt), Nat.add_zero]
    · rw [newlinesBefore_length, min_eq_right (Nat.sub_le _ _)]
      congr 1
      simp [AfterLastNewline]

lemma newlinesBefore_add (text : WideText) {start stop : ℕ} (hle : start ≤ stop) :
    newlinesBefore text start + countNewlines text start stop = newlinesBefore text stop := by
  have htake : (text.take stop).take start = text.take start := by rw [List.take_take, min_eq_left hle]
  rw [newlinesBefore, newlinesBefore, countNewlines, ← htake, ← List.count_append, List.take_append_drop]

end LineStarts

section DocumentLines

open Documents Segments

def documentLine (text : Text) (offset : ℕ) : ℕ :=
  (splitLines text).length - (splitLines (text.drop offset)).length

def LoneReturn (text : Text) (offset : ℕ) : Prop :=
  ∃ index < offset, text[index]? = some carriageReturn ∧ text[index + 1]? ≠ some newline

lemma loneReturn_cons (ch : UInt16) (text : Text) (offset : ℕ) :
    LoneReturn (ch :: text) (offset + 1) ↔
      (ch = carriageReturn ∧ text.head? ≠ some newline) ∨ LoneReturn text offset := by
  constructor
  · rintro ⟨index, hlt, hreturn, hnext⟩
    cases index with
    | zero =>
      rw [List.getElem?_cons_zero, Option.some.injEq] at hreturn
      rw [List.getElem?_cons_succ, ← List.head?_eq_getElem?] at hnext
      exact .inl ⟨hreturn, hnext⟩
    | succ index => exact .inr ⟨index, Nat.lt_of_succ_lt_succ hlt, hreturn, hnext⟩
  · rintro (⟨rfl, hnext⟩ | ⟨index, hlt, hreturn, hnext⟩)
    · refine ⟨0, offset.succ_pos, rfl, ?_⟩
      rwa [List.getElem?_cons_succ, ← List.head?_eq_getElem?]
    · exact ⟨index + 1, Nat.succ_lt_succ hlt, hreturn, hnext⟩

lemma length_splitLines_cons (ch : UInt16) (rest : Text) :
    (splitLines (ch :: rest)).length = (splitLines rest).length +
      if ch = newline ∨ (ch = carriageReturn ∧ rest.head? ≠ some newline) then 1 else 0 := by
  have hne : newline ≠ carriageReturn := by decide
  rw [splitLines_eq, splitLines_eq, length_splitOn, length_splitOn]
  by_cases hcrlf : ch = carriageReturn ∧ rest.head? = some newline
  · obtain ⟨rfl, hhead⟩ := hcrlf
    obtain ⟨tail, rfl⟩ := List.head?_eq_some_iff.mp hhead
    have hcrlf : normalizeNewlines (carriageReturn :: newline :: tail) = newline :: normalizeNewlines tail := by
      rw [carriageReturn, newline, normalizeNewlines, newline]
    have htail : normalizeNewlines (newline :: tail) = newline :: normalizeNewlines tail := by
      rw [normalizeNewlines_cons (fun _ h => absurd h hne), if_neg hne]
    rw [hcrlf, htail, if_neg (by simp [hne.symm])]
  · have hcons : normalizeNewlines (ch :: rest) =
        (if ch = carriageReturn then newline else ch) :: normalizeNewlines rest :=
      normalizeNewlines_cons fun tail hch hrest => hcrlf ⟨hch, by rw [hrest]; rfl⟩
    rw [hcons, List.count_cons]
    by_cases hreturn : ch = carriageReturn
    · have hhead : rest.head? ≠ some newline := fun h => hcrlf ⟨hreturn, h⟩
      simp [hreturn, hhead]
    · by_cases hnewline : ch = newline
      · simp [hnewline, hne]
      · simp [hreturn, hnewline]

lemma length_splitLines_append (front back : Text) :
    front.count newline + (splitLines back).length ≤ (splitLines (front ++ back)).length ∧
      (front.count newline + (splitLines back).length = (splitLines (front ++ back)).length ↔
        ¬ LoneReturn (front ++ back) front.length) := by
  induction front with
  | nil =>
    refine ⟨by simp, iff_of_true (by simp) ?_⟩
    rintro ⟨index, hlt, -⟩
    exact absurd hlt (Nat.not_lt_zero index)
  | cons ch front ih =>
    have hne : newline ≠ carriageReturn := by decide
    obtain ⟨hle, hiff⟩ := ih
    rw [List.cons_append, length_splitLines_cons, List.length_cons, loneReturn_cons, not_or, ← hiff,
      List.count_cons]
    by_cases hnewline : ch = newline
    · simp only [hnewline, hne, beq_self_eq_true, false_and, or_false, if_true, not_false_eq_true, true_and]
      omega
    · have hbeq : (ch == newline) = false := beq_eq_false_iff_ne.mpr hnewline
      by_cases hlone : ch = carriageReturn ∧ (front ++ back).head? ≠ some newline
      · rw [hbeq, if_neg Bool.false_ne_true, if_pos (Or.inr hlone)]
        exact ⟨by omega, iff_of_false (by omega) fun h => h.1 hlone⟩
      · have hnone : ¬ (ch = newline ∨ ch = carriageReturn ∧ (front ++ back).head? ≠ some newline) :=
          not_or.mpr ⟨hnewline, hlone⟩
        rw [hbeq, if_neg Bool.false_ne_true, if_neg hnone, and_iff_right hlone]
        exact ⟨hle, Iff.rfl⟩

def textOffset (text : WideText) (index : ℕ) : ℕ := (u16FromWstring (text.take index)).length

lemma count_u16FromWideChar {text : Text} {codepoint : UInt32} (hmem : codepoint ∈ wstringFromU16 text) :
    (u16FromWideChar codepoint).count newline = if codepoint = wideNewline then 1 else 0 := by
  have hunit : ∀ ch : UInt16, (u16FromWideChar ch.toUInt32).count newline =
      if ch.toUInt32 = wideNewline then 1 else 0 := by
    intro ch
    have hiff : ch.toUInt32 = wideNewline ↔ ch = newline := UInt16.toUInt32_inj (a := ch) (b := newline)
    rw [u16FromWideChar_toUInt32, List.count_singleton]
    simp [hiff]
  fun_induction wstringFromU16 text with
  | case1 => cases hmem
  | case2 ch =>
    rw [List.mem_singleton.mp hmem]
    exact hunit ch
  | case3 ch low rest hpair ih =>
    rcases List.mem_cons.mp hmem with rfl | hmem
    · rw [Bool.and_eq_true] at hpair
      obtain ⟨hch, -, hlow, -, hcombined⟩ := toNat_combineSurrogates hpair.1 hpair.2
      have hne : combineSurrogates ch low ≠ wideNewline := by
        intro heq
        rw [heq] at hcombined
        change 10 = _ at hcombined
        omega
      have hch' : ch ≠ newline := fun h => absurd (h ▸ hch) (by decide)
      have hlow' : low ≠ newline := fun h => absurd (h ▸ hlow) (by decide)
      rw [u16FromWideChar_combineSurrogates hpair.1 hpair.2, if_neg hne, List.count_cons_of_ne hch',
        List.count_cons_of_ne hlow', List.count_nil]
    · exact ih hmem
  | case4 ch low rest _ ih =>
    rcases List.mem_cons.mp hmem with rfl | hmem
    · exact hunit ch
    · exact ih hmem

lemma count_u16FromWstring {wide : WideText}
    (h : ∀ codepoint ∈ wide, (u16FromWideChar codepoint).count newline = if codepoint = wideNewline then 1 else 0) :
    (u16FromWstring wide).count newline = wide.count wideNewline := by
  induction wide with
  | nil => rfl
  | cons codepoint wide ih =>
    rw [List.forall_mem_cons] at h
    rw [u16FromWstring, List.flatMap_cons, List.count_append, h.1, List.count_cons, ← u16FromWstring, ih h.2,
      Nat.add_comm]
    simp

lemma documentLine_eq_iff (text : Text) (index : ℕ) :
    newlinesBefore (wstringFromU16 text) index = documentLine text (textOffset (wstringFromU16 text) index) ↔
      ¬ LoneReturn text (textOffset (wstringFromU16 text) index) := by
  obtain ⟨front, hfront⟩ : ∃ front, u16FromWstring ((wstringFromU16 text).take index) = front := ⟨_, rfl⟩
  obtain ⟨back, hback⟩ : ∃ back, u16FromWstring ((wstringFromU16 text).drop index) = back := ⟨_, rfl⟩
  have htext : text = front ++ back := by
    rw [← hfront, ← hback, ← u16FromWstring_append, List.take_append_drop, u16FromWstring_wstringFromU16]
  have hcount : newlinesBefore (wstringFromU16 text) index = front.count newline := by
    rw [← hfront, count_u16FromWstring fun codepoint hmem => count_u16FromWideChar (List.mem_of_mem_take hmem)]
    rfl
  have hdrop : text.drop front.length = back := by rw [htext, List.drop_left]
  obtain ⟨hle, hiff⟩ := length_splitLines_append front back
  rw [textOffset, hfront, hcount, documentLine, hdrop, htext, ← hiff]
  omega

end DocumentLines

section Reported

variable {text : Text}

def LinesRight (text : Text) (block : ReportedBlock (wstringFromU16 text)) (pair : ParsedPair) : Prop :=
  (pair.originalLineIndex = newlinesBefore (wstringFromU16 text) block.jp.start ∧
    pair.originalLineIndex = documentLine text (textOffset (wstringFromU16 text) block.jp.start)) ∧
  (pair.translatedLineIndex = newlinesBefore (wstringFromU16 text) block.cn.start ∧
    pair.translatedLineIndex = documentLine text (textOffset (wstringFromU16 text) block.cn.start))

lemma groupLine_iff {text : WideText} {position : ℕ} (span : Span text position) :
    queryLineNumber (buildLineStarts text) position + countNewlines text position span.start =
      newlinesBefore text span.start ↔ ¬ AfterLastNewline text position := by
  classical
  have hquery := queryLineNumber_add (span.base_le.trans span.start_le_length)
  have hcount := newlinesBefore_add text span.base_le
  split_ifs at hquery with hlast
  · exact iff_of_false (by omega) (not_not_intro hlast)
  · exact iff_of_true (by omega) hlast

lemma linesRight_iff {block : ReportedBlock (wstringFromU16 text)} {pair : ParsedPair}
    (horiginal : pair.originalLineIndex = block.originalLine)
    (htranslated : pair.translatedLineIndex = block.translatedLine) :
    LinesRight text block pair ↔ ¬ AfterLastNewline (wstringFromU16 text) block.position ∧
      ¬ LoneReturn text (textOffset (wstringFromU16 text) block.jp.start) ∧
      ¬ LoneReturn text (textOffset (wstringFromU16 text) block.cn.start) := by
  have hjp : block.originalLine = newlinesBefore (wstringFromU16 text) block.jp.start ↔ _ := groupLine_iff block.jp
  have hcn : block.translatedLine = newlinesBefore (wstringFromU16 text) block.cn.start ↔ _ := groupLine_iff block.cn
  rw [LinesRight, horiginal, htranslated, hjp, hcn]
  constructor
  · rintro ⟨⟨hlast, hline⟩, -, hline'⟩
    rw [hjp.mpr hlast, documentLine_eq_iff] at hline
    rw [hcn.mpr hlast, documentLine_eq_iff] at hline'
    exact ⟨hlast, hline, hline'⟩
  · rintro ⟨hlast, hline, hline'⟩
    rw [hjp.mpr hlast, hcn.mpr hlast, documentLine_eq_iff, documentLine_eq_iff]
    exact ⟨⟨hlast, hline⟩, hlast, hline'⟩

/-- The line table misses the line behind a final newline, and the blocks count newlines where
the document breaks at lone carriage returns as well; nothing else goes wrong. -/
theorem blockLines_right_iff (parser : TextBlockParser) (text : Text) :
    (∀ (wide : WideText) (index : ℕ), index ≤ wide.length →
      (queryLineNumber (buildLineStarts wide) index = newlinesBefore wide index ↔ ¬ AfterLastNewline wide index)) ∧
    ∃ pairs, parser.parse text = some pairs ∧
      List.Forall₂ (fun block pair => LinesRight text block pair ↔
        ¬ AfterLastNewline (wstringFromU16 text) block.position ∧
        ¬ LoneReturn text (textOffset (wstringFromU16 text) block.jp.start) ∧
        ¬ LoneReturn text (textOffset (wstringFromU16 text) block.cn.start))
        (parser.reportedBlocks (wstringFromU16 text)) pairs := by
  constructor
  · intro wide index hindex
    classical
    have hquery := queryLineNumber_add hindex
    split_ifs at hquery with hlast
    · exact iff_of_false (by omega) (not_not_intro hlast)
    · exact iff_of_true hquery hlast
  · obtain ⟨pairs, hpairs, hlines⟩ := parser.exists_parse text
    exact ⟨pairs, hpairs, hlines.imp fun block pair h => linesRight_iff h.1 h.2⟩

def wholeLine : LineRegex := fun wideLine =>
  some { prefixText := some [], white := some [], text := some wideLine, suffix := some [] }

def secondLine : BlockRegex := fun text =>
  if h : 4 ≤ text.length then
    [{ position := 1
       jp := some ⟨1, 2, le_rfl, Nat.le_succ 1, (by decide : 2 ≤ 4).trans h⟩
       cn := some ⟨3, 4, by decide, Nat.le_succ 3, h⟩ }]
  else []

def blockParser : TextBlockParser := ⟨secondLine, wholeLine, wholeLine⟩

def threeLines : Text := [Documents.newline, 97, Documents.newline, 98]

theorem blockLines_right_second_line :
    ∃ block pair, blockParser.reportedBlocks (wstringFromU16 threeLines) = [block] ∧
      blockParser.parse threeLines = some [pair] ∧ block.position = 1 ∧ pair.originalLineIndex = 1 ∧
      pair.translatedLineIndex = 2 ∧ LinesRight threeLines block pair := by
  have hreturn : Documents.carriageReturn ∉ threeLines := by decide
  have hnone : ∀ offset, ¬ LoneReturn threeLines offset := by
    rintro offset ⟨index, -, hread, -⟩
    exact hreturn (List.mem_of_getElem? hread)
  obtain ⟨pairs, hpairs, hright⟩ := (blockLines_right_iff blockParser threeLines).2
  have hpositions : (blockParser.reportedBlocks (wstringFromU16 threeLines)).map ReportedBlock.position = [1] := by
    decide
  obtain ⟨block, hblocks, hposition⟩ := List.map_eq_singleton_iff.mp hpositions
  have hlines : (blockParser.parse threeLines).map (List.map fun pair =>
      (pair.originalLineIndex, pair.translatedLineIndex)) = some [(1, 2)] := by decide
  rw [hpairs, Option.map_some, Option.some.injEq] at hlines
  obtain ⟨pair, rfl, hpair⟩ := List.map_eq_singleton_iff.mp hlines
  obtain ⟨horiginal, htranslated⟩ := Prod.mk.inj hpair
  rw [hblocks, List.forall₂_cons] at hright
  refine ⟨block, pair, hblocks, hpairs, hposition, horiginal, htranslated, hright.1.mpr ⟨?_, hnone _, hnone _⟩⟩
  rw [hposition]
  rintro ⟨hlast, -⟩
  cases hlast

theorem queryLineNumber_short_after_last_newline :
    ¬ ∀ (wide : WideText) (index : ℕ), index ≤ wide.length →
      queryLineNumber (buildLineStarts wide) index = newlinesBefore wide index := by
  intro h
  exact absurd (h [wideNewline] 1 le_rfl) (by decide)

end Reported

end DltxtBridge
