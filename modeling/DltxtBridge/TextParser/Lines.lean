import DltxtBridge.Documents.Text
import DltxtBridge.Library.NearestPair
import DltxtBridge.TextParser.Quotes
import DltxtBridge.TextParser.WideStrings
import Mathlib.Data.List.DropRight

namespace DltxtBridge

/-- The named groups of a match; `none` is a group that took no part in it. -/
structure LineMatch where
  prefixText : Option WideText
  white : Option WideText
  text : Option WideText
  suffix : Option WideText

/-- A compiled line expression and the search for it. -/
abbrev LineRegex := WideText → Option LineMatch

def isTrimmed (ch : UInt16) : Bool := ch = 0x20 || ch = 0x09 || ch = 0x0D || ch = 0x0A

def trimRight (text : Text) : Text := text.rdropWhile isTrimmed

def matchLine (line : Text) (regex : LineRegex) : Option MatchedGroups := do
  let found ← regex (wstringFromU16 line)
  let prefixText ← found.prefixText
  let white ← found.white
  let text ← found.text
  let suffix ← found.suffix
  some
    { prefixText := u16FromWstring prefixText
      white := u16FromWstring white
      text := u16FromWstring text
      suffix := u16FromWstring suffix }

structure StandardTextParser where
  originalLineRegex : LineRegex
  translatedLineRegex : LineRegex

namespace StandardTextParser

/-- The loop of `parse_paired_lines` from `lineIndex` on; `pending` holds an original line and its index. -/
def pairLinesFrom (parser : StandardTextParser) :
    Option (MatchedGroups × ℕ) → ℕ → List Text → Option (List ParsedPair)
  | _, _, [] => some []
  | pending, lineIndex, line :: lines =>
    match matchLine (trimRight line) parser.originalLineRegex with
    | some original => parser.pairLinesFrom (some (original, lineIndex)) (lineIndex + 1) lines
    | none =>
      match pending with
      | none => parser.pairLinesFrom none (lineIndex + 1) lines
      | some (original, pendingLine) =>
        match matchLine (trimRight line) parser.translatedLineRegex with
        | none => parser.pairLinesFrom (some (original, pendingLine)) (lineIndex + 1) lines
        | some translated =>
          (adjust original translated).bind fun (original, translated) =>
            (parser.pairLinesFrom none (lineIndex + 1) lines).map
              ({ original := original
                 translated := translated
                 originalLineIndex := pendingLine
                 translatedLineIndex := lineIndex } :: ·)

def parsePairedLines (parser : StandardTextParser) (lines : List Text) : Option (List ParsedPair) :=
  parser.pairLinesFrom none 0 lines

def parse (parser : StandardTextParser) : TextParser := fun text => parser.parsePairedLines (Documents.splitLines text)

section Pairing

open NearestPair

variable (parser : StandardTextParser) (lines : List Text)

def originalAt (index : ℕ) : Option MatchedGroups :=
  lines[index]?.bind fun line => matchLine (trimRight line) parser.originalLineRegex

def translatedAt (index : ℕ) : Option MatchedGroups :=
  lines[index]?.bind fun line => matchLine (trimRight line) parser.translatedLineRegex

def IsOriginal (index : ℕ) : Prop := ∃ groups, parser.originalAt lines index = some groups

def IsTranslated (index : ℕ) : Prop := ∃ groups, parser.translatedAt lines index = some groups

def NearestOriginal : ℕ → ℕ → Prop := Nearest (parser.IsOriginal lines) (parser.IsTranslated lines)

def Unpaired : ℕ → ℕ → Prop := Waits (parser.IsOriginal lines) (parser.IsTranslated lines)

def lineIndices (pair : ParsedPair) : List ℕ := [pair.originalLineIndex, pair.translatedLineIndex]

structure PairsFrom (n : ℕ) (pairs : List ParsedPair) : Prop where
  nearest : ∀ i j, (∃ pair ∈ pairs, lineIndices pair = [i, j]) ↔ n ≤ j ∧ parser.NearestOriginal lines i j
  ascending : (pairs.flatMap lineIndices).Pairwise (· < ·)
  adjusted : ∀ pair ∈ pairs, ∃ original translated,
    parser.originalAt lines pair.originalLineIndex = some original ∧
    parser.translatedAt lines pair.translatedLineIndex = some translated ∧
    adjust original translated = some (pair.original, pair.translated)

def PendingAt (pending : Option (MatchedGroups × ℕ)) (n : ℕ) : Prop :=
  ∀ original i, pending = some (original, i) ↔ parser.Unpaired lines i n ∧ parser.originalAt lines i = some original

variable {parser lines} {n : ℕ} {line : Text} {original translated : MatchedGroups}

lemma originalAt_eq (hline : lines[n]? = some line) :
    parser.originalAt lines n = matchLine (trimRight line) parser.originalLineRegex := by
  rw [originalAt, hline, Option.bind_some]

lemma translatedAt_eq (hline : lines[n]? = some line) :
    parser.translatedAt lines n = matchLine (trimRight line) parser.translatedLineRegex := by
  rw [translatedAt, hline, Option.bind_some]

lemma not_isOriginal (h : parser.originalAt lines n = none) : ¬ parser.IsOriginal lines n := by
  rintro ⟨groups, hgroups⟩
  rw [h] at hgroups
  cases hgroups

lemma not_isTranslated (h : parser.translatedAt lines n = none) : ¬ parser.IsTranslated lines n := by
  rintro ⟨groups, hgroups⟩
  rw [h] at hgroups
  cases hgroups

lemma pendingAt_zero : parser.PendingAt lines none 0 := by
  intro original i
  exact ⟨nofun, fun h => absurd h.1 (not_waits_zero i)⟩

lemma pendingAt_original (h : parser.originalAt lines n = some original) :
    parser.PendingAt lines (some (original, n)) (n + 1) := by
  intro groups i
  rw [Unpaired, waits_succ_iff]
  constructor
  · intro heq
    cases heq
    exact ⟨.inl ⟨rfl, original, h⟩, h⟩
  · rintro ⟨⟨rfl, -⟩ | ⟨-, hnot, -⟩, hgroups⟩
    · rw [h, Option.some.injEq] at hgroups
      rw [hgroups]
    · exact absurd ⟨original, h⟩ hnot

lemma PendingAt.neither {pending : Option (MatchedGroups × ℕ)} (hpending : parser.PendingAt lines pending n)
    (horiginal : ¬ parser.IsOriginal lines n) (hkept : pending = none ∨ ¬ parser.IsTranslated lines n) :
    parser.PendingAt lines pending (n + 1) := by
  intro groups i
  rw [hpending groups i]
  simp only [Unpaired]
  rw [waits_succ_iff]
  constructor
  · rintro ⟨hwaits, hgroups⟩
    refine ⟨.inr ⟨hwaits, horiginal, ?_⟩, hgroups⟩
    rcases hkept with rfl | htranslated
    · cases (hpending groups i).mpr ⟨hwaits, hgroups⟩
    · exact htranslated
  · rintro ⟨⟨-, horiginal'⟩ | ⟨hwaits, -, -⟩, hgroups⟩
    · exact absurd horiginal' horiginal
    · exact ⟨hwaits, hgroups⟩

lemma pendingAt_paired (horiginal : ¬ parser.IsOriginal lines n) (htranslated : parser.IsTranslated lines n) :
    parser.PendingAt lines none (n + 1) := by
  intro groups i
  rw [Unpaired, waits_succ_iff]
  constructor
  · exact nofun
  · rintro ⟨⟨-, horiginal'⟩ | ⟨-, -, hnot⟩, -⟩
    · exact absurd horiginal' horiginal
    · exact absurd htranslated hnot

lemma PairsFrom.skip {pairs : List ParsedPair} (h : parser.PairsFrom lines (n + 1) pairs)
    (hnone : ∀ i, ¬ parser.NearestOriginal lines i n) : parser.PairsFrom lines n pairs := by
  refine ⟨fun i j => ?_, h.ascending, h.adjusted⟩
  rw [h.nearest i j]
  constructor
  · rintro ⟨hle, hnearest⟩
    exact ⟨Nat.le_of_succ_le hle, hnearest⟩
  · rintro ⟨hle, hnearest⟩
    rcases hle.lt_or_eq with hlt | rfl
    · exact ⟨hlt, hnearest⟩
    · exact absurd hnearest (hnone i)

lemma PairsFrom.cons {pairs : List ParsedPair} {pair : ParsedPair} (h : parser.PairsFrom lines (n + 1) pairs)
    (hn : pair.translatedLineIndex = n) (hpair : parser.NearestOriginal lines pair.originalLineIndex n)
    (horiginal : parser.originalAt lines pair.originalLineIndex = some original)
    (htranslated : parser.translatedAt lines n = some translated)
    (hadjust : adjust original translated = some (pair.original, pair.translated)) :
    parser.PairsFrom lines n (pair :: pairs) := by
  refine ⟨fun i j => ?_, ?_, ?_⟩
  · rw [List.exists_mem_cons_iff, h.nearest i j, lineIndices, hn]
    constructor
    · rintro (heq | ⟨hle, hnearest⟩)
      · cases heq
        exact ⟨le_rfl, hpair⟩
      · exact ⟨Nat.le_of_succ_le hle, hnearest⟩
    · rintro ⟨hle, hnearest⟩
      rcases hle.lt_or_eq with hlt | rfl
      · exact .inr ⟨hlt, hnearest⟩
      · have hunique := (nearest_iff_waits.mp hpair).1.unique (nearest_iff_waits.mp hnearest).1
        exact .inl (by rw [hunique])
  · rw [List.flatMap_cons, lineIndices, hn, List.cons_append, List.cons_append, List.nil_append]
    have hlater : ∀ index ∈ pairs.flatMap lineIndices, n < index := by
      intro index hindex
      obtain ⟨later, hmem, hindex⟩ := List.mem_flatMap.mp hindex
      obtain ⟨hle, hnearest⟩ := (h.nearest _ _).mp ⟨later, hmem, rfl⟩
      rcases List.mem_pair.mp hindex with rfl | rfl
      · exact hpair.lt_of_lt hnearest hle
      · exact hle
    refine List.pairwise_cons.mpr ⟨?_, List.pairwise_cons.mpr ⟨hlater, h.ascending⟩⟩
    intro index hindex
    rcases List.mem_cons.mp hindex with rfl | hindex
    · exact hpair.lt
    · exact hpair.lt.trans (hlater index hindex)
  · intro member hmem
    rcases List.mem_cons.mp hmem with rfl | hmem
    · exact ⟨original, translated, horiginal, hn ▸ htranslated, hadjust⟩
    · exact h.adjusted member hmem

lemma pairsFrom_nil (hend : lines.length ≤ n) : parser.PairsFrom lines n [] := by
  refine ⟨fun i j => ⟨?_, ?_⟩, List.Pairwise.nil, ?_⟩
  · rintro ⟨pair, hmem, -⟩
    cases hmem
  · rintro ⟨hle, hnearest⟩
    obtain ⟨groups, hgroups⟩ := hnearest.closing
    rw [translatedAt, List.getElem?_eq_none (hend.trans hle)] at hgroups
    cases hgroups
  · intro pair hmem
    cases hmem

lemma pairLinesFrom_spec (parser : StandardTextParser) (lines : List Text) (rest : List Text)
    (pending : Option (MatchedGroups × ℕ)) (n : ℕ)
    (hrest : lines.drop n = rest) (hpending : parser.PendingAt lines pending n) :
    ∃ pairs, parser.pairLinesFrom pending n rest = some pairs ∧ parser.PairsFrom lines n pairs := by
  induction rest generalizing pending n with
  | nil => exact ⟨[], rfl, pairsFrom_nil (List.drop_eq_nil_iff.mp hrest)⟩
  | cons line rest ih =>
    have hline : lines[n]? = some line := by
      have h := @List.getElem?_drop _ lines n 0
      rwa [hrest, Nat.add_zero, List.getElem?_cons_zero, eq_comm] at h
    have hnext : lines.drop (n + 1) = rest := by rw [← List.tail_drop, hrest, List.tail_cons]
    rw [pairLinesFrom.eq_def]
    dsimp only
    rw [← originalAt_eq hline, ← translatedAt_eq hline]
    cases horiginal : parser.originalAt lines n with
    | some original =>
      obtain ⟨pairs, hpairs, hspec⟩ := ih _ _ hnext (pendingAt_original horiginal)
      refine ⟨pairs, hpairs, hspec.skip fun i hnearest => ?_⟩
      exact (nearest_iff_waits.mp hnearest).2.2 ⟨original, horiginal⟩
    | none =>
      have hnot := not_isOriginal horiginal
      cases pending with
      | none =>
        obtain ⟨pairs, hpairs, hspec⟩ := ih _ _ hnext (hpending.neither hnot (.inl rfl))
        refine ⟨pairs, hpairs, hspec.skip fun i hnearest => ?_⟩
        obtain ⟨original, hi⟩ := hnearest.opening
        cases (hpending original i).mpr ⟨(nearest_iff_waits.mp hnearest).1, hi⟩
      | some slot =>
        obtain ⟨original, i⟩ := slot
        obtain ⟨hwaits, hi⟩ := (hpending original i).mp rfl
        cases htranslated : parser.translatedAt lines n with
        | none =>
          have hother := not_isTranslated htranslated
          obtain ⟨pairs, hpairs, hspec⟩ := ih _ _ hnext (hpending.neither hnot (.inr hother))
          exact ⟨pairs, hpairs, hspec.skip fun i hnearest => hother hnearest.closing⟩
        | some translated =>
          obtain ⟨original', translated', hadjust, -⟩ := adjust_eq original translated
          obtain ⟨pairs, hpairs, hspec⟩ := ih _ _ hnext (pendingAt_paired hnot ⟨translated, htranslated⟩)
          dsimp only
          rw [hadjust, Option.bind_some, hpairs]
          refine ⟨_, rfl, hspec.cons rfl ?_ hi htranslated hadjust⟩
          exact nearest_iff_waits.mpr ⟨hwaits, ⟨translated, htranslated⟩, hnot⟩

end Pairing

lemma exists_parse (parser : StandardTextParser) (text : Text) : ∃ pairs, parser.parse text = some pairs := by
  obtain ⟨pairs, hpairs, -⟩ := pairLinesFrom_spec parser _ _ none 0 rfl pendingAt_zero
  exact ⟨pairs, hpairs⟩

theorem parsePairedLines_nearest (parser : StandardTextParser) (lines : List Text) :
    ∃ pairs, parser.parsePairedLines lines = some pairs ∧
      (∀ i j, (∃ pair ∈ pairs, lineIndices pair = [i, j]) ↔ parser.NearestOriginal lines i j) ∧
      (pairs.flatMap lineIndices).Pairwise (· < ·) ∧
      ∀ pair ∈ pairs, ∃ original translated,
        parser.originalAt lines pair.originalLineIndex = some original ∧
        parser.translatedAt lines pair.translatedLineIndex = some translated ∧
        adjust original translated = some (pair.original, pair.translated) := by
  obtain ⟨pairs, hpairs, hspec⟩ :=
    pairLinesFrom_spec parser lines lines none 0 rfl pendingAt_zero
  refine ⟨pairs, hpairs, fun i j => ?_, hspec.ascending, hspec.adjusted⟩
  rw [hspec.nearest i j]
  exact ⟨And.right, fun h => ⟨j.zero_le, h⟩⟩

end StandardTextParser

end DltxtBridge
