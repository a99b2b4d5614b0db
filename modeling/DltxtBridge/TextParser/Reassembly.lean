import DltxtBridge.TextParser.Lines

namespace DltxtBridge

lemma flatten_map_u16FromWstring (pieces : List WideText) :
    (pieces.map u16FromWstring).flatten = u16FromWstring pieces.flatten := by
  induction pieces with
  | nil => rfl
  | cons piece pieces ih => rw [List.map_cons, List.flatten_cons, ih, List.flatten_cons, u16FromWstring_append]

lemma flatten_map_of_cut {text : Text} {pieces : List WideText} (hcut : pieces.flatten = wstringFromU16 text) :
    (pieces.map u16FromWstring).flatten = text := by
  rw [flatten_map_u16FromWstring, hcut, u16FromWstring_wstringFromU16]

def LineMatch.Covers (found : LineMatch) (wideLine : WideText) : Prop :=
  ∃ prefixText white text suffix : WideText,
    found = { prefixText := some prefixText, white := some white, text := some text, suffix := some suffix } ∧
      [prefixText, white, text, suffix].flatten = wideLine

lemma matchLine_of_covers {regex : LineRegex} {line : Text} {found : LineMatch}
    (hfound : regex (wstringFromU16 line) = some found) (hcovers : found.Covers (wstringFromU16 line)) :
    ∃ groups, matchLine line regex = some groups ∧ groups.line = line := by
  obtain ⟨prefixText, white, text, suffix, rfl, hcut⟩ := hcovers
  have hline := flatten_map_of_cut hcut
  refine ⟨⟨u16FromWstring prefixText, u16FromWstring white, u16FromWstring text, u16FromWstring suffix⟩, ?_, ?_⟩
  · rw [matchLine, hfound]
    rfl
  · rw [MatchedGroups.line, List.append_assoc, List.append_assoc]
    simpa using hline

theorem groups_reassemble_line :
    (∀ (text : Text) (pieces : List WideText), pieces.flatten = wstringFromU16 text →
      (pieces.map u16FromWstring).flatten = text) ∧
    ∀ (regex : LineRegex) (line : Text) (found : LineMatch), regex (wstringFromU16 line) = some found →
      found.Covers (wstringFromU16 line) → ∃ groups, matchLine line regex = some groups ∧ groups.line = line :=
  ⟨fun _ _ hcut => flatten_map_of_cut hcut, fun _ _ _ hfound hcovers => matchLine_of_covers hfound hcovers⟩

def halves : Text := [0xD83D, 0xD83D, 0xDE00, 0xDC00]

def cutHalves : List WideText := [[0xD83D], [0x1F600], [], [0xDC00]]

def cutRegex : LineRegex := fun wideLine =>
  some
    { prefixText := some (wideLine.take 1)
      white := some ((wideLine.drop 1).take 1)
      text := some []
      suffix := some (wideLine.drop 2) }

theorem groups_reassemble_halves :
    (cutHalves.map u16FromWstring).flatten = halves ∧
      ∃ groups, matchLine halves cutRegex = some groups ∧ groups.line = halves := by
  obtain ⟨hpieces, hgroups⟩ := groups_reassemble_line
  refine ⟨hpieces halves cutHalves (by decide), hgroups cutRegex halves _ rfl ?_⟩
  exact ⟨_, _, _, _, rfl, by decide⟩

namespace StandardTextParser

def Covering (regex : LineRegex) : Prop :=
  ∀ wideLine found, regex wideLine = some found → found.Covers wideLine

variable {parser : StandardTextParser} {lines : List Text} {groups : MatchedGroups} {index : ℕ}

lemma line_of_matchLine {regex : LineRegex} {line : Text} (hcovering : Covering regex)
    (hmatch : matchLine line regex = some groups) : groups.line = line := by
  obtain ⟨found, hfound, -⟩ := Option.bind_eq_some_iff.mp hmatch
  obtain ⟨groups', hmatch', hline⟩ := matchLine_of_covers hfound (hcovering _ found hfound)
  rw [hmatch] at hmatch'
  cases hmatch'
  exact hline

lemma trimRight_of_matched {regex : LineRegex} (hcovering : Covering regex)
    (h : (lines[index]?.bind fun line => matchLine (trimRight line) regex) = some groups) :
    lines[index]?.map trimRight = some groups.line := by
  obtain ⟨line, hline, hmatch⟩ := Option.bind_eq_some_iff.mp h
  rw [hline, Option.map_some, line_of_matchLine hcovering hmatch]

theorem parsePairedLines_reassembles (horiginal : Covering parser.originalLineRegex)
    (htranslated : Covering parser.translatedLineRegex) (lines : List Text) :
    ∃ pairs, parser.parsePairedLines lines = some pairs ∧ ∀ pair ∈ pairs,
      lines[pair.originalLineIndex]?.map trimRight = some pair.original.line ∧
        lines[pair.translatedLineIndex]?.map trimRight = some pair.translated.line := by
  obtain ⟨pairs, hpairs, hspec⟩ := pairLinesFrom_spec parser lines lines none 0 rfl pendingAt_zero
  refine ⟨pairs, hpairs, fun pair hmem => ?_⟩
  obtain ⟨original, translated, horiginalAt, htranslatedAt, hadjust⟩ := hspec.adjusted pair hmem
  obtain ⟨hline, hline'⟩ := line_of_adjust hadjust
  rw [hline, hline']
  exact ⟨trimRight_of_matched horiginal horiginalAt, trimRight_of_matched htranslated htranslatedAt⟩

end StandardTextParser

end DltxtBridge
