import DltxtBridge.Documents.Lines

namespace DltxtBridge.Documents

open Segments

def prepend (head : Text) (cut : Text × Text) : Text × Text := (head ++ cut.1, cut.2)

def cutAt : Text → ℕ → ℕ → Option (Text × Text)
  | text, 0, 0 => some ([], text)
  | ch :: rest, 0, character + 1 =>
    if ch = newline ∨ ch = carriageReturn then none
    else (cutAt rest 0 character).map (prepend [ch])
  | 13 :: 10 :: rest, line + 1, character => (cutAt rest line character).map (prepend [13, 10])
  | ch :: rest, line + 1, character =>
    if ch = newline ∨ ch = carriageReturn then (cutAt rest line character).map (prepend [ch])
    else (cutAt rest (line + 1) character).map (prepend [ch])
  | [], _, _ => none

def Range.ordered (range : Range) : Prop :=
  range.start.line < range.stop.line ∨
    range.start.line = range.stop.line ∧ range.start.character ≤ range.stop.character

instance : DecidablePred Range.ordered := fun _ => inferInstanceAs (Decidable (_ ∨ _))

def outside (buffer : Text) (range : Range) : Option (Text × Text) :=
  if range.ordered then
    (cutAt buffer range.start.line range.start.character).bind fun before =>
      (cutAt buffer range.stop.line range.stop.character).map fun after => (before.1, after.2)
  else none

def changeBuffer (buffer : Text) (change : TextChange) : Option Text :=
  match change.range with
  | none => some change.text
  | some range => (outside buffer range).map fun kept => kept.1 ++ change.text ++ kept.2

/-- The edit puts no "\r" directly in front of a "\n". -/
def SeamFree (buffer : Text) (change : TextChange) : Prop :=
  ∀ range ∈ change.range, ∀ kept ∈ outside buffer range,
    ¬ Seam kept.1 (change.text ++ kept.2) ∧ ¬ Seam change.text kept.2

instance (buffer : Text) (change : TextChange) : Decidable (SeamFree buffer change) :=
  inferInstanceAs (Decidable (∀ range ∈ change.range, ∀ kept ∈ outside buffer range, _ ∧ _))

section Cut

lemma splitLines_crlf (rest : Text) : splitLines (13 :: 10 :: rest) = [] :: splitLines rest := rfl

lemma splitLines_break {ch : UInt16} {rest : Text} (hcrlf : ∀ tail, ch = 13 → rest = 10 :: tail → False)
    (hbreak : ch = newline ∨ ch = carriageReturn) :
    splitLines (ch :: rest) = [] :: splitLines rest := by
  rw [splitLines, splitLinesFrom.eq_2 [] ch rest hcrlf, if_pos hbreak, splitLines]

lemma splitLines_char {ch : UInt16} {rest : Text} (hbreak : ¬ (ch = newline ∨ ch = carriageReturn)) :
    splitLines (ch :: rest) = (splitLines rest).modifyHead (ch :: ·) := by
  have hcrlf : ∀ tail, ch = 13 → rest = 10 :: tail → False := by
    rintro tail rfl -
    exact hbreak (Or.inr rfl)
  rw [not_or] at hbreak
  rw [splitLines_eq, normalizeNewlines_cons hcrlf, if_neg hbreak.2, splitOn_cons_of_ne hbreak.1,
    ← splitLines_eq]

lemma lineAt_cons_succ (x : Text) (xs : List Text) (line : ℕ) :
    lineAt (x :: xs) (line + 1) = lineAt xs line := rfl

structure CutLines (text : Text) (line character : ℕ) (cut : Text × Text) : Prop where
  joined : cut.1 ++ cut.2 = text
  line_lt : line < (splitLines text).length
  character_le : character ≤ (lineAt (splitLines text) line).length
  before : splitLines cut.1 =
    (splitLines text).take line ++ [(lineAt (splitLines text) line).take character]
  after : splitLines cut.2 =
    (lineAt (splitLines text) line).drop character :: (splitLines text).drop (line + 1)

lemma CutLines.zero (text : Text) : CutLines text 0 0 ([], text) := by
  obtain ⟨x, xs, hx⟩ := List.exists_cons_of_ne_nil (splitLines_ne_nil text)
  constructor
  · rfl
  · simp [hx]
  · simp
  · simp [splitLines, splitLinesFrom]
  · simp [hx, lineAt]

lemma CutLines.char {ch : UInt16} {rest : Text} (hbreak : ¬ (ch = newline ∨ ch = carriageReturn))
    {character : ℕ} {cut : Text × Text} (h : CutLines rest 0 character cut) :
    CutLines (ch :: rest) 0 (character + 1) (prepend [ch] cut) := by
  obtain ⟨x, xs, hx⟩ := List.exists_cons_of_ne_nil (splitLines_ne_nil rest)
  have hcharacter := h.character_le
  have hbefore := h.before
  have hafter := h.after
  rw [hx] at hcharacter hbefore hafter
  constructor
  · exact congrArg (ch :: ·) h.joined
  · simp [splitLines_char hbreak, hx]
  · simpa [splitLines_char hbreak, hx, lineAt] using hcharacter
  · rw [prepend, List.singleton_append, splitLines_char hbreak, splitLines_char hbreak, hx, hbefore]
    simp [lineAt]
  · rw [prepend, splitLines_char hbreak, hx]
    simpa [lineAt] using hafter

lemma CutLines.skip {ch : UInt16} {rest : Text} (hbreak : ¬ (ch = newline ∨ ch = carriageReturn))
    {line character : ℕ} {cut : Text × Text} (h : CutLines rest (line + 1) character cut) :
    CutLines (ch :: rest) (line + 1) character (prepend [ch] cut) := by
  obtain ⟨x, xs, hx⟩ := List.exists_cons_of_ne_nil (splitLines_ne_nil rest)
  have hline := h.line_lt
  have hcharacter := h.character_le
  have hbefore := h.before
  have hafter := h.after
  rw [hx] at hline hcharacter hbefore hafter
  constructor
  · exact congrArg (ch :: ·) h.joined
  · simpa [splitLines_char hbreak, hx] using hline
  · simpa [splitLines_char hbreak, hx, lineAt_cons_succ] using hcharacter
  · rw [prepend, List.singleton_append, splitLines_char hbreak, splitLines_char hbreak, hx, hbefore]
    simp [lineAt_cons_succ]
  · rw [prepend, splitLines_char hbreak, hx]
    simpa [lineAt_cons_succ] using hafter

lemma CutLines.lineBreak {rest : Text} {line character : ℕ} {cut : Text × Text}
    (h : CutLines rest line character cut) (terminator : Text)
    (hwhole : splitLines (terminator ++ rest) = [] :: splitLines rest)
    (hcut : splitLines (terminator ++ cut.1) = [] :: splitLines cut.1) :
    CutLines (terminator ++ rest) (line + 1) character (prepend terminator cut) := by
  constructor
  · rw [prepend, List.append_assoc, h.joined]
  · rw [hwhole]
    exact Nat.succ_lt_succ h.line_lt
  · rw [hwhole, lineAt_cons_succ]
    exact h.character_le
  · rw [prepend, hcut, hwhole, lineAt_cons_succ, h.before]
    rfl
  · rw [prepend, hwhole, lineAt_cons_succ, h.after]
    rfl

lemma cutAt_cutLines {text : Text} {line character : ℕ} {cut : Text × Text}
    (h : cutAt text line character = some cut) : CutLines text line character cut := by
  fun_induction cutAt text line character generalizing cut with
  | case1 text =>
    cases h
    exact CutLines.zero text
  | case2 => cases h
  | case3 ch rest character hbreak ih =>
    obtain ⟨cut, hcut, rfl⟩ := Option.map_eq_some_iff.mp h
    exact (ih hcut).char hbreak
  | case4 rest line character ih =>
    obtain ⟨cut, hcut, rfl⟩ := Option.map_eq_some_iff.mp h
    exact (ih hcut).lineBreak [13, 10] (splitLines_crlf rest) (splitLines_crlf cut.1)
  | case5 ch rest line character hcrlf hbreak ih =>
    obtain ⟨cut, hcut, rfl⟩ := Option.map_eq_some_iff.mp h
    have hrest := ih hcut
    have hcut : ∀ tail, ch = 13 → cut.1 = 10 :: tail → False := by
      intro tail hch htail
      apply hcrlf (tail ++ cut.2) hch
      rw [← hrest.joined, htail, List.cons_append]
    exact hrest.lineBreak [ch] (splitLines_break hcrlf hbreak) (splitLines_break hcut hbreak)
  | case6 ch rest line character hcrlf hbreak ih =>
    obtain ⟨cut, hcut, rfl⟩ := Option.map_eq_some_iff.mp h
    exact (ih hcut).skip hbreak
  | case7 => cases h

lemma exists_splitLines_break {ch : UInt16} (rest : Text) (hbreak : ch = newline ∨ ch = carriageReturn) :
    ∃ lines, splitLines (ch :: rest) = [] :: lines := by
  by_cases hcrlf : ∃ tail, ch = 13 ∧ rest = 10 :: tail
  · obtain ⟨tail, rfl, rfl⟩ := hcrlf
    exact ⟨splitLines tail, splitLines_crlf tail⟩
  · exact ⟨splitLines rest, splitLines_break (fun tail hch hrest => hcrlf ⟨tail, hch, hrest⟩) hbreak⟩

lemma exists_cutAt {text : Text} {line character : ℕ} (hline : line < (splitLines text).length)
    (hcharacter : character ≤ (lineAt (splitLines text) line).length) :
    ∃ cut, cutAt text line character = some cut := by
  fun_induction cutAt text line character with
  | case1 text => exact ⟨([], text), rfl⟩
  | case2 ch rest character hbreak =>
    obtain ⟨lines, hlines⟩ := exists_splitLines_break rest hbreak
    rw [hlines] at hcharacter
    cases hcharacter
  | case3 ch rest character hbreak ih =>
    obtain ⟨x, xs, hx⟩ := List.exists_cons_of_ne_nil (splitLines_ne_nil rest)
    rw [splitLines_char hbreak, hx] at hcharacter
    obtain ⟨cut, hcut⟩ := ih (by simp [hx]) (by simpa [hx, lineAt] using hcharacter)
    exact ⟨prepend [ch] cut, by rw [hcut, Option.map_some]⟩
  | case4 rest line character ih =>
    rw [splitLines_crlf] at hline hcharacter
    obtain ⟨cut, hcut⟩ := ih (Nat.lt_of_succ_lt_succ hline) hcharacter
    exact ⟨prepend [13, 10] cut, by rw [hcut, Option.map_some]⟩
  | case5 ch rest line character hcrlf hbreak ih =>
    rw [splitLines_break hcrlf hbreak] at hline hcharacter
    obtain ⟨cut, hcut⟩ := ih (Nat.lt_of_succ_lt_succ hline) hcharacter
    exact ⟨prepend [ch] cut, by rw [hcut, Option.map_some]⟩
  | case6 ch rest line character hcrlf hbreak ih =>
    obtain ⟨x, xs, hx⟩ := List.exists_cons_of_ne_nil (splitLines_ne_nil rest)
    rw [splitLines_char hbreak, hx] at hline hcharacter
    obtain ⟨cut, hcut⟩ := ih (by simpa [hx] using hline) (by simpa [hx, lineAt] using hcharacter)
    exact ⟨prepend [ch] cut, by rw [hcut, Option.map_some]⟩
  | case7 line character hstart =>
    have hzero : line = 0 := Nat.lt_one_iff.mp hline
    subst hzero
    exact absurd (Nat.le_zero.mp hcharacter) (hstart rfl)

end Cut

lemma outside_eq_some {buffer : Text} {range : Range} {kept : Text × Text}
    (h : outside buffer range = some kept) :
    range.ordered ∧ (∃ rest, cutAt buffer range.start.line range.start.character = some (kept.1, rest)) ∧
      ∃ head, cutAt buffer range.stop.line range.stop.character = some (head, kept.2) := by
  by_cases hordered : range.ordered
  · rw [outside, if_pos hordered, Option.bind_eq_some_iff] at h
    obtain ⟨before, hbefore, h⟩ := h
    obtain ⟨after, hafter, rfl⟩ := Option.map_eq_some_iff.mp h
    exact ⟨hordered, ⟨before.2, hbefore⟩, after.1, hafter⟩
  · rw [outside, if_neg hordered] at h
    cases h

lemma checkRange_of_outside {buffer : Text} {range : Range} {kept : Text × Text}
    (h : outside buffer range = some kept) : checkRange (splitLines buffer) range = .ok () := by
  obtain ⟨hordered, ⟨rest, hstart⟩, head, hstop⟩ := outside_eq_some h
  have hs := cutAt_cutLines hstart
  have ht := cutAt_cutLines hstop
  have hline : ¬ range.stop.line < range.start.line := by
    rcases hordered with hlt | ⟨heq, -⟩ <;> omega
  have hbounds : ¬ ((splitLines buffer).length ≤ range.start.line ∨
      (splitLines buffer).length ≤ range.stop.line) := by
    have := hs.line_lt
    have := ht.line_lt
    omega
  have hcharacters : ¬ ((lineAt (splitLines buffer) range.start.line).length < range.start.character ∨
      (lineAt (splitLines buffer) range.stop.line).length < range.stop.character) := by
    have := hs.character_le
    have := ht.character_le
    omega
  have hsame : ¬ (range.start.line = range.stop.line ∧ range.stop.character < range.start.character) := by
    rcases hordered with hlt | ⟨-, hle⟩ <;> omega
  rw [checkRange, if_neg hline, if_neg hbounds, if_neg hcharacters, if_neg hsame]

lemma outside_of_checkRange {buffer : Text} {range : Range}
    (h : checkRange (splitLines buffer) range = .ok ()) : ∃ kept, outside buffer range = some kept := by
  rw [checkRange] at h
  split_ifs at h with horder hline hcharacter hsame
  obtain ⟨before, hbefore⟩ : ∃ cut, cutAt buffer range.start.line range.start.character = some cut :=
    exists_cutAt (by omega) (by omega)
  obtain ⟨after, hafter⟩ : ∃ cut, cutAt buffer range.stop.line range.stop.character = some cut :=
    exists_cutAt (by omega) (by omega)
  have hordered : range.ordered := by
    rw [Range.ordered]
    omega
  exact ⟨(before.1, after.2), by rw [outside, if_pos hordered, hbefore, hafter]; rfl⟩

lemma edit_error_of_changeBuffer {buffer : Text} {change : TextChange}
    (hchange : changeBuffer buffer change = none) {document : TextDocument}
    (hlines : document.lines = splitLines buffer) (version : ℤ) :
    ∃ message, document.edit change version = .error message := by
  rw [changeBuffer] at hchange
  cases hrange : change.range with
  | none =>
    rw [hrange] at hchange
    cases hchange
  | some range =>
    rw [hrange, Option.map_eq_none_iff] at hchange
    simp only [TextDocument.edit, hrange, hlines]
    cases hcheck : checkRange (splitLines buffer) range with
    | error message => exact ⟨message, rfl⟩
    | ok =>
      obtain ⟨kept, hkept⟩ := outside_of_checkRange hcheck
      rw [hkept] at hchange
      cases hchange

lemma edit_splitLines {buffer edited : Text} {change : TextChange} (hseam : SeamFree buffer change)
    (hchange : changeBuffer buffer change = some edited) {document : TextDocument}
    (hlines : document.lines = splitLines buffer) (version : ℤ) :
    document.edit change version =
      .ok { document with version := version, lines := splitLines edited } := by
  rw [changeBuffer] at hchange
  cases hrange : change.range with
  | none =>
    rw [hrange] at hchange
    cases hchange
    simp only [TextDocument.edit, hrange, TextDocument.setContent]
  | some range =>
    rw [hrange] at hchange
    obtain ⟨kept, hkept, rfl⟩ := Option.map_eq_some_iff.mp hchange
    obtain ⟨hbefore, hafter⟩ := hseam range hrange kept hkept
    obtain ⟨-, ⟨rest, hstart⟩, head, hstop⟩ := outside_eq_some hkept
    have hs := cutAt_cutLines hstart
    have ht := cutAt_cutLines hstop
    have hsplice : spliceLines (splitLines buffer) range (splitLines change.text) =
        splitLines (kept.1 ++ change.text ++ kept.2) := by
      have hwhole : ¬ Seam (kept.1 ++ change.text) kept.2 := by
        rintro ⟨hlast, hhead⟩
        cases htext : change.text with
        | nil =>
          rw [htext, List.append_nil] at hlast
          exact hbefore ⟨hlast, by rw [htext]; exact hhead⟩
        | cons ch text =>
          rw [htext, List.getLast?_append_cons] at hlast
          exact hafter ⟨by rw [htext]; exact hlast, hhead⟩
      have hfirst : ¬ Seam kept.1 change.text := by
        rintro ⟨hlast, hhead⟩
        exact hbefore ⟨hlast, by rw [List.head?_append, hhead]; rfl⟩
      rw [spliceLines_eq_glue hs.line_lt (splitLines_ne_nil _), splitLines_append hwhole,
        splitLines_append hfirst, hs.before, ht.after]
    simp only [TextDocument.edit, hrange, hlines, checkRange_of_outside hkept, hsplice]

end DltxtBridge.Documents
