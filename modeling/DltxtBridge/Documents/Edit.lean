import DltxtBridge.Documents.Lines
import Mathlib.Data.List.GetD

namespace DltxtBridge.Documents

open Segments

def offset (lines : List Text) (position : Position) : ℕ :=
  ((lines.take position.line).map fun line => line.length + 1).sum + position.character

def before (lines : List Text) (position : Position) : List Text :=
  lines.take position.line ++ [(lineAt lines position.line).take position.character]

def after (lines : List Text) (position : Position) : List Text :=
  (lineAt lines position.line).drop position.character :: lines.drop (position.line + 1)

def ValidPosition (lines : List Text) (position : Position) : Prop :=
  position.line < lines.length ∧ position.character ≤ (lineAt lines position.line).length

lemma before_ne_nil (lines : List Text) (position : Position) : before lines position ≠ [] := by
  simp [before]

lemma after_ne_nil (lines : List Text) (position : Position) : after lines position ≠ [] :=
  List.cons_ne_nil _ _

lemma glue_before_after {lines : List Text} {position : Position} (h : position.line < lines.length) :
    glue (before lines position) (after lines position) = lines := by
  rw [before, after, glue_concat, List.take_append_drop, lineAt, List.getD_eq_getElem _ _ h,
    List.getElem_cons_drop, List.take_append_drop]

lemma length_intercalate_concat (lines : List Text) (line : Text) :
    (List.intercalate [newline] (lines ++ [line])).length =
      (lines.map fun line => line.length + 1).sum + line.length := by
  induction lines with
  | nil => simp
  | cons first lines ih =>
    have hrest : lines ++ [line] ≠ [] := by simp
    rw [List.cons_append, List.intercalate_cons_of_ne_nil hrest, List.length_append, List.length_append, ih]
    simp only [List.length_singleton, List.map_cons, List.sum_cons]
    omega

lemma length_intercalate_before {lines : List Text} {position : Position}
    (h : ValidPosition lines position) :
    (List.intercalate [newline] (before lines position)).length = offset lines position := by
  rw [before, length_intercalate_concat, List.length_take, Nat.min_eq_left h.2]
  rfl

lemma intercalate_cut {lines : List Text} {position : Position} (h : ValidPosition lines position) :
    List.intercalate [newline] (before lines position) =
        (List.intercalate [newline] lines).take (offset lines position) ∧
      List.intercalate [newline] (after lines position) =
        (List.intercalate [newline] lines).drop (offset lines position) := by
  have hcontent : List.intercalate [newline] lines =
      List.intercalate [newline] (before lines position) ++
        List.intercalate [newline] (after lines position) := by
    rw [← intercalate_glue (before_ne_nil lines position) (after_ne_nil lines position),
      glue_before_after h.1]
  rw [hcontent, ← length_intercalate_before h]
  exact ⟨List.take_left.symm, List.drop_left.symm⟩

def OutOfRange (lines : List Text) (range : Range) : Prop :=
  range.stop.line < range.start.line ∨
    lines.length ≤ range.start.line ∨ lines.length ≤ range.stop.line ∨
    (lineAt lines range.start.line).length < range.start.character ∨
    (lineAt lines range.stop.line).length < range.stop.character ∨
    (range.start.line = range.stop.line ∧ range.stop.character < range.start.character)

lemma checkRange_eq_error_iff (lines : List Text) (range : Range) :
    (∃ message, checkRange lines range = .error message) ↔ OutOfRange lines range := by
  simp only [checkRange, OutOfRange]
  split_ifs <;> simp <;> omega

lemma checkRange_eq_ok {lines : List Text} {range : Range} (h : ¬ OutOfRange lines range) :
    checkRange lines range = .ok () := by
  cases hcheck : checkRange lines range with
  | ok => rfl
  | error message => exact absurd ((checkRange_eq_error_iff lines range).mp ⟨message, hcheck⟩) h

lemma validPosition_of_not_outOfRange {lines : List Text} {range : Range} (h : ¬ OutOfRange lines range) :
    ValidPosition lines range.start ∧ ValidPosition lines range.stop := by
  simp only [OutOfRange, ValidPosition] at h ⊢
  omega

lemma spliceLines_eq {lines patch : List Text} {range : Range} (hstart : range.start.line < lines.length)
    (hpatch : patch ≠ []) :
    spliceLines lines range patch =
      glue (glue (before lines range.start) patch) (after lines range.stop) :=
  spliceLines_eq_glue hstart hpatch

lemma intercalate_spliceLines {lines patch : List Text} {range : Range} (h : ¬ OutOfRange lines range)
    (hpatch : patch ≠ []) :
    List.intercalate [newline] (spliceLines lines range patch) =
      (List.intercalate [newline] lines).take (offset lines range.start) ++
        List.intercalate [newline] patch ++
        (List.intercalate [newline] lines).drop (offset lines range.stop) := by
  obtain ⟨hstart, hstop⟩ := validPosition_of_not_outOfRange h
  rw [spliceLines_eq hstart.1 hpatch, intercalate_glue (glue_ne_nil hpatch) (after_ne_nil lines range.stop),
    intercalate_glue (before_ne_nil lines range.start) hpatch, (intercalate_cut hstart).1,
    (intercalate_cut hstop).2]

def IsSplit (lines : List Text) : Prop :=
  lines ≠ [] ∧ ∀ line ∈ lines, newline ∉ line ∧ carriageReturn ∉ line

lemma isSplit_iff_flatten (lines : List Text) :
    IsSplit lines ↔ lines ≠ [] ∧ newline ∉ lines.flatten ∧ carriageReturn ∉ lines.flatten := by
  simp only [IsSplit, List.mem_flatten, not_exists, not_and]
  exact and_congr_right fun _ => forall₂_and

lemma isSplit_splitLines (text : Text) : IsSplit (splitLines text) := by
  rw [isSplit_iff_flatten, splitLines_eq, flatten_splitOn]
  refine ⟨splitOn_ne_nil newline _, ?_, ?_⟩
  · simp
  · intro h
    exact carriageReturn_notMem_normalizeNewlines text (List.mem_filter.mp h).1

lemma carriageReturn_notMem_intercalate {lines : List Text} (h : IsSplit lines) :
    carriageReturn ∉ List.intercalate [newline] lines := by
  obtain ⟨hne, hlines⟩ := h
  induction lines with
  | nil => exact absurd rfl hne
  | cons line lines ih =>
    cases lines with
    | nil => simpa using (hlines line List.mem_cons_self).2
    | cons next lines =>
      have hrest : next :: lines ≠ [] := List.cons_ne_nil next lines
      rw [List.intercalate_cons_of_ne_nil hrest, List.mem_append, List.mem_append, not_or, not_or]
      exact ⟨⟨(hlines line List.mem_cons_self).2, by decide⟩,
        ih hrest fun line' hline' => hlines line' (List.mem_cons_of_mem line hline')⟩

lemma splitLines_intercalate {lines : List Text} (h : IsSplit lines) :
    splitLines (List.intercalate [newline] lines) = lines := by
  rw [splitLines_eq, normalizeNewlines_of_notMem (carriageReturn_notMem_intercalate h)]
  exact List.splitOn_intercalate newline (fun line hline => (h.2 line hline).1) h.1

lemma subset_of_glue_before_after {lines : List Text} {position : Position} {ch : UInt16}
    (h : ValidPosition lines position) (hch : ch ∉ lines.flatten) :
    ch ∉ (before lines position).flatten ∧ ch ∉ (after lines position).flatten := by
  rw [← glue_before_after h.1, flatten_glue (after_ne_nil lines position), List.mem_append, not_or] at hch
  exact hch

lemma isSplit_spliceLines {lines patch : List Text} {range : Range} (h : ¬ OutOfRange lines range)
    (hlines : IsSplit lines) (hpatch : IsSplit patch) : IsSplit (spliceLines lines range patch) := by
  obtain ⟨hstart, hstop⟩ := validPosition_of_not_outOfRange h
  rw [isSplit_iff_flatten] at hlines hpatch ⊢
  obtain ⟨-, hnewline, hreturn⟩ := hlines
  obtain ⟨hne, hnewline', hreturn'⟩ := hpatch
  have hafter := after_ne_nil lines range.stop
  rw [spliceLines_eq hstart.1 hne, flatten_glue hafter, flatten_glue hne]
  refine ⟨glue_ne_nil hafter, ?_, ?_⟩
  · simp only [List.mem_append, not_or]
    exact ⟨⟨(subset_of_glue_before_after hstart hnewline).1, hnewline'⟩,
      (subset_of_glue_before_after hstop hnewline).2⟩
  · simp only [List.mem_append, not_or]
    exact ⟨⟨(subset_of_glue_before_after hstart hreturn).1, hreturn'⟩,
      (subset_of_glue_before_after hstop hreturn).2⟩

namespace TextDocument

inductive Construction
  | default
  | ofText (uri encoding : Bytes) (filePath : FsPath) (version : ℤ) (content : Text)
deriving DecidableEq

def construct : Construction → TextDocument
  | .default => { uri := [], encoding := [], filePath := {}, fileName := [], version := 0, lines := [] }
  | .ofText uri encoding filePath version content => create uri encoding filePath version content

inductive Call
  | setContent (content : Text) (version : ℤ)
  | edit (change : TextChange) (version : ℤ)

/-- Every exception of `edit` is thrown before its first write. -/
def call (document : TextDocument) : Call → TextDocument
  | .setContent content version => document.setContent content version
  | .edit change version => (document.edit change version).toOption.getD document

lemma edit_error {document : TextDocument} {range : Range} (text : Text) (version : ℤ)
    (h : OutOfRange document.lines range) :
    ∃ message, document.edit ⟨some range, text⟩ version = .error message := by
  obtain ⟨message, hmessage⟩ := (checkRange_eq_error_iff document.lines range).mpr h
  exact ⟨message, by simp only [edit, hmessage]⟩

lemma edit_ok {document : TextDocument} {range : Range} (text : Text) (version : ℤ)
    (h : ¬ OutOfRange document.lines range) :
    document.edit ⟨some range, text⟩ version =
      .ok { document with lines := spliceLines document.lines range (splitLines text), version := version } := by
  simp only [edit, checkRange_eq_ok h]

lemma edit_eq_error_iff (document : TextDocument) (range : Range) (text : Text) (version : ℤ) :
    (∃ message, document.edit ⟨some range, text⟩ version = .error message) ↔
      OutOfRange document.lines range := by
  refine ⟨?_, edit_error text version⟩
  rintro ⟨message, hmessage⟩
  by_contra h
  rw [edit_ok text version h] at hmessage
  cases hmessage

lemma call_edit_error {document : TextDocument} {range : Range} (text : Text) (version : ℤ)
    (h : OutOfRange document.lines range) :
    document.call (.edit ⟨some range, text⟩ version) = document := by
  obtain ⟨message, hmessage⟩ := edit_error text version h
  simp only [call, hmessage]
  rfl

lemma call_edit_ok {document : TextDocument} {range : Range} (text : Text) (version : ℤ)
    (h : ¬ OutOfRange document.lines range) :
    document.call (.edit ⟨some range, text⟩ version) =
      { document with lines := spliceLines document.lines range (splitLines text), version := version } := by
  simp only [call, edit_ok text version h]
  rfl

theorem edit_splices_content (document : TextDocument) (range : Range) (text : Text) (version : ℤ) :
    ((∃ message, document.edit ⟨some range, text⟩ version = .error message) ↔
      OutOfRange document.lines range) ∧
    (OutOfRange document.lines range → document.call (.edit ⟨some range, text⟩ version) = document) ∧
    (¬ OutOfRange document.lines range →
      ∃ edited, document.edit ⟨some range, text⟩ version = .ok edited ∧
        document.call (.edit ⟨some range, text⟩ version) = edited ∧ edited.version = version ∧
        edited.getContent =
          document.getContent.take (offset document.lines range.start) ++ normalizeNewlines text ++
            document.getContent.drop (offset document.lines range.stop)) := by
  refine ⟨edit_eq_error_iff document range text version, call_edit_error text version, ?_⟩
  intro h
  refine ⟨_, edit_ok text version h, call_edit_ok text version h, rfl, ?_⟩
  rw [← intercalate_splitLines]
  exact intercalate_spliceLines h (splitLines_ne_nil text)

def Call.setsText : Call → Bool
  | .setContent _ _ => true
  | .edit change _ => change.range.isNone

lemma isSplit_call_of_setsText (document : TextDocument) {c : Call} (h : c.setsText) :
    IsSplit (document.call c).lines := by
  cases c with
  | setContent content version => exact isSplit_splitLines content
  | edit change version =>
    obtain ⟨range, text⟩ := change
    cases range with
    | none => exact isSplit_splitLines text
    | some range => cases h

lemma isSplit_call {document : TextDocument} (h : IsSplit document.lines) (c : Call) :
    IsSplit (document.call c).lines := by
  by_cases hsets : c.setsText
  · exact isSplit_call_of_setsText document hsets
  obtain ⟨content, version⟩ | ⟨⟨range, text⟩, version⟩ := c
  · exact absurd rfl hsets
  cases range with
  | none => exact absurd rfl hsets
  | some range =>
    by_cases hrange : OutOfRange document.lines range
    · rwa [call_edit_error text version hrange]
    · rw [call_edit_ok text version hrange]
      exact isSplit_spliceLines hrange h (isSplit_splitLines text)

lemma isSplit_calls {document : TextDocument} (h : IsSplit document.lines) (calls : List Call) :
    IsSplit (calls.foldl call document).lines := by
  induction calls generalizing document with
  | nil => exact h
  | cons c calls ih => exact ih (isSplit_call h c)

lemma isSplit_calls_of_setsText (document : TextDocument) {calls : List Call} (h : ∃ c ∈ calls, c.setsText) :
    IsSplit (calls.foldl call document).lines := by
  induction calls generalizing document with
  | nil => simp at h
  | cons c calls ih =>
    by_cases hc : c.setsText
    · exact isSplit_calls (isSplit_call_of_setsText document hc) calls
    · rw [List.exists_mem_cons_iff, or_iff_right hc] at h
      exact ih (document.call c) h

lemma lines_calls_of_not_setsText {document : TextDocument} {calls : List Call} (hlines : document.lines = [])
    (h : ∀ c ∈ calls, ¬ c.setsText) : (calls.foldl call document).lines = [] := by
  induction calls generalizing document with
  | nil => exact hlines
  | cons c calls ih =>
    rw [List.forall_mem_cons] at h
    apply ih _ h.2
    obtain ⟨content, version⟩ | ⟨⟨range, text⟩, version⟩ := c
    · exact absurd rfl h.1
    cases range with
    | none => exact absurd rfl h.1
    | some range =>
      have hrange : OutOfRange document.lines range := by
        simp [OutOfRange, hlines]
      rwa [call_edit_error text version hrange]

theorem splitLines_getContent_calls (text : Text) (construction : Construction) (calls : List Call) :
    List.intercalate [newline] (splitLines text) = normalizeNewlines text ∧
      if construction = .default ∧ ∀ c ∈ calls, ¬ c.setsText then
        (calls.foldl call (construct construction)).lines = []
      else
        IsSplit (calls.foldl call (construct construction)).lines ∧
          splitLines (calls.foldl call (construct construction)).getContent =
            (calls.foldl call (construct construction)).lines := by
  refine ⟨intercalate_splitLines text, ?_⟩
  split_ifs with hunset
  · rw [hunset.1]
    exact lines_calls_of_not_setsText rfl hunset.2
  · have hsplit : IsSplit (calls.foldl call (construct construction)).lines := by
      cases construction with
      | default =>
        apply isSplit_calls_of_setsText
        simpa using hunset
      | ofText uri encoding filePath version content => exact isSplit_calls (isSplit_splitLines content) calls
    exact ⟨hsplit, splitLines_intercalate hsplit⟩

/-- A document made by the default constructor has no line until it is given a text. -/
theorem default_has_no_lines :
    ¬ ∀ (text : Text) (construction : Construction) (calls : List Call),
      List.intercalate [newline] (splitLines text) = normalizeNewlines text ∧
        IsSplit (calls.foldl call (construct construction)).lines ∧
          splitLines (calls.foldl call (construct construction)).getContent =
            (calls.foldl call (construct construction)).lines := by
  intro h
  exact (h [] .default []).2.1.1 rfl

end TextDocument

end DltxtBridge.Documents
