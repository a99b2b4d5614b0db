import DltxtBridge.Documents.Text
import DltxtBridge.Library.Segments

namespace DltxtBridge.Documents

open Segments

def Seam (x y : Text) : Prop := x.getLast? = some carriageReturn ∧ y.head? = some newline

instance (x y : Text) : Decidable (Seam x y) := inferInstanceAs (Decidable (_ ∧ _))

lemma Seam.of_cons {ch : UInt16} {x y : Text} (h : Seam x y) : Seam (ch :: x) y := by
  obtain ⟨hx, hy⟩ := h
  refine ⟨?_, hy⟩
  rw [List.getLast?_cons, hx]
  rfl

lemma normalizeNewlines_cons {ch : UInt16} {rest : Text}
    (h : ∀ tail, ch = 13 → rest = 10 :: tail → False) :
    normalizeNewlines (ch :: rest) =
      (if ch = carriageReturn then newline else ch) :: normalizeNewlines rest := by
  rw [normalizeNewlines.eq_2 ch rest h]

lemma normalizeNewlines_append {x y : Text} (h : ¬ Seam x y) :
    normalizeNewlines (x ++ y) = normalizeNewlines x ++ normalizeNewlines y := by
  fun_induction normalizeNewlines x with
  | case1 rest ih =>
    have hrest : ¬ Seam rest y := fun hs => h hs.of_cons.of_cons
    simp only [List.cons_append, normalizeNewlines, ih hrest]
  | case2 ch rest hcrlf ih =>
    have hrest : ¬ Seam rest y := fun hs => h hs.of_cons
    have hjoined : ∀ tail, ch = 13 → rest ++ y = 10 :: tail → False := by
      intro tail hch heq
      cases rest with
      | nil =>
        rw [List.nil_append] at heq
        exact h ⟨by rw [hch]; rfl, by rw [heq]; rfl⟩
      | cons c rest =>
        rw [List.cons_append, List.cons.injEq] at heq
        exact hcrlf rest hch (by rw [heq.1])
    rw [List.cons_append, normalizeNewlines_cons hjoined, ih hrest]
    rfl
  | case3 => rfl

lemma carriageReturn_notMem_normalizeNewlines (text : Text) :
    carriageReturn ∉ normalizeNewlines text := by
  fun_induction normalizeNewlines text with
  | case1 rest ih =>
    rw [List.mem_cons, not_or]
    exact ⟨by decide, ih⟩
  | case2 ch rest _ ih =>
    rw [List.mem_cons, not_or]
    refine ⟨?_, ih⟩
    split_ifs with hch
    · decide
    · exact Ne.symm hch
  | case3 => exact List.not_mem_nil

lemma normalizeNewlines_of_notMem {text : Text} (h : carriageReturn ∉ text) :
    normalizeNewlines text = text := by
  fun_induction normalizeNewlines text with
  | case1 rest ih => exact absurd List.mem_cons_self h
  | case2 ch rest _ ih =>
    rw [List.mem_cons, not_or] at h
    rw [if_neg (Ne.symm h.1), ih h.2]
  | case3 => rfl

lemma splitLinesFrom_eq (line text : Text) :
    splitLinesFrom line text = ((normalizeNewlines text).splitOn newline).modifyHead (line ++ ·) := by
  fun_induction splitLinesFrom line text with
  | case1 line rest ih =>
    rw [ih, normalizeNewlines, splitOn_cons_self]
    cases List.splitOn newline (normalizeNewlines rest) <;> simp
  | case2 line ch rest hcrlf hbreak ih =>
    have hch : (if ch = carriageReturn then newline else ch) = newline := by
      rcases hbreak with rfl | rfl
      · decide
      · rfl
    rw [ih, normalizeNewlines_cons hcrlf, hch, splitOn_cons_self]
    cases List.splitOn newline (normalizeNewlines rest) <;> simp
  | case3 line ch rest hcrlf hbreak ih =>
    rw [not_or] at hbreak
    rw [ih, normalizeNewlines_cons hcrlf, if_neg hbreak.2, splitOn_cons_of_ne hbreak.1]
    cases List.splitOn newline (normalizeNewlines rest) <;> simp
  | case4 line => simp [normalizeNewlines, List.splitOn_nil]

theorem splitLines_eq (text : Text) : splitLines text = (normalizeNewlines text).splitOn newline := by
  rw [splitLines, splitLinesFrom_eq]
  cases (normalizeNewlines text).splitOn newline <;> rfl

lemma splitLines_ne_nil (text : Text) : splitLines text ≠ [] := by
  rw [splitLines_eq]
  exact splitOn_ne_nil _ _

lemma splitLines_append {x y : Text} (h : ¬ Seam x y) :
    splitLines (x ++ y) = glue (splitLines x) (splitLines y) := by
  rw [splitLines_eq, normalizeNewlines_append h, splitOn_append, ← splitLines_eq, ← splitLines_eq]

theorem intercalate_splitLines (text : Text) :
    List.intercalate [newline] (splitLines text) = normalizeNewlines text := by
  rw [splitLines_eq, List.intercalate_splitOn]

lemma splitLines_normalizeNewlines (text : Text) :
    splitLines (normalizeNewlines text) = splitLines text := by
  rw [splitLines_eq, splitLines_eq,
    normalizeNewlines_of_notMem (carriageReturn_notMem_normalizeNewlines text)]

lemma spliceLines_eq_glue {lines patch : List Text} {range : Range}
    (hstart : range.start.line < lines.length) (hpatch : patch ≠ []) :
    spliceLines lines range patch =
      glue (glue (lines.take range.start.line ++
          [(lineAt lines range.start.line).take range.start.character]) patch)
        ((lineAt lines range.stop.line).drop range.stop.character :: lines.drop (range.stop.line + 1)) := by
  rcases List.eq_nil_or_concat' patch with rfl | ⟨init, last, rfl⟩
  · exact absurd rfl hpatch
  cases init with
  | nil =>
    rw [List.nil_append, glue_concat, glue_concat]
    by_cases hsame : range.start.line = range.stop.line
    · simp [spliceLines, ← hsame, List.set_eq_take_append_cons_drop, hstart]
    · simp [spliceLines, hsame]
  | cons first init =>
    have hhead : glue (lines.take range.start.line ++
        [(lineAt lines range.start.line).take range.start.character]) (first :: init ++ [last]) =
        lines.take range.start.line ++
          ((lineAt lines range.start.line).take range.start.character ++ first) :: init ++ [last] := by
      rw [List.cons_append, glue_concat]
      simp
    rw [hhead, glue_concat]
    simp only [spliceLines, List.length_append, List.length_cons, List.length_nil, List.headD,
      List.getLastD_concat]
    simp

end DltxtBridge.Documents
