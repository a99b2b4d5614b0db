import DltxtBridge.Library.Brackets
import DltxtBridge.TextParser

namespace DltxtBridge

def kCornerOpenQuote : UInt16 := 0x300E

def kCornerCloseQuote : UInt16 := 0x300F

def kKagiOpenQuote : UInt16 := 0x300C

def kKagiCloseQuote : UInt16 := 0x300D

def kChineseOpenQuote : UInt16 := 0x201C

def kChineseCloseQuote : UInt16 := 0x201D

/-- The loop of `check_valid` from `index` on; the back of the source's stack is the head here. -/
def checkValidFrom (size : ℕ) : List ℕ → ℕ → Text → Bool × Bool
  | stack, _, [] => (stack.getLast? = some 0, false)
  | stack, index, ch :: rest =>
    if ch = kCornerOpenQuote then checkValidFrom size (index :: stack) (index + 1) rest
    else if ch = kCornerCloseQuote then
      match stack with
      | start :: stack =>
        if start = 0 ∧ index = size - 1 then (true, true) else checkValidFrom size stack (index + 1) rest
      | [] => if index = size - 1 then (false, true) else checkValidFrom size [] (index + 1) rest
    else checkValidFrom size stack (index + 1) rest

def checkValid (text : Text) : Bool × Bool := checkValidFrom text.length [] 0 text

namespace MatchedGroups

def line (groups : MatchedGroups) : Text := groups.prefixText ++ groups.white ++ groups.text ++ groups.suffix

/-- The front of the text goes to the white part; `none` is an empty text, which has none. -/
def moveFront (groups : MatchedGroups) (quote : UInt16) : Option MatchedGroups :=
  match groups.text with
  | [] => none
  | _ :: rest => some { groups with white := groups.white ++ [quote], text := rest }

def moveBack (groups : MatchedGroups) (quote : UInt16) : Option MatchedGroups :=
  match groups.text with
  | [] => none
  | _ :: _ => some { groups with suffix := quote :: groups.suffix, text := groups.text.dropLast }

end MatchedGroups

def adjustTranslatedFront (translated : MatchedGroups) : Option MatchedGroups :=
  match translated.text.head? with
  | none => some translated
  | some first =>
    if first = kCornerOpenQuote ∨ first = kChineseOpenQuote then translated.moveFront first else some translated

def adjustTranslatedBack (translated : MatchedGroups) : Option MatchedGroups :=
  match translated.text.getLast? with
  | none => some translated
  | some last =>
    if last = kCornerCloseQuote ∨ last = kChineseCloseQuote then translated.moveBack last else some translated

def adjustOriginal (movePrefix moveSuffix : Bool) (original : MatchedGroups) : Option MatchedGroups :=
  (if movePrefix then original.moveFront kCornerOpenQuote else some original).bind fun original =>
    if moveSuffix && !original.text.isEmpty then original.moveBack kCornerCloseQuote else some original

def adjustTranslated (movePrefix moveSuffix : Bool) (translated : MatchedGroups) : Option MatchedGroups :=
  (if movePrefix then adjustTranslatedFront translated else some translated).bind fun translated =>
    if moveSuffix then adjustTranslatedBack translated else some translated

def isQuoted (groups : MatchedGroups) : Bool :=
  groups.white.contains kKagiOpenQuote || groups.suffix.contains kKagiCloseQuote

/-- `adjust`; `none` is an access to an empty text. -/
def adjust (original translated : MatchedGroups) : Option (MatchedGroups × MatchedGroups) :=
  if isQuoted original || original.text.isEmpty then some (original, translated)
  else if original.text.head? ≠ some kCornerOpenQuote ∧ original.text.getLast? ≠ some kCornerCloseQuote then
    some (original, translated)
  else
    let (movePrefix, moveSuffix) := checkValid original.text
    if !movePrefix && !moveSuffix then some (original, translated)
    else do
      let original ← adjustOriginal movePrefix moveSuffix original
      let translated ← adjustTranslated movePrefix moveSuffix translated
      some (original, translated)

section Validity

open Brackets

variable {text : Text}

def Enclosed (text : Text) : Prop := Matched kCornerOpenQuote kCornerCloseQuote text 0 (text.length - 1)

def FirstUnmatched (text : Text) : Prop :=
  text.head? = some kCornerOpenQuote ∧ ∀ j, ¬ Matched kCornerOpenQuote kCornerCloseQuote text 0 j

def LastUnmatched (text : Text) : Prop :=
  text.getLast? = some kCornerCloseQuote ∧
    ∀ i, ¬ Matched kCornerOpenQuote kCornerCloseQuote text i (text.length - 1)

lemma corner_ne : kCornerOpenQuote ≠ kCornerCloseQuote := by decide

def openQuotes (text : Text) : List ℕ := scan kCornerOpenQuote kCornerCloseQuote text

lemma checkValidFrom_cons {size index : ℕ} (hlater : index ≠ size - 1) (stack : List ℕ) (ch : UInt16)
    (rest : Text) :
    checkValidFrom size stack index (ch :: rest) =
      checkValidFrom size (push kCornerOpenQuote kCornerCloseQuote stack index ch) (index + 1) rest := by
  rw [push, checkValidFrom.eq_def]
  dsimp only
  split_ifs with hopening hclosing
  · rfl
  · cases stack with
    | nil => rfl
    | cons start stack => exact if_neg fun h => hlater h.2
  · rfl

lemma checkValidFrom_concat (size : ℕ) (stack : List ℕ) (index : ℕ) (init : Text) (last : UInt16)
    (hsize : index + init.length + 1 = size) :
    checkValidFrom size stack index (init ++ [last]) =
      checkValidFrom size (scanFrom kCornerOpenQuote kCornerCloseQuote stack index init) (size - 1) [last] := by
  induction init generalizing stack index with
  | nil =>
    rw [← hsize]
    rfl
  | cons ch init ih =>
    rw [List.length_cons] at hsize
    rw [List.cons_append, checkValidFrom_cons (by omega), scanFrom]
    exact ih _ _ (by omega)

lemma checkValidFrom_last (stack : List ℕ) (index : ℕ) (last : UInt16) :
    checkValidFrom (index + 1) stack index [last] =
      if last = kCornerCloseQuote ∧ stack.head? = some 0 then (true, true)
      else if last = kCornerCloseQuote ∧ stack = [] then (false, true)
      else ((push kCornerOpenQuote kCornerCloseQuote stack index last).getLast? = some 0, false) := by
  rw [push]
  unfold checkValidFrom
  by_cases hopening : last = kCornerOpenQuote
  · simp [hopening, corner_ne, checkValidFrom]
  · by_cases hclosing : last = kCornerCloseQuote
    · cases stack with
      | nil => simp [hclosing, corner_ne.symm]
      | cons start stack => by_cases hstart : start = 0 <;> simp [hclosing, corner_ne.symm, hstart, checkValidFrom]
    · simp [hopening, hclosing, checkValidFrom]

lemma checkValid_concat (init : Text) (last : UInt16) :
    checkValid (init ++ [last]) =
      if last = kCornerCloseQuote ∧ (openQuotes init).head? = some 0 then (true, true)
      else if last = kCornerCloseQuote ∧ openQuotes init = [] then (false, true)
      else ((openQuotes (init ++ [last])).getLast? = some 0, false) := by
  have hlength : (init ++ [last]).length = init.length + 1 := by simp
  rw [checkValid, checkValidFrom_concat _ _ _ _ _ (by rw [hlength, Nat.zero_add]), hlength, Nat.add_sub_cancel,
    checkValidFrom_last, openQuotes, openQuotes, scan_concat]
  rfl

lemma enclosed_concat_iff (init : Text) (last : UInt16) :
    Enclosed (init ++ [last]) ↔ last = kCornerCloseQuote ∧ (openQuotes init).head? = some 0 := by
  have hlength : (init ++ [last]).length - 1 = init.length := by simp
  rw [Enclosed, hlength, openQuotes, ← matched_concat_iff corner_ne]
  constructor
  · intro h
    have hlast := h.getElem?_closing
    rw [List.getElem?_concat_length, Option.some.injEq] at hlast
    exact ⟨hlast, hlast ▸ h⟩
  · rintro ⟨rfl, h⟩
    exact h

lemma lastUnmatched_concat_iff (init : Text) (last : UInt16) :
    LastUnmatched (init ++ [last]) ↔ last = kCornerCloseQuote ∧ openQuotes init = [] := by
  have hlength : (init ++ [last]).length - 1 = init.length := by simp
  rw [LastUnmatched, hlength, List.getLast?_concat, Option.some.injEq]
  refine and_congr_right fun hlast => ?_
  subst hlast
  simp only [matched_concat_iff corner_ne]
  rw [← List.head?_eq_none_iff, Option.eq_none_iff_forall_ne_some]
  rfl

lemma firstUnmatched_iff (text : Text) : FirstUnmatched text ↔ (openQuotes text).getLast? = some 0 := by
  rw [openQuotes, getLast?_scan_iff corner_ne, mem_scan_iff corner_ne, FirstUnmatched, List.head?_eq_getElem?]

lemma openQuotes_concat_close {init : Text} (h : openQuotes init = []) :
    openQuotes (init ++ [kCornerCloseQuote]) = [] := by
  rw [openQuotes, scan_concat, push, if_neg corner_ne.symm, if_pos rfl]
  exact congrArg List.tail h

lemma not_firstUnmatched_of_enclosed (h : Enclosed text) : ¬ FirstUnmatched text := fun hfirst => hfirst.2 _ h

lemma not_lastUnmatched_of_enclosed (h : Enclosed text) : ¬ LastUnmatched text := fun hlast => hlast.2 _ h

lemma not_firstUnmatched_of_lastUnmatched (h : LastUnmatched text) : ¬ FirstUnmatched text := by
  rcases List.eq_nil_or_concat' text with rfl | ⟨init, last, rfl⟩
  · exact fun hfirst => by cases hfirst.1
  · obtain ⟨rfl, hinit⟩ := (lastUnmatched_concat_iff init last).mp h
    rw [firstUnmatched_iff, openQuotes_concat_close hinit]
    simp

lemma checkValid_eq (text : Text) [Decidable (Enclosed text)] [Decidable (FirstUnmatched text)]
    [Decidable (LastUnmatched text)] : checkValid text =
      if Enclosed text then (true, true) else if FirstUnmatched text then (true, false)
      else (false, LastUnmatched text) := by
  rcases List.eq_nil_or_concat' text with rfl | ⟨init, last, rfl⟩
  · have henclosed : ¬ Enclosed [] := fun h => by cases h.getElem?_opening
    have hfirst : ¬ FirstUnmatched [] := fun h => by cases h.1
    have hlast : ¬ LastUnmatched [] := fun h => by cases h.1
    simp only [henclosed, hfirst, hlast, if_false, decide_false]
    rfl
  · rw [checkValid_concat]
    by_cases henclosed : Enclosed (init ++ [last])
    · rw [if_pos henclosed, if_pos ((enclosed_concat_iff init last).mp henclosed)]
    rw [if_neg henclosed, if_neg fun h => henclosed ((enclosed_concat_iff init last).mpr h)]
    by_cases hlast : LastUnmatched (init ++ [last])
    · rw [if_neg (not_firstUnmatched_of_lastUnmatched hlast), if_pos ((lastUnmatched_concat_iff init last).mp hlast)]
      simp [hlast]
    · rw [if_neg fun h => hlast ((lastUnmatched_concat_iff init last).mpr h)]
      by_cases hfirst : FirstUnmatched (init ++ [last])
      · simp [hfirst, (firstUnmatched_iff _).mp hfirst]
      · simp [hfirst, hlast, mt (firstUnmatched_iff _).mpr hfirst]

lemma Enclosed.exists_inner (h : Enclosed text) :
    ∃ inner, text = kCornerOpenQuote :: (inner ++ [kCornerCloseQuote]) := by
  obtain ⟨before, inner, after, hsplit, hbefore, hlast, -⟩ := h
  obtain rfl := List.length_eq_zero_iff.mp hbefore
  have hlength := congrArg List.length hsplit
  simp only [List.nil_append, List.length_cons, List.length_append, List.length_nil] at hlength hlast
  have hafter : after = [] := List.length_eq_zero_iff.mp (by omega)
  exact ⟨inner, by rw [hsplit, hafter, List.nil_append]⟩

end Validity

section Adjust

structure MovesQuotes (opening closing : Text) (groups moved : MatchedGroups) : Prop where
  prefixText : moved.prefixText = groups.prefixText
  white : moved.white = groups.white ++ opening
  text : groups.text = opening ++ moved.text ++ closing
  suffix : moved.suffix = closing ++ groups.suffix

namespace MovesQuotes

variable {opening closing : Text} {groups moved later : MatchedGroups}

lemma refl (groups : MatchedGroups) : MovesQuotes [] [] groups groups where
  prefixText := rfl
  white := (List.append_nil _).symm
  text := (List.append_nil _).symm
  suffix := rfl

lemma trans (h : MovesQuotes opening [] groups moved) (h' : MovesQuotes [] closing moved later) :
    MovesQuotes opening closing groups later where
  prefixText := h'.prefixText.trans h.prefixText
  white := by rw [h'.white, h.white, List.append_nil]
  text := by rw [h.text, h'.text, List.append_nil, List.nil_append, List.append_assoc]
  suffix := by rw [h'.suffix, h.suffix, List.nil_append]

lemma line (h : MovesQuotes opening closing groups moved) : moved.line = groups.line := by
  rw [MatchedGroups.line, MatchedGroups.line, h.prefixText, h.white, h.suffix, h.text]
  simp only [List.append_assoc]

end MovesQuotes

variable {groups : MatchedGroups} {quote : UInt16} {rest : Text}

lemma moveFront_eq (h : groups.text = quote :: rest) :
    ∃ moved, groups.moveFront quote = some moved ∧ MovesQuotes [quote] [] groups moved := by
  refine ⟨{ groups with white := groups.white ++ [quote], text := rest }, ?_, rfl, rfl, ?_, rfl⟩
  · rw [MatchedGroups.moveFront, h]
  · rw [h, List.append_nil]
    rfl

lemma moveBack_eq (h : groups.text = rest ++ [quote]) :
    ∃ moved, groups.moveBack quote = some moved ∧ MovesQuotes [] [quote] groups moved := by
  obtain ⟨first, tail, hcons⟩ := List.exists_cons_of_ne_nil (List.concat_ne_nil quote rest)
  refine ⟨{ groups with suffix := quote :: groups.suffix, text := groups.text.dropLast }, ?_, rfl, ?_, ?_, rfl⟩
  · rw [← h] at hcons
    rw [MatchedGroups.moveBack, hcons]
  · exact (List.append_nil _).symm
  · rw [h, List.dropLast_concat, List.nil_append]

lemma adjustTranslatedFront_eq (translated : MatchedGroups) :
    ∃ opening moved, adjustTranslatedFront translated = some moved ∧ MovesQuotes opening [] translated moved := by
  rw [adjustTranslatedFront]
  cases hfirst : translated.text.head? with
  | none => exact ⟨[], translated, rfl, .refl translated⟩
  | some first =>
    obtain ⟨rest, htext⟩ := List.head?_eq_some_iff.mp hfirst
    dsimp only
    split_ifs
    · exact ⟨[first], moveFront_eq htext⟩
    · exact ⟨[], translated, rfl, .refl translated⟩

lemma adjustTranslatedBack_eq (translated : MatchedGroups) :
    ∃ closing moved, adjustTranslatedBack translated = some moved ∧ MovesQuotes [] closing translated moved := by
  rw [adjustTranslatedBack]
  cases hlast : translated.text.getLast? with
  | none => exact ⟨[], translated, rfl, .refl translated⟩
  | some last =>
    obtain ⟨rest, htext⟩ := List.getLast?_eq_some_iff.mp hlast
    dsimp only
    split_ifs
    · exact ⟨[last], moveBack_eq htext⟩
    · exact ⟨[], translated, rfl, .refl translated⟩

def openingMoved (text : Text) : Text := if (checkValid text).1 then [kCornerOpenQuote] else []

def closingMoved (text : Text) : Text := if (checkValid text).2 then [kCornerCloseQuote] else []

lemma exists_text_eq (text : Text) : ∃ rest, text = openingMoved text ++ rest ++ closingMoved text := by
  classical
  rw [openingMoved, closingMoved, checkValid_eq]
  by_cases henclosed : Enclosed text
  · rw [if_pos henclosed]
    obtain ⟨inner, htext⟩ := henclosed.exists_inner
    exact ⟨inner, htext⟩
  rw [if_neg henclosed]
  by_cases hfirst : FirstUnmatched text
  · rw [if_pos hfirst]
    obtain ⟨rest, htext⟩ := List.head?_eq_some_iff.mp hfirst.1
    exact ⟨rest, by rw [htext]; simp⟩
  rw [if_neg hfirst]
  by_cases hlast : LastUnmatched text
  · obtain ⟨rest, htext⟩ := List.getLast?_eq_some_iff.mp hlast.1
    exact ⟨rest, by rw [htext]; simp [← htext, hlast]⟩
  · exact ⟨text, by simp [hlast]⟩

lemma moves_original {original : MatchedGroups} :
    ∃ moved, adjustOriginal (checkValid original.text).1 (checkValid original.text).2 original = some moved ∧
      MovesQuotes (openingMoved original.text) (closingMoved original.text) original moved := by
  obtain ⟨rest, htext⟩ := exists_text_eq original.text
  have hfront : ∃ moved, (if (checkValid original.text).1 then original.moveFront kCornerOpenQuote
      else some original) = some moved ∧ MovesQuotes (openingMoved original.text) [] original moved := by
    rw [openingMoved] at htext ⊢
    split_ifs at htext ⊢ with hopening
    · rw [List.append_assoc] at htext
      exact moveFront_eq htext
    · exact ⟨original, rfl, .refl original⟩
  obtain ⟨moved, hmoved, hfront⟩ := hfront
  have hrest : moved.text = rest ++ closingMoved original.text := by
    have hsplit := htext.symm.trans hfront.text
    rw [List.append_assoc, List.append_nil, List.append_cancel_left_eq] at hsplit
    exact hsplit.symm
  rw [adjustOriginal, hmoved, Option.bind_some]
  rw [closingMoved] at hrest ⊢
  split_ifs at hrest with hclosing
  · rw [if_pos (by simp [hclosing, hrest]), if_pos hclosing]
    obtain ⟨later, hlater, hback⟩ := moveBack_eq hrest
    exact ⟨later, hlater, hfront.trans hback⟩
  · rw [if_neg (by simp [hclosing]), if_neg hclosing]
    exact ⟨moved, rfl, hfront⟩

lemma moves_translated (movePrefix moveSuffix : Bool) (translated : MatchedGroups) :
    ∃ opening closing moved, adjustTranslated movePrefix moveSuffix translated = some moved ∧
      MovesQuotes opening closing translated moved := by
  have hfront : ∃ opening moved, (if movePrefix then adjustTranslatedFront translated else some translated) =
      some moved ∧ MovesQuotes opening [] translated moved := by
    split_ifs
    · exact adjustTranslatedFront_eq translated
    · exact ⟨[], translated, rfl, .refl translated⟩
  obtain ⟨opening, moved, hmoved, hfront⟩ := hfront
  rw [adjustTranslated, hmoved, Option.bind_some]
  split_ifs
  · obtain ⟨closing, later, hlater, hback⟩ := adjustTranslatedBack_eq moved
    exact ⟨opening, closing, later, hlater, hfront.trans hback⟩
  · exact ⟨opening, [], moved, rfl, hfront⟩

lemma checkValid_of_ends {text : Text} (hfirst : text.head? ≠ some kCornerOpenQuote)
    (hlast : text.getLast? ≠ some kCornerCloseQuote) : checkValid text = (false, false) := by
  obtain ⟨rest, htext⟩ := exists_text_eq text
  rw [openingMoved, closingMoved] at htext
  apply Prod.ext
  · by_contra hopening
    rw [Bool.not_eq_false] at hopening
    rw [hopening, if_pos rfl, List.append_assoc] at htext
    exact hfirst (by rw [htext]; rfl)
  · by_contra hclosing
    rw [Bool.not_eq_false] at hclosing
    rw [hclosing, if_pos rfl] at htext
    exact hlast (by rw [htext, List.getLast?_concat])

lemma movesQuotes_of_invalid {groups : MatchedGroups} (h : checkValid groups.text = (false, false)) :
    MovesQuotes (openingMoved groups.text) (closingMoved groups.text) groups groups := by
  rw [openingMoved, closingMoved, h]
  exact .refl groups

lemma adjust_eq (original translated : MatchedGroups) :
    ∃ original' translated', adjust original translated = some (original', translated') ∧
      (isQuoted original → original' = original ∧ translated' = translated) ∧
      (¬ isQuoted original →
        MovesQuotes (openingMoved original.text) (closingMoved original.text) original original') ∧
      (∃ opening closing, MovesQuotes opening closing translated translated') := by
  have hsame : ∃ opening closing, MovesQuotes opening closing translated translated := ⟨[], [], .refl translated⟩
  rw [adjust]
  by_cases hquoted : isQuoted original = true
  · exact ⟨original, translated, by simp [hquoted], fun _ => ⟨rfl, rfl⟩, fun h => absurd hquoted h, hsame⟩
  by_cases hends : original.text.head? ≠ some kCornerOpenQuote ∧ original.text.getLast? ≠ some kCornerCloseQuote
  · refine ⟨original, translated, by rw [if_pos hends, ite_self], fun h => absurd h hquoted, fun _ => ?_, hsame⟩
    exact movesQuotes_of_invalid (checkValid_of_ends hends.1 hends.2)
  have hnil : original.text ≠ [] := by
    intro hnil
    rw [hnil] at hends
    exact hends ⟨nofun, nofun⟩
  rw [if_neg (by simp [hquoted, hnil]), if_neg hends]
  by_cases hinvalid : checkValid original.text = (false, false)
  · refine ⟨original, translated, by simp [hinvalid], fun h => absurd h hquoted, fun _ => ?_, hsame⟩
    exact movesQuotes_of_invalid hinvalid
  · obtain ⟨original', horiginal, hmoves⟩ := @moves_original original
    obtain ⟨opening, closing, translated', htranslated, hmoves'⟩ :=
      moves_translated (checkValid original.text).1 (checkValid original.text).2 translated
    refine ⟨original', translated', ?_, fun h => absurd h hquoted, fun _ => hmoves, opening, closing, hmoves'⟩
    cases hvalid : checkValid original.text with
    | mk movePrefix moveSuffix =>
      rw [hvalid] at horiginal htranslated hinvalid
      have hmoved : (!movePrefix && !moveSuffix) = false := by
        cases movePrefix <;> cases moveSuffix <;> first | rfl | exact absurd rfl hinvalid
      dsimp only
      rw [hmoved, if_neg Bool.false_ne_true]
      rw [horiginal, htranslated]
      rfl

lemma line_of_adjust {original translated original' translated' : MatchedGroups}
    (hadjust : adjust original translated = some (original', translated')) :
    original'.line = original.line ∧ translated'.line = translated.line := by
  obtain ⟨moved, moved', hmoved, hquoted, hmoves, opening, closing, hmoves'⟩ := adjust_eq original translated
  rw [hadjust] at hmoved
  cases hmoved
  refine ⟨?_, hmoves'.line⟩
  by_cases h : isQuoted original
  · rw [(hquoted h).1]
  · exact (hmoves h).line

theorem adjust_moves_boundary_quotes (original translated : MatchedGroups) (text : Text) :
    ((checkValid text = (true, true) ↔ Enclosed text) ∧ (checkValid text = (true, false) ↔ FirstUnmatched text) ∧
      (checkValid text = (false, true) ↔ LastUnmatched text) ∧
      (checkValid text = (false, false) ↔ ¬ Enclosed text ∧ ¬ FirstUnmatched text ∧ ¬ LastUnmatched text)) ∧
    ∃ original' translated', adjust original translated = some (original', translated') ∧
      original'.line = original.line ∧ translated'.line = translated.line ∧
      (isQuoted original → original' = original ∧ translated' = translated) ∧
      (¬ isQuoted original →
        MovesQuotes (openingMoved original.text) (closingMoved original.text) original original') := by
  constructor
  · classical
    rw [checkValid_eq]
    have hfirst := @not_firstUnmatched_of_enclosed text
    have hlast := @not_firstUnmatched_of_lastUnmatched text
    have hboth := @not_lastUnmatched_of_enclosed text
    split_ifs with henclosed hunmatched
    · simp [henclosed, hfirst henclosed, hboth henclosed]
    · have hclosed : ¬ LastUnmatched text := fun h => hlast h hunmatched
      simp [henclosed, hunmatched, hclosed]
    · simp [henclosed, hunmatched]
  · obtain ⟨original', translated', hadjust, hquoted, hmoves, -⟩ := adjust_eq original translated
    obtain ⟨hline, hline'⟩ := line_of_adjust hadjust
    exact ⟨original', translated', hadjust, hline, hline', hquoted, hmoves⟩

end Adjust

end DltxtBridge
