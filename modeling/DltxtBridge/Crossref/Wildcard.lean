import DltxtBridge.Crossref.Ignore
import DltxtBridge.Library.Glob
import DltxtBridge.Library.MemoTable

namespace DltxtBridge.Crossref

section Language

def patternTokens : Bytes → List (Glob.Token UInt8)
  | [] => []
  | 92 :: escaped :: pattern => .literal escaped :: patternTokens pattern
  | 42 :: 42 :: pattern => .doubleStar :: patternTokens pattern
  | 42 :: pattern => .star :: patternTokens pattern
  | 63 :: pattern => .one :: patternTokens pattern
  | literal :: pattern => .literal literal :: patternTokens pattern

def patternLanguage (pattern : Bytes) : Language UInt8 := Glob.language 47 (patternTokens pattern)

lemma mem_starSuffixes {text rest : Bytes} :
    rest ∈ starSuffixes text ↔ ∃ name, 47 ∉ name ∧ name ++ rest = text := by
  induction text generalizing rest with
  | nil => simp [starSuffixes]
  | cons ch text ih =>
    rw [starSuffixes, List.mem_cons]
    constructor
    · rintro (rfl | hrest)
      · exact ⟨[], List.not_mem_nil, rfl⟩
      · split_ifs at hrest with hch
        · cases hrest
        · obtain ⟨name, hname, rfl⟩ := ih.mp hrest
          exact ⟨ch :: name, by simp [hname, Ne.symm hch], rfl⟩
    · rintro ⟨name, hname, heq⟩
      cases name with
      | nil => exact Or.inl heq
      | cons first name =>
        obtain ⟨rfl, rfl⟩ := List.cons.inj heq
        rw [List.mem_cons, not_or] at hname
        exact Or.inr (by rw [if_neg (Ne.symm hname.1)]; exact ih.mpr ⟨name, hname.2, rfl⟩)

lemma wildcardMatch_iff (pattern text : Bytes) :
    wildcardMatch pattern text ↔ text ∈ patternLanguage pattern := by
  rw [patternLanguage]
  fun_induction patternTokens pattern generalizing text with
  | case1 => simp [wildcardMatch, Glob.mem_language_nil]
  | case2 escaped pattern ih =>
    rw [Glob.mem_language_literal]
    cases text with
    | nil => simp [wildcardMatch]
    | cons ch rest => simp [wildcardMatch, ih, @eq_comm _ ch escaped, and_comm]
  | case3 pattern ih =>
    rw [Glob.mem_language_doubleStar]
    simp [wildcardMatch, ih, and_comm]
  | case4 pattern hsingle ih =>
    rw [Glob.mem_language_star, wildcardMatch.eq_5 text pattern hsingle, List.any_eq_true]
    simp only [mem_starSuffixes, ih]
    constructor
    · rintro ⟨rest, ⟨name, hname, rfl⟩, hrest⟩
      exact ⟨name, rest, hname, hrest, rfl⟩
    · rintro ⟨name, rest, hname, hrest, rfl⟩
      exact ⟨rest, ⟨name, hname, rfl⟩, hrest⟩
  | case5 pattern ih =>
    rw [Glob.mem_language_one]
    cases text with
    | nil => simp [wildcardMatch]
    | cons ch rest => simp [wildcardMatch, ih]
  | case6 literal pattern hescape hdouble hstar hone ih =>
    rw [Glob.mem_language_literal]
    cases text with
    | nil => simp [wildcardMatch]
    | cons ch rest => simp [wildcardMatch, ih, @eq_comm _ ch literal, and_comm]

end Language

section Equations

variable (pattern text : Bytes)

def headMatch (accepts : UInt8 → Bool) (value : Bytes → Bool) : Bytes → Bool
  | ch :: rest => accepts ch && value rest
  | [] => false

def starRests (doubleStar : Bool) (text : Bytes) : List Bytes :=
  if doubleStar then text.tails else starSuffixes text

lemma wildcardMatch_escape (escaped : UInt8) :
    wildcardMatch (92 :: escaped :: pattern) text =
      headMatch (fun ch => escaped = ch) (wildcardMatch pattern) text := by
  cases text <;> simp [wildcardMatch, headMatch]

lemma wildcardMatch_doubleStar :
    wildcardMatch (42 :: 42 :: pattern) text = (starRests true text).any (wildcardMatch pattern) := by
  rw [wildcardMatch]
  rfl

lemma wildcardMatch_star {pattern : Bytes} (h : pattern.head? ≠ some 42) :
    wildcardMatch (42 :: pattern) text = (starRests false text).any (wildcardMatch pattern) := by
  rw [wildcardMatch.eq_5 text pattern (by rintro rest rfl; exact h rfl)]
  rfl

lemma wildcardMatch_one :
    wildcardMatch (63 :: pattern) text = headMatch (fun ch => ch ≠ 47) (wildcardMatch pattern) text := by
  cases text <;> simp [wildcardMatch, headMatch]

lemma wildcardMatch_literal {literal : UInt8} {pattern : Bytes} (hescape : literal = 92 → pattern = [])
    (hstar : literal ≠ 42) (hone : literal ≠ 63) :
    wildcardMatch (literal :: pattern) text =
      headMatch (fun ch => literal = ch) (wildcardMatch pattern) text := by
  have hplain : ∀ escaped rest, literal = 92 → pattern = escaped :: rest → False := by
    rintro escaped rest hliteral rfl
    cases hescape hliteral
  cases text with
  | nil => rw [wildcardMatch.eq_9 literal pattern hplain (fun _ h => absurd h hstar) hstar hone, headMatch]
  | cons ch rest =>
    rw [wildcardMatch.eq_8 literal pattern ch rest hplain (fun _ h => absurd h hstar) hstar hone, headMatch]

end Equations

section Memo

open MemoTable

variable (pattern text : Bytes)

def consume (accepts : UInt8 → Bool) (textIndex : ℕ) (self : ℕ → MemoAction Bool Bool) : MemoAction Bool Bool :=
  fun memo =>
  match text[textIndex]? with
  | some ch => if accepts ch then self (textIndex + 1) memo else some (false, memo)
  | none => some (false, memo)

def starLoop (doubleStar : Bool) (self : ℕ → MemoAction Bool Bool) : ℕ → Bytes → MemoAction Bool Bool
  | index, [], memo => self index memo
  | index, ch :: rest, memo =>
    match self index memo with
    | some (false, later) =>
      if !doubleStar && ch = 47 then some (false, later) else starLoop doubleStar self (index + 1) rest later
    | result => result

/-- `match_impl`; an access outside the memo table gives `none`. -/
def matchImpl (patternIndex textIndex : ℕ) : MemoAction Bool Bool :=
  memoize patternIndex textIndex fun memo =>
    if h : patternIndex < pattern.length then
      if pattern[patternIndex] = 92 ∧ patternIndex + 1 < pattern.length then
        consume text (fun ch => pattern[patternIndex + 1]? = some ch) textIndex
          (matchImpl (patternIndex + 2)) memo
      else if pattern[patternIndex] = 42 then
        if patternIndex + 1 < pattern.length ∧ pattern[patternIndex + 1]? = some 42 then
          starLoop true (matchImpl (patternIndex + 2)) textIndex (text.drop textIndex) memo
        else starLoop false (matchImpl (patternIndex + 1)) textIndex (text.drop textIndex) memo
      else if pattern[patternIndex] = 63 then
        consume text (fun ch => ch ≠ 47) textIndex (matchImpl (patternIndex + 1)) memo
      else consume text (fun ch => pattern[patternIndex] = ch) textIndex (matchImpl (patternIndex + 1)) memo
    else some (textIndex = text.length, memo)
termination_by pattern.length - patternIndex

def wildcardMatchMemo : Option Bool :=
  (matchImpl pattern text 0 0 (blank (pattern.length + 1) (text.length + 1))).map Prod.fst

def cellValue (patternIndex textIndex : ℕ) : Bool :=
  wildcardMatch (pattern.drop patternIndex) (text.drop textIndex)

variable {pattern text} {f : ℕ → ℕ → Bool} {rows columns patternIndex textIndex : ℕ}
  {self : ℕ → MemoAction Bool Bool}

lemma starRests_cons (doubleStar : Bool) (ch : UInt8) (rest : Bytes) :
    starRests doubleStar (ch :: rest) =
      (ch :: rest) :: if !doubleStar && ch = 47 then [] else starRests doubleStar rest := by
  cases doubleStar <;> simp [starRests, starSuffixes]

lemma computes_consume {accepts : UInt8 → Bool} {value : Bytes → Bool}
    (hself : textIndex < text.length →
      Computes f rows columns (self (textIndex + 1)) (value (text.drop (textIndex + 1)))) :
    Computes f rows columns (consume text accepts textIndex self)
      (headMatch accepts value (text.drop textIndex)) := by
  intro memo hmemo
  by_cases hindex : textIndex < text.length
  · have hmatch : headMatch accepts value (text.drop textIndex) =
        (accepts text[textIndex] && value (text.drop (textIndex + 1))) := by
      rw [List.drop_eq_getElem_cons hindex, headMatch]
    rw [consume, List.getElem?_eq_getElem hindex, hmatch]
    by_cases haccepts : accepts text[textIndex]
    · simpa [haccepts] using hself hindex memo hmemo
    · exact ⟨memo, by simp [haccepts], hmemo⟩
  · have hlength := not_lt.mp hindex
    rw [consume, List.getElem?_eq_none hlength, List.drop_eq_nil_of_le hlength]
    exact ⟨memo, rfl, hmemo⟩

lemma computes_starLoop {value : Bytes → Bool} (doubleStar : Bool)
    (hself : ∀ index ≤ text.length, Computes f rows columns (self index) (value (text.drop index)))
    (rest : Bytes) {index : ℕ} (hindex : index ≤ text.length) (hrest : text.drop index = rest) :
    Computes f rows columns (starLoop doubleStar self index rest) ((starRests doubleStar rest).any value) := by
  induction rest generalizing index with
  | nil =>
    have hend : (starRests doubleStar []).any value = value [] := by
      cases doubleStar <;> simp [starRests, starSuffixes]
    have hlast := hself index hindex
    rw [hrest] at hlast
    intro memo hmemo
    rw [hend, starLoop]
    exact hlast memo hmemo
  | cons ch rest ih =>
    intro memo hmemo
    obtain ⟨later, hstep, hlater⟩ := hself index hindex memo hmemo
    rw [starRests_cons, List.any_cons, starLoop, hstep, hrest]
    cases hvalue : value (ch :: rest) with
    | true => exact ⟨later, rfl, hlater⟩
    | false =>
      by_cases hstop : !doubleStar && decide (ch = 47)
      · exact ⟨later, by simp [hstop], hlater⟩
      · have hnext : index + 1 ≤ text.length := by
          by_contra hge
          rw [List.drop_eq_nil_of_le (by omega)] at hrest
          cases hrest
        have hdrop : text.drop (index + 1) = rest := by
          rw [← List.drop_drop, hrest]
          rfl
        simpa [hstop] using ih hnext hdrop later hlater

lemma computes_matchImpl (hpattern : patternIndex ≤ pattern.length) (htext : textIndex ≤ text.length) :
    Computes (cellValue pattern text) (pattern.length + 1) (text.length + 1)
      (matchImpl pattern text patternIndex textIndex) (cellValue pattern text patternIndex textIndex) := by
  induction hn : pattern.length - patternIndex using Nat.strong_induction_on
    generalizing patternIndex textIndex with
  | _ n ih =>
    have hself : ∀ next ≤ pattern.length, patternIndex < next → ∀ index ≤ text.length,
        Computes (cellValue pattern text) (pattern.length + 1) (text.length + 1)
          (matchImpl pattern text next index)
          (wildcardMatch (pattern.drop next) (text.drop index)) :=
      fun next hle hlt index hindex => ih (pattern.length - next) (by omega) hle hindex rfl
    rw [matchImpl]
    refine Computes.memoize ?_ (Nat.lt_succ_of_le hpattern) (Nat.lt_succ_of_le htext)
    by_cases h : patternIndex < pattern.length
    · simp only [dif_pos h]
      split_ifs with hescape hstar hdouble hone
      -- an escaped character
      · obtain ⟨hbackslash, hnext⟩ := hescape
        rw [cellValue, List.drop_eq_getElem_cons h, List.drop_eq_getElem_cons hnext, hbackslash,
          wildcardMatch_escape]
        simp only [List.getElem?_eq_getElem hnext, Option.some.injEq]
        exact computes_consume fun hindex => hself _ hnext (by omega) _ hindex
      -- a double star
      · obtain ⟨hnext, hsecond⟩ := hdouble
        rw [List.getElem?_eq_getElem hnext, Option.some.injEq] at hsecond
        rw [cellValue, List.drop_eq_getElem_cons h, List.drop_eq_getElem_cons hnext, hstar, hsecond,
          wildcardMatch_doubleStar]
        exact computes_starLoop true (fun index => hself _ hnext (by omega) index) _ htext rfl
      -- a star alone
      · have hsingle : (pattern.drop (patternIndex + 1)).head? ≠ some 42 := by
          rw [List.head?_drop]
          exact fun hnext => hdouble ⟨(List.getElem?_eq_some_iff.mp hnext).1, hnext⟩
        rw [cellValue, List.drop_eq_getElem_cons h, hstar, wildcardMatch_star _ hsingle]
        exact computes_starLoop false (fun index => hself _ h (by omega) index) _ htext rfl
      -- "?"
      · rw [cellValue, List.drop_eq_getElem_cons h, hone, wildcardMatch_one]
        exact computes_consume fun hindex => hself _ h (by omega) _ hindex
      -- any other character; a backslash only gets here at the end
      · have hlast : pattern[patternIndex] = 92 → pattern.drop (patternIndex + 1) = [] := by
          intro hbackslash
          exact List.drop_eq_nil_of_le (not_lt.mp fun hlt => hescape ⟨hbackslash, hlt⟩)
        rw [cellValue, List.drop_eq_getElem_cons h, wildcardMatch_literal _ hlast hstar hone]
        exact computes_consume fun hindex => hself _ h (by omega) _ hindex
    · simp only [dif_neg h]
      have hend : cellValue pattern text patternIndex textIndex = decide (textIndex = text.length) := by
        rw [cellValue, List.drop_eq_nil_of_le (not_lt.mp h), wildcardMatch, Bool.eq_iff_iff, List.isEmpty_iff,
          List.drop_eq_nil_iff, decide_eq_true_eq]
        omega
      rw [hend]
      exact computes_pure _

lemma wildcardMatchMemo_eq (pattern text : Bytes) :
    wildcardMatchMemo pattern text = some (wildcardMatch pattern text) := by
  obtain ⟨later, hrun, -⟩ := computes_matchImpl (Nat.zero_le pattern.length) (Nat.zero_le text.length)
    (blank (pattern.length + 1) (text.length + 1)) sound_blank
  rw [wildcardMatchMemo, hrun]
  rfl

theorem wildcardMatchMemo_accepts (pattern text : Bytes) :
    ∃ matched, wildcardMatchMemo pattern text = some matched ∧
      (matched = true ↔ text ∈ patternLanguage pattern) :=
  ⟨_, wildcardMatchMemo_eq pattern text, wildcardMatch_iff pattern text⟩

example : patternTokens [42, 42, 42, 92, 42, 63, 92] =
    [.doubleStar, .star, .literal 42, .one, .literal 92] := rfl

end Memo

end DltxtBridge.Crossref
