import DltxtBridge.Crossref.ScoreTable
import DltxtBridge.Crossref.SearchLine
import Mathlib.Data.List.ReduceOption

namespace DltxtBridge.Crossref

open Documents

structure LineMatch where
  lineNumber : ℕ
  exactCount : ℕ
  refs : List LineSearchResult

def lineQuery (currentDocument : TextDocument) (threshold : ℤ) (limit : ℕ) (pair : ParsedPair) : LineQuery where
  query := pair.original.text
  threshold := threshold
  limit := limit
  currentFilePath := currentDocument.filePath.genericString
  currentBaseName := currentDocument.filePath.filename
  currentLineNumber := pair.originalLineIndex

def LineQuery.fullResult (q : LineQuery) (lineInfos : FiniteMap LineId LineInfo) (lineId : LineId) :
    Option LineSearchResult :=
  match lineInfos.lookup lineId with
  | none => none
  | some info =>
    if computeScore q.query info.jpLine < q.threshold then none
    else if q.excludes info then none
    else some ⟨info, computeScore q.query info.jpLine⟩

section Model

variable {K : Type} [Field K] [LinearOrder K] (A : ScoreArithmetic K) (P : Platform K)

/-- One round of the loop of `search_json`. -/
def lineMatch (s : BuildState) (q : LineQuery) : Option LineMatch :=
  let (refs, exactCount) := searchLine A P s q
  if refs.isEmpty then none
  else if q.limit ≤ exactCount then none
  else some ⟨q.currentLineNumber, exactCount, refs⟩

/-- `search_json` after its wait. The lines are searched one by one, and `states` gives what
the search of each finds. -/
def searchJson (parser : TextParser) (states : ℕ → BuildState) (currentDocument : TextDocument)
    (threshold : ℤ) (limit : ℕ) : List LineMatch :=
  if limit = 0 ∨ ¬ isTextFile currentDocument.filePath then []
  else
    match parser currentDocument.getContent with
    | none => []
    | some pairs => (pairs.mapIdx fun index pair =>
        lineMatch A P (states index) (lineQuery currentDocument threshold limit pair)).reduceOption

def fullSearchLine (s : BuildState) (q : LineQuery) : List LineSearchResult × ℕ :=
  let rawCandidates := SimilarityIndex.search A P s.index q.query 0 q.rawLimit
  let results := q.rankLines (rawCandidates.filterMap fun candidate => q.fullResult s.lineInfos candidate.lineId)
  (results, results.countP fun result => result.score = 100)

end Model

lemma LineQuery.lineResult_eq_full (q : LineQuery) (lineInfos : FiniteMap LineId LineInfo) (lineId : LineId) :
    q.lineResult lineInfos lineId = q.fullResult lineInfos lineId := by
  rw [lineResult, fullResult]
  cases lineInfos.lookup lineId with
  | none => rfl
  | some info =>
    have hbound := computeScore_le_upperBound q.query info.jpLine
    by_cases hupper : scoreUpperBoundByLength q.query info.jpLine < q.threshold
    · simp only [hupper, hbound.trans_lt hupper, if_true]
    · simp only [hupper, if_false]

section Search

variable {K : Type} [Field K] [LinearOrder K] (A : ScoreArithmetic K) (P : Platform K)

theorem pruning_drops_no_match :
    (∀ query text : Text, computeScore query text ≤ scoreUpperBoundByLength query text) ∧
      ∀ (s : BuildState) (q : LineQuery), searchLine A P s q = fullSearchLine A P s q := by
  refine ⟨computeScore_le_upperBound, fun s q => ?_⟩
  have hresult : q.lineResult s.lineInfos = q.fullResult s.lineInfos :=
    funext (q.lineResult_eq_full s.lineInfos)
  rw [searchLine, fullSearchLine, hresult]

end Search

section Exact

variable {K : Type} [Field K] [LinearOrder K] {A : ScoreArithmetic K} {P : Platform K} {s : BuildState}
  {q : LineQuery}

def ExactMatch (q : LineQuery) (result : LineSearchResult) : Prop :=
  removeSpace result.lineInfo.jpLine = removeSpace q.query

instance decidableExactMatch (q : LineQuery) : DecidablePred (ExactMatch q) :=
  fun _ => inferInstanceAs (Decidable (_ = _))

/-- `search_line` has found something, and `search_json` leaves it out. -/
def Suppressed (A : ScoreArithmetic K) (P : Platform K) (s : BuildState) (q : LineQuery) : Prop :=
  (searchLine A P s q).1 ≠ [] ∧ lineMatch A P s q = none

lemma suppressed_iff : Suppressed A P s q ↔ (searchLine A P s q).1 ≠ [] ∧ q.limit ≤ (searchLine A P s q).2 := by
  refine and_congr_right fun hne => ?_
  rw [lineMatch]
  split
  rename_i refs exactCount hsearch
  rw [hsearch] at hne
  simp [hne, hsearch]

lemma score_of_mem_searchLine {result : LineSearchResult} (h : result ∈ (searchLine A P s q).1) :
    result.score = computeScore q.query result.lineInfo.jpLine := by
  have hfiltered := (List.perm_insertionSort _ _).mem_iff.mp (List.mem_of_mem_take h)
  obtain ⟨candidate, -, hline⟩ := List.mem_filterMap.mp hfiltered
  obtain ⟨info, -, -, -, rfl⟩ := LineQuery.lineResult_eq_some.mp hline
  rfl

lemma score_eq_hundred_iff {result : LineSearchResult} (h : result ∈ (searchLine A P s q).1) :
    result.score = 100 ↔ ExactMatch q result ∨ NearlyEqual q.query result.lineInfo.jpLine := by
  rw [score_of_mem_searchLine h, computeScore_eq_hundred_iff, ExactMatch, eq_comm]

lemma not_exactMatch_of_nearlyEqual {result : LineSearchResult} (h : NearlyEqual q.query result.lineInfo.jpLine) :
    ¬ ExactMatch q result := fun hexact => h.1 hexact.symm

lemma countP_eq_iff {α : Type} {p r : α → Prop} [DecidablePred p] [DecidablePred r] {xs : List α}
    (h : ∀ x ∈ xs, r x → p x) :
    (xs.countP fun x => p x) = (xs.countP fun x => r x) ↔ ∀ x ∈ xs, p x → r x := by
  induction xs with
  | nil => simp
  | cons x xs ih =>
    obtain ⟨hx, hxs⟩ := List.forall_mem_cons.mp h
    have hle : (xs.countP fun x => r x) ≤ xs.countP fun x => p x :=
      List.countP_mono_left fun y hy hr => by simpa using hxs y hy (by simpa using hr)
    rw [List.forall_mem_cons, ← ih hxs, List.countP_cons, List.countP_cons]
    by_cases hp : p x <;> by_cases hr : r x
    · simp [hp, hr]
    · simp only [hp, hr, decide_true, decide_false, if_true, Bool.false_eq_true, if_false]
      constructor
      · intro heq
        omega
      · intro himp
        exact absurd (himp.1 trivial) id
    · exact absurd (hx hr) hp
    · simp [hp, hr]

lemma exactCount_eq_iff :
    (searchLine A P s q).2 = (searchLine A P s q).1.countP (ExactMatch q ·) ↔
      ∀ result ∈ (searchLine A P s q).1, ¬ NearlyEqual q.query result.lineInfo.jpLine := by
  have hcount : (searchLine A P s q).2 = (searchLine A P s q).1.countP (ExactMatch q ·) ↔
      ∀ result ∈ (searchLine A P s q).1, result.score = 100 → ExactMatch q result :=
    countP_eq_iff fun result hresult hexact => (score_eq_hundred_iff hresult).mpr (Or.inl hexact)
  refine hcount.trans (forall₂_congr fun result hresult => ?_)
  rw [score_eq_hundred_iff hresult]
  constructor
  · intro h hnear
    exact not_exactMatch_of_nearlyEqual hnear (h (Or.inr hnear))
  · intro h hscore
    exact hscore.resolve_right h

lemma exactCount_le_iff (h : Suppressed A P s q) :
    q.limit ≤ (searchLine A P s q).1.countP (ExactMatch q ·) ↔
      ∀ result ∈ (searchLine A P s q).1, ¬ NearlyEqual q.query result.lineInfo.jpLine := by
  obtain ⟨-, hlimit⟩ := suppressed_iff.mp h
  rw [← exactCount_eq_iff]
  have hlength : (searchLine A P s q).1.length ≤ q.limit := List.length_take_le _ _
  have hcount : (searchLine A P s q).2 ≤ (searchLine A P s q).1.length := List.countP_le_length
  have hexact : (searchLine A P s q).1.countP (ExactMatch q ·) ≤ (searchLine A P s q).1.length :=
    List.countP_le_length
  omega

theorem exact_score_iff (A : ScoreArithmetic K) (P : Platform K) :
    (∀ query text : Text, (computeScore query text = 100 ↔ removeSpace query = removeSpace text) ↔
        ¬ NearlyEqual query text) ∧
      ∀ (s : BuildState) (q : LineQuery),
        ((searchLine A P s q).2 = (searchLine A P s q).1.countP (ExactMatch q ·) ↔
          ∀ result ∈ (searchLine A P s q).1, ¬ NearlyEqual q.query result.lineInfo.jpLine) ∧
        ((Suppressed A P s q → q.limit ≤ (searchLine A P s q).1.countP (ExactMatch q ·)) ↔
          (Suppressed A P s q → ∀ result ∈ (searchLine A P s q).1,
            ¬ NearlyEqual q.query result.lineInfo.jpLine)) := by
  refine ⟨fun query text => ?_, fun s q => ⟨exactCount_eq_iff, forall_congr' exactCount_le_iff⟩⟩
  rw [computeScore_eq_hundred_iff]
  constructor
  · intro h hnear
    exact hnear.1 (h.mp (Or.inr hnear))
  · intro h
    exact or_iff_left h

theorem one_letter_scores_hundred :
    ¬ ∀ query text : Text, computeScore query text = 100 ↔ removeSpace query = removeSpace text := by
  intro h
  have hquery : removeSpace (List.replicate 100 97) = List.replicate 100 97 := by decide
  have htext : removeSpace (98 :: List.replicate 99 97) = 98 :: List.replicate 99 97 := by decide
  have hne : removeSpace (List.replicate 100 97) ≠ removeSpace (98 :: List.replicate 99 97) := by
    rw [hquery, htext]
    decide
  have hdistance : EditDistance.levenshtein (List.replicate 100 (97 : UInt16)) (98 :: List.replicate 99 97) ≤ 1 :=
    EditDistance.levenshtein_le ((EditDistance.Aligned.refl (List.replicate 99 (97 : UInt16))).substitute 97 98)
  have hnear : NearlyEqual (List.replicate 100 97) (98 :: List.replicate 99 97) := by
    refine ⟨hne, ?_⟩
    rw [hquery, htext]
    simp only [List.length_cons, List.length_replicate]
    omega
  exact hne ((h _ _).mp ((computeScore_eq_hundred_iff _ _).mpr (Or.inr hnear)))

end Exact

end DltxtBridge.Crossref
