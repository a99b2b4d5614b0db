import DltxtBridge.Crossref.LastEvent
import DltxtBridge.Crossref.Score
import DltxtBridge.SimilarityIndex.Exhaustive
import DltxtBridge.SimilarityIndex.Retrieval

/-! `search_line`: the lines that the index retrieves for a query, scored again by their edit
distance. The two locked sections see the same state. -/

namespace DltxtBridge.Crossref

open Documents TransitionSystem

structure LineSearchResult where
  lineInfo : LineInfo
  score : ℤ

structure LineQuery where
  query : Text
  threshold : ℤ
  limit : ℕ
  currentFilePath : Bytes
  currentBaseName : Bytes
  currentLineNumber : ℕ

def LineSearchResult.Before (left right : LineSearchResult) : Prop :=
  if left.score ≠ right.score then left.score > right.score
  else if left.lineInfo.fileName ≠ right.lineInfo.fileName then
    left.lineInfo.fileName < right.lineInfo.fileName
  else left.lineInfo.lineNumber < right.lineInfo.lineNumber

instance decidableBefore : DecidableRel LineSearchResult.Before :=
  fun _ _ => inferInstanceAs (Decidable (ite _ _ _))

namespace LineSearchResult

def sortKey (result : LineSearchResult) : ℤᵒᵈ ×ₗ Bytes ×ₗ ℕ :=
  toLex (OrderDual.toDual result.score, toLex (result.lineInfo.fileName, result.lineInfo.lineNumber))

lemma not_before_iff (left right : LineSearchResult) :
    ¬ right.Before left ↔ left.sortKey ≤ right.sortKey := by
  rw [← not_lt, not_iff_not]
  simp only [Before, sortKey, Prod.Lex.toLex_lt_toLex, OrderDual.toDual_lt_toDual, OrderDual.toDual_inj]
  split_ifs with hscore hfile
  · exact ⟨Or.inl, fun h => h.resolve_right fun he => hscore he.1⟩
  · simp [not_not.mp hscore, hfile]
  · simp [not_not.mp hscore, not_not.mp hfile]

instance : Std.Total fun left right : LineSearchResult => ¬ right.Before left :=
  StableSort.total_of_key not_before_iff

instance : IsTrans LineSearchResult fun left right => ¬ right.Before left :=
  StableSort.isTrans_of_key not_before_iff

end LineSearchResult

namespace LineQuery

/-- Lines of a file with the same name are left out, except other lines of the same file. -/
def excludes (q : LineQuery) (info : LineInfo) : Bool :=
  info.fileBaseName = q.currentBaseName &&
    !(info.fileName = q.currentFilePath && info.lineNumber ≠ q.currentLineNumber)

/-- How many results the index is asked for; the product is a 64-bit one. -/
def rawLimit (q : LineQuery) : ℕ := max (q.limit * 3 % 2 ^ 64) 16

def lineResult (q : LineQuery) (lineInfos : FiniteMap LineId LineInfo) (lineId : LineId) :
    Option LineSearchResult :=
  match lineInfos.lookup lineId with
  | none => none
  | some info =>
    if scoreUpperBoundByLength q.query info.jpLine < q.threshold then none
    else if computeScore q.query info.jpLine < q.threshold then none
    else if q.excludes info then none
    else some ⟨info, computeScore q.query info.jpLine⟩

/-- The sort of the source leaves equal results in any order; here they keep theirs. -/
def rankLines (q : LineQuery) (filtered : List LineSearchResult) : List LineSearchResult :=
  (filtered.insertionSort fun left right => ¬ right.Before left).take q.limit

end LineQuery

section Model

variable {K : Type} [Field K] [LinearOrder K] (A : ScoreArithmetic K) (P : Platform K)

def searchLine (s : BuildState) (q : LineQuery) : List LineSearchResult × ℕ :=
  let rawCandidates := SimilarityIndex.search A P s.index q.query 0 q.rawLimit
  let results := q.rankLines (rawCandidates.filterMap fun candidate => q.lineResult s.lineInfos candidate.lineId)
  (results, results.countP fun result => result.score = 100)

end Model

namespace LineQuery

variable {q : LineQuery}

lemma lineResult_eq_some {lineInfos : FiniteMap LineId LineInfo} {lineId : LineId} {result : LineSearchResult} :
    q.lineResult lineInfos lineId = some result ↔
      ∃ info, lineInfos.lookup lineId = some info ∧ q.threshold ≤ computeScore q.query info.jpLine ∧
        q.excludes info = false ∧ result = ⟨info, computeScore q.query info.jpLine⟩ := by
  rw [lineResult]
  cases lineInfos.lookup lineId with
  | none => simp
  | some info =>
    have hbound := computeScore_le_upperBound q.query info.jpLine
    simp only [Option.some.injEq, exists_eq_left']
    split_ifs with hupper hscore hexcluded
    · simp [not_le.mpr (hbound.trans_lt hupper)]
    · simp [not_le.mpr hscore]
    · simp [hexcluded]
    · simp [not_lt.mp hscore, hexcluded, eq_comm]

end LineQuery

section Exact

variable {K : Type} [Field K] [LinearOrder K] {A : ScoreArithmetic K} {P : Platform K} {s : BuildState}
  {q : LineQuery}

end Exact

section Examples

open SimilarityIndex

def elsewhere (query : Text) : LineQuery where
  query := query
  threshold := 80
  limit := 10
  currentFilePath := ascii "/w/b.txt"
  currentBaseName := ascii "b.txt"
  currentLineNumber := 0

end Examples

end DltxtBridge.Crossref
