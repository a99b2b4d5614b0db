import DltxtBridge.Library.SortedTable
import DltxtBridge.SimilarityIndex.Basic
import Mathlib.Algebra.Order.Field.Basic

/-! `SimilarityIndex::search`. Scores live in any ordered field with a logarithm and a
square root; what the standard library leaves open (the order of equal elements, the
iteration order of hash sets, the number of cores) is a parameter. -/

namespace DltxtBridge

structure ScoreArithmetic (K : Type) where
  log : K → K
  sqrt : K → K

structure SearchResult (K : Type) where
  lineId : LineId
  filePath : Bytes
  lineNumber : ℕ
  score : K
deriving DecidableEq

structure WeightedQueryTerm (K : Type) where
  termId : TermId
  queryWeight : K
  postingSize : ℕ

section Order

variable {K : Type} [LinearOrder K]

def WeightedQueryTerm.Before (left right : WeightedQueryTerm K) : Prop :=
  if left.postingSize ≠ right.postingSize then left.postingSize < right.postingSize
  else left.queryWeight > right.queryWeight

instance : DecidableRel (WeightedQueryTerm.Before (K := K)) :=
  fun _ _ => inferInstanceAs (Decidable (ite _ _ _))

def SearchResult.Before (left right : SearchResult K) : Prop :=
  if left.score ≠ right.score then left.score > right.score
  else if left.filePath ≠ right.filePath then left.filePath < right.filePath
  else if left.lineNumber ≠ right.lineNumber then left.lineNumber < right.lineNumber
  else left.lineId < right.lineId

instance : DecidableRel (SearchResult.Before (K := K)) :=
  fun _ _ => inferInstanceAs (Decidable (ite _ _ _))

end Order

/-- The choices of the platform that a search may observe. -/
structure Platform (K : Type) [LinearOrder K] where
  sortTerms : List (WeightedQueryTerm K) → List (WeightedQueryTerm K)
  sortTerms_perm : ∀ terms, (sortTerms terms).Perm terms
  sortTerms_sorted : ∀ terms, (sortTerms terms).Pairwise fun left right => ¬ right.Before left
  iterate : Finset LineId → List LineId
  iterate_nodup : ∀ ids, (iterate ids).Nodup
  mem_iterate : ∀ ids id, id ∈ iterate ids ↔ id ∈ ids
  hardwareConcurrency : ℕ

namespace SimilarityIndex

def kMaxCandidateBudget : ℕ := 1024

/-- The budget for `maxResults`; the product is a 64-bit one. -/
def candidateBudget (maxResults : ℕ) : ℕ :=
  min (max (maxResults * 24 % 2 ^ 64) 128) kMaxCandidateBudget

def commonPostingCutoff (candidateBudget : ℕ) : ℕ := max (candidateBudget * 4) 512

def insertCandidatesUpToBudget (candidateIds : Finset LineId) (posting : List LineId)
    (candidateBudget : ℕ) : Finset LineId :=
  match posting with
  | [] => candidateIds
  | id :: rest =>
    if candidateBudget ≤ (insert id candidateIds).card then insert id candidateIds
    else insertCandidatesUpToBudget (insert id candidateIds) rest candidateBudget

variable {K : Type} [Field K] [LinearOrder K] (A : ScoreArithmetic K)

def inverseDocumentFrequency (totalDocuments documentFrequency : ℕ) : K :=
  A.log (((totalDocuments : K) + 1) / ((documentFrequency : K) + 1)) + 1

def currentIdf (s : SimilarityIndex) (termId : TermId) : K :=
  inverseDocumentFrequency A (FiniteMap.size s.lines)
    ((s.inverted.documentFrequency.lookup termId).getD 0)

def weight (s : SimilarityIndex) (entry : TermId × ℕ) : K := entry.2 * currentIdf A s entry.1

def normSquared (s : SimilarityIndex) (frequencies : TermFrequencyMap) : K :=
  frequencies.foldl (fun acc entry => acc + weight A s entry * weight A s entry) 0

def lineNorm (s : SimilarityIndex) (line : IndexedLine) : K :=
  A.sqrt (normSquared A s line.termFrequency)

def dotProduct (s : SimilarityIndex) (query line : TermFrequencyMap) : K :=
  SortedTable.mergeCommon (fun q l => weight A s q * weight A s l) query line 0

def queryTermFrequency (s : SimilarityIndex) (query : Text) : TermFrequencyMap :=
  (buildTermFrequency findTermId query s.terms).1

def weightedTerms (s : SimilarityIndex) (frequencies : TermFrequencyMap) :
    List (WeightedQueryTerm K) :=
  frequencies.filterMap fun entry =>
    (s.inverted.postings.lookup entry.1).map fun posting =>
      ⟨entry.1, weight A s entry, posting.length⟩

/-- The loop over the weighted terms: common terms are skipped once there is a
candidate, and the loop ends when the budget is reached. -/
def collectCandidates (s : SimilarityIndex) (budget : ℕ) :
    List (WeightedQueryTerm K) → Finset LineId → Finset LineId
  | [], candidateIds => candidateIds
  | term :: rest, candidateIds =>
    if commonPostingCutoff budget < term.postingSize ∧ candidateIds ≠ ∅ then
      collectCandidates s budget rest candidateIds
    else
      match s.inverted.postings.lookup term.termId with
      | none => collectCandidates s budget rest candidateIds
      | some posting =>
        if budget ≤ (insertCandidatesUpToBudget candidateIds posting budget).card then
          insertCandidatesUpToBudget candidateIds posting budget
        else
          collectCandidates s budget rest (insertCandidatesUpToBudget candidateIds posting budget)

/-- The candidates, with the fallback to the first term when the loop found none. -/
def selectCandidates (s : SimilarityIndex) (budget : ℕ) (terms : List (WeightedQueryTerm K)) :
    Finset LineId :=
  let candidateIds := collectCandidates s budget terms ∅
  if candidateIds = ∅ then
    match terms.head?.bind fun term => s.inverted.postings.lookup term.termId with
    | none => ∅
    | some posting => insertCandidatesUpToBudget ∅ posting budget
  else candidateIds

def cosine (s : SimilarityIndex) (query : TermFrequencyMap) (line : IndexedLine) : K :=
  dotProduct A s query line.termFrequency /
    (A.sqrt (normSquared A s query) * lineNorm A s line)

def resultFor (s : SimilarityIndex) (query : TermFrequencyMap) (line : IndexedLine) :
    SearchResult K :=
  ⟨line.lineId, s.files.valuesById.getD line.fileId [], line.lineNumber, cosine A s query line⟩

def scoreCandidate (s : SimilarityIndex) (query : TermFrequencyMap) (minScore : K) (id : LineId) :
    Option (SearchResult K) :=
  match s.lines.lookup id with
  | none => none
  | some line =>
    if lineNorm A s line ≤ 0 then none
    else if dotProduct A s query line.termFrequency ≤ 0 then none
    else if cosine A s query line < minScore then none
    else some (resultFor A s query line)

def parallelTaskCount (hardwareConcurrency n : ℕ) : ℕ :=
  if n < 128 then 1 else min (max 1 (min 4 hardwareConcurrency)) ((n + 63) / 64)

def taskRange (n tasks index : ℕ) : ℕ × ℕ :=
  (index * ((n + tasks - 1) / tasks), min n (index * ((n + tasks - 1) / tasks) + (n + tasks - 1) / tasks))

def scoreCandidateRange (s : SimilarityIndex) (query : TermFrequencyMap) (minScore : K)
    (candidateList : List LineId) (range : ℕ × ℕ) : List (SearchResult K) :=
  ((candidateList.drop range.1).take (range.2 - range.1)).filterMap
    (scoreCandidate A s query minScore)

def scoreCandidates (s : SimilarityIndex) (query : TermFrequencyMap) (minScore : K)
    (hardwareConcurrency : ℕ) (candidateList : List LineId) : List (SearchResult K) :=
  let n := candidateList.length
  let tasks := parallelTaskCount hardwareConcurrency n
  if tasks = 1 then scoreCandidateRange A s query minScore candidateList (0, n)
  else (List.range tasks).flatMap fun index =>
    scoreCandidateRange A s query minScore candidateList (taskRange n tasks index)

def rankResults (results : List (SearchResult K)) (maxResults : ℕ) : List (SearchResult K) :=
  (results.insertionSort fun left right => ¬ right.Before left).take maxResults

def scoredLines (P : Platform K) (s : SimilarityIndex) (query : Text) (maxResults : ℕ) :
    Finset LineId :=
  let frequencies := s.queryTermFrequency query
  if FiniteMap.size s.lines = 0 ∨ maxResults = 0 ∨ frequencies = [] ∨
      weightedTerms A s frequencies = [] ∨ normSquared A s frequencies ≤ 0 then ∅
  else selectCandidates s (candidateBudget maxResults) (P.sortTerms (weightedTerms A s frequencies))

def search (P : Platform K) (s : SimilarityIndex) (query : Text) (minScore : K) (maxResults : ℕ) :
    List (SearchResult K) :=
  rankResults
    (scoreCandidates A s (s.queryTermFrequency query) minScore P.hardwareConcurrency
      (P.iterate (scoredLines A P s query maxResults)))
    maxResults

end SimilarityIndex

end DltxtBridge
