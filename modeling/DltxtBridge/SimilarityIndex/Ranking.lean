import DltxtBridge.Library.AscendingList
import DltxtBridge.Library.StableSort
import DltxtBridge.SimilarityIndex.Search
import Mathlib.Data.Prod.Lex

namespace DltxtBridge

namespace SearchResult

variable {K : Type} [LinearOrder K]

def sortKey (result : SearchResult K) : Kᵒᵈ ×ₗ Bytes ×ₗ ℕ ×ₗ ℕ :=
  toLex (OrderDual.toDual result.score,
    toLex (result.filePath, toLex (result.lineNumber, result.lineId)))

lemma before_iff (left right : SearchResult K) :
    left.Before right ↔ left.sortKey < right.sortKey := by
  simp only [Before, sortKey, Prod.Lex.toLex_lt_toLex, OrderDual.toDual_lt_toDual,
    OrderDual.toDual_inj]
  split_ifs with hs hp hn
  · exact ⟨Or.inl, fun h => h.resolve_right fun he => hs he.1⟩
  · have hs' := not_not.mp hs
    exact ⟨fun h => Or.inr ⟨hs', Or.inl h⟩, fun h => by simpa [hs', hp] using h⟩
  · have hs' := not_not.mp hs
    have hp' := not_not.mp hp
    exact ⟨fun h => Or.inr ⟨hs', Or.inr ⟨hp', Or.inl h⟩⟩, fun h => by simpa [hs', hp', hn] using h⟩
  · simp [not_not.mp hs, not_not.mp hp, not_not.mp hn]

omit [LinearOrder K] in
lemma sortKey_injective : Function.Injective (sortKey (K := K)) := by
  rintro ⟨id, path, number, score⟩ ⟨id', path', number', score'⟩ h
  simp only [sortKey, EmbeddingLike.apply_eq_iff_eq, Prod.mk.injEq] at h
  obtain ⟨rfl, rfl, rfl, rfl⟩ := h
  rfl

lemma not_before_iff (left right : SearchResult K) :
    ¬ right.Before left ↔ left.sortKey ≤ right.sortKey := by
  rw [before_iff, not_lt]

lemma score_le_of_sortKey {left right : SearchResult K} (h : left.sortKey ≤ right.sortKey) :
    right.score ≤ left.score := by
  rcases (Prod.Lex.toLex_le_toLex).mp h with hlt | ⟨heq, -⟩
  · exact (OrderDual.toDual_lt_toDual.mp hlt).le
  · exact (OrderDual.toDual_inj.mp heq).ge

end SearchResult

namespace SimilarityIndex

section Rank

variable {K : Type} [LinearOrder K]

lemma pairwise_insertionSort_before (results : List (SearchResult K)) :
    (results.insertionSort fun left right => ¬ right.Before left).Pairwise
      fun left right => left.sortKey ≤ right.sortKey :=
  StableSort.pairwise_key_insertionSort SearchResult.not_before_iff results

lemma insertionSort_before_perm {results results' : List (SearchResult K)}
    (h : results.Perm results') :
    (results.insertionSort fun left right => ¬ right.Before left) =
      results'.insertionSort fun left right => ¬ right.Before left := by
  refine List.Perm.eq_of_pairwise ?_ (pairwise_insertionSort_before results)
    (pairwise_insertionSort_before results') ?_
  · intro a b _ _ hab hba
    exact SearchResult.sortKey_injective (le_antisymm hab hba)
  · exact (List.perm_insertionSort _ _).trans (h.trans (List.perm_insertionSort _ _).symm)

lemma rankResults_perm {results results' : List (SearchResult K)} (h : results.Perm results')
    (maxResults : ℕ) : rankResults results maxResults = rankResults results' maxResults := by
  rw [rankResults, insertionSort_before_perm h]
  rfl

lemma mem_of_mem_rankResults {results : List (SearchResult K)} {maxResults : ℕ}
    {result : SearchResult K} (h : result ∈ rankResults results maxResults) : result ∈ results :=
  (List.perm_insertionSort _ _).mem_iff.mp (List.mem_of_mem_take h)

lemma getElem?_of_rankResults {results : List (SearchResult K)} {maxResults i : ℕ} {result : SearchResult K}
    (h : (rankResults results maxResults)[i]? = some result) :
    (results.insertionSort fun left right => ¬ right.Before left)[i]? = some result := by
  rw [rankResults, List.getElem?_take] at h
  split_ifs at h
  exact h

lemma length_rankResults_le (results : List (SearchResult K)) (maxResults : ℕ) :
    (rankResults results maxResults).length ≤ maxResults :=
  List.length_take_le _ _

lemma rankResults_pairwise {results : List (SearchResult K)} (hn : results.Nodup)
    (maxResults : ℕ) : (rankResults results maxResults).Pairwise SearchResult.Before := by
  have hsorted := pairwise_insertionSort_before results
  have hnodup : (results.insertionSort fun left right => ¬ right.Before left).Nodup :=
    (List.perm_insertionSort _ _).nodup_iff.mpr hn
  apply List.Pairwise.sublist (List.take_sublist _ _)
  refine (hsorted.and hnodup).imp fun h => ?_
  rw [SearchResult.before_iff]
  exact lt_of_le_of_ne h.1 fun he => h.2 (SearchResult.sortKey_injective he)

lemma rankResults_perm_self {results : List (SearchResult K)} {maxResults : ℕ}
    (h : results.length ≤ maxResults) : (rankResults results maxResults).Perm results := by
  rw [rankResults, List.take_of_length_le]
  · exact List.perm_insertionSort _ _
  · rwa [List.length_insertionSort]

lemma mem_rankResults_iff {results : List (SearchResult K)}
    {result : SearchResult K} {maxResults : ℕ} :
    result ∈ rankResults results maxResults ↔
      result ∈ results ∧ results.countP (fun other => other.Before result) < maxResults := by
  have hperm := List.perm_insertionSort (fun left right : SearchResult K => ¬ right.Before left) results
  have hmem := AscendingList.mem_take_iff SearchResult.sortKey_injective
    (pairwise_insertionSort_before results) result maxResults
  simp only [hperm.mem_iff, hperm.countP_eq, ← SearchResult.before_iff] at hmem
  exact hmem

lemma head?_rankResults_iff {results : List (SearchResult K)} {bound : K} {maxResults : ℕ}
    (hmax : 0 < maxResults) (hbound : ∀ result ∈ results, result.score ≤ bound) :
    (∃ first, (rankResults results maxResults).head? = some first ∧ first.score = bound) ↔
      ∃ result ∈ results, result.score = bound := by
  constructor
  · rintro ⟨first, hfirst, hscore⟩
    exact ⟨first, mem_of_mem_rankResults (List.mem_of_head? hfirst), hscore⟩
  · rintro ⟨result, hresult, hscore⟩
    have hsorted := pairwise_insertionSort_before results
    have hperm := List.perm_insertionSort (fun left right : SearchResult K => ¬ right.Before left) results
    have hhead : (rankResults results maxResults).head? =
        (results.insertionSort fun left right => ¬ right.Before left).head? := by
      rw [rankResults, List.head?_take, if_neg hmax.ne']
    rw [hhead]
    cases hsort : results.insertionSort fun left right => ¬ right.Before left with
    | nil =>
      rw [hsort] at hperm
      rw [hperm.symm.eq_nil] at hresult
      exact absurd hresult List.not_mem_nil
    | cons first rest =>
      rw [hsort] at hperm hsorted
      refine ⟨first, rfl, le_antisymm (hbound first (hperm.mem_iff.mp List.mem_cons_self)) ?_⟩
      rcases List.mem_cons.mp (hperm.mem_iff.mpr hresult) with rfl | hrest
      · exact hscore.ge
      · rw [← hscore]
        exact SearchResult.score_le_of_sortKey ((List.pairwise_cons.mp hsorted).1 result hrest)

end Rank

section Tasks

lemma parallelTaskCount_pos (hardwareConcurrency n : ℕ) :
    0 < parallelTaskCount hardwareConcurrency n := by
  rw [parallelTaskCount]
  split_ifs with hn
  · exact Nat.one_pos
  · omega

lemma le_mul_chunk (n : ℕ) {tasks : ℕ} (ht : 0 < tasks) :
    n ≤ tasks * ((n + tasks - 1) / tasks) := by
  have hdiv := Nat.div_add_mod (n + tasks - 1) tasks
  have hmod := Nat.mod_lt (n + tasks - 1) ht
  omega

lemma flatMap_drop_take {α : Type} (xs : List α) (chunk tasks : ℕ) :
    ((List.range tasks).flatMap fun index => (xs.drop (index * chunk)).take chunk) =
      xs.take (tasks * chunk) := by
  induction tasks with
  | zero => simp
  | succ tasks ih =>
    rw [List.range_succ, List.flatMap_append, ih, List.flatMap_singleton, Nat.succ_mul,
      List.take_add]

lemma take_taskRange {α : Type} (xs : List α) (tasks index : ℕ) :
    (xs.drop (taskRange xs.length tasks index).1).take
        ((taskRange xs.length tasks index).2 - (taskRange xs.length tasks index).1) =
      (xs.drop (index * ((xs.length + tasks - 1) / tasks))).take
        ((xs.length + tasks - 1) / tasks) := by
  simp only [taskRange]
  generalize index * ((xs.length + tasks - 1) / tasks) = start
  generalize (xs.length + tasks - 1) / tasks = chunk
  rcases le_total xs.length (start + chunk) with hle | hle
  · rw [min_eq_left hle, List.take_of_length_le, List.take_of_length_le]
    · rw [List.length_drop]
      omega
    · rw [List.length_drop]
  · rw [min_eq_right hle, Nat.add_sub_cancel_left]

variable {K : Type} [Field K] [LinearOrder K] (A : ScoreArithmetic K)

lemma scoreCandidates_eq (s : SimilarityIndex) (query : TermFrequencyMap) (minScore : K)
    (hardwareConcurrency : ℕ) (candidateList : List LineId) :
    scoreCandidates A s query minScore hardwareConcurrency candidateList =
      candidateList.filterMap (scoreCandidate A s query minScore) := by
  have hpos := parallelTaskCount_pos hardwareConcurrency candidateList.length
  simp only [scoreCandidates]
  split_ifs
  · rw [scoreCandidateRange, List.drop_zero, Nat.sub_zero, List.take_length]
  · simp only [scoreCandidateRange, take_taskRange]
    rw [← List.filterMap_flatMap, flatMap_drop_take, List.take_of_length_le]
    exact le_mul_chunk _ hpos

lemma scoreCandidate_eq_some {s : SimilarityIndex} {query : TermFrequencyMap} {minScore : K}
    {id : LineId} {result : SearchResult K} :
    scoreCandidate A s query minScore id = some result ↔
      ∃ line, s.lines.lookup id = some line ∧ 0 < lineNorm A s line ∧
        0 < dotProduct A s query line.termFrequency ∧ minScore ≤ cosine A s query line ∧
        resultFor A s query line = result := by
  rw [scoreCandidate]
  cases s.lines.lookup id with
  | none => simp
  | some line =>
    simp only [Option.some.injEq, exists_eq_left']
    split_ifs with hn hd hc
    · simp [hn]
    · simp [hd]
    · simp [hc]
    · simp [not_le.mp hn, not_le.mp hd, not_lt.mp hc]

end Tasks

end SimilarityIndex

end DltxtBridge
