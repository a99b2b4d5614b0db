import DltxtBridge.SimilarityIndex.SearchRefinement
import DltxtBridge.SimilarityIndex.Overflow

namespace DltxtBridge

section Platform

variable {K : Type} [LinearOrder K]

def WeightedQueryTerm.sortKey (term : WeightedQueryTerm K) : ℕ ×ₗ Kᵒᵈ :=
  toLex (term.postingSize, OrderDual.toDual term.queryWeight)

lemma WeightedQueryTerm.not_before_iff (left right : WeightedQueryTerm K) :
    ¬ right.Before left ↔ left.sortKey ≤ right.sortKey := by
  rw [← not_lt, not_iff_not]
  simp only [Before, sortKey, Prod.Lex.toLex_lt_toLex, OrderDual.toDual_lt_toDual]
  split_ifs with hs
  · exact ⟨Or.inl, fun h => h.resolve_right fun he => hs he.1⟩
  · simp [not_not.mp hs]

def Platform.ascending (hardwareConcurrency : ℕ) : Platform K where
  sortTerms terms := terms.insertionSort fun left right => ¬ right.Before left
  sortTerms_perm terms := List.perm_insertionSort _ _
  sortTerms_sorted terms := by
    have := StableSort.total_of_key (WeightedQueryTerm.not_before_iff (K := K))
    have := StableSort.isTrans_of_key (WeightedQueryTerm.not_before_iff (K := K))
    exact List.pairwise_insertionSort _ _
  iterate ids := ids.sort (· ≤ ·)
  iterate_nodup ids := Finset.sort_nodup _ _
  mem_iterate ids id := Finset.mem_sort _
  hardwareConcurrency := hardwareConcurrency

end Platform

namespace SimilarityIndex

variable {K : Type} [Field K] [LinearOrder K]

structure SoundResults (live : LineId → Option CorpusLine) (query : Text) (minScore : K)
    (maxResults : ℕ) (results : List (SearchResult K)) : Prop where
  length_le : results.length ≤ maxResults
  ranked : results.Pairwise SearchResult.Before
  distinct : (results.map SearchResult.lineId).Nodup
  live : ∀ result ∈ results, ∃ c, live result.lineId = some c ∧
    result.filePath = c.filePath ∧ result.lineNumber = c.lineNumber ∧ minScore ≤ result.score ∧
    ∃ g ∈ grams query, g ∈ grams c.text

lemma queryTermFrequency_eq (s : SimilarityIndex) (query : Text) :
    s.queryTermFrequency query =
      (((grams query).filterMap s.terms.idsByValue.lookup).insertionSort (· ≤ ·)).foldl
        countTerm [] := by
  rw [queryTermFrequency, buildTermFrequency, seenTermIds_find]

lemma candidateBudget_eq {maxResults : ℕ} (h : 24 * maxResults < 2 ^ 64) :
    candidateBudget maxResults = min (max (24 * maxResults) 128) 1024 := by
  rw [candidateBudget, kMaxCandidateBudget, mul_comm maxResults, Nat.mod_eq_of_lt h]

lemma mem_filterMap_scoreCandidate {A : ScoreArithmetic K} {s : SimilarityIndex} {C : Corpus}
    (h : Represents s C) {query : TermFrequencyMap} {minScore : K} {ids : List LineId}
    {result : SearchResult K}
    (hr : result ∈ ids.filterMap (scoreCandidate A s query minScore)) :
    result.lineId ∈ ids ∧ ∃ c, C.lookup result.lineId = some c ∧ result.filePath = c.filePath ∧
      result.lineNumber = c.lineNumber ∧ minScore ≤ result.score := by
  obtain ⟨id, hid, hscore⟩ := List.mem_filterMap.mp hr
  obtain ⟨line, hl, -, -, hmin, rfl⟩ := (scoreCandidate_eq_some A).mp hscore
  obtain ⟨c, hc, hline⟩ := h.exists_content hl
  have hlineId : (resultFor A s query line).lineId = id := hline.lineId
  rw [hlineId]
  refine ⟨hid, c, hc, ?_, hline.lineNumber, hmin⟩
  rw [resultFor, hline.getD_filePath]

lemma Wired.lineId_scoreCandidate {A : ScoreArithmetic K} {s : SimilarityIndex} (h : Wired s)
    {query : TermFrequencyMap} {minScore : K} {id : LineId} {result : SearchResult K}
    (hresult : scoreCandidate A s query minScore id = some result) : result.lineId = id := by
  obtain ⟨line, hl, -, -, -, rfl⟩ := (scoreCandidate_eq_some A).mp hresult
  exact h.lineId id line hl

lemma Wired.nodup_lineIds {A : ScoreArithmetic K} {s : SimilarityIndex} (h : Wired s)
    (query : TermFrequencyMap) (minScore : K) {ids : List LineId} (hn : ids.Nodup) :
    ((ids.filterMap (scoreCandidate A s query minScore)).map SearchResult.lineId).Nodup := by
  rw [List.map_filterMap]
  refine hn.filterMap fun id id' lineId hid hid' => ?_
  obtain ⟨result, hresult, rfl⟩ := Option.map_eq_some_iff.mp hid
  obtain ⟨result', hresult', hsame⟩ := Option.map_eq_some_iff.mp hid'
  rw [← h.lineId_scoreCandidate hresult, ← h.lineId_scoreCandidate hresult', hsame]

lemma Represents.search_sound {s : SimilarityIndex} {C : Corpus} (h : Represents s C)
    (A : ScoreArithmetic K) (P : Platform K) (query : Text) (minScore : K) (maxResults : ℕ) :
    SoundResults (fun id => C.lookup id) query minScore maxResults
      (search A P s query minScore maxResults) := by
  have hids := h.wired.nodup_lineIds (A := A) (s.queryTermFrequency query) minScore
    (P.iterate_nodup (scoredLines A P s query maxResults))
  rw [search, scoreCandidates_eq]
  refine ⟨length_rankResults_le _ _, rankResults_pairwise hids.of_map _, ?_, ?_⟩
  · apply List.Nodup.sublist ((List.take_sublist _ _).map _)
    exact ((List.perm_insertionSort _ _).map _).nodup_iff.mpr hids
  · intro result hr
    obtain ⟨hmem, c, hc, hpath, hnumber, hmin⟩ :=
      mem_filterMap_scoreCandidate h (mem_of_mem_rankResults hr)
    obtain ⟨d, hd, hshare⟩ := Corpus.mem_sharing.mp
      (h.scoredLines_subset P query maxResults ((P.mem_iterate _ _).mp hmem))
    rw [hc, Option.some.injEq] at hd
    subst hd
    exact ⟨c, hc, hpath, hnumber, hmin, hshare⟩

end SimilarityIndex

namespace IndexCall

open SimilarityIndex

theorem run_search_sound {K : Type} [Field K] [LinearOrder K] (A : ScoreArithmetic K)
    (P : Platform K) (calls : List IndexCall) (hids : WithinIds (run calls)) (query : Text)
    (minScore : K) (maxResults : ℕ) (hmax : 24 * maxResults < 2 ^ 64) :
    (scoredLines A P (run calls) query maxResults).card ≤ min (max (24 * maxResults) 128) 1024 ∧
      SoundResults (lastUpsert calls) query minScore maxResults
        (search A P (run calls) query minScore maxResults) := by
  have h := represents_run calls hids
  have hlive : (fun id => (corpus calls).lookup id) = lastUpsert calls :=
    funext (corpus_lookup calls)
  have hcard := Represents.scoredLines_card_le (A := A) P (run calls) query maxResults
  rw [candidateBudget_eq hmax] at hcard
  exact ⟨hcard, hlive ▸ h.search_sound A P query minScore maxResults⟩

theorem run_search_sound_single :
    (scoredLines exactScores (Platform.ascending 4)
        (run [.upsert 7 (ascii "a.txt") 3 [97, 98, 97]]) [98, 97] 10).card ≤
          min (max (24 * 10) 128) 1024 ∧
      SoundResults (lastUpsert [.upsert 7 (ascii "a.txt") 3 [97, 98, 97]]) [98, 97] 0 10
        (search exactScores (Platform.ascending 4)
          (run [.upsert 7 (ascii "a.txt") 3 [97, 98, 97]]) [98, 97] 0 10) :=
  run_search_sound exactScores (Platform.ascending 4) _ (by decide) _ _ _
    (by norm_num)

section Aliasing

lemma queryTermFrequency_aliasing : (run aliasing).queryTermFrequency [99, 100] = [(0, 1)] := by
  obtain ⟨-, -, -, hterms, -⟩ := run_aliasing
  rw [queryTermFrequency_eq, hterms]
  decide

lemma weight_aliasing : weight exactScores (run aliasing) (0, 1) = 1 := by
  obtain ⟨hlines, -, hfrequency, -, -⟩ := run_aliasing
  have hsize : FiniteMap.size (run aliasing).lines = 2 := by
    rw [hlines]
    decide
  have hdf : ((run aliasing).inverted.documentFrequency.lookup 0).getD 0 = 2 := by
    rw [hfrequency]
    decide
  rw [weight, currentIdf, hsize, hdf]
  norm_num [inverseDocumentFrequency, exactScores]

lemma scoredLines_aliasing (P : Platform ℝ) :
    scoredLines exactScores P (run aliasing) [99, 100] 10 = {0, 2} := by
  obtain ⟨hlines, hpostings, -, -, -⟩ := run_aliasing
  have hweighted : weightedTerms exactScores (run aliasing) [(0, 1)] = [⟨0, 1, 2⟩] := by
    have hposting : (run aliasing).inverted.postings.lookup 0 = some [0, 2] := by
      rw [hpostings]
      decide
    simp [weightedTerms, hposting, weight_aliasing]
  have hsort := P.sortTerms_perm [⟨0, 1, 2⟩]
  have hposted : postedUnder (run aliasing) (P.sortTerms [⟨0, 1, 2⟩]) = {0, 2} := by
    rw [postedUnder_perm _ hsort, postedUnder, hpostings]
    decide
  have hnorm : normSquared exactScores (run aliasing) [(0, 1)] = 1 := by
    simp [normSquared, weight_aliasing]
  have hsize : FiniteMap.size (run aliasing).lines = 2 := by
    rw [hlines]
    decide
  rw [scoredLines, queryTermFrequency_aliasing, hweighted, hnorm, hsize, ← hposted]
  rw [if_neg (by norm_num)]
  apply selectCandidates_eq
  · intro term hterm
    rw [List.mem_singleton.mp (hsort.mem_iff.mp hterm)]
    decide
  · rw [hposted]
    decide

lemma mem_search_aliasing (P : Platform ℝ) :
    ∃ result ∈ search exactScores P (run aliasing) [99, 100] 0 10, result.lineId = 0 := by
  obtain ⟨hlines, -, -, -, -⟩ := run_aliasing
  have hline : (run aliasing).lines.lookup 0 = some ⟨0, 0, 0, [(0, 1)]⟩ := by
    rw [hlines]
    decide
  have hnorm : normSquared exactScores (run aliasing) [(0, 1)] = 1 := by
    simp [normSquared, weight_aliasing]
  have hdot : dotProduct exactScores (run aliasing) [(0, 1)] [(0, 1)] = 1 := by
    simp [SimilarityIndex.dotProduct, SortedTable.mergeCommon, weight_aliasing]
  have hnormLine : lineNorm exactScores (run aliasing) ⟨0, 0, 0, [(0, 1)]⟩ = 1 := by
    rw [lineNorm, hnorm]
    exact Real.sqrt_one
  have hscore : scoreCandidate exactScores (run aliasing) [(0, 1)] 0 0 =
      some (resultFor exactScores (run aliasing) [(0, 1)] ⟨0, 0, 0, [(0, 1)]⟩) := by
    rw [scoreCandidate_eq_some]
    refine ⟨_, hline, ?_, ?_, ?_, rfl⟩
    · rw [hnormLine]
      exact one_pos
    · rw [hdot]
      exact one_pos
    · rw [cosine, hdot, hnormLine, hnorm]
      simp [exactScores]
  have hcard : (P.iterate {0, 2}).length = 2 := by
    rw [← List.toFinset_card_of_nodup (P.iterate_nodup _)]
    have hset : (P.iterate {0, 2}).toFinset = {0, 2} := by
      ext id
      rw [List.mem_toFinset, P.mem_iterate]
    rw [hset]
    decide
  rw [search, scoreCandidates_eq, scoredLines_aliasing, queryTermFrequency_aliasing]
  refine ⟨_, (rankResults_perm_self ?_).mem_iff.mpr
    (List.mem_filterMap.mpr ⟨0, (P.mem_iterate _ _).mpr (by decide), hscore⟩), rfl⟩
  exact (List.length_filterMap_le _ _).trans (by rw [hcard]; decide)

end Aliasing

theorem run_search_not_sound :
    ¬ ∀ (calls : List IndexCall) (query : Text) (minScore : ℝ) (maxResults : ℕ),
      24 * maxResults < 2 ^ 64 →
      (scoredLines exactScores (Platform.ascending 1) (run calls) query maxResults).card ≤
          min (max (24 * maxResults) 128) 1024 ∧
        SoundResults (lastUpsert calls) query minScore maxResults
          (search exactScores (Platform.ascending 1) (run calls) query minScore maxResults) := by
  intro hall
  obtain ⟨result, hr, hid⟩ := mem_search_aliasing (Platform.ascending 1)
  obtain ⟨c, hc, -, -, -, g, hq, hg⟩ :=
    (hall aliasing [99, 100] 0 10 (by norm_num)).2.live result hr
  rw [hid, ← corpus_lookup, corpus_aliasing] at hc
  have hline : c = ⟨ascii "p", 0, [120, 121]⟩ := (Option.some.inj hc).symm
  subst hline
  exact absurd ⟨g, hq, hg⟩ (show ¬ ∃ g ∈ grams [99, 100], g ∈ grams [120, 121] by decide)

end IndexCall

end DltxtBridge
