import DltxtBridge.Library.SparseVector
import DltxtBridge.SimilarityIndex.Exhaustive
import DltxtBridge.SimilarityIndex.Retrieval

namespace DltxtBridge

open SortedTable
open scoped RealInnerProductSpace

namespace SimilarityIndex

structure BoundedScore (s : SimilarityIndex) (query : TermFrequencyMap) (line : IndexedLine) : Prop where
  queryNorm : 0 < exactScores.sqrt (normSquared exactScores s query)
  lineNorm : 0 < lineNorm exactScores s line
  positive : 0 < cosine exactScores s query line
  le_one : cosine exactScores s query line ≤ 1

lemma BoundedScore.dotProduct_pos {s : SimilarityIndex} {query : TermFrequencyMap} {line : IndexedLine}
    (h : BoundedScore s query line) : 0 < dotProduct exactScores s query line.termFrequency :=
  (div_pos_iff_of_pos_right (mul_pos h.queryNorm h.lineNorm)).mp h.positive

lemma ascending_queryTermFrequency (s : SimilarityIndex) (query : Text) :
    (s.queryTermFrequency query).Pairwise fun a b => a.1 < b.1 :=
  (buildTermFrequency_tallies findTermId query s.terms).ascending

namespace Wired

variable {s : SimilarityIndex} {query : TermFrequencyMap} {id : LineId} {line : IndexedLine}

lemma currentIdf_pos (h : Wired s) (t : TermId) : 0 < currentIdf exactScores s t := by
  rw [currentIdf, h.inverted.frequency_getD]
  exact Corpus.inverseDocumentFrequency_pos exactScores_lawful (Finset.card_filter_le _ _)

noncomputable def weights (s : SimilarityIndex) (query : TermFrequencyMap) (line : IndexedLine) :
    TermFrequencyMap → EuclideanSpace ℝ (keys query ∪ keys line.termFrequency : Finset TermId) :=
  vector (currentIdf exactScores s) _

lemma sqrt_normSquared_query (hq : query.Pairwise fun a b => a.1 < b.1) (line : IndexedLine) :
    exactScores.sqrt (normSquared exactScores s query) = ‖weights s query line query‖ := by
  have hkeys : keys query ⊆ keys query ∪ keys line.termFrequency := Finset.subset_union_left
  have hsquares := foldl_squares (currentIdf exactScores s) hq hkeys
  change Real.sqrt (normSquared exactScores s query) = _
  rw [show normSquared exactScores s query = ‖weights s query line query‖ ^ 2 from hsquares]
  exact Real.sqrt_sq (norm_nonneg _)

lemma lineNorm_eq (h : Wired s) (hl : s.lines.lookup id = some line) (query : TermFrequencyMap) :
    lineNorm exactScores s line = ‖weights s query line line.termFrequency‖ := by
  have hkeys : keys line.termFrequency ⊆ keys query ∪ keys line.termFrequency := Finset.subset_union_right
  have hsquares := foldl_squares (currentIdf exactScores s) (h.ascending id line hl) hkeys
  change Real.sqrt (normSquared exactScores s line.termFrequency) = _
  rw [show normSquared exactScores s line.termFrequency = ‖weights s query line line.termFrequency‖ ^ 2
    from hsquares]
  exact Real.sqrt_sq (norm_nonneg _)

lemma dotProduct_eq (h : Wired s) (hq : query.Pairwise fun a b => a.1 < b.1)
    (hl : s.lines.lookup id = some line) :
    dotProduct exactScores s query line.termFrequency =
      ⟪weights s query line query, weights s query line line.termFrequency⟫ :=
  mergeCommon_products hq (h.ascending id line hl) Finset.subset_union_left

lemma cosine_eq (h : Wired s) (hq : query.Pairwise fun a b => a.1 < b.1)
    (hl : s.lines.lookup id = some line) :
    cosine exactScores s query line =
      ⟪weights s query line query, weights s query line line.termFrequency⟫ /
        (‖weights s query line query‖ * ‖weights s query line line.termFrequency‖) := by
  rw [cosine, h.dotProduct_eq hq hl, sqrt_normSquared_query hq line, h.lineNorm_eq hl query]

lemma cosine_le_one (h : Wired s) (hq : query.Pairwise fun a b => a.1 < b.1)
    (hl : s.lines.lookup id = some line) : cosine exactScores s query line ≤ 1 := by
  rw [h.cosine_eq hq hl]
  exact (le_abs_self _).trans (abs_real_inner_div_norm_mul_norm_le_one _ _)

lemma cosine_eq_one_iff (h : Wired s) (hq : query.Pairwise fun a b => a.1 < b.1)
    (hl : s.lines.lookup id = some line) :
    cosine exactScores s query line = 1 ↔ SameProportions query line.termFrequency := by
  rw [h.cosine_eq hq hl]
  exact inner_div_norm_eq_one_iff h.currentIdf_pos Finset.subset_union_left Finset.subset_union_right

lemma dotProduct_pos_iff (h : Wired s) (hq : query.Pairwise fun a b => a.1 < b.1)
    (hl : s.lines.lookup id = some line) :
    0 < dotProduct exactScores s query line.termFrequency ↔
      ∃ t, 0 < count query t ∧ 0 < count line.termFrequency t := by
  rw [h.dotProduct_eq hq hl]
  exact inner_pos_iff h.currentIdf_pos Finset.subset_union_left

lemma boundedScore (h : Wired s) (hq : query.Pairwise fun a b => a.1 < b.1)
    (hl : s.lines.lookup id = some line) {t : TermId} (ht : 0 < count query t)
    (ht' : 0 < count line.termFrequency t) : BoundedScore s query line := by
  have hquery : 0 < exactScores.sqrt (normSquared exactScores s query) := by
    rw [sqrt_normSquared_query hq line, norm_pos_iff]
    exact (vector_ne_zero_iff h.currentIdf_pos Finset.subset_union_left).mpr ⟨t, ht⟩
  have hline : 0 < SimilarityIndex.lineNorm exactScores s line := by
    rw [h.lineNorm_eq hl query, norm_pos_iff]
    exact (vector_ne_zero_iff h.currentIdf_pos Finset.subset_union_right).mpr ⟨t, ht'⟩
  exact ⟨hquery, hline, div_pos ((h.dotProduct_pos_iff hq hl).mpr ⟨t, ht, ht'⟩) (mul_pos hquery hline),
    h.cosine_le_one hq hl⟩

lemma score_le_one (h : Wired s) {P : Platform ℝ} {text : Text} {minScore : ℝ} {maxResults : ℕ}
    {result : SearchResult ℝ} (hresult : result ∈ search exactScores P s text minScore maxResults) :
    result.score ≤ 1 := by
  obtain ⟨⟨id, -, hscore⟩, -⟩ := mem_search_iff.mp hresult
  obtain ⟨line, hl, -, -, -, rfl⟩ := (scoreCandidate_eq_some exactScores).mp hscore
  exact h.cosine_le_one (ascending_queryTermFrequency s text) hl

end Wired

end SimilarityIndex

namespace CountsGrams

variable {terms : TermTable} {text text' : Text} {frequencies frequencies' : TermFrequencyMap}

lemma count_pos (h : CountsGrams terms text frequencies) {g : Term} {t : TermId}
    (ht : terms.idsByValue.lookup g = some t) (hg : 0 < toUInt32 ((grams text).count g)) :
    0 < SortedTable.count frequencies t := by
  have hmem := (h.mem_iff t _).mpr ⟨g, Corpus.mem_grams_of_toUInt32 hg, ht, rfl⟩
  rwa [count_of_mem h.ascending hmem]

lemma count_congr (h : CountsGrams terms text frequencies) (h' : CountsGrams terms text' frequencies')
    (hgrams : (grams text).Perm (grams text')) (t : TermId) :
    SortedTable.count frequencies t = SortedTable.count frequencies' t := by
  have hmem : ∀ n, (t, n) ∈ frequencies ↔ (t, n) ∈ frequencies' := by
    intro n
    rw [h.mem_iff, h'.mem_iff]
    exact exists_congr fun g => by rw [hgrams.mem_iff, hgrams.count_eq]
  by_cases ht : t ∈ keys frequencies
  · obtain ⟨n, hn⟩ := mem_keys.mp ht
    rw [count_of_mem h.ascending hn, count_of_mem h'.ascending ((hmem n).mp hn)]
  · have ht' : t ∉ keys frequencies' := fun hk => by
      obtain ⟨n, hn⟩ := mem_keys.mp hk
      exact ht (mem_keys.mpr ⟨n, (hmem n).mpr hn⟩)
    rw [count_of_notMem ht, count_of_notMem ht']

end CountsGrams

namespace IndexCall

open SimilarityIndex

theorem run_score_bounded (calls : List IndexCall) (hids : WithinIds (run calls)) (query : Text)
    (id : LineId) (c : CorpusLine) (hlive : lastUpsert calls id = some c)
    (hshare : ∃ g, 0 < toUInt32 ((grams query).count g) ∧ 0 < toUInt32 ((grams c.text).count g)) :
    ∃ line, (run calls).lines.lookup id = some line ∧
      BoundedScore (run calls) ((run calls).queryTermFrequency query) line ∧
      ((grams c.text).Perm (grams query) →
        cosine exactScores (run calls) ((run calls).queryTermFrequency query) line = 1 ∧
        ∀ P minScore maxResults, ∀ result ∈ search exactScores P (run calls) query minScore maxResults,
          result.score ≤ cosine exactScores (run calls) ((run calls).queryTermFrequency query) line) := by
  have h := represents_run calls hids
  have hwired := wired_run calls
  have hascending := ascending_queryTermFrequency (run calls) query
  rw [← corpus_lookup] at hlive
  obtain ⟨line, hl, hline⟩ := h.exists_line hlive
  obtain ⟨g, hq, hg⟩ := hshare
  obtain ⟨t, ht⟩ := hline.mapped g (Corpus.mem_grams_of_toUInt32 hg)
  have hquery := (h.query_countsGrams query).count_pos ht hq
  have hbounded := hwired.boundedScore hascending hl hquery (hline.countsGrams.count_pos ht hg)
  refine ⟨line, hl, hbounded, fun hgrams => ?_⟩
  have hone : cosine exactScores (run calls) ((run calls).queryTermFrequency query) line = 1 := by
    refine (hwired.cosine_eq_one_iff hascending hl).mpr ⟨⟨t, hquery⟩, 1, 1, one_pos, one_pos, fun u => ?_⟩
    rw [(h.query_countsGrams query).count_congr hline.countsGrams hgrams.symm]
  exact ⟨hone, fun P minScore maxResults result hresult => hone ▸ hwired.score_le_one hresult⟩

theorem run_score_bounded_single :
    ∃ line, (run [.upsert 7 (ascii "a.txt") 3 [97, 98, 97]]).lines.lookup 7 = some line ∧
      BoundedScore (run [.upsert 7 (ascii "a.txt") 3 [97, 98, 97]])
        ((run [.upsert 7 (ascii "a.txt") 3 [97, 98, 97]]).queryTermFrequency [98, 97, 98]) line ∧
      ((grams [97, 98, 97]).Perm (grams [98, 97, 98]) →
        cosine exactScores (run [.upsert 7 (ascii "a.txt") 3 [97, 98, 97]])
          ((run [.upsert 7 (ascii "a.txt") 3 [97, 98, 97]]).queryTermFrequency [98, 97, 98]) line = 1 ∧
        ∀ P minScore maxResults, ∀ result ∈ search exactScores P
          (run [.upsert 7 (ascii "a.txt") 3 [97, 98, 97]]) [98, 97, 98] minScore maxResults,
          result.score ≤ cosine exactScores (run [.upsert 7 (ascii "a.txt") 3 [97, 98, 97]])
            ((run [.upsert 7 (ascii "a.txt") 3 [97, 98, 97]]).queryTermFrequency [98, 97, 98]) line) :=
  run_score_bounded _ (by decide) [98, 97, 98] 7 ⟨ascii "a.txt", 3, [97, 98, 97]⟩ (by decide)
    ⟨[97, 98], by decide⟩

section Counterexamples

lemma dotProduct_repeatedBigram {n : ℕ} (hn : toUInt32 n = 0) {line : IndexedLine}
    (hl : (run (repeatedBigram n)).lines.lookup 0 = some line) :
    ¬ 0 < dotProduct exactScores (run (repeatedBigram n))
      ((run (repeatedBigram n)).queryTermFrequency [97, 97]) line.termFrequency := by
  have h := represents_run _ (withinIds_repeatedBigram n)
  have hc := corpus_repeatedBigram n
  have hline := h.stores 0 line _ hl hc
  rw [h.dotProduct_eq (h.query_countsGrams _) hline.countsGrams (h.grams_subset_keys hc),
    Corpus.dotProduct_pos_iff _ exactScores_lawful]
  rintro ⟨g, hq, hg⟩
  have hgram : g = [97, 97] := List.mem_singleton.mp (Corpus.mem_grams_of_toUInt32 hq)
  rw [hgram, count_repeatedBigram, hn] at hg
  exact lt_irrefl 0 hg

lemma lookup_erase_lastReference {s : SimilarityIndex} {id : LineId} {line : IndexedLine} {g : Term}
    (hl : s.lines.lookup id = some line) (hline : line.termFrequency = [(0, 1)])
    (hcount : s.terms.refCount 0 = 1) (hvalue : s.terms.valuesById.getD 0 [] = g) :
    (s.erase id).2.terms.idsByValue.lookup g = none := by
  rw [erase_of_some hl, hline]
  change (s.terms.reclaim [] 0).idsByValue.lookup g = none
  rw [InternTable.reclaim, hcount]
  change (s.terms.idsByValue.erase (s.terms.valuesById.getD 0 [])).lookup g = none
  rw [hvalue, FiniteMap.lookup_erase, if_pos rfl]

lemma not_boundedScore_of_unknown {s : SimilarityIndex} {a b : UInt16} {line : IndexedLine}
    (h : s.terms.idsByValue.lookup [a, b] = none) : ¬ BoundedScore s (s.queryTermFrequency [a, b]) line := by
  intro hbounded
  have hgrams : grams [a, b] = [[a, b]] := rfl
  have hquery : s.queryTermFrequency [a, b] = [] := by
    rw [queryTermFrequency_eq, hgrams, List.filterMap_cons, h]
    rfl
  have hnorm := hbounded.queryNorm
  rw [hquery] at hnorm
  change 0 < Real.sqrt 0 at hnorm
  rw [Real.sqrt_zero] at hnorm
  exact lt_irrefl 0 hnorm

lemma run_concat_erase (calls : List IndexCall) (id : LineId) :
    run (calls ++ [.erase id]) = ((run calls).erase id).2 := run_concat calls _

lemma run_aliasing_erase :
    (run (aliasing ++ [.erase 2])).lines.lookup 0 = some ⟨0, 0, 0, [(0, 1)]⟩ ∧
      (run (aliasing ++ [.erase 2])).terms.idsByValue.lookup [120, 121] = none := by
  obtain ⟨hlines, -, -, -, -⟩ := run_aliasing
  obtain ⟨hcount, hvalue⟩ := firstSlot_aliasing
  have hline : (run aliasing).lines.lookup 2 = some ⟨2, 0, 0, [(0, 1)]⟩ := by
    rw [hlines]
    decide
  rw [run_concat_erase]
  refine ⟨?_, lookup_erase_lastReference hline rfl hcount hvalue⟩
  rw [lines_erase, hlines]
  decide

lemma lastUpsert_aliasing_erase : lastUpsert (aliasing ++ [.erase 2]) =
    fun id => if id = 0 then some ⟨ascii "p", 0, [120, 121]⟩ else none := by
  funext id
  have hcorpus : corpus (aliasing ++ [.erase 2]) = (corpus aliasing).erase 2 := corpus_concat _ _
  rw [← corpus_lookup, hcorpus, corpus_aliasing, FiniteMap.erase_insert _ _ _ (by decide),
    FiniteMap.lookup_insert]
  rfl

/-- A bigram repeated `2 ^ 32` times is counted as absent, and an id that two bigrams share
is given back with the line of one of them. -/
theorem run_score_not_bounded :
    (¬ ∀ (calls : List IndexCall) (query : Text) (id : LineId) (c : CorpusLine) (line : IndexedLine),
        WithinIds (run calls) → lastUpsert calls id = some c → (run calls).lines.lookup id = some line →
        (∃ g ∈ grams query, g ∈ grams c.text) →
        BoundedScore (run calls) ((run calls).queryTermFrequency query) line) ∧
      ¬ ∀ (calls : List IndexCall) (query : Text) (id : LineId) (c : CorpusLine) (line : IndexedLine),
        CountsFit query → (∀ id c, lastUpsert calls id = some c → CountsFit c.text) →
        lastUpsert calls id = some c → (run calls).lines.lookup id = some line →
        (∃ g ∈ grams query, g ∈ grams c.text) →
        BoundedScore (run calls) ((run calls).queryTermFrequency query) line := by
  constructor
  · intro hall
    have hids := withinIds_repeatedBigram (2 ^ 32)
    have hc := corpus_repeatedBigram (2 ^ 32)
    obtain ⟨line, hl, -⟩ := (represents_run _ hids).exists_line hc
    have hshare : ∃ g ∈ grams [97, 97], g ∈ grams (List.replicate (2 ^ 32 + 1) 97 ++ [98]) := by
      refine ⟨[97, 97], List.mem_singleton_self _, ?_⟩
      rw [← List.count_pos_iff, count_repeatedBigram]
      norm_num
    rw [corpus_lookup] at hc
    exact dotProduct_repeatedBigram rfl hl (hall _ [97, 97] 0 _ line hids hc hl hshare).dotProduct_pos
  · intro hall
    obtain ⟨hl, hterm⟩ := run_aliasing_erase
    have hfit : ∀ id c, lastUpsert (aliasing ++ [.erase 2]) id = some c → CountsFit c.text := by
      intro id c hc
      rw [lastUpsert_aliasing_erase] at hc
      dsimp only at hc
      split_ifs at hc
      rw [← Option.some.inj hc]
      exact countsFit_of_length (by decide)
    have hbounded := hall _ [120, 121] 0 ⟨ascii "p", 0, [120, 121]⟩ _ (countsFit_of_length (by decide)) hfit
      (by rw [lastUpsert_aliasing_erase]; rfl) hl ⟨[120, 121], by decide, by decide⟩
    exact not_boundedScore_of_unknown hterm hbounded

end Counterexamples

end IndexCall

end DltxtBridge
