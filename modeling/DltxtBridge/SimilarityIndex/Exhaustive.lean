import DltxtBridge.SimilarityIndex.Soundness

namespace DltxtBridge

namespace SimilarityIndex

def exhaustiveSearch {K : Type} [Field K] [LinearOrder K] (A : ScoreArithmetic K)
    (s : SimilarityIndex) (sharing : Finset LineId) (query : Text) (minScore : K)
    (maxResults : ℕ) : List (SearchResult K) :=
  rankResults
    (((sharing.sort (· ≤ ·)).filterMap fun id =>
      (s.lines.lookup id).map (resultFor A s (s.queryTermFrequency query))).filter
        fun result => minScore ≤ result.score) maxResults

def CountsFit (text : Text) : Prop := ∀ g, (grams text).count g < 2 ^ 32

lemma CountsFit.toUInt32_pos {text : Text} (h : CountsFit text) {g : Term} (hg : g ∈ grams text) :
    0 < toUInt32 ((grams text).count g) := by
  rw [toUInt32_of_lt (h g)]
  exact List.count_pos_iff.mpr hg

lemma countsFit_of_length {text : Text} (h : text.length ≤ 2 ^ 32) : CountsFit text := by
  intro g
  have hcount := List.count_le_length (a := g) (l := grams text)
  rw [grams] at hcount ⊢
  split_ifs at hcount ⊢ with hshort
  · simp
  · rw [List.length_map, List.length_range] at hcount
    omega

section Lawful

variable {K : Type} [Field K] [LinearOrder K] [IsStrictOrderedRing K] {A : ScoreArithmetic K}
  {s : SimilarityIndex} {C : Corpus}

lemma Represents.scored_eq (h : Represents s C) (hA : A.Lawful) {query : Text}
    (hquery : CountsFit query) (hlines : ∀ id c, C.lookup id = some c → CountsFit c.text)
    (minScore : K) {id : LineId} (hid : id ∈ C.sharing query) :
    C.scored A s.terms.idsByValue.keys query minScore id =
      ((s.lines.lookup id).map (resultFor A s (s.queryTermFrequency query))).filter
        fun result => minScore ≤ result.score := by
  obtain ⟨c, hc, g, hq, hg⟩ := Corpus.mem_sharing.mp hid
  obtain ⟨line, hl, hline⟩ := h.exists_line hc
  have hdot := (C.dotProduct_pos_iff hA query c.text).mpr
    ⟨g, hquery.toUInt32_pos hq, (hlines id c hc).toUInt32_pos hg⟩
  simp only [Corpus.scored, hc, hl, Option.map_some, h.resultFor_eq hc hline, hdot, true_and,
    Option.filter_some, decide_eq_true_eq]

lemma Represents.search_eq_exhaustive (h : Represents s C) (hA : A.Lawful) (P : Platform K)
    {query : Text} (hquery : CountsFit query)
    (hlines : ∀ id c, C.lookup id = some c → CountsFit c.text) (minScore : K) {maxResults : ℕ}
    (hfits : (C.sharing query).card ≤ candidateBudget maxResults) :
    search A P s query minScore maxResults =
      exhaustiveSearch A s (C.sharing query) query minScore maxResults := by
  rw [h.search_eq hA P query minScore hfits, Corpus.search, exhaustiveSearch, List.filter_filterMap]
  congr 1
  apply List.filterMap_congr
  intro id hid
  exact h.scored_eq hA hquery hlines minScore ((Finset.mem_sort _).mp hid)

end Lawful

lemma Represents.cosine_nonneg {s : SimilarityIndex} {C : Corpus} (h : Represents s C) (query : Text)
    {id : LineId} {line : IndexedLine} {c : CorpusLine} (hc : C.lookup id = some c)
    (hl : s.lines.lookup id = some line) :
    0 ≤ cosine exactScores s (s.queryTermFrequency query) line := by
  rw [h.cosine_eq hc (h.stores id line c hl hc)]
  refine div_nonneg (Finset.sum_nonneg fun g _ => ?_) (mul_nonneg (Real.sqrt_nonneg _) (Real.sqrt_nonneg _))
  exact mul_nonneg (Corpus.weight_nonneg _ exactScores_lawful _ _)
    (Corpus.weight_nonneg _ exactScores_lawful _ _)

end SimilarityIndex

namespace IndexCall

open SimilarityIndex

theorem run_search_eq_exhaustive (P : Platform ℝ) (calls : List IndexCall)
    (hids : WithinIds (run calls)) (query : Text) (hquery : CountsFit query)
    (hlines : ∀ id c, lastUpsert calls id = some c → CountsFit c.text) (minScore : ℝ)
    (maxResults : ℕ) (hmax : 24 * maxResults < 2 ^ 64)
    (hfits : ((corpus calls).sharing query).card ≤ min (max (24 * maxResults) 128) 1024) :
    search exactScores P (run calls) query minScore maxResults =
      exhaustiveSearch exactScores (run calls) ((corpus calls).sharing query) query minScore
        maxResults := by
  have h := represents_run calls hids
  rw [← candidateBudget_eq hmax] at hfits
  refine h.search_eq_exhaustive exactScores_lawful P hquery ?_ minScore hfits
  intro id c hc
  rw [corpus_lookup] at hc
  exact hlines id c hc

theorem run_search_eq_exhaustive_single :
    search exactScores (Platform.ascending 4) (run [.upsert 7 (ascii "a.txt") 3 [97, 98, 97]])
        [98, 97] 0 10 =
      exhaustiveSearch exactScores (run [.upsert 7 (ascii "a.txt") 3 [97, 98, 97]])
        ((corpus [.upsert 7 (ascii "a.txt") 3 [97, 98, 97]]).sharing [98, 97]) [98, 97] 0 10 := by
  refine run_search_eq_exhaustive _ _ (by decide) _ (countsFit_of_length (by decide))
    ?_ _ _ (by norm_num) (by decide)
  intro id c hc
  have hline : c = ⟨ascii "a.txt", 3, [97, 98, 97]⟩ := by
    by_cases hid : 7 = id <;> simp_all [lastUpsert, lineId]
  rw [hline]
  exact countsFit_of_length (by decide)

section Counterexamples

lemma mem_sharing_repeatedBigram {n : ℕ} (hn : 0 < n) :
    0 ∈ (corpus (repeatedBigram n)).sharing [97, 97] := by
  refine Corpus.mem_sharing.mpr ⟨_, corpus_repeatedBigram n, [97, 97], List.mem_singleton_self _, ?_⟩
  rw [← List.count_pos_iff, count_repeatedBigram]
  exact hn

lemma search_repeatedBigram (P : Platform ℝ) :
    search exactScores P (run (repeatedBigram (2 ^ 32))) [97, 97] 0 10 = [] := by
  generalize hn : 2 ^ 32 = n
  have h := represents_run _ (withinIds_repeatedBigram n)
  have hcard : ((corpus (repeatedBigram n)).sharing [97, 97]).card ≤ 1 :=
    Finset.card_filter_le _ _
  rw [h.search_eq exactScores_lawful P _ _ (hcard.trans (by decide)), Corpus.search]
  have hnone : ∀ id ∈ ((corpus (repeatedBigram n)).sharing [97, 97]).sort (· ≤ ·),
      (corpus (repeatedBigram n)).scored exactScores (run (repeatedBigram n)).terms.idsByValue.keys
        [97, 97] 0 id = none := by
    intro id hid
    rw [Finset.mem_sort, Corpus.mem_sharing] at hid
    obtain ⟨c, hc, -⟩ := hid
    have hline : c = ⟨[], 0, List.replicate (n + 1) 97 ++ [98]⟩ := by
      have hlookup := FiniteMap.lookup_insert (∅ : Corpus) 0 id
        ⟨[], 0, List.replicate (n + 1) 97 ++ [98]⟩
      change (corpus (repeatedBigram n)).lookup id = _ at hlookup
      rw [hc] at hlookup
      split_ifs at hlookup
      · exact Option.some.inj hlookup
      · simp at hlookup
    rw [Corpus.scored, hc]
    apply if_neg
    intro hboth
    obtain ⟨g, hq, hg⟩ := (Corpus.dotProduct_pos_iff _ exactScores_lawful _ _).mp hboth.1
    have hgram : g = [97, 97] := List.mem_singleton.mp (Corpus.mem_grams_of_toUInt32 hq)
    rw [hline, hgram, count_repeatedBigram, toUInt32, hn, Nat.mod_self] at hg
    exact lt_irrefl 0 hg
  rw [List.filterMap_eq_nil_iff.mpr hnone]
  rfl

lemma exhaustiveSearch_ne_nil {s : SimilarityIndex} {sharing : Finset LineId} {query : Text}
    {id : LineId} {line : IndexedLine} (hid : id ∈ sharing) (hl : s.lines.lookup id = some line)
    (hscore : 0 ≤ cosine exactScores s (s.queryTermFrequency query) line) :
    exhaustiveSearch exactScores s sharing query 0 10 ≠ [] := by
  intro hnil
  have hmem : resultFor exactScores s (s.queryTermFrequency query) line ∈
      ((sharing.sort (· ≤ ·)).filterMap fun id =>
        (s.lines.lookup id).map (resultFor exactScores s (s.queryTermFrequency query))).filter
          fun result => 0 ≤ result.score := by
    refine List.mem_filter.mpr ⟨List.mem_filterMap.mpr ⟨id, (Finset.mem_sort _).mpr hid, ?_⟩, ?_⟩
    · rw [hl]
      rfl
    · exact decide_eq_true hscore
  have hlength := congrArg List.length hnil
  rw [exhaustiveSearch, rankResults, List.length_take, List.length_insertionSort,
    List.length_nil] at hlength
  have hpos := List.length_pos_of_mem hmem
  omega

lemma countsFit_aliasing {id : LineId} {c : CorpusLine} (hc : lastUpsert aliasing id = some c) :
    CountsFit c.text := by
  rw [← corpus_lookup, corpus_aliasing, FiniteMap.lookup_insert, FiniteMap.lookup_insert] at hc
  split_ifs at hc
  · rw [← Option.some.inj hc]
    exact countsFit_of_length (by decide)
  · rw [← Option.some.inj hc]
    exact countsFit_of_length (by decide)
  · simp at hc

lemma sharing_aliasing : (corpus aliasing).sharing [99, 100] = {2} := by
  rw [corpus_aliasing]
  decide

/-- Neither bound can be dropped: a counter that wraps loses a line, and ids that alias
add one. -/
theorem run_search_ne_exhaustive :
    (¬ ∀ (calls : List IndexCall) (query : Text) (minScore : ℝ) (maxResults : ℕ),
        WithinIds (run calls) → 0 < maxResults → 24 * maxResults < 2 ^ 64 →
        ((corpus calls).sharing query).card ≤ min (max (24 * maxResults) 128) 1024 →
        search exactScores (Platform.ascending 1) (run calls) query minScore maxResults =
          exhaustiveSearch exactScores (run calls) ((corpus calls).sharing query) query minScore
            maxResults) ∧
      ¬ ∀ (calls : List IndexCall) (query : Text) (minScore : ℝ) (maxResults : ℕ),
        CountsFit query → (∀ id c, lastUpsert calls id = some c → CountsFit c.text) →
        0 < maxResults → 24 * maxResults < 2 ^ 64 →
        ((corpus calls).sharing query).card ≤ min (max (24 * maxResults) 128) 1024 →
        search exactScores (Platform.ascending 1) (run calls) query minScore maxResults =
          exhaustiveSearch exactScores (run calls) ((corpus calls).sharing query) query minScore
            maxResults := by
  constructor
  · intro hall
    have hids := withinIds_repeatedBigram (2 ^ 32)
    have hcard : ((corpus (repeatedBigram (2 ^ 32))).sharing [97, 97]).card ≤ 1 :=
      Finset.card_filter_le _ _
    have heq := hall _ [97, 97] 0 10 hids (by norm_num) (by norm_num) (hcard.trans (by norm_num))
    obtain ⟨line, hl, -⟩ := (represents_run _ hids).exists_line (corpus_repeatedBigram (2 ^ 32))
    rw [search_repeatedBigram] at heq
    exact exhaustiveSearch_ne_nil (mem_sharing_repeatedBigram (by norm_num)) hl
      ((represents_run _ hids).cosine_nonneg _ (corpus_repeatedBigram (2 ^ 32)) hl) heq.symm
  · intro hall
    obtain ⟨result, hr, hid⟩ := mem_search_aliasing (Platform.ascending 1)
    have hcard : ((corpus aliasing).sharing [99, 100]).card ≤ min (max (24 * 10) 128) 1024 := by
      rw [sharing_aliasing]
      decide
    rw [hall aliasing [99, 100] 0 10 (countsFit_of_length (by decide)) (fun _ _ => countsFit_aliasing)
      (by norm_num) (by norm_num) hcard, sharing_aliasing] at hr
    have hmem := (List.mem_filter.mp (mem_of_mem_rankResults hr)).1
    obtain ⟨id, hid', hresult⟩ := List.mem_filterMap.mp hmem
    rw [Finset.mem_sort, Finset.mem_singleton] at hid'
    subst hid'
    obtain ⟨hlines, -⟩ := run_aliasing
    have hline : (run aliasing).lines.lookup 2 = some ⟨2, 0, 0, [(0, 1)]⟩ := by
      rw [hlines]
      decide
    rw [hline, Option.map_some, Option.some.injEq] at hresult
    rw [← hresult] at hid
    exact absurd hid (by decide)

end Counterexamples

end IndexCall

end DltxtBridge
