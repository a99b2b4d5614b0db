import DltxtBridge.SimilarityIndex.Scoring

namespace DltxtBridge

open SortedTable

structure CountsGrams (terms : TermTable) (text : Text) (frequencies : TermFrequencyMap) : Prop where
  ascending : frequencies.Pairwise fun a b => a.1 < b.1
  mem_iff : ∀ t n, (t, n) ∈ frequencies ↔ ∃ g ∈ grams text,
    terms.idsByValue.lookup g = some t ∧ n = toUInt32 ((grams text).count g)

def idOf (terms : TermTable) (g : Term) : TermId := (terms.idsByValue.lookup g).getD 0

lemma idOf_eq {terms : TermTable} {g : Term} {t : TermId}
    (h : terms.idsByValue.lookup g = some t) : idOf terms g = t := by
  rw [idOf, h]
  rfl

lemma lookup_idOf {terms : TermTable} {g : Term} (h : g ∈ terms.idsByValue.keys) :
    terms.idsByValue.lookup g = some (idOf terms g) := by
  obtain ⟨t, ht⟩ := (FiniteMap.mem_keys_iff _ _).mp h
  rw [idOf_eq ht, ht]

lemma idOf_injOn {terms : TermTable} (hw : terms.WellFormed True) :
    Set.InjOn (idOf terms) terms.idsByValue.keys := by
  intro g hg h hh heq
  have hg' := lookup_idOf hg
  rw [heq] at hg'
  exact hw.injective hg' (lookup_idOf hh)

namespace CountsGrams

variable {terms : TermTable} {text text' : Text} {frequencies frequencies' : TermFrequencyMap}

lemma tabulates (h : CountsGrams terms text frequencies) (hw : terms.WellFormed True) :
    Tabulates frequencies (((grams text).toFinset ∩ terms.idsByValue.keys).image (idOf terms))
      (fun t => toUInt32 ((grams text).count (terms.valuesById.getD t []))) where
  ascending := h.ascending
  mem_iff t n := by
    rw [h.mem_iff, Finset.mem_image]
    constructor
    · rintro ⟨g, hg, ht, rfl⟩
      refine ⟨⟨g, ?_, idOf_eq ht⟩, by rw [hw.getD_of_mapped [] ht]⟩
      rw [Finset.mem_inter, List.mem_toFinset, FiniteMap.mem_keys_iff]
      exact ⟨hg, t, ht⟩
    · rintro ⟨⟨g, hg, rfl⟩, rfl⟩
      rw [Finset.mem_inter, List.mem_toFinset] at hg
      have ht := lookup_idOf hg.2
      exact ⟨g, hg.1, ht, by rw [hw.getD_of_mapped [] ht]⟩

lemma mem_ids_iff (h : CountsGrams terms text frequencies) (t : TermId) :
    t ∈ frequencies.map Prod.fst ↔ ∃ g ∈ grams text, terms.idsByValue.lookup g = some t := by
  simp [h.mem_iff]

end CountsGrams

namespace SimilarityIndex

lemma StoresLine.countsGrams {terms : TermTable} {files : FileTable} {id : LineId}
    {line : IndexedLine} {c : CorpusLine} (h : StoresLine terms files id line c) :
    CountsGrams terms c.text line.termFrequency := ⟨h.ascending, h.mem_iff⟩

namespace Represents

variable {s : SimilarityIndex} {C : Corpus}

lemma query_countsGrams (h : Represents s C) (query : Text) :
    CountsGrams s.terms query (s.queryTermFrequency query) := by
  have htally := buildTermFrequency_tallies findTermId query s.terms
  rw [seenTermIds_find] at htally
  refine ⟨htally.ascending, fun t n => ?_⟩
  have hcount : ∀ g, s.terms.idsByValue.lookup g = some t →
      ((grams query).filterMap s.terms.idsByValue.lookup).count t = (grams query).count g := by
    intro g hg
    rw [List.count_filterMap, List.count]
    apply List.countP_congr
    intro u _
    rw [beq_iff_eq, beq_iff_eq]
    refine ⟨fun hu => h.terms.injective hu hg, ?_⟩
    rintro rfl
    exact hg
  change _ ∈ (buildTermFrequency findTermId query s.terms).1 ↔ _
  rw [htally.mem_iff, List.mem_filterMap]
  constructor
  · rintro ⟨⟨g, hg, ht⟩, rfl⟩
    exact ⟨g, hg, ht, by rw [hcount g ht]⟩
  · rintro ⟨g, hg, ht, rfl⟩
    exact ⟨⟨g, hg, ht⟩, by rw [hcount g ht]⟩

lemma size_eq (h : Represents s C) : FiniteMap.size s.lines = FiniteMap.size C := by
  rw [FiniteMap.size, FiniteMap.size, h.keys]

lemma holders_eq (h : Represents s C) {g : Term} {t : TermId}
    (ht : s.terms.idsByValue.lookup g = some t) : s.holders t = C.holding g := by
  ext id
  rw [mem_holders_iff, Corpus.mem_holding]
  constructor
  · rintro ⟨line, hl, hmem⟩
    obtain ⟨c, hc, hline⟩ := h.exists_content hl
    obtain ⟨g', hg', ht'⟩ := (hline.mem_terms t).mp hmem
    rw [h.terms.injective ht' ht] at hg'
    exact ⟨c, hc, hg'⟩
  · rintro ⟨c, hc, hg⟩
    obtain ⟨line, hl, hline⟩ := h.exists_line hc
    exact ⟨line, hl, (hline.mem_terms t).mpr ⟨g, hg, ht⟩⟩

lemma grams_subset_keys (h : Represents s C) {id : LineId} {c : CorpusLine}
    (hc : C.lookup id = some c) : (grams c.text).toFinset ⊆ s.terms.idsByValue.keys := by
  intro g hg
  obtain ⟨line, -, hline⟩ := h.exists_line hc
  obtain ⟨t, ht⟩ := hline.mapped g (List.mem_toFinset.mp hg)
  exact (FiniteMap.mem_keys_iff _ _).mpr ⟨t, ht⟩

lemma mem_posting_iff (h : Represents s C) (t : TermId) (id : LineId) :
    (∃ posting, s.inverted.postings.lookup t = some posting ∧ id ∈ posting) ↔
      id ∈ s.holders t := by
  cases hp : s.inverted.postings.lookup t with
  | none => simp [h.inverted.absent t hp]
  | some posting => simp [(h.inverted.listed t posting hp).1.mem_iff]

section Scores

variable {K : Type} [Field K] {A : ScoreArithmetic K}

lemma currentIdf_eq (h : Represents s C) {g : Term} {t : TermId}
    (ht : s.terms.idsByValue.lookup g = some t) : currentIdf A s t = C.idf A g := by
  rw [currentIdf, h.inverted.frequency_getD, h.holders_eq ht, h.size_eq]
  rfl

lemma weight_eq (h : Represents s C) {text : Text} {g : Term}
    (hg : g ∈ s.terms.idsByValue.keys) :
    weight A s (idOf s.terms g,
        toUInt32 ((grams text).count (s.terms.valuesById.getD (idOf s.terms g) []))) =
      C.weight A text g := by
  have ht := lookup_idOf hg
  rw [weight, Corpus.weight, h.currentIdf_eq ht, h.terms.getD_of_mapped [] ht]

lemma normSquared_eq (h : Represents s C) {text : Text} {frequencies : TermFrequencyMap}
    (hf : CountsGrams s.terms text frequencies) :
    normSquared A s frequencies = C.normSquared A s.terms.idsByValue.keys text := by
  rw [normSquared, (hf.tabulates h.terms).foldl_add (fun e => weight A s e * weight A s e), zero_add,
    Finset.sum_image ((idOf_injOn h.terms).mono (by simp)), Corpus.normSquared]
  apply Finset.sum_congr rfl
  intro g hg
  rw [h.weight_eq (Finset.mem_inter.mp hg).2]

lemma dotProduct_eq (h : Represents s C) {query text : Text} {fq ft : TermFrequencyMap}
    (hq : CountsGrams s.terms query fq) (ht : CountsGrams s.terms text ft)
    (hknown : (grams text).toFinset ⊆ s.terms.idsByValue.keys) :
    dotProduct A s fq ft = C.dotProduct A query text := by
  have hinj := idOf_injOn h.terms
  rw [dotProduct, (hq.tabulates h.terms).mergeCommon (ht.tabulates h.terms), zero_add,
    ← Finset.image_inter_of_injOn _ _ (hinj.mono (by simp)),
    Finset.sum_image (hinj.mono fun g hg => ?_), Corpus.dotProduct]
  · have hset : ((grams query).toFinset ∩ s.terms.idsByValue.keys) ∩
        ((grams text).toFinset ∩ s.terms.idsByValue.keys) =
          (grams query).toFinset ∩ (grams text).toFinset := by
      ext g
      simp only [Finset.mem_inter]
      exact ⟨fun hg => ⟨hg.1.1, hg.2.1⟩, fun hg => ⟨⟨hg.1, hknown hg.2⟩, hg.2, hknown hg.2⟩⟩
    rw [hset]
    apply Finset.sum_congr rfl
    intro g hg
    have hg' := hknown (Finset.mem_inter.mp hg).2
    rw [h.weight_eq hg', h.weight_eq hg']
  · simp only [Finset.coe_inter, Set.mem_inter_iff, Finset.mem_coe] at hg
    exact hg.1.2

lemma lineNorm_eq (h : Represents s C) {id : LineId} {line : IndexedLine} {c : CorpusLine}
    (hc : C.lookup id = some c) (hline : StoresLine s.terms s.files id line c) :
    lineNorm A s line = A.sqrt (C.normSquared A (grams c.text).toFinset c.text) := by
  rw [lineNorm, h.normSquared_eq hline.countsGrams, Corpus.normSquared, Corpus.normSquared,
    Finset.inter_self, Finset.inter_eq_left.mpr (h.grams_subset_keys hc)]

lemma cosine_eq (h : Represents s C) {id : LineId} {line : IndexedLine} {c : CorpusLine}
    (hc : C.lookup id = some c) (hline : StoresLine s.terms s.files id line c) (query : Text) :
    cosine A s (s.queryTermFrequency query) line =
      C.cosine A s.terms.idsByValue.keys query c.text := by
  rw [cosine, h.dotProduct_eq (h.query_countsGrams query) hline.countsGrams (h.grams_subset_keys hc),
    h.normSquared_eq (h.query_countsGrams query), h.lineNorm_eq hc hline]
  rfl

lemma resultFor_eq (h : Represents s C) {id : LineId} {line : IndexedLine} {c : CorpusLine}
    (hc : C.lookup id = some c) (hline : StoresLine s.terms s.files id line c) (query : Text) :
    resultFor A s (s.queryTermFrequency query) line =
      ⟨id, c.filePath, c.lineNumber, C.cosine A s.terms.idsByValue.keys query c.text⟩ := by
  rw [resultFor, h.cosine_eq hc hline, hline.lineId, hline.lineNumber, hline.getD_filePath]

end Scores

section Selection

variable {K : Type} [Field K] {A : ScoreArithmetic K}

lemma postedUnder_query (h : Represents s C) (query : Text) :
    postedUnder s (weightedTerms A s (s.queryTermFrequency query)) = C.sharing query := by
  have hq := h.query_countsGrams query
  ext id
  rw [mem_postedUnder, Corpus.mem_sharing]
  constructor
  · rintro ⟨term, hterm, posting, hp, hid⟩
    simp only [weightedTerms, List.mem_filterMap, Option.map_eq_some_iff] at hterm
    obtain ⟨entry, hentry, listed, -, rfl⟩ := hterm
    obtain ⟨g, hg, ht⟩ := (hq.mem_ids_iff entry.1).mp (List.mem_map_of_mem hentry)
    have hmem := (h.mem_posting_iff entry.1 id).mp ⟨posting, hp, hid⟩
    rw [h.holders_eq ht] at hmem
    obtain ⟨c, hc, hgc⟩ := Corpus.mem_holding.mp hmem
    exact ⟨c, hc, g, hg, hgc⟩
  · rintro ⟨c, hc, g, hg, hgc⟩
    obtain ⟨t, ht⟩ := (FiniteMap.mem_keys_iff _ _).mp
      (h.grams_subset_keys hc (List.mem_toFinset.mpr hgc))
    have hmem := Corpus.mem_holding.mpr ⟨c, hc, hgc⟩
    rw [← h.holders_eq ht, ← h.mem_posting_iff] at hmem
    obtain ⟨posting, hp, hid⟩ := hmem
    obtain ⟨entry, hentry, rfl⟩ := List.mem_map.mp ((hq.mem_ids_iff t).mpr ⟨g, hg, ht⟩)
    refine ⟨⟨entry.1, weight A s entry, posting.length⟩, ?_, posting, hp, hid⟩
    simp only [weightedTerms, List.mem_filterMap, Option.map_eq_some_iff]
    exact ⟨entry, hentry, posting, hp, rfl⟩

lemma postingSize_le (h : Represents s C) {query : Text} {term : WeightedQueryTerm K}
    (hterm : term ∈ weightedTerms A s (s.queryTermFrequency query)) :
    term.postingSize ≤ (C.sharing query).card := by
  have hposted := h.postedUnder_query (A := A) query
  simp only [weightedTerms, List.mem_filterMap, Option.map_eq_some_iff] at hterm
  obtain ⟨entry, hentry, posting, hp, rfl⟩ := hterm
  obtain ⟨hlist, -⟩ := h.inverted.listed entry.1 posting hp
  have hcard := List.toFinset_card_of_nodup (hlist.ascending.imp ne_of_lt)
  rw [← hposted]
  change posting.length ≤ _
  rw [← hcard]
  apply Finset.card_le_card
  intro id hid
  rw [mem_postedUnder]
  refine ⟨⟨entry.1, weight A s entry, posting.length⟩, ?_, posting, hp, List.mem_toFinset.mp hid⟩
  simp only [weightedTerms, List.mem_filterMap, Option.map_eq_some_iff]
  exact ⟨entry, hentry, posting, hp, rfl⟩

variable [LinearOrder K]

lemma scoredLines_subset (h : Represents s C) (P : Platform K) (query : Text) (maxResults : ℕ) :
    scoredLines A P s query maxResults ⊆ C.sharing query := by
  rw [scoredLines, ← h.postedUnder_query (A := A) query]
  split_ifs
  · exact Finset.empty_subset _
  · rw [← postedUnder_perm s (P.sortTerms_perm _)]
    exact selectCandidates_subset _ _ _

lemma scoredLines_card_le (P : Platform K) (s : SimilarityIndex) (query : Text) (maxResults : ℕ) :
    (scoredLines A P s query maxResults).card ≤ candidateBudget maxResults := by
  rw [scoredLines]
  split_ifs
  · exact Nat.zero_le _
  · apply selectCandidates_card_le s _ _
    rw [candidateBudget, kMaxCandidateBudget]
    omega

lemma scoredLines_eq (h : Represents s C) (P : Platform K) (query : Text) {maxResults : ℕ}
    (hmax : maxResults ≠ 0) (hfits : (C.sharing query).card ≤ candidateBudget maxResults) :
    scoredLines A P s query maxResults = C.sharing query ∨
      scoredLines A P s query maxResults = ∅ ∧
        C.normSquared A s.terms.idsByValue.keys query ≤ 0 := by
  have hnone : weightedTerms A s (s.queryTermFrequency query) = [] → C.sharing query = ∅ := by
    intro hw
    rw [← h.postedUnder_query (A := A) query, hw]
    rfl
  have hsort := P.sortTerms_perm (weightedTerms A s (s.queryTermFrequency query))
  have hselect := selectCandidates_eq s (candidateBudget maxResults)
    (P.sortTerms (weightedTerms A s (s.queryTermFrequency query)))
    (fun term ht => (h.postingSize_le (hsort.mem_iff.mp ht)).trans hfits)
    (by rwa [postedUnder_perm s hsort, h.postedUnder_query])
  rw [postedUnder_perm s hsort, h.postedUnder_query] at hselect
  rw [scoredLines, ← h.normSquared_eq (h.query_countsGrams query)]
  split_ifs with hguard
  · rcases hguard with hsize | hzero | hfreq | hterms | hnorm
    · left
      rw [h.size_eq, FiniteMap.size_eq_zero] at hsize
      rw [hsize]
      rfl
    · exact absurd hzero hmax
    · exact Or.inl (hnone (by rw [hfreq]; rfl)).symm
    · exact Or.inl (hnone hterms).symm
    · exact Or.inr ⟨rfl, hnorm⟩
  · exact Or.inl hselect

end Selection

section Search

variable {K : Type} [Field K] [LinearOrder K] [IsStrictOrderedRing K] {A : ScoreArithmetic K}

lemma scoreCandidate_eq (h : Represents s C) (hA : A.Lawful) (query : Text) (minScore : K)
    (id : LineId) :
    scoreCandidate A s (s.queryTermFrequency query) minScore id =
      C.scored A s.terms.idsByValue.keys query minScore id := by
  rw [scoreCandidate, Corpus.scored]
  cases hc : C.lookup id with
  | none => rw [(h.lookup_none_iff id).mpr hc]
  | some c =>
    obtain ⟨line, hl, hline⟩ := h.exists_line hc
    have hdot := h.dotProduct_eq (A := A) (h.query_countsGrams query) hline.countsGrams
      (h.grams_subset_keys hc)
    rw [hl]
    simp only [hdot, h.lineNorm_eq hc hline, h.cosine_eq hc hline, h.resultFor_eq hc hline]
    by_cases hpos : 0 < C.dotProduct A query c.text
    · obtain ⟨g, -, hg⟩ := (C.dotProduct_pos_iff hA query c.text).mp hpos
      have hnorm := hA.sqrt_pos _
        (C.normSquared_pos hA (List.mem_toFinset.mpr (Corpus.mem_grams_of_toUInt32 hg)) hg)
      rw [if_neg (not_le.mpr hnorm), if_neg (not_le.mpr hpos)]
      by_cases hmin : minScore ≤ C.cosine A s.terms.idsByValue.keys query c.text
      · rw [if_neg (not_lt.mpr hmin), if_pos ⟨hpos, hmin⟩]
      · rw [if_pos (not_le.mp hmin), if_neg fun hboth => hmin hboth.2]
    · have hnot : ¬ (0 < C.dotProduct A query c.text ∧
          minScore ≤ C.cosine A s.terms.idsByValue.keys query c.text) := fun hboth => hpos hboth.1
      rw [if_neg hnot, if_pos (not_lt.mp hpos)]
      split_ifs <;> rfl

lemma scored_eq_none (h : Represents s C) (hA : A.Lawful) {query : Text}
    (hnorm : C.normSquared A s.terms.idsByValue.keys query ≤ 0) (minScore : K) (id : LineId) :
    C.scored A s.terms.idsByValue.keys query minScore id = none := by
  rw [Corpus.scored]
  cases hc : C.lookup id with
  | none => rfl
  | some c =>
    apply if_neg
    intro hboth
    obtain ⟨g, hq, hg⟩ := (C.dotProduct_pos_iff hA query c.text).mp hboth.1
    have hknown := h.grams_subset_keys hc (List.mem_toFinset.mpr (Corpus.mem_grams_of_toUInt32 hg))
    exact absurd (C.normSquared_pos hA hknown hq) (not_lt.mpr hnorm)

lemma search_eq (h : Represents s C) (hA : A.Lawful) (P : Platform K) (query : Text) (minScore : K)
    {maxResults : ℕ} (hfits : (C.sharing query).card ≤ candidateBudget maxResults) :
    search A P s query minScore maxResults =
      C.search A s.terms.idsByValue.keys query minScore maxResults := by
  have hscore : scoreCandidate A s (s.queryTermFrequency query) minScore =
      C.scored A s.terms.idsByValue.keys query minScore :=
    funext (h.scoreCandidate_eq hA query minScore)
  rw [search, scoreCandidates_eq, hscore, Corpus.search]
  rcases Nat.eq_zero_or_pos maxResults with rfl | hmax
  · rfl
  · apply rankResults_perm
    rcases h.scoredLines_eq (A := A) P query hmax.ne' hfits with hall | ⟨hempty, hnorm⟩
    · apply List.Perm.filterMap _
      rw [List.perm_ext_iff_of_nodup (P.iterate_nodup _) (Finset.sort_nodup _ _)]
      intro id
      rw [P.mem_iterate, hall, Finset.mem_sort]
    · have hnone := h.scored_eq_none hA hnorm minScore
      have hiterate : P.iterate (scoredLines A P s query maxResults) = [] := by
        rw [List.eq_nil_iff_forall_not_mem]
        intro id
        simp [P.mem_iterate, hempty]
      have hright : ((C.sharing query).sort (· ≤ ·)).filterMap
          (C.scored A s.terms.idsByValue.keys query minScore) = [] :=
        List.filterMap_eq_nil_iff.mpr fun id _ => hnone id
      rw [hiterate, hright]
      rfl

end Search

end Represents

end SimilarityIndex

end DltxtBridge
