import DltxtBridge.SimilarityIndex.Exhaustive

/-! What a history leaves behind. Terms are retained per occurrence and released per
line, so a bigram that some text repeated stays known after its last line is erased. -/

namespace DltxtBridge

namespace Corpus

lemma holding_erase (C : Corpus) (id : LineId) (g : Term) :
    Corpus.holding (C.erase id) g = (C.holding g).erase id := by
  ext j
  rw [mem_holding, Finset.mem_erase, mem_holding, FiniteMap.lookup_erase]
  by_cases hj : j = id <;> simp [hj]

lemma holding_insert (C : Corpus) (id : LineId) (c : CorpusLine) (g : Term) :
    Corpus.holding (C.insert id c) g =
      if g ∈ grams c.text then insert id ((C.holding g).erase id) else (C.holding g).erase id := by
  ext j
  rw [mem_holding, FiniteMap.lookup_insert]
  by_cases hj : j = id
  · subst hj
    by_cases hg : g ∈ grams c.text <;> simp [hg]
  · by_cases hg : g ∈ grams c.text <;> simp [hj, hg, mem_holding]

lemma card_holding_insert (C : Corpus) (id : LineId) (c : CorpusLine) (g : Term) :
    (Corpus.holding (C.insert id c) g).card =
      ((C.holding g).erase id).card + if g ∈ grams c.text then 1 else 0 := by
  rw [holding_insert]
  split_ifs
  · exact Finset.card_insert_of_notMem (Finset.notMem_erase id _)
  · rfl

end Corpus

namespace SimilarityIndex.Represents

variable {s : SimilarityIndex} {C : Corpus}

lemma references_erase (h : Represents s C) (id : LineId) (g : Term) :
    (s.erase id).2.terms.references g =
      s.terms.references g - if g ∈ C.gramsOf id then 1 else 0 := by
  cases hl : s.lines.lookup id with
  | none =>
    rw [erase_of_none hl, Corpus.gramsOf, (h.lookup_none_iff id).mp hl]
    rfl
  | some line =>
    obtain ⟨c, hc, hline⟩ := h.exists_content hl
    have hcond : (∃ t ∈ line.termFrequency.map Prod.fst, s.terms.idsByValue.lookup g = some t) ↔
        g ∈ grams c.text := by
      constructor
      · rintro ⟨t, ht, hg⟩
        obtain ⟨g', hg', ht'⟩ := (hline.mem_terms t).mp ht
        rwa [h.terms.injective hg ht']
      · intro hg
        obtain ⟨t, ht⟩ := hline.mapped g hg
        exact ⟨t, (hline.mem_terms t).mpr ⟨g, hg, ht⟩, ht⟩
    rw [erase_of_some hl, Corpus.gramsOf, hc]
    simp only [h.terms.references_foldl_reclaim [] _ hline.nodup, hcond]

lemma references_upsert (h : Represents s C) (id : LineId) (path : Bytes) (number : ℕ) (text : Text)
    (hslots : (s.upsert id path number text).terms.slots < 2 ^ 32) (g : Term) :
    (s.upsert id path number text).terms.references g =
      (s.erase id).2.terms.references g + (grams text).count g := by
  have hintern := seenTermIds_retain (grams text) (h.erase id).terms hslots
  exact hintern.references_eq (h.erase id).terms g

end SimilarityIndex.Represents

namespace IndexCall

open SimilarityIndex

def occurrences (g : Term) : IndexCall → ℕ
  | .upsert _ _ _ text => (grams text).count g
  | .erase _ => 0

def Leftover (calls : List IndexCall) (g : Term) : Prop :=
  (corpus calls).holding g = ∅ ∧ ∃ call ∈ calls, 2 ≤ call.occurrences g

instance (calls : List IndexCall) : DecidablePred (Leftover calls) :=
  fun _ => inferInstanceAs (Decidable (_ ∧ _))

def excess (calls : List IndexCall) (g : Term) : ℕ :=
  (calls.map fun call => call.occurrences g - 1).sum

lemma references_run (calls : List IndexCall) (hids : WithinIds (run calls)) (g : Term) :
    (run calls).terms.references g = ((corpus calls).holding g).card + excess calls g := by
  induction calls using List.reverseRecOn with
  | nil => rfl
  | append_singleton calls call ih =>
    have hexcess : excess (calls ++ [call]) g = excess calls g + (call.occurrences g - 1) := by
      simp [excess]
    rw [run_concat] at hids
    obtain ⟨ht, hf⟩ := slots_apply (run calls) call
    have hids' : WithinIds (run calls) := ⟨ht.trans_lt hids.1, hf.trans_lt hids.2⟩
    have h := represents_run calls hids'
    have herase : ∀ id, ((run calls).erase id).2.terms.references g =
        (((corpus calls).holding g).erase id).card + excess calls g := by
      intro id
      rw [h.references_erase, ih hids']
      by_cases hid : id ∈ (corpus calls).holding g
      · have hpos := Finset.card_pos.mpr ⟨id, hid⟩
        rw [Finset.card_erase_of_mem hid, if_pos (Finset.mem_filter.mp hid).2]
        omega
      · have hnot : g ∉ (corpus calls).gramsOf id := by
          intro hg
          refine hid (Finset.mem_filter.mpr ⟨?_, hg⟩)
          rw [FiniteMap.mem_keys_iff]
          cases hc : (corpus calls).lookup id with
          | none => simp [Corpus.gramsOf, hc] at hg
          | some c => exact ⟨c, rfl⟩
        rw [Finset.erase_eq_of_notMem hid, if_neg hnot]
        rfl
    rw [run_concat, corpus_concat, hexcess]
    cases call with
    | upsert id path number text =>
      have hupsert := h.references_upsert id path number text hids.1 g
      change ((run calls).upsert id path number text).terms.references g = _
      rw [hupsert, herase, applyCorpus, Corpus.card_holding_insert]
      simp only [occurrences]
      split_ifs with hg
      · have := List.count_pos_iff.mpr hg
        omega
      · rw [List.count_eq_zero_of_not_mem hg]
        rfl
    | erase id =>
      change ((run calls).erase id).2.terms.references g = _
      rw [herase, applyCorpus, Corpus.holding_erase]
      rfl

lemma known_iff (calls : List IndexCall) (hids : WithinIds (run calls)) (g : Term) :
    g ∈ (run calls).terms.idsByValue.keys ↔
      (corpus calls).holding g ≠ ∅ ∨ Leftover calls g := by
  have h := represents_run calls hids
  have hexcess : 0 < excess calls g ↔ ∃ call ∈ calls, 2 ≤ call.occurrences g := by
    rw [excess, List.sum_pos_iff_exists_pos_nat]
    simp only [List.mem_map, exists_exists_and_eq_and]
    exact exists_congr fun call => and_congr_right fun _ => by omega
  rw [Finmap.mem_keys, FiniteMap.mem_iff_lookup, ← h.terms.references_pos_iff,
    references_run calls hids, Leftover, ← hexcess, ne_eq, ← Finset.card_eq_zero]
  omega

def leftoverWeight (calls : List IndexCall) (query : Text) : ℕ :=
  ∑ g ∈ (grams query).toFinset with Leftover calls g, toUInt32 ((grams query).count g) ^ 2

section TwoHistories

variable {K : Type} [Field K] {A : ScoreArithmetic K}

lemma normSquared_run (calls : List IndexCall) (hids : WithinIds (run calls)) (query : Text) :
    (corpus calls).normSquared A (run calls).terms.idsByValue.keys query =
      (∑ g ∈ (grams query).toFinset with (corpus calls).holding g ≠ ∅,
        (corpus calls).weight A query g * (corpus calls).weight A query g) +
      leftoverWeight calls query *
        (inverseDocumentFrequency A (FiniteMap.size (corpus calls)) 0) ^ 2 := by
  have hsplit : (grams query).toFinset ∩ (run calls).terms.idsByValue.keys =
      {g ∈ (grams query).toFinset | (corpus calls).holding g ≠ ∅} ∪
        {g ∈ (grams query).toFinset | Leftover calls g} := by
    ext g
    simp only [Finset.mem_inter, Finset.mem_union, Finset.mem_filter, known_iff calls hids]
    tauto
  have hdisjoint : Disjoint {g ∈ (grams query).toFinset | (corpus calls).holding g ≠ ∅}
      {g ∈ (grams query).toFinset | Leftover calls g} := by
    rw [Finset.disjoint_filter]
    exact fun g _ hg hleft => hg hleft.1
  rw [Corpus.normSquared, hsplit, Finset.sum_union hdisjoint, leftoverWeight, Nat.cast_sum,
    Finset.sum_mul]
  congr 1
  apply Finset.sum_congr rfl
  intro g hg
  rw [Corpus.weight, Corpus.idf, (Finset.mem_filter.mp hg).2.1, Finset.card_empty]
  push_cast
  ring

variable [LinearOrder K]

lemma corpusSearch_congr (C : Corpus) {known₁ known₂ : Finset Term} {query : Text}
    (h : C.normSquared A known₁ query = C.normSquared A known₂ query) (minScore : K)
    (maxResults : ℕ) :
    C.search A known₁ query minScore maxResults = C.search A known₂ query minScore maxResults := by
  have hcosine : ∀ text, C.cosine A known₁ query text = C.cosine A known₂ query text := by
    intro text
    rw [Corpus.cosine, Corpus.cosine, h]
  have hscored : C.scored A known₁ query minScore = C.scored A known₂ query minScore := by
    funext id
    simp only [Corpus.scored, hcosine]
  rw [Corpus.search, Corpus.search, hscored]

variable [IsStrictOrderedRing K]

lemma corpusSearch_eq_nil (hA : A.Lawful) (C : Corpus) (known : Finset Term) {query : Text}
    (h : ∀ id c, C.lookup id = some c → ∀ g, toUInt32 ((grams query).count g) = 0 ∨
      toUInt32 ((grams c.text).count g) = 0) (minScore : K) (maxResults : ℕ) :
    C.search A known query minScore maxResults = [] := by
  have hnone : ∀ id ∈ (C.sharing query).sort (· ≤ ·), C.scored A known query minScore id = none := by
    intro id _
    rw [Corpus.scored]
    cases hc : C.lookup id with
    | none => rfl
    | some c =>
      apply if_neg
      intro hboth
      obtain ⟨g, hq, hg⟩ := (C.dotProduct_pos_iff hA query c.text).mp hboth.1
      rcases h id c hc g with hzero | hzero
      · omega
      · omega
  rw [Corpus.search, List.filterMap_eq_nil_iff.mpr hnone]
  exact List.take_nil

lemma normSquared_eq_of_search_eq (hA : A.Lawful) (C : Corpus) {known₁ known₂ : Finset Term}
    {query : Text} {id : LineId} {c : CorpusLine} (hc : C.lookup id = some c)
    (hdot : 0 < C.dotProduct A query c.text) (hfits : (C.sharing query).card ≤ 1024)
    (hpos₁ : 0 < C.normSquared A known₁ query) (hpos₂ : 0 < C.normSquared A known₂ query)
    (hlive : 0 < C.normSquared A (grams c.text).toFinset c.text)
    (h : C.search A known₁ query 0 1024 = C.search A known₂ query 0 1024) :
    C.normSquared A known₁ query = C.normSquared A known₂ query := by
  have hlength : ∀ known, (((C.sharing query).sort (· ≤ ·)).filterMap
      (C.scored A known query 0)).length ≤ 1024 := by
    intro known
    apply (List.length_filterMap_le _ _).trans
    rwa [Finset.length_sort]
  have hsqrt₁ := hA.sqrt_pos _ hpos₁
  have hsqrt₂ := hA.sqrt_pos _ hpos₂
  have hsqrt := hA.sqrt_pos _ hlive
  have hscored : C.scored A known₁ query 0 id =
      some ⟨id, c.filePath, c.lineNumber, C.cosine A known₁ query c.text⟩ := by
    have hnonneg : 0 ≤ C.cosine A known₁ query c.text :=
      div_nonneg hdot.le (mul_pos hsqrt₁ hsqrt).le
    simp only [Corpus.scored, hc]
    rw [if_pos ⟨hdot, hnonneg⟩]
  have hsharing : id ∈ C.sharing query := by
    obtain ⟨g, hq, hg⟩ := (C.dotProduct_pos_iff hA query c.text).mp hdot
    exact Corpus.mem_sharing.mpr
      ⟨c, hc, g, Corpus.mem_grams_of_toUInt32 hq, Corpus.mem_grams_of_toUInt32 hg⟩
  have hmem₁ : (⟨id, c.filePath, c.lineNumber, C.cosine A known₁ query c.text⟩ : SearchResult K) ∈
      C.search A known₁ query 0 1024 :=
    (rankResults_perm_self (hlength known₁)).mem_iff.mpr
      (List.mem_filterMap.mpr ⟨id, (Finset.mem_sort _).mpr hsharing, hscored⟩)
  rw [h] at hmem₁
  obtain ⟨j, -, hj⟩ := List.mem_filterMap.mp (mem_of_mem_rankResults hmem₁)
  have hcosine : C.cosine A known₂ query c.text = C.cosine A known₁ query c.text := by
    rw [Corpus.scored] at hj
    cases hd : C.lookup j with
    | none => simp [hd] at hj
    | some d =>
      simp only [hd] at hj
      split_ifs at hj
      rw [Option.some.injEq, SearchResult.mk.injEq] at hj
      obtain ⟨rfl, -, -, hscore⟩ := hj
      rw [hc, Option.some.injEq] at hd
      rw [← hscore, hd]
  rw [Corpus.cosine, Corpus.cosine, div_eq_div_iff (mul_pos hsqrt₂ hsqrt).ne'
    (mul_pos hsqrt₁ hsqrt).ne', mul_right_inj' hdot.ne', mul_left_inj' hsqrt.ne'] at hcosine
  exact hA.sqrt_inj _ _ hpos₁ hpos₂ hcosine

lemma search_eq_iff_leftoverWeight (hA : A.Lawful) (P₁ P₂ : Platform K)
    (calls₁ calls₂ : List IndexCall) (hids₁ : WithinIds (run calls₁))
    (hids₂ : WithinIds (run calls₂)) (hlive : lastUpsert calls₁ = lastUpsert calls₂)
    (query : Text) :
    (∀ minScore maxResults,
        ((corpus calls₁).sharing query).card ≤ candidateBudget maxResults →
        search A P₁ (run calls₁) query minScore maxResults =
          search A P₂ (run calls₂) query minScore maxResults) ↔
      leftoverWeight calls₁ query = leftoverWeight calls₂ query ∨
        1024 < ((corpus calls₁).sharing query).card ∨
        ∀ id c, lastUpsert calls₁ id = some c → ∀ g,
          toUInt32 ((grams query).count g) = 0 ∨ toUInt32 ((grams c.text).count g) = 0 := by
  have hcorpus : corpus calls₁ = corpus calls₂ := by
    apply Finmap.ext_lookup
    intro id
    rw [corpus_lookup, corpus_lookup, hlive]
  have h₁ := represents_run calls₁ hids₁
  have h₂ := represents_run calls₂ hids₂
  have hnorm₁ := normSquared_run (A := A) calls₁ hids₁ query
  have hnorm₂ := normSquared_run (A := A) calls₂ hids₂ query
  rw [← hcorpus] at h₂ hnorm₂
  simp only [← corpus_lookup]
  generalize corpus calls₁ = C at h₁ h₂ hnorm₁ hnorm₂
  constructor
  · intro heq
    by_contra hnot
    push Not at hnot
    obtain ⟨hweight, hfits, id, c, hc, g, hq, hg⟩ := hnot
    have hdot := (C.dotProduct_pos_iff hA query c.text).mpr
      ⟨g, Nat.pos_of_ne_zero hq, Nat.pos_of_ne_zero hg⟩
    have hgram := List.mem_toFinset.mpr (Corpus.mem_grams_of_toUInt32 (Nat.pos_of_ne_zero hg))
    have hsearch := heq 0 1024 (hfits.trans (by decide))
    rw [h₁.search_eq hA P₁ query 0 (hfits.trans (by decide)),
      h₂.search_eq hA P₂ query 0 (hfits.trans (by decide))] at hsearch
    have hsame := normSquared_eq_of_search_eq hA C hc hdot hfits
      (C.normSquared_pos hA (h₁.grams_subset_keys hc hgram) (Nat.pos_of_ne_zero hq))
      (C.normSquared_pos hA (h₂.grams_subset_keys hc hgram) (Nat.pos_of_ne_zero hq))
      (C.normSquared_pos hA hgram (Nat.pos_of_ne_zero hg)) hsearch
    have hidf := Corpus.inverseDocumentFrequency_pos hA (Nat.zero_le (FiniteMap.size C))
    rw [hnorm₁, hnorm₂, add_right_inj, mul_left_inj' (pow_pos hidf 2).ne', Nat.cast_inj] at hsame
    exact hweight hsame
  · intro hcond minScore maxResults hfits
    rw [h₁.search_eq hA P₁ query minScore hfits, h₂.search_eq hA P₂ query minScore hfits]
    rcases hcond with hweight | hbig | hzero
    · exact corpusSearch_congr C (by rw [hnorm₁, hnorm₂, hweight]) minScore maxResults
    · have hbudget : candidateBudget maxResults ≤ 1024 := min_le_right _ _
      omega
    · rw [corpusSearch_eq_nil hA C _ hzero, corpusSearch_eq_nil hA C _ hzero]

end TwoHistories

theorem run_search_eq_iff (P₁ P₂ : Platform ℝ) (calls₁ calls₂ : List IndexCall)
    (hids₁ : WithinIds (run calls₁)) (hids₂ : WithinIds (run calls₂))
    (hlive : lastUpsert calls₁ = lastUpsert calls₂) (query : Text) :
    (∀ minScore maxResults,
        ((corpus calls₁).sharing query).card ≤ candidateBudget maxResults →
        search exactScores P₁ (run calls₁) query minScore maxResults =
          search exactScores P₂ (run calls₂) query minScore maxResults) ↔
      leftoverWeight calls₁ query = leftoverWeight calls₂ query ∨
        1024 < ((corpus calls₁).sharing query).card ∨
        ∀ id c, lastUpsert calls₁ id = some c → ∀ g,
          toUInt32 ((grams query).count g) = 0 ∨ toUInt32 ((grams c.text).count g) = 0 :=
  search_eq_iff_leftoverWeight exactScores_lawful P₁ P₂ calls₁ calls₂ hids₁ hids₂ hlive query

def plainHistory : List IndexCall := [.upsert 1 (ascii "a") 0 [97, 98, 99]]

def erasingHistory : List IndexCall :=
  plainHistory ++ [.upsert 2 (ascii "a") 1 [120, 120, 120], .erase 2]

lemma lastUpsert_erasingHistory : lastUpsert plainHistory = lastUpsert erasingHistory := by
  funext id
  have hcorpus : corpus erasingHistory = corpus plainHistory :=
    FiniteMap.erase_insert (corpus plainHistory) 2 _ rfl
  rw [← corpus_lookup, ← corpus_lookup, hcorpus]

theorem run_search_eq_iff_erasing :
    (∀ minScore maxResults,
        ((corpus plainHistory).sharing [97, 98]).card ≤ candidateBudget maxResults →
        search exactScores (Platform.ascending 4) (run plainHistory) [97, 98] minScore maxResults =
          search exactScores (Platform.ascending 1) (run erasingHistory) [97, 98] minScore
            maxResults) ↔
      leftoverWeight plainHistory [97, 98] = leftoverWeight erasingHistory [97, 98] ∨
        1024 < ((corpus plainHistory).sharing [97, 98]).card ∨
        ∀ id c, lastUpsert plainHistory id = some c → ∀ g,
          toUInt32 ((grams [97, 98]).count g) = 0 ∨ toUInt32 ((grams c.text).count g) = 0 :=
  run_search_eq_iff _ _ _ _ (by decide) (by decide)
    lastUpsert_erasingHistory _

theorem run_search_ne_of_erase :
    ¬ ∀ (calls₁ calls₂ : List IndexCall), WithinIds (run calls₁) → WithinIds (run calls₂) →
      lastUpsert calls₁ = lastUpsert calls₂ → ∀ (query : Text) (minScore : ℝ) (maxResults : ℕ),
        ((corpus calls₁).sharing query).card ≤ candidateBudget maxResults →
        search exactScores (Platform.ascending 1) (run calls₁) query minScore maxResults =
          search exactScores (Platform.ascending 1) (run calls₂) query minScore maxResults := by
  intro hall
  have hids₁ : WithinIds (run plainHistory) := by decide
  have hids₂ : WithinIds (run erasingHistory) := by decide
  have hsame := hall plainHistory erasingHistory hids₁ hids₂ lastUpsert_erasingHistory
    [97, 98, 99, 120, 120]
  rw [search_eq_iff_leftoverWeight exactScores_lawful _ _ _ _ hids₁ hids₂
    lastUpsert_erasingHistory] at hsame
  rcases hsame with hweight | hbig | hzero
  · exact absurd hweight (by decide)
  · exact absurd hbig (by decide)
  · rcases hzero 1 ⟨ascii "a", 0, [97, 98, 99]⟩ (by decide) [97, 98] with h | h
    · exact absurd h (by decide)
    · exact absurd h (by decide)

end IndexCall

end DltxtBridge
