import DltxtBridge.SimilarityIndex.Cosine

namespace DltxtBridge

open SortedTable

namespace SimilarityIndex

def DrawsProportional (P : Platform ℝ) (s : SimilarityIndex) (query : Text) (maxResults : ℕ) : Prop :=
  ∃ id line, s.lines.lookup id = some line ∧
    SameProportions (s.queryTermFrequency query) line.termFrequency ∧
    AmongFirst (retrievalOrder s (candidateBudget maxResults) (queryTerms exactScores P s query))
      (candidateBudget maxResults) id

namespace Wired

variable {s : SimilarityIndex} {P : Platform ℝ} {query : Text} {maxResults : ℕ}

lemma scored_one_iff (h : Wired s) (hmax : maxResults ≠ 0) :
    (∃ id ∈ scoredLines exactScores P s query maxResults, ∃ result,
        scoreCandidate exactScores s (s.queryTermFrequency query) 0 id = some result ∧ result.score = 1) ↔
      DrawsProportional P s query maxResults := by
  have hascending := ascending_queryTermFrequency s query
  constructor
  · rintro ⟨id, hid, result, hresult, hscore⟩
    obtain ⟨line, hl, -, -, -, rfl⟩ := (scoreCandidate_eq_some exactScores).mp hresult
    have hlines : FiniteMap.size s.lines ≠ 0 := fun hzero => by
      rw [(FiniteMap.size_eq_zero _).mp hzero] at hl
      cases hl
    exact ⟨id, line, hl, (h.cosine_eq_one_iff hascending hl).mp hscore,
      ((mem_scoredLines_iff hmax hlines id).mp hid).amongFirst⟩
  · rintro ⟨id, line, hl, hproportions, hfirst⟩
    have hlines : FiniteMap.size s.lines ≠ 0 := fun hzero => by
      rw [(FiniteMap.size_eq_zero _).mp hzero] at hl
      cases hl
    obtain ⟨t, hquery, hline⟩ := hproportions.exists_common
    have hbounded := h.boundedScore hascending hl hquery hline
    refine ⟨id, (mem_scoredLines_iff hmax hlines id).mpr ⟨Real.sqrt_pos.mp hbounded.queryNorm, hfirst⟩,
      resultFor exactScores s _ line, ?_, (h.cosine_eq_one_iff hascending hl).mpr hproportions⟩
    exact (scoreCandidate_eq_some exactScores).mpr
      ⟨line, hl, hbounded.lineNorm, hbounded.dotProduct_pos, hbounded.positive.le, rfl⟩

lemma first_score_one_iff (h : Wired s) (hmax : 1 ≤ maxResults) :
    (∃ first, (search exactScores P s query 0 maxResults).head? = some first ∧ first.score = 1) ↔
      DrawsProportional P s query maxResults := by
  rw [search, scoreCandidates_eq, head?_rankResults_iff hmax, ← h.scored_one_iff (Nat.pos_iff_ne_zero.mp hmax)]
  · simp only [List.mem_filterMap, P.mem_iterate]
    tauto
  · intro result hresult
    obtain ⟨id, -, hscore⟩ := List.mem_filterMap.mp hresult
    obtain ⟨line, hl, -, -, -, rfl⟩ := (scoreCandidate_eq_some exactScores).mp hscore
    exact h.cosine_le_one (ascending_queryTermFrequency s query) hl

end Wired

end SimilarityIndex

namespace IndexCall

open SimilarityIndex

theorem run_identical_found_iff (P : Platform ℝ) (calls : List IndexCall) (query : Text) (maxResults : ℕ)
    (hmax : 1 ≤ maxResults) :
    (∃ first, (search exactScores P (run calls) query 0 maxResults).head? = some first ∧ first.score = 1) ↔
      DrawsProportional P (run calls) query maxResults :=
  (wired_run calls).first_score_one_iff hmax

theorem run_identical_found_single :
    (∃ first, (search exactScores (Platform.ascending 4) (run [.upsert 7 (ascii "a.txt") 3 [97, 98, 97]])
        [97, 98, 97] 0 1).head? = some first ∧ first.score = 1) ↔
      DrawsProportional (Platform.ascending 4) (run [.upsert 7 (ascii "a.txt") 3 [97, 98, 97]])
        [97, 98, 97] 1 :=
  run_identical_found_iff _ _ _ _ le_rfl

def crowd (n : ℕ) : List IndexCall :=
  (List.range n).map (fun id => .upsert id [] id [97, 98, 99]) ++ [.upsert n [] n [97, 98]]

lemma run_crowd :
    (run (crowd 128)).inverted.postings.lookup 0 = some (List.range 129) ∧
      (run (crowd 128)).queryTermFrequency [97, 98] = [(0, 1)] ∧
      ∀ id ∈ List.range 128,
        ((run (crowd 128)).lines.lookup id).map IndexedLine.termFrequency = some [(0, 1), (1, 1)] := by
  decide +kernel

lemma retrievalOrder_crowd (P : Platform ℝ) (budget : ℕ) :
    retrievalOrder (run (crowd 128)) budget (queryTerms exactScores P (run (crowd 128)) [97, 98]) =
      List.range 129 := by
  obtain ⟨hposting, hquery, -⟩ := run_crowd
  exact retrievalOrder_single hquery hposting budget

theorem identical_line_crowded_out :
    ¬ ∀ (calls : List IndexCall) (query : Text) (id : LineId) (c : CorpusLine) (maxResults : ℕ),
      lastUpsert calls id = some c → c.text = query → 2 ≤ query.length → 1 ≤ maxResults →
      24 * maxResults < 2 ^ 64 →
      ∃ first, (search exactScores (Platform.ascending 1) (run calls) query 0 maxResults).head? =
        some first ∧ first.score = 1 := by
  intro hall
  have hlive : lastUpsert (crowd 128) 128 = some ⟨[], 128, [97, 98]⟩ := by decide +kernel
  have hfound := hall (crowd 128) [97, 98] 128 _ 1 hlive rfl le_rfl le_rfl (by norm_num)
  rw [(wired_run _).first_score_one_iff le_rfl] at hfound
  obtain ⟨id, line, hl, ⟨-, a, b, -, hb, hproportions⟩, hmem, hbefore⟩ := hfound
  have hbudget : candidateBudget 1 = 128 := by decide
  rw [hbudget, retrievalOrder_crowd] at hmem hbefore
  obtain ⟨-, hquery, hlines⟩ := run_crowd
  have hother : id ∈ List.range 128 := by
    rw [List.mem_range] at hmem ⊢
    refine lt_of_le_of_ne (Nat.lt_succ_iff.mp hmem) ?_
    rintro rfl
    exact absurd hbefore (by decide +kernel)
  have hline := hlines id hother
  rw [hl, Option.map_some, Option.some.injEq] at hline
  have hone := hproportions 1
  rw [hquery, hline] at hone
  have hcounts : SortedTable.count [(0, 1)] 1 = 0 ∧ SortedTable.count [(0, 1), (1, 1)] 1 = 1 := by decide
  rw [hcounts.1, hcounts.2] at hone
  omega

end IndexCall

end DltxtBridge
