import DltxtBridge.Crossref.SearchLine
import DltxtBridge.SimilarityIndex.Budget
import DltxtBridge.SimilarityIndex.Identical

namespace DltxtBridge.Crossref

open IndexCall SimilarityIndex

lemma limit_le_rawLimit_iff {q : LineQuery} (hlimit : q.limit < 2 ^ 64) :
    q.limit ≤ q.rawLimit ↔ 3 * q.limit < 2 ^ 64 ∨ 2 ^ 63 ≤ q.limit ∧ 3 * q.limit < 2 ^ 65 := by
  have hwraps : q.limit * 3 / 2 ^ 64 = 0 ∨ q.limit * 3 / 2 ^ 64 = 1 ∨ q.limit * 3 / 2 ^ 64 = 2 := by omega
  rw [LineQuery.rawLimit]
  rcases hwraps with h | h | h
  · omega
  · omega
  · omega

theorem more_results_iff {K : Type} [Field K] [LinearOrder K] (A : ScoreArithmetic K) (P : Platform K)
    (calls : List IndexCall) (query : Text) (fewer more : ℕ) (hle : fewer ≤ more) (q : LineQuery)
    (hlimit : q.limit < 2 ^ 64) :
    (Extends A P (run calls) query fewer more ↔ BudgetCovers A P (run calls) query fewer more) ∧
      (q.limit ≤ q.rawLimit ↔ 3 * q.limit < 2 ^ 64 ∨ 2 ^ 63 ≤ q.limit ∧ 3 * q.limit < 2 ^ 65) :=
  ⟨(wired_run calls).extends_iff hle, limit_le_rawLimit_iff hlimit⟩

theorem more_results_single :
    (Extends exactScores (Platform.ascending 4) (run [.upsert 7 (ascii "a.txt") 3 [97, 98, 97]]) [97, 98] 5 10 ↔
        BudgetCovers exactScores (Platform.ascending 4) (run [.upsert 7 (ascii "a.txt") 3 [97, 98, 97]])
          [97, 98] 5 10) ∧
      ((10 : ℕ) ≤ max (10 * 3 % 2 ^ 64) 16 ↔
        3 * 10 < 2 ^ 64 ∨ 2 ^ 63 ≤ 10 ∧ 3 * 10 < 2 ^ 65) :=
  more_results_iff exactScores (Platform.ascending 4) _ _ 5 10 (by decide) ⟨[97, 98], 80, 10, [], [], 0⟩
    (by norm_num)

/-- With `2 ^ 61` results asked for, the product by 24 is zero and the budget the least one;
three times `2 ^ 63 - 1` is less than `2 ^ 63 - 1` in 64 bits. -/
theorem more_results_wrap :
    (¬ ∀ (calls : List IndexCall) (query : Text) (fewer more : ℕ), fewer ≤ more → more < 2 ^ 64 →
        Extends exactScores (Platform.ascending 1) (run calls) query fewer more) ∧
      ¬ ∀ q : LineQuery, q.limit < 2 ^ 64 → q.limit ≤ q.rawLimit := by
  constructor
  · intro hall
    have hextends := hall (crowd 128) [97, 98] 6 (2 ^ 61) (by norm_num) (by norm_num)
    obtain ⟨-, hquery, -⟩ := run_crowd
    have hbudgets : candidateBudget 6 = 144 ∧ candidateBudget (2 ^ 61) = 128 := by decide
    have hidf := (wired_run (crowd 128)).currentIdf_pos 0
    rcases ((wired_run (crowd 128)).extends_iff (by norm_num)).mp hextends with hzero | hnorm | hbudget | hlines
    · exact absurd hzero (by decide)
    · rw [hquery, normSquared, List.foldl_cons, List.foldl_nil, weight, Nat.cast_one, one_mul, zero_add] at hnorm
      exact absurd (mul_pos hidf hidf) (not_lt.mpr hnorm)
    · rw [hbudgets.1, hbudgets.2] at hbudget
      exact absurd hbudget (by decide)
    · rw [retrievalOrder_crowd, hbudgets.2, List.toFinset_card_of_nodup List.nodup_range, List.length_range]
        at hlines
      exact absurd hlines (by decide)
  · intro hall
    have hlimit := hall ⟨[], 0, 2 ^ 63 - 1, [], [], 0⟩ (by norm_num)
    rw [limit_le_rawLimit_iff (by norm_num)] at hlimit
    norm_num at hlimit

end DltxtBridge.Crossref
