import DltxtBridge.SimilarityIndex.Candidates
import DltxtBridge.SimilarityIndex.Ranking
import DltxtBridge.SimilarityIndex.Refinement
import Mathlib.Algebra.Order.BigOperators.Group.Finset
import Mathlib.Analysis.SpecialFunctions.Log.Basic
import Mathlib.Analysis.SpecialFunctions.Sqrt

namespace DltxtBridge

structure ScoreArithmetic.Lawful {K : Type} [Field K] [LinearOrder K] (A : ScoreArithmetic K) :
    Prop where
  log_nonneg : ∀ x, 1 ≤ x → 0 ≤ A.log x
  sqrt_pos : ∀ x, 0 < x → 0 < A.sqrt x
  sqrt_inj : ∀ x y, 0 < x → 0 < y → A.sqrt x = A.sqrt y → x = y

noncomputable def exactScores : ScoreArithmetic ℝ := ⟨Real.log, Real.sqrt⟩

lemma exactScores_lawful : exactScores.Lawful where
  log_nonneg _ := Real.log_nonneg
  sqrt_pos _ := Real.sqrt_pos.mpr
  sqrt_inj _ _ hx hy := (Real.sqrt_inj hx.le hy.le).mp

namespace Corpus

def gramsOf (C : Corpus) (id : LineId) : List Term :=
  match C.lookup id with
  | some c => grams c.text
  | none => []

def holding (C : Corpus) (g : Term) : Finset LineId := C.keys.filter fun id => g ∈ C.gramsOf id

def sharing (C : Corpus) (query : Text) : Finset LineId :=
  C.keys.filter fun id => ∃ g ∈ grams query, g ∈ C.gramsOf id

variable {K : Type} [Field K] [LinearOrder K] (A : ScoreArithmetic K) (C : Corpus)

def idf (g : Term) : K :=
  SimilarityIndex.inverseDocumentFrequency A (FiniteMap.size C) (C.holding g).card

def weight (text : Text) (g : Term) : K := toUInt32 ((grams text).count g) * C.idf A g

def normSquared (known : Finset Term) (text : Text) : K :=
  ∑ g ∈ (grams text).toFinset ∩ known, C.weight A text g * C.weight A text g

def dotProduct (query text : Text) : K :=
  ∑ g ∈ (grams query).toFinset ∩ (grams text).toFinset, C.weight A query g * C.weight A text g

def cosine (known : Finset Term) (query text : Text) : K :=
  C.dotProduct A query text /
    (A.sqrt (C.normSquared A known query) * A.sqrt (C.normSquared A (grams text).toFinset text))

def scored (known : Finset Term) (query : Text) (minScore : K) (id : LineId) :
    Option (SearchResult K) :=
  match C.lookup id with
  | none => none
  | some c =>
    if 0 < C.dotProduct A query c.text ∧ minScore ≤ C.cosine A known query c.text then
      some ⟨id, c.filePath, c.lineNumber, C.cosine A known query c.text⟩
    else none

def search (known : Finset Term) (query : Text) (minScore : K) (maxResults : ℕ) :
    List (SearchResult K) :=
  SimilarityIndex.rankResults
    (((C.sharing query).sort (· ≤ ·)).filterMap (C.scored A known query minScore)) maxResults

omit [Field K] [LinearOrder K] in
lemma mem_sharing {C : Corpus} {query : Text} {id : LineId} :
    id ∈ C.sharing query ↔ ∃ c, C.lookup id = some c ∧ ∃ g ∈ grams query, g ∈ grams c.text := by
  rw [sharing, Finset.mem_filter, FiniteMap.mem_keys_iff]
  simp only [gramsOf]
  cases C.lookup id <;> simp

omit [Field K] [LinearOrder K] in
lemma mem_holding {C : Corpus} {g : Term} {id : LineId} :
    id ∈ C.holding g ↔ ∃ c, C.lookup id = some c ∧ g ∈ grams c.text := by
  rw [holding, Finset.mem_filter, FiniteMap.mem_keys_iff]
  simp only [gramsOf]
  cases C.lookup id <;> simp

variable [IsStrictOrderedRing K] {A}

omit C in
lemma inverseDocumentFrequency_pos (hA : A.Lawful) {total frequency : ℕ} (h : frequency ≤ total) :
    0 < SimilarityIndex.inverseDocumentFrequency A total frequency := by
  have hratio : (1 : K) ≤ ((total : K) + 1) / ((frequency : K) + 1) := by
    rw [one_le_div (by positivity)]
    have : (frequency : K) ≤ (total : K) := by exact_mod_cast h
    linarith
  have hlog := hA.log_nonneg _ hratio
  rw [SimilarityIndex.inverseDocumentFrequency]
  linarith

lemma idf_pos (hA : A.Lawful) (g : Term) : 0 < C.idf A g :=
  inverseDocumentFrequency_pos hA (Finset.card_filter_le _ _)

lemma weight_nonneg (hA : A.Lawful) (text : Text) (g : Term) : 0 ≤ C.weight A text g :=
  mul_nonneg (Nat.cast_nonneg _) (C.idf_pos hA g).le

lemma weight_pos_iff (hA : A.Lawful) (text : Text) (g : Term) :
    0 < C.weight A text g ↔ 0 < toUInt32 ((grams text).count g) := by
  rw [weight, mul_pos_iff_of_pos_right (C.idf_pos hA g), Nat.cast_pos]

lemma mem_grams_of_toUInt32 {text : Text} {g : Term}
    (h : 0 < toUInt32 ((grams text).count g)) : g ∈ grams text := by
  by_contra hg
  rw [List.count_eq_zero_of_not_mem hg] at h
  exact absurd h (by decide)

lemma dotProduct_pos_iff (hA : A.Lawful) (query text : Text) :
    0 < C.dotProduct A query text ↔ ∃ g, 0 < toUInt32 ((grams query).count g) ∧
      0 < toUInt32 ((grams text).count g) := by
  have hnonneg : ∀ g ∈ (grams query).toFinset ∩ (grams text).toFinset,
      0 ≤ C.weight A query g * C.weight A text g :=
    fun g _ => mul_nonneg (C.weight_nonneg hA _ _) (C.weight_nonneg hA _ _)
  rw [dotProduct, Finset.sum_pos_iff_of_nonneg hnonneg]
  constructor
  · rintro ⟨g, -, hg⟩
    have hq := pos_of_mul_pos_left hg (C.weight_nonneg hA text g)
    have ht := pos_of_mul_pos_right hg (C.weight_nonneg hA query g)
    exact ⟨g, (C.weight_pos_iff hA _ _).mp hq, (C.weight_pos_iff hA _ _).mp ht⟩
  · rintro ⟨g, hq, ht⟩
    refine ⟨g, ?_, mul_pos ((C.weight_pos_iff hA _ _).mpr hq) ((C.weight_pos_iff hA _ _).mpr ht)⟩
    rw [Finset.mem_inter, List.mem_toFinset, List.mem_toFinset]
    exact ⟨mem_grams_of_toUInt32 hq, mem_grams_of_toUInt32 ht⟩

lemma normSquared_pos (hA : A.Lawful) {known : Finset Term} {text : Text} {g : Term}
    (hg : g ∈ known) (hc : 0 < toUInt32 ((grams text).count g)) :
    0 < C.normSquared A known text := by
  have hw := (C.weight_pos_iff hA text g).mpr hc
  refine Finset.sum_pos' (fun h _ => mul_self_nonneg _) ⟨g, ?_, mul_pos hw hw⟩
  rw [Finset.mem_inter, List.mem_toFinset]
  exact ⟨mem_grams_of_toUInt32 hc, hg⟩

end Corpus

end DltxtBridge
