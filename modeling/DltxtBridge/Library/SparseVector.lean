import Mathlib.Analysis.InnerProductSpace.PiL2
import DltxtBridge.Library.SortedTable

namespace SortedTable

open scoped RealInnerProductSpace

variable {κ : Type} [LinearOrder κ]

def count (xs : List (κ × ℕ)) (k : κ) : ℕ := ((xs.find? fun x => x.1 = k).map Prod.snd).getD 0

def keys (xs : List (κ × ℕ)) : Finset κ := (xs.map Prod.fst).toFinset

noncomputable def vector (scale : κ → ℝ) (s : Finset κ) (xs : List (κ × ℕ)) : EuclideanSpace ℝ s :=
  WithLp.toLp 2 fun k => count xs k * scale k

def SameProportions (xs ys : List (κ × ℕ)) : Prop :=
  (∃ k, 0 < count xs k) ∧ ∃ a b, 0 < a ∧ 0 < b ∧ ∀ k, a * count xs k = b * count ys k

lemma mem_keys {xs : List (κ × ℕ)} {k : κ} : k ∈ keys xs ↔ ∃ n, (k, n) ∈ xs := by
  simp [keys]

lemma count_of_notMem {xs : List (κ × ℕ)} {k : κ} (h : k ∉ keys xs) : count xs k = 0 := by
  have hnone : xs.find? (fun x => x.1 = k) = none := by
    rw [List.find?_eq_none]
    intro x hx hk
    exact h (mem_keys.mpr ⟨x.2, by rw [← of_decide_eq_true hk]; exact hx⟩)
  rw [count, hnone]
  rfl

lemma count_of_mem {xs : List (κ × ℕ)} (hxs : xs.Pairwise fun a b => a.1 < b.1) {k : κ} {n : ℕ}
    (h : (k, n) ∈ xs) : count xs k = n := by
  induction xs with
  | nil => simp at h
  | cons x xs ih =>
    obtain ⟨hx, hxs⟩ := List.pairwise_cons.mp hxs
    rcases List.mem_cons.mp h with rfl | hmem
    · simp [count]
    · have hne : x.1 ≠ k := (hx _ hmem).ne
      rw [count, List.find?_cons_of_neg (by simpa using hne)]
      exact ih hxs hmem

lemma tabulates_count {xs : List (κ × ℕ)} (hxs : xs.Pairwise fun a b => a.1 < b.1) :
    Tabulates xs (keys xs) (count xs) where
  ascending := hxs
  mem_iff k n := by
    constructor
    · intro h
      exact ⟨mem_keys.mpr ⟨n, h⟩, (count_of_mem hxs h).symm⟩
    · rintro ⟨hk, rfl⟩
      obtain ⟨n, h⟩ := mem_keys.mp hk
      rwa [count_of_mem hxs h]

lemma SameProportions.exists_common {xs ys : List (κ × ℕ)} (h : SameProportions xs ys) :
    ∃ k, 0 < count xs k ∧ 0 < count ys k := by
  obtain ⟨⟨k, hk⟩, a, b, ha, -, hab⟩ := h
  exact ⟨k, hk, pos_of_mul_pos_right (hab k ▸ mul_pos ha hk) (Nat.zero_le b)⟩

section Vector

variable {scale : κ → ℝ} {s : Finset κ} {xs ys : List (κ × ℕ)}

omit [LinearOrder κ] in
lemma sum_vector {f : κ → ℝ} {t : Finset κ} (ht : t ⊆ s) (hf : ∀ k, k ∉ t → f k = 0) :
    ∑ k : s, f k = ∑ k ∈ t, f k := by
  rw [Finset.sum_coe_sort s f]
  exact (Finset.sum_subset ht fun k _ hk => hf k hk).symm

lemma foldl_squares (scale : κ → ℝ) (hxs : xs.Pairwise fun a b => a.1 < b.1) (hs : keys xs ⊆ s) :
    xs.foldl (fun acc x => acc + x.2 * scale x.1 * (x.2 * scale x.1)) 0 = ‖vector scale s xs‖ ^ 2 := by
  rw [(tabulates_count hxs).foldl_add (fun x => x.2 * scale x.1 * (x.2 * scale x.1)), zero_add,
    EuclideanSpace.real_norm_sq_eq]
  refine (sum_vector hs fun k hk => ?_).symm.trans ?_
  · rw [count_of_notMem hk]
    simp
  · exact Finset.sum_congr rfl fun k _ => (sq _).symm

lemma mergeCommon_products (hxs : xs.Pairwise fun a b => a.1 < b.1) (hys : ys.Pairwise fun a b => a.1 < b.1)
    (hs : keys xs ⊆ s) :
    mergeCommon (fun x y : κ × ℕ => x.2 * scale x.1 * (y.2 * scale y.1)) xs ys 0 =
      ⟪vector scale s xs, vector scale s ys⟫ := by
  rw [(tabulates_count hxs).mergeCommon (tabulates_count hys), zero_add, PiLp.inner_apply]
  refine (sum_vector (Finset.inter_subset_left.trans hs) fun k hk => ?_).symm.trans ?_
  · rw [Finset.mem_inter, not_and_or] at hk
    rcases hk with hk | hk
    · simp [count_of_notMem hk]
    · simp [count_of_notMem hk]
  · exact Finset.sum_congr rfl fun k _ => mul_comm _ _

lemma vector_eq_smul (hscale : ∀ k, 0 < scale k) (hx : keys xs ⊆ s) (hy : keys ys ⊆ s) (r : ℝ) :
    vector scale s ys = r • vector scale s xs ↔ ∀ k, (count ys k : ℝ) = r * count xs k := by
  constructor
  · intro h k
    by_cases hk : k ∈ s
    · have hcoordinate : count ys k * scale k = r * (count xs k * scale k) :=
        congrArg (fun v : EuclideanSpace ℝ s => v ⟨k, hk⟩) h
      rw [← mul_assoc] at hcoordinate
      exact mul_right_cancel₀ (hscale k).ne' hcoordinate
    · rw [count_of_notMem fun hmem => hk (hx hmem), count_of_notMem fun hmem => hk (hy hmem)]
      simp
  · intro h
    ext k
    change count ys k * scale k = r * (count xs k * scale k)
    rw [h k, mul_assoc]

lemma vector_ne_zero_iff (hscale : ∀ k, 0 < scale k) (hx : keys xs ⊆ s) :
    vector scale s xs ≠ 0 ↔ ∃ k, 0 < count xs k := by
  have hzero := vector_eq_smul hscale hx hx 0
  rw [zero_smul] at hzero
  rw [ne_eq, hzero, not_forall]
  simp [Nat.pos_iff_ne_zero]

lemma inner_pos_iff (hscale : ∀ k, 0 < scale k) (hx : keys xs ⊆ s) :
    0 < ⟪vector scale s xs, vector scale s ys⟫ ↔ ∃ k, 0 < count xs k ∧ 0 < count ys k := by
  have hweight : ∀ (zs : List (κ × ℕ)) k, 0 ≤ count zs k * scale k := fun _ k =>
    mul_nonneg (Nat.cast_nonneg _) (hscale k).le
  rw [PiLp.inner_apply]
  change 0 < ∑ k : s, (count ys k * scale k) * (count xs k * scale k) ↔ _
  rw [Finset.sum_pos_iff_of_nonneg fun (k : s) _ => mul_nonneg (hweight ys k) (hweight xs k)]
  constructor
  · rintro ⟨k, -, hk⟩
    refine ⟨k, ?_, ?_⟩
    · by_contra hzero
      simp [Nat.eq_zero_of_not_pos hzero] at hk
    · by_contra hzero
      simp [Nat.eq_zero_of_not_pos hzero] at hk
  · rintro ⟨k, hxk, hyk⟩
    have hk : k ∈ keys xs := by
      by_contra hnot
      rw [count_of_notMem hnot] at hxk
      exact lt_irrefl 0 hxk
    exact ⟨⟨k, hx hk⟩, Finset.mem_univ _, mul_pos (mul_pos (Nat.cast_pos.mpr hyk) (hscale k))
      (mul_pos (Nat.cast_pos.mpr hxk) (hscale k))⟩

lemma sameProportions_iff :
    SameProportions xs ys ↔
      (∃ k, 0 < count xs k) ∧ ∃ r : ℝ, 0 < r ∧ ∀ k, (count ys k : ℝ) = r * count xs k := by
  refine and_congr_right fun ⟨k, hk⟩ => ?_
  constructor
  · rintro ⟨a, b, ha, hb, h⟩
    have ha' : (0 : ℝ) < a := Nat.cast_pos.mpr ha
    have hb' : (0 : ℝ) < b := Nat.cast_pos.mpr hb
    refine ⟨a / b, div_pos ha' hb', fun j => ?_⟩
    have hj : (a : ℝ) * count xs j = b * count ys j := by exact_mod_cast h j
    rw [div_mul_eq_mul_div, eq_div_iff hb'.ne', hj, mul_comm]
  · rintro ⟨r, hr, h⟩
    have hpos : 0 < count ys k := by
      have hproduct : (0 : ℝ) < r * count xs k := mul_pos hr (Nat.cast_pos.mpr hk)
      rw [← h k] at hproduct
      exact Nat.cast_pos.mp hproduct
    refine ⟨count ys k, count xs k, hpos, hk, fun j => ?_⟩
    have hcast : (count ys k : ℝ) * count xs j = count xs k * count ys j := by
      rw [h k, h j]
      ring
    exact_mod_cast hcast

lemma inner_div_norm_eq_one_iff (hscale : ∀ k, 0 < scale k) (hx : keys xs ⊆ s) (hy : keys ys ⊆ s) :
    ⟪vector scale s xs, vector scale s ys⟫ / (‖vector scale s xs‖ * ‖vector scale s ys‖) = 1 ↔
      SameProportions xs ys := by
  rw [real_inner_div_norm_mul_norm_eq_one_iff, vector_ne_zero_iff hscale hx, sameProportions_iff]
  refine and_congr_right fun _ => exists_congr fun r => and_congr_right fun _ => ?_
  exact vector_eq_smul hscale hx hy r

end Vector

end SortedTable
