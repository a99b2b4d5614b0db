import Mathlib.Algebra.BigOperators.Group.Finset.Basic
import Mathlib.Tactic

namespace SortedTable

variable {κ α β R : Type} [LinearOrder κ] [AddCommMonoid R]

structure Tabulates (xs : List (κ × α)) (s : Finset κ) (value : κ → α) : Prop where
  ascending : xs.Pairwise fun a b => a.1 < b.1
  mem_iff : ∀ k v, (k, v) ∈ xs ↔ k ∈ s ∧ v = value k

def mergeCommon (combine : κ × α → κ × β → R) : List (κ × α) → List (κ × β) → R → R
  | x :: xs, y :: ys, acc =>
    if x.1 < y.1 then mergeCommon combine xs (y :: ys) acc
    else if y.1 < x.1 then mergeCommon combine (x :: xs) ys acc
    else mergeCommon combine xs ys (acc + combine x y)
  | _, _, acc => acc
termination_by xs ys => xs.length + ys.length

lemma Tabulates.exists_keys {xs : List (κ × α)} {s : Finset κ} {value : κ → α}
    (h : Tabulates xs s value) :
    ∃ ks : List κ, ks.Pairwise (· < ·) ∧ ks.toFinset = s ∧ xs = ks.map fun k => (k, value k) := by
  refine ⟨xs.map Prod.fst, List.pairwise_map.mpr h.ascending, ?_, ?_⟩
  · ext k
    simp [h.mem_iff]
  · rw [List.map_map]
    refine (List.map_id xs).symm.trans (List.map_congr_left ?_)
    rintro ⟨k, v⟩ hm
    rw [((h.mem_iff k v).mp hm).2]
    rfl

lemma notMem_of_pairwise {k : κ} {ks : List κ} (h : (k :: ks).Pairwise (· < ·)) :
    k ∉ ks.toFinset := by
  rw [List.mem_toFinset]
  exact fun hk => lt_irrefl k ((List.pairwise_cons.mp h).1 k hk)

lemma notMem_of_lt {j k : κ} {ks : List κ} (h : (k :: ks).Pairwise (· < ·)) (hj : j < k) :
    j ∉ (k :: ks).toFinset := by
  rw [List.mem_toFinset, List.mem_cons]
  rintro (rfl | hm)
  · exact lt_irrefl j hj
  · exact lt_asymm hj ((List.pairwise_cons.mp h).1 j hm)

lemma Tabulates.foldl_add {xs : List (κ × α)} {s : Finset κ} {value : κ → α}
    (h : Tabulates xs s value) (f : κ × α → R) (acc : R) :
    xs.foldl (fun acc x => acc + f x) acc = acc + ∑ k ∈ s, f (k, value k) := by
  obtain ⟨ks, hs, rfl, rfl⟩ := h.exists_keys
  rw [List.sum_toFinset _ (hs.imp ne_of_lt), List.foldl_map]
  clear h
  induction ks generalizing acc with
  | nil => simp
  | cons k ks ih =>
    rw [List.foldl_cons, ih _ (List.pairwise_cons.mp hs).2, List.map_cons, List.sum_cons, add_assoc]

lemma mergeCommon_map (combine : κ × α → κ × β → R) (v : κ → α) (w : κ → β) (ks js : List κ)
    (hk : ks.Pairwise (· < ·)) (hj : js.Pairwise (· < ·)) (acc : R) :
    mergeCommon combine (ks.map fun k => (k, v k)) (js.map fun j => (j, w j)) acc =
      acc + ∑ k ∈ ks.toFinset ∩ js.toFinset, combine (k, v k) (k, w k) := by
  induction ks generalizing js acc with
  | nil => simp [mergeCommon]
  | cons k ks ihk =>
    induction js generalizing acc with
    | nil => simp [mergeCommon]
    | cons j js ihj =>
      have hks := (List.pairwise_cons.mp hk).2
      have hjs := (List.pairwise_cons.mp hj).2
      rw [List.map_cons, List.map_cons, mergeCommon]
      rcases lt_trichotomy k j with hlt | rfl | hlt
      · have hstep := ihk (j :: js) hks hj acc
        rw [List.map_cons] at hstep
        rw [if_pos hlt, hstep, List.toFinset_cons (a := k),
          Finset.insert_inter_of_notMem (notMem_of_lt hj hlt)]
      · rw [if_neg (lt_irrefl k), if_neg (lt_irrefl k), ihk js hks hjs, List.toFinset_cons,
          List.toFinset_cons, ← Finset.insert_inter_distrib, Finset.sum_insert, add_assoc]
        exact fun hm => notMem_of_pairwise hk (Finset.mem_inter.mp hm).1
      · have hstep := ihj hjs acc
        rw [List.map_cons] at hstep
        rw [if_neg (lt_asymm hlt), if_pos hlt, hstep, List.toFinset_cons (a := j),
          Finset.inter_insert_of_notMem (notMem_of_lt hk hlt)]

lemma Tabulates.mergeCommon {xs : List (κ × α)} {ys : List (κ × β)} {s t : Finset κ} {v : κ → α}
    {w : κ → β} (hx : Tabulates xs s v) (hy : Tabulates ys t w) (combine : κ × α → κ × β → R)
    (acc : R) :
    SortedTable.mergeCommon combine xs ys acc =
      acc + ∑ k ∈ s ∩ t, combine (k, v k) (k, w k) := by
  obtain ⟨ks, hk, rfl, rfl⟩ := hx.exists_keys
  obtain ⟨js, hj, rfl, rfl⟩ := hy.exists_keys
  exact mergeCommon_map combine v w ks js hk hj acc

end SortedTable
