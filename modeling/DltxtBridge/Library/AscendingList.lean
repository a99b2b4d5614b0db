import Mathlib.Data.Finset.Card
import Mathlib.Data.List.InsertIdx
import Mathlib.Data.List.TakeWhile
import Mathlib.Tactic

namespace AscendingList

variable {α : Type} [LinearOrder α]

def lowerBound (xs : List α) (x : α) : ℕ := (xs.takeWhile (· < x)).length

structure Lists (xs : List α) (s : Finset α) : Prop where
  ascending : xs.Pairwise (· < ·)
  mem_iff : ∀ x, x ∈ xs ↔ x ∈ s

lemma split_lowerBound (xs : List α) (x : α) :
    xs.take (lowerBound xs x) = xs.takeWhile (· < x) ∧
      xs.drop (lowerBound xs x) = xs.dropWhile (· < x) := by
  have h : xs.takeWhile (· < x) ++ xs.dropWhile (· < x) = xs := List.takeWhile_append_dropWhile
  constructor
  · calc xs.take (lowerBound xs x)
        = (xs.takeWhile (· < x) ++ xs.dropWhile (· < x)).take (lowerBound xs x) := by rw [h]
      _ = xs.takeWhile (· < x) := List.take_left' rfl
  · calc xs.drop (lowerBound xs x)
        = (xs.takeWhile (· < x) ++ xs.dropWhile (· < x)).drop (lowerBound xs x) := by rw [h]
      _ = xs.dropWhile (· < x) := List.drop_left' rfl

lemma lowerBound_le (xs : List α) (x : α) : lowerBound xs x ≤ xs.length :=
  (List.takeWhile_sublist _).length_le

lemma lt_of_mem_takeWhile {xs : List α} {x y : α} (hy : y ∈ xs.takeWhile (· < x)) : y < x := by
  simpa using List.mem_takeWhile_imp hy

lemma le_of_mem_dropWhile {xs : List α} {x y : α} (hs : xs.Pairwise (· < ·))
    (hy : y ∈ xs.dropWhile (· < x)) : x ≤ y := by
  induction xs with
  | nil => simp at hy
  | cons z zs ih =>
    rw [List.pairwise_cons] at hs
    by_cases hz : z < x
    · rw [List.dropWhile_cons_of_pos (by simpa using hz)] at hy
      exact ih hs.2 hy
    · rw [List.dropWhile_cons_of_neg (by simpa using hz)] at hy
      rcases List.mem_cons.mp hy with rfl | hy
      · exact not_lt.mp hz
      · exact (not_lt.mp hz).trans (hs.1 y hy).le

lemma mem_split (xs : List α) (x y : α) :
    y ∈ xs ↔ y ∈ xs.takeWhile (· < x) ∨ y ∈ xs.dropWhile (· < x) := by
  rw [← List.mem_append, List.takeWhile_append_dropWhile]

omit [LinearOrder α] in
lemma insertIdx_length (xs ys : List α) (x : α) :
    (xs ++ ys).insertIdx xs.length x = xs ++ x :: ys := by
  induction xs with
  | nil => rfl
  | cons z zs ih => simp [ih]

lemma dropWhile_eq_cons {xs : List α} {x : α} (hs : xs.Pairwise (· < ·)) (hx : x ∈ xs) :
    ∃ zs, xs.dropWhile (· < x) = x :: zs := by
  have hd : x ∈ xs.dropWhile (· < x) :=
    ((mem_split xs x x).mp hx).resolve_left (fun h => lt_irrefl x (lt_of_mem_takeWhile h))
  cases he : xs.dropWhile (· < x) with
  | nil => simp [he] at hd
  | cons z zs =>
    have hsorted : (z :: zs).Pairwise (· < ·) := he ▸ hs.sublist (List.dropWhile_sublist _)
    have hz : x ≤ z := le_of_mem_dropWhile hs (by simp [he])
    rw [he] at hd
    rcases List.mem_cons.mp hd with rfl | hmem
    · exact ⟨zs, rfl⟩
    · exact absurd ((List.pairwise_cons.mp hsorted).1 x hmem) (not_lt.mpr hz)

lemma getElem?_lowerBound {xs : List α} (hs : xs.Pairwise (· < ·)) (x : α) :
    xs[lowerBound xs x]? = some x ↔ x ∈ xs := by
  constructor
  · exact List.mem_of_getElem?
  · intro hx
    obtain ⟨zs, hz⟩ := dropWhile_eq_cons hs hx
    rw [← List.head?_drop, (split_lowerBound xs x).2, hz]
    rfl

namespace Lists

variable {xs : List α} {s : Finset α}

lemma nil : Lists ([] : List α) ∅ := ⟨List.Pairwise.nil, by simp⟩

lemma length_eq (h : Lists xs s) : xs.length = s.card := by
  have hs : xs.toFinset = s := by
    ext x
    simp [h.mem_iff]
  rw [← hs, List.toFinset_card_of_nodup (h.ascending.imp ne_of_lt)]

lemma eq_nil_iff (h : Lists xs s) : xs = [] ↔ s = ∅ := by
  rw [← List.length_eq_zero_iff, h.length_eq, Finset.card_eq_zero]

lemma push (h : Lists xs s) (x : α) (hx : ∀ y ∈ xs, y < x) : Lists (xs ++ [x]) (insert x s) := by
  constructor
  · rw [List.pairwise_append]
    exact ⟨h.ascending, List.pairwise_singleton _ _, by simpa using hx⟩
  · intro y
    simp [h.mem_iff, or_comm]

lemma insertIdx (h : Lists xs s) {x : α} (hx : x ∉ xs) :
    Lists (xs.insertIdx (lowerBound xs x) x) (insert x s) := by
  have he : xs.insertIdx (lowerBound xs x) x =
      xs.takeWhile (· < x) ++ x :: xs.dropWhile (· < x) := by
    rw [← insertIdx_length, List.takeWhile_append_dropWhile]
    rfl
  constructor
  · rw [he, List.pairwise_append, List.pairwise_cons]
    refine ⟨h.ascending.sublist (List.takeWhile_sublist _), ⟨?_, ?_⟩, ?_⟩
    · intro y hy
      apply lt_of_le_of_ne (le_of_mem_dropWhile h.ascending hy)
      rintro rfl
      exact hx ((mem_split xs x x).mpr (Or.inr hy))
    · exact h.ascending.sublist (List.dropWhile_sublist _)
    · intro y hy z hz
      have hyx := lt_of_mem_takeWhile hy
      rcases List.mem_cons.mp hz with rfl | hz
      · exact hyx
      · exact hyx.trans_le (le_of_mem_dropWhile h.ascending hz)
  · intro y
    rw [List.mem_insertIdx (lowerBound_le xs x), h.mem_iff, Finset.mem_insert]

lemma eraseIdx (h : Lists xs s) {x : α} (hx : x ∈ xs) :
    Lists (xs.eraseIdx (lowerBound xs x)) (s.erase x) := by
  obtain ⟨zs, hz⟩ := dropWhile_eq_cons h.ascending hx
  have hsplit : xs = xs.takeWhile (· < x) ++ x :: zs := by
    rw [← hz, List.takeWhile_append_dropWhile]
  have he : xs.eraseIdx (lowerBound xs x) = xs.takeWhile (· < x) ++ zs := by
    rw [List.eraseIdx_eq_take_drop_succ, (split_lowerBound xs x).1, ← List.drop_drop,
      (split_lowerBound xs x).2, hz, List.drop_one, List.tail_cons]
  have hsub : List.Sublist (xs.takeWhile (· < x) ++ zs) xs := by
    conv_rhs => rw [hsplit]
    exact (List.sublist_cons_self x zs).append_left _
  have hsorted := h.ascending
  rw [hsplit, List.pairwise_append, List.pairwise_cons] at hsorted
  constructor
  · rw [he]
    exact h.ascending.sublist hsub
  · intro y
    rw [he, Finset.mem_erase, ← h.mem_iff]
    constructor
    · intro hy
      refine ⟨?_, hsub.subset hy⟩
      rcases List.mem_append.mp hy with hy | hy
      · exact (lt_of_mem_takeWhile hy).ne
      · exact (hsorted.2.1.1 y hy).ne'
    · rintro ⟨hne, hy⟩
      rw [hsplit, List.mem_append, List.mem_cons] at hy
      rw [List.mem_append]
      rcases hy with hy | rfl | hy
      · exact Or.inl hy
      · exact absurd rfl hne
      · exact Or.inr hy

end Lists

lemma mem_take_iff {α β : Type} [LinearOrder β] {key : α → β} (hkey : Function.Injective key) {xs : List α}
    (hs : xs.Pairwise fun a b => key a ≤ key b) (x : α) (k : ℕ) :
    x ∈ xs.take k ↔ x ∈ xs ∧ xs.countP (fun a => key a < key x) < k := by
  induction xs generalizing k with
  | nil => simp
  | cons a xs ih =>
    obtain ⟨ha, hs⟩ := List.pairwise_cons.mp hs
    cases k with
    | zero => simp
    | succ k =>
      rw [List.take_succ_cons, List.mem_cons, List.mem_cons, ih hs]
      by_cases hxa : x = a
      · subst hxa
        have hcount : xs.countP (fun b => key b < key x) = 0 := by
          rw [List.countP_eq_zero]
          intro b hb
          simpa using ha b hb
        simp [hcount]
      · simp only [hxa, false_or]
        refine and_congr_right fun hx => ?_
        have hlt : key a < key x := lt_of_le_of_ne (ha x hx) fun h => hxa (hkey h).symm
        rw [List.countP_cons_of_pos (by simpa using hlt)]
        omega

lemma key_le_iff_lt_countP {α β : Type} [LinearOrder β] {key : α → β} {xs : List α}
    (hs : xs.Pairwise fun a b => key a ≤ key b) {i : ℕ} {x : α} (hx : xs[i]? = some x) (bound : β) :
    key x ≤ bound ↔ i < xs.countP fun a => key a ≤ bound := by
  induction xs generalizing i with
  | nil => simp at hx
  | cons a xs ih =>
    obtain ⟨ha, hs⟩ := List.pairwise_cons.mp hs
    by_cases hab : key a ≤ bound
    · rw [List.countP_cons_of_pos (by simpa using hab)]
      cases i with
      | zero =>
        rw [List.getElem?_cons_zero, Option.some.injEq] at hx
        simp [← hx, hab]
      | succ i => exact (ih hs hx).trans (Nat.succ_lt_succ_iff).symm
    · have hover : ∀ b ∈ a :: xs, ¬ key b ≤ bound := by
        intro b hb
        rcases List.mem_cons.mp hb with rfl | hb
        · exact hab
        · exact fun h => hab ((ha b hb).trans h)
      have hzero : (a :: xs).countP (fun b => key b ≤ bound) = 0 := by
        rw [List.countP_eq_zero]
        intro b hb
        simpa using hover b hb
      rw [hzero]
      exact iff_of_false (hover x (List.mem_of_getElem? hx)) (Nat.not_lt_zero i)

lemma key_le_of_subperm {α β : Type} [LinearOrder β] {key : α → β} {xs ys : List α}
    (hxs : xs.Pairwise fun a b => key a ≤ key b) (hys : ys.Pairwise fun a b => key a ≤ key b)
    (h : xs.Subperm ys) {i : ℕ} {x y : α} (hx : xs[i]? = some x) (hy : ys[i]? = some y) :
    key y ≤ key x := by
  have hcount := (key_le_iff_lt_countP hxs hx (key x)).mp le_rfl
  exact (key_le_iff_lt_countP hys hy (key x)).mpr (hcount.trans_le (h.countP_le _))

end AscendingList
