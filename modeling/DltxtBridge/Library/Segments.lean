import Mathlib.Data.List.Basic
import Mathlib.Tactic

namespace Segments

variable {α : Type}

def glue : List (List α) → List (List α) → List (List α)
  | [], ys => ys
  | [x], ys => ys.modifyHead (x ++ ·)
  | x :: x' :: xs, ys => x :: glue (x' :: xs) ys

lemma glue_cons {x : List α} {xs : List (List α)} (h : xs ≠ []) (ys : List (List α)) :
    glue (x :: xs) ys = x :: glue xs ys := by
  cases xs with
  | nil => exact absurd rfl h
  | cons x' xs => rfl

lemma glue_concat (xs : List (List α)) (x y : List α) (ys : List (List α)) :
    glue (xs ++ [x]) (y :: ys) = xs ++ (x ++ y) :: ys := by
  induction xs with
  | nil => rfl
  | cons z xs ih => rw [List.cons_append, glue_cons (by simp), ih, List.cons_append]

lemma glue_modifyHead {xs : List (List α)} (h : xs ≠ []) (u : List α) (ys : List (List α)) :
    glue (xs.modifyHead (u ++ ·)) ys = (glue xs ys).modifyHead (u ++ ·) := by
  cases xs with
  | nil => exact absurd rfl h
  | cons x xs =>
    cases xs with
    | nil => cases ys <;> simp [glue]
    | cons x' xs => rfl

lemma glue_ne_nil {xs ys : List (List α)} (hys : ys ≠ []) : glue xs ys ≠ [] := by
  obtain ⟨y, ys, rfl⟩ := List.exists_cons_of_ne_nil hys
  rcases List.eq_nil_or_concat' xs with rfl | ⟨init, last, rfl⟩
  · exact hys
  · rw [glue_concat]
    simp

lemma flatten_glue {ys : List (List α)} (hys : ys ≠ []) (xs : List (List α)) :
    (glue xs ys).flatten = xs.flatten ++ ys.flatten := by
  obtain ⟨y, ys, rfl⟩ := List.exists_cons_of_ne_nil hys
  rcases List.eq_nil_or_concat' xs with rfl | ⟨init, last, rfl⟩
  · rfl
  · rw [glue_concat]
    simp

lemma intercalate_glue {sep : List α} {xs ys : List (List α)} (hxs : xs ≠ []) (hys : ys ≠ []) :
    List.intercalate sep (glue xs ys) = List.intercalate sep xs ++ List.intercalate sep ys := by
  induction xs with
  | nil => exact absurd rfl hxs
  | cons x xs ih =>
    cases xs with
    | nil =>
      obtain ⟨y, ys, rfl⟩ := List.exists_cons_of_ne_nil hys
      cases ys with
      | nil => simp [glue]
      | cons y' ys => simp [glue]
    | cons x' xs =>
      have hrest : x' :: xs ≠ [] := List.cons_ne_nil x' xs
      rw [glue_cons hrest, List.intercalate_cons_of_ne_nil (glue_ne_nil hys), ih hrest,
        List.intercalate_cons_of_ne_nil hrest, List.append_assoc, List.append_assoc, List.append_assoc]

lemma intercalate_append {sep : List α} {xs ys : List (List α)} (hxs : xs ≠ []) (hys : ys ≠ []) :
    List.intercalate sep (xs ++ ys) = List.intercalate sep xs ++ sep ++ List.intercalate sep ys := by
  induction xs with
  | nil => exact absurd rfl hxs
  | cons x xs ih =>
    cases xs with
    | nil => rw [List.singleton_append, List.intercalate_cons_of_ne_nil hys, List.intercalate_singleton]
    | cons x' xs =>
      have hrest : x' :: xs ≠ [] := List.cons_ne_nil x' xs
      rw [List.cons_append, List.intercalate_cons_of_ne_nil (by simp), ih hrest,
        List.intercalate_cons_of_ne_nil hrest]
      simp only [List.append_assoc]

section SplitOn

variable [DecidableEq α]

lemma splitOn_ne_nil (a : α) (xs : List α) : xs.splitOn a ≠ [] := List.splitOnP_ne_nil _ xs

lemma splitOn_cons_self (a : α) (xs : List α) : (a :: xs).splitOn a = [] :: xs.splitOn a := by
  rw [List.splitOn, List.splitOnP_cons_eq_if_modifyHead, if_pos (beq_self_eq_true a)]
  rfl

lemma splitOn_cons_of_ne {a x : α} (h : x ≠ a) (xs : List α) :
    (x :: xs).splitOn a = (xs.splitOn a).modifyHead (x :: ·) := by
  rw [List.splitOn, List.splitOnP_cons_eq_if_modifyHead, if_neg (by simpa using h)]
  rfl

lemma length_splitOn (a : α) (xs : List α) : (xs.splitOn a).length = xs.count a + 1 := by
  induction xs with
  | nil => simp
  | cons x xs ih =>
    by_cases h : x = a
    · rw [h, splitOn_cons_self, List.length_cons, ih, List.count_cons_self]
    · rw [splitOn_cons_of_ne h, List.length_modifyHead, ih, List.count_cons_of_ne h]

lemma splitOn_append (a : α) (xs ys : List α) :
    (xs ++ ys).splitOn a = glue (xs.splitOn a) (ys.splitOn a) := by
  induction xs with
  | nil =>
    rw [List.nil_append, List.splitOn_nil, glue]
    cases ys.splitOn a <;> rfl
  | cons x xs ih =>
    by_cases hx : x = a
    · subst hx
      rw [List.cons_append, splitOn_cons_self, splitOn_cons_self, glue_cons (splitOn_ne_nil _ _), ih]
    · rw [List.cons_append, splitOn_cons_of_ne hx, splitOn_cons_of_ne hx, ih]
      exact (glue_modifyHead (splitOn_ne_nil _ _) [x] _).symm

lemma splitOn_concat_self (a : α) (xs : List α) : (xs ++ [a]).splitOn a = xs.splitOn a ++ [[]] := by
  obtain ⟨init, last, hlast⟩ := (List.eq_nil_or_concat' (xs.splitOn a)).resolve_left (splitOn_ne_nil a xs)
  rw [splitOn_append, splitOn_cons_self, List.splitOn_nil, hlast, glue_concat, List.append_nil,
    List.append_assoc, List.singleton_append]

lemma exists_append_of_intercalate_eq {a : α} {pieces : List (List α)} {u w : List α} (hne : pieces ≠ [])
    (hpieces : ∀ piece ∈ pieces, a ∉ piece) (h : List.intercalate [a] pieces = u ++ a :: w) :
    ∃ front back, front ≠ [] ∧ back ≠ [] ∧ front ++ back = pieces ∧ List.intercalate [a] front = u ∧
      List.intercalate [a] back = w := by
  refine ⟨u.splitOn a, w.splitOn a, splitOn_ne_nil a u, splitOn_ne_nil a w, ?_,
    List.intercalate_splitOn a, List.intercalate_splitOn a⟩
  obtain ⟨init, last, hlast⟩ := (List.eq_nil_or_concat' (u.splitOn a)).resolve_left (splitOn_ne_nil a u)
  have hsplit := List.splitOn_intercalate a hpieces hne
  rw [h, splitOn_append, splitOn_cons_self, hlast, glue_concat, List.append_nil] at hsplit
  rw [hlast, ← hsplit, List.append_assoc, List.singleton_append]

lemma not_mem_of_mem_splitOn {a : α} {xs piece : List α} (h : piece ∈ xs.splitOn a) : a ∉ piece := by
  induction xs generalizing piece with
  | nil =>
    rw [List.splitOn_nil, List.mem_singleton] at h
    simp [h]
  | cons x xs ih =>
    by_cases hx : x = a
    · subst hx
      rw [splitOn_cons_self, List.mem_cons] at h
      rcases h with rfl | h
      · exact List.not_mem_nil
      · exact ih h
    · obtain ⟨head, tail, htail⟩ := List.exists_cons_of_ne_nil (splitOn_ne_nil a xs)
      rw [htail] at ih
      rw [splitOn_cons_of_ne hx, htail, List.modifyHead_cons, List.mem_cons] at h
      rcases h with rfl | h
      · rw [List.mem_cons, not_or]
        exact ⟨Ne.symm hx, ih List.mem_cons_self⟩
      · exact ih (List.mem_cons_of_mem _ h)

lemma flatten_splitOn (a : α) (xs : List α) : (xs.splitOn a).flatten = xs.filter (· ≠ a) := by
  induction xs with
  | nil => rfl
  | cons x xs ih =>
    by_cases hx : x = a
    · subst hx
      simp [splitOn_cons_self, ih]
    · obtain ⟨head, tail, htail⟩ := List.exists_cons_of_ne_nil (splitOn_ne_nil a xs)
      rw [splitOn_cons_of_ne hx, htail, List.filter_cons_of_pos (by simpa using hx), ← ih, htail]
      rfl

end SplitOn

end Segments
