import Mathlib.Data.List.Basic
import Mathlib.Data.List.Infix
import Mathlib.Tactic

/-! Searching a list for a delimiter. What has been found stays found when more input
arrives, so a search may be repeated on every longer piece of a stream. -/

namespace Delimiter

variable {α : Type} [DecidableEq α]

def find (d : List α) : List α → Option ℕ
  | [] => if d = [] then some 0 else none
  | x :: xs => if d <+: x :: xs then some 0 else (find d xs).map (· + 1)

lemma find_add_length_le {d xs : List α} {i : ℕ} (h : find d xs = some i) :
    i + d.length ≤ xs.length := by
  induction xs generalizing i with
  | nil =>
    by_cases hd : d = []
    · simp only [find, if_pos hd, Option.some.injEq] at h
      simp [← h, hd]
    · simp [find, hd] at h
  | cons x xs ih =>
    by_cases hp : d <+: x :: xs
    · simp only [find, if_pos hp, Option.some.injEq] at h
      have := hp.length_le
      omega
    · simp only [find, if_neg hp, Option.map_eq_some_iff] at h
      obtain ⟨j, hj, rfl⟩ := h
      have := ih hj
      simp only [List.length_cons]
      omega

lemma find_append {d xs : List α} {i : ℕ} (ys : List α) (h : find d xs = some i) :
    find d (xs ++ ys) = some i := by
  induction xs generalizing i with
  | nil =>
    by_cases hd : d = []
    · subst hd
      cases ys <;> simpa [find] using h
    · simp [find, hd] at h
  | cons x xs ih =>
    have hext : x :: xs <+: x :: xs ++ ys := List.prefix_append (x :: xs) ys
    by_cases hp : d <+: x :: xs
    · have hlong : d <+: x :: (xs ++ ys) := hp.trans hext
      rw [find, if_pos hp] at h
      rw [List.cons_append, find, if_pos hlong, h]
    · rw [find, if_neg hp, Option.map_eq_some_iff] at h
      obtain ⟨j, hj, rfl⟩ := h
      have hlong : ¬ d <+: x :: (xs ++ ys) := by
        intro hl
        apply hp
        apply List.prefix_of_prefix_length_le hl hext
        have := find_add_length_le hj
        simp only [List.length_cons]
        omega
      rw [List.cons_append, find, if_neg hlong, ih hj]
      rfl

lemma find_of_notMem {c : α} {d : List α} (pre post : List α) (h : c ∉ pre) :
    find (c :: d) (pre ++ (c :: d ++ post)) = some pre.length := by
  induction pre with
  | nil =>
    have hp : c :: d <+: c :: (d ++ post) := List.prefix_append (c :: d) post
    rw [List.nil_append, List.cons_append, find, if_pos hp]
    rfl
  | cons x pre ih =>
    rw [List.mem_cons, not_or] at h
    have hp : ¬ c :: d <+: x :: (pre ++ (c :: d ++ post)) := by
      intro hl
      exact h.1 (List.cons_prefix_cons.mp hl).1
    rw [List.cons_append, find, if_neg hp, ih h.2]
    rfl

end Delimiter
