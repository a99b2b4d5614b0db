import Mathlib.Data.List.Sort
import Mathlib.Tactic

namespace StableSort

section Key

variable {α κ : Type} [LinearOrder κ] {r : α → α → Prop} {key : α → κ}

lemma total_of_key (hr : ∀ a b, r a b ↔ key a ≤ key b) : Std.Total r :=
  ⟨fun a b => by simpa only [hr] using le_total (key a) (key b)⟩

lemma isTrans_of_key (hr : ∀ a b, r a b ↔ key a ≤ key b) : IsTrans α r :=
  ⟨fun a b c => by simpa only [hr] using le_trans⟩

lemma pairwise_key_insertionSort [DecidableRel r] (hr : ∀ a b, r a b ↔ key a ≤ key b) (xs : List α) :
    (xs.insertionSort r).Pairwise fun a b => key a ≤ key b := by
  have := total_of_key hr
  have := isTrans_of_key hr
  exact (List.pairwise_insertionSort r xs).imp fun h => (hr _ _).mp h

end Key

variable {α : Type} (r : α → α → Prop) [DecidableRel r]

lemma orderedInsert_append_of_rel {a : α} {ys : List α} (h : ∀ y ∈ ys, r a y) (xs : List α) :
    (xs ++ ys).orderedInsert r a = xs.orderedInsert r a ++ ys := by
  induction xs with
  | nil =>
    cases ys with
    | nil => rfl
    | cons y ys => rw [List.nil_append, List.orderedInsert_cons_of_le _ _ (h y List.mem_cons_self)]; rfl
  | cons x xs ih =>
    by_cases hx : r a x
    · rw [List.cons_append, List.orderedInsert_cons_of_le _ _ hx, List.orderedInsert_cons_of_le _ _ hx]
      rfl
    · rw [List.cons_append, List.orderedInsert_of_not_le _ _ hx, List.orderedInsert_of_not_le _ _ hx, ih]
      rfl

lemma orderedInsert_append_of_not {a : α} {xs : List α} (h : ∀ x ∈ xs, ¬ r a x) (ys : List α) :
    (xs ++ ys).orderedInsert r a = xs ++ ys.orderedInsert r a := by
  induction xs with
  | nil => rfl
  | cons x xs ih =>
    obtain ⟨hx, hxs⟩ := List.forall_mem_cons.mp h
    rw [List.cons_append, List.orderedInsert_of_not_le _ _ hx, ih hxs]
    rfl

variable [Std.Total r] [IsTrans α r]

lemma exists_split_concat (xs : List α) (b : α) :
    ∃ before after, xs.insertionSort r = before ++ after ∧
      (xs ++ [b]).insertionSort r = before ++ b :: after ∧
      (∀ x ∈ before, r x b) ∧ ∀ x ∈ after, ¬ r x b := by
  induction xs with
  | nil => exact ⟨[], [], rfl, rfl, by simp, by simp⟩
  | cons a xs ih =>
    obtain ⟨before, after, hsort, hconcat, hbefore, hafter⟩ := ih
    rw [List.cons_append, List.insertionSort_cons, List.insertionSort_cons, hsort, hconcat]
    by_cases hab : r a b
    · have habove : ∀ x ∈ after, r a x := fun x hx =>
        Trans.trans hab ((Std.Total.total b x).resolve_right (hafter x hx))
      refine ⟨before.orderedInsert r a, after, orderedInsert_append_of_rel r habove before,
        orderedInsert_append_of_rel r (List.forall_mem_cons.mpr ⟨hab, habove⟩) before, ?_, hafter⟩
      intro x hx
      rcases (List.mem_orderedInsert r).mp hx with rfl | hx
      · exact hab
      · exact hbefore x hx
    · have hbelow : ∀ x ∈ before, ¬ r a x := fun x hx h => hab (Trans.trans h (hbefore x hx))
      refine ⟨before, after.orderedInsert r a, orderedInsert_append_of_not r hbelow after, ?_, hbefore, ?_⟩
      · rw [orderedInsert_append_of_not r hbelow, List.orderedInsert_of_not_le _ _ hab]
      · intro x hx
        rcases (List.mem_orderedInsert r).mp hx with rfl | hx
        · exact hab
        · exact hafter x hx

section Latest

/-- The second of the two unless the first is greater: the later one of the sort. -/
def latest : Option α → Option α → Option α
  | some a, some b => if r a b then some b else some a
  | some a, none => some a
  | none, b => b

omit [Std.Total r] [IsTrans α r] in
lemma latest_none (a : Option α) : latest r a none = a := by cases a <;> rfl

lemma latest_assoc (a b : Option α) (c : α) :
    latest r (latest r a b) (some c) = latest r a (latest r b (some c)) := by
  cases a with
  | none => rfl
  | some a =>
    cases b with
    | none => rfl
    | some b =>
      by_cases hab : r a b <;> by_cases hbc : r b c <;> by_cases hac : r a c <;>
        simp only [latest, hab, hbc, hac, if_true, if_false]
      · exact absurd (Trans.trans hab hbc) hac
      · exact absurd (Trans.trans hac ((Std.Total.total b c).resolve_left hbc)) hab

lemma getLast?_insertionSort_concat (xs : List α) (b : α) :
    ((xs ++ [b]).insertionSort r).getLast? = latest r (xs.insertionSort r).getLast? (some b) := by
  obtain ⟨before, after, hsort, hconcat, hbefore, hafter⟩ := exists_split_concat r xs b
  rw [hsort, hconcat]
  rcases List.eq_nil_or_concat' after with rfl | ⟨init, last, rfl⟩
  · rw [List.getLast?_concat, List.append_nil]
    cases hlast : before.getLast? with
    | none => rfl
    | some a => exact (if_pos (hbefore a (List.mem_of_getLast? hlast))).symm
  · have hlast : ¬ r last b := hafter last (by simp)
    rw [← List.append_assoc, ← List.cons_append, ← List.append_assoc, List.getLast?_concat,
      List.getLast?_concat]
    exact (if_neg hlast).symm

theorem getLast?_insertionSort_append (xs ys : List α) :
    ((xs ++ ys).insertionSort r).getLast? =
      latest r (xs.insertionSort r).getLast? (ys.insertionSort r).getLast? := by
  induction ys using List.reverseRecOn with
  | nil => rw [List.append_nil, List.insertionSort_nil, List.getLast?_nil, latest_none]
  | append_singleton ys b ih =>
    rw [← List.append_assoc, getLast?_insertionSort_concat, getLast?_insertionSort_concat, ih, latest_assoc]

lemma mem_and_rel_of_getLast?_insertionSort {xs : List α} {a : α} (h : (xs.insertionSort r).getLast? = some a) :
    a ∈ xs ∧ ∀ x ∈ xs, r x a := by
  obtain ⟨init, hsort⟩ := List.getLast?_eq_some_iff.mp h
  have hpairwise := List.pairwise_insertionSort r xs
  rw [hsort, List.pairwise_append] at hpairwise
  have hmem : ∀ x, x ∈ xs ↔ x ∈ init ++ [a] := by
    intro x
    rw [← hsort, List.mem_insertionSort]
  refine ⟨(hmem a).mpr (by simp), fun x hx => ?_⟩
  rcases List.mem_append.mp ((hmem x).mp hx) with hx | hx
  · exact hpairwise.2.2 x hx a (List.mem_singleton_self a)
  · rw [List.mem_singleton.mp hx]
    exact (Std.Total.total a a).elim id id

omit [Std.Total r] in
lemma filter_orderedInsert (p : α → Bool) (a : α) {xs : List α} (hxs : xs.Pairwise r) :
    (xs.orderedInsert r a).filter p =
      if p a then (xs.filter p).orderedInsert r a else xs.filter p := by
  induction xs with
  | nil => cases hp : p a <;> simp [hp]
  | cons x xs ih =>
    obtain ⟨hx, hxs⟩ := List.pairwise_cons.mp hxs
    by_cases hax : r a x
    · rw [List.orderedInsert_cons_of_le _ _ hax, List.filter_cons]
      split_ifs with hp
      · have habove : ∀ y ∈ (x :: xs).filter p, r a y := by
          intro y hy
          rcases List.mem_cons.mp (List.mem_of_mem_filter hy) with rfl | hy
          · exact hax
          · exact Trans.trans hax (hx y hy)
        have hinsert := orderedInsert_append_of_rel r habove []
        rw [List.nil_append] at hinsert
        rw [hinsert]
        rfl
      · rfl
    · rw [List.orderedInsert_of_not_le _ _ hax, List.filter_cons, List.filter_cons, ih hxs]
      split_ifs with hpx hpa
      · rw [List.orderedInsert_of_not_le _ _ hax]
      · rfl
      · rfl
      · rfl

theorem filter_insertionSort (p : α → Bool) (xs : List α) :
    (xs.insertionSort r).filter p = (xs.filter p).insertionSort r := by
  induction xs with
  | nil => rfl
  | cons x xs ih =>
    rw [List.insertionSort_cons, filter_orderedInsert r p x (List.pairwise_insertionSort r xs), ih,
      List.filter_cons]
    split_ifs <;> rfl

end Latest

end StableSort
