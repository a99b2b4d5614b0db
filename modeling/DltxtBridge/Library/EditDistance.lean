import Mathlib.Data.List.Basic
import Mathlib.Order.Bounds.Basic
import Mathlib.Order.Lattice.Nat
import Mathlib.Tactic

namespace EditDistance

variable {α : Type}

inductive EditStep : List α → List α → Prop
  | insert (front back : List α) (x : α) : EditStep (front ++ back) (front ++ x :: back)
  | delete (front back : List α) (x : α) : EditStep (front ++ x :: back) (front ++ back)
  | substitute (front back : List α) (x y : α) : EditStep (front ++ x :: back) (front ++ y :: back)

inductive Edits : List α → List α → ℕ → Prop
  | refl (xs : List α) : Edits xs xs 0
  | tail {xs ys zs : List α} {n : ℕ} (h : Edits xs ys n) (hstep : EditStep ys zs) : Edits xs zs (n + 1)

noncomputable def levenshtein (xs ys : List α) : ℕ := sInf {n | Edits xs ys n}

/-- The two lists side by side, with the cost of the places where they differ. -/
inductive Aligned : List α → List α → ℕ → Prop
  | nil : Aligned [] [] 0
  | keep {xs ys : List α} {n : ℕ} (x : α) (h : Aligned xs ys n) : Aligned (x :: xs) (x :: ys) n
  | substitute {xs ys : List α} {n : ℕ} (x y : α) (h : Aligned xs ys n) : Aligned (x :: xs) (y :: ys) (n + 1)
  | delete {xs ys : List α} {n : ℕ} (x : α) (h : Aligned xs ys n) : Aligned (x :: xs) ys (n + 1)
  | insert {xs ys : List α} {n : ℕ} (y : α) (h : Aligned xs ys n) : Aligned xs (y :: ys) (n + 1)

namespace Edits

variable {xs ys : List α} {n : ℕ}

lemma cons (h : Edits xs ys n) (x : α) : Edits (x :: xs) (x :: ys) n := by
  induction h with
  | refl => exact .refl _
  | tail _ hstep ih =>
    refine ih.tail ?_
    cases hstep with
    | insert front back y => exact .insert (x :: front) back y
    | delete front back y => exact .delete (x :: front) back y
    | substitute front back y z => exact .substitute (x :: front) back y z

end Edits

namespace Aligned

variable {xs ys zs : List α} {m n : ℕ}

lemma edits (h : Aligned xs ys n) : Edits xs ys n := by
  induction h with
  | nil => exact .refl []
  | keep x _ ih => exact ih.cons x
  | @substitute xs ys n x y _ ih => exact (ih.cons x).tail (.substitute [] ys x y)
  | @delete xs ys n x _ ih => exact (ih.cons x).tail (.delete [] ys x)
  | @insert xs ys n y _ ih => exact ih.tail (.insert [] ys y)

lemma refl (xs : List α) : Aligned xs xs 0 := by
  induction xs with
  | nil => exact .nil
  | cons x xs ih => exact .keep x ih

lemma symm (h : Aligned xs ys n) : Aligned ys xs n := by
  induction h with
  | nil => exact .nil
  | keep x _ ih => exact .keep x ih
  | substitute x y _ ih => exact .substitute y x ih
  | delete x _ ih => exact .insert x ih
  | insert y _ ih => exact .delete y ih

lemma append {xs' ys' : List α} (h : Aligned xs ys m) (h' : Aligned xs' ys' n) :
    Aligned (xs ++ xs') (ys ++ ys') (m + n) := by
  induction h with
  | nil => simpa using h'
  | keep x _ ih => exact .keep x ih
  | substitute x y _ ih => exact Nat.add_right_comm _ 1 n ▸ .substitute x y ih
  | delete x _ ih => exact Nat.add_right_comm _ 1 n ▸ .delete x ih
  | insert y _ ih => exact Nat.add_right_comm _ 1 n ▸ .insert y ih

lemma inserted (ys : List α) : Aligned [] ys ys.length := by
  induction ys with
  | nil => exact .nil
  | cons y ys ih => exact .insert y ih

lemma between (xs ys : List α) : Aligned xs ys (xs.length + ys.length) := by
  simpa using (inserted xs).symm.append (inserted ys)

lemma reverse (h : Aligned xs ys n) : Aligned xs.reverse ys.reverse n := by
  induction h with
  | nil => exact .nil
  | keep x _ ih => simpa using ih.append (.keep x .nil)
  | substitute x y _ ih => simpa using ih.append (.substitute x y .nil)
  | delete x _ ih => simpa using ih.append (.delete x .nil)
  | insert y _ ih => simpa using ih.append (.insert y .nil)

lemma length_le (h : Aligned xs ys n) : xs.length ≤ ys.length + n ∧ ys.length ≤ xs.length + n := by
  induction h with
  | nil => exact ⟨le_rfl, le_rfl⟩
  | keep | substitute | delete | insert =>
    simp only [List.length_cons]
    omega

lemma uncons {y : α} (h : Aligned (y :: ys) zs n) :
    ∃ added rest k, zs = added ++ rest ∧
      (Aligned ys rest k ∧ n = added.length + (k + 1) ∨
        ∃ z tail, rest = z :: tail ∧ Aligned ys tail k ∧
          (z = y ∧ n = added.length + k ∨ n = added.length + (k + 1))) := by
  generalize hys : y :: ys = ws at h
  induction h with
  | nil => cases hys
  | @keep xs zs n x h _ =>
    cases hys
    exact ⟨[], _, n, rfl, .inr ⟨y, zs, rfl, h, .inl ⟨rfl, by simp⟩⟩⟩
  | @substitute xs zs n x z h _ =>
    cases hys
    exact ⟨[], _, n, rfl, .inr ⟨z, zs, rfl, h, .inr (by simp)⟩⟩
  | @delete xs zs n x h _ =>
    cases hys
    exact ⟨[], _, n, rfl, .inl ⟨h, by simp⟩⟩
  | insert z h ih =>
    obtain ⟨added, rest, k, rfl, hrest⟩ := ih hys
    refine ⟨z :: added, rest, k, rfl, ?_⟩
    simp only [List.length_cons]
    rcases hrest with ⟨hk, hn⟩ | ⟨w, tail, htail, hk, ⟨hw, hn⟩ | hn⟩
    · exact .inl ⟨hk, by omega⟩
    · exact .inr ⟨w, tail, htail, hk, .inl ⟨hw, by omega⟩⟩
    · exact .inr ⟨w, tail, htail, hk, .inr (by omega)⟩

lemma insertAll {rest : List α} (h : Aligned xs rest n) (added : List α) :
    Aligned xs (added ++ rest) (added.length + n) := by
  simpa using (inserted added).append h

lemma trans (h : Aligned xs ys m) (h' : Aligned ys zs n) : ∃ k ≤ m + n, Aligned xs zs k := by
  induction h generalizing zs n with
  | nil => exact ⟨n, by omega, h'⟩
  | delete x _ ih =>
    obtain ⟨k, hk, hxs⟩ := ih h'
    exact ⟨k + 1, by omega, .delete x hxs⟩
  | keep x _ ih =>
    obtain ⟨added, rest, l, rfl, ⟨hl, hn⟩ | ⟨z, tail, rfl, hl, hz⟩⟩ := h'.uncons
    · obtain ⟨k, hk, hxs⟩ := ih hl
      exact ⟨_, by omega, (hxs.delete x).insertAll added⟩
    · obtain ⟨k, hk, hxs⟩ := ih hl
      rcases hz with ⟨rfl, hn⟩ | hn
      · exact ⟨_, by omega, (hxs.keep z).insertAll added⟩
      · exact ⟨_, by omega, (hxs.substitute x z).insertAll added⟩
  | substitute x y _ ih =>
    obtain ⟨added, rest, l, rfl, ⟨hl, hn⟩ | ⟨z, tail, rfl, hl, hz⟩⟩ := h'.uncons
    · obtain ⟨k, hk, hxs⟩ := ih hl
      exact ⟨_, by omega, (hxs.delete x).insertAll added⟩
    · obtain ⟨k, hk, hxs⟩ := ih hl
      exact ⟨_, by omega, (hxs.substitute x z).insertAll added⟩
  | insert y _ ih =>
    obtain ⟨added, rest, l, rfl, ⟨hl, hn⟩ | ⟨z, tail, rfl, hl, hz⟩⟩ := h'.uncons
    · obtain ⟨k, hk, hxs⟩ := ih hl
      exact ⟨_, by omega, hxs.insertAll added⟩
    · obtain ⟨k, hk, hxs⟩ := ih hl
      exact ⟨_, by omega, (hxs.insert z).insertAll added⟩

lemma of_step (h : EditStep xs ys) : Aligned xs ys 1 := by
  cases h with
  | insert front back x => simpa using (refl front).append ((refl back).insert x)
  | delete front back x => simpa using (refl front).append ((refl back).delete x)
  | substitute front back x y => simpa using (refl front).append ((refl back).substitute x y)

end Aligned

lemma Edits.aligned {xs ys : List α} {n : ℕ} (h : Edits xs ys n) : ∃ k ≤ n, Aligned xs ys k := by
  induction h with
  | refl => exact ⟨0, le_rfl, .refl _⟩
  | tail _ hstep ih =>
    obtain ⟨k, hk, hxs⟩ := ih
    obtain ⟨l, hl, hzs⟩ := hxs.trans (.of_step hstep)
    exact ⟨l, by omega, hzs⟩

section Levenshtein

variable (xs ys : List α)

lemma isLeast_levenshtein : IsLeast {n | Edits xs ys n} (levenshtein xs ys) := by
  have hne : {n | Edits xs ys n}.Nonempty := ⟨_, (Aligned.between xs ys).edits⟩
  exact ⟨Nat.sInf_mem hne, fun n hn => Nat.sInf_le hn⟩

variable {xs ys}

lemma levenshtein_le {n : ℕ} (h : Aligned xs ys n) : levenshtein xs ys ≤ n :=
  (isLeast_levenshtein xs ys).2 h.edits

lemma aligned_levenshtein (xs ys : List α) : Aligned xs ys (levenshtein xs ys) := by
  obtain ⟨k, hk, haligned⟩ := (isLeast_levenshtein xs ys).1.aligned
  rwa [le_antisymm hk (levenshtein_le haligned)] at haligned

lemma levenshtein_comm (xs ys : List α) : levenshtein xs ys = levenshtein ys xs :=
  le_antisymm (levenshtein_le (aligned_levenshtein ys xs).symm)
    (levenshtein_le (aligned_levenshtein xs ys).symm)

lemma levenshtein_nil_left (ys : List α) : levenshtein [] ys = ys.length := by
  have hle := levenshtein_le (Aligned.inserted ys)
  have hge := (aligned_levenshtein [] ys).length_le.2
  simp only [List.length_nil] at hge
  omega

lemma levenshtein_nil_right (xs : List α) : levenshtein xs [] = xs.length := by
  rw [levenshtein_comm, levenshtein_nil_left]

lemma levenshtein_le_add (xs ys : List α) : levenshtein xs ys ≤ xs.length + ys.length :=
  levenshtein_le (.between xs ys)

lemma levenshtein_reverse (xs ys : List α) : levenshtein xs.reverse ys.reverse = levenshtein xs ys := by
  refine le_antisymm (levenshtein_le (aligned_levenshtein xs ys).reverse) (levenshtein_le ?_)
  simpa using (aligned_levenshtein xs.reverse ys.reverse).reverse

lemma levenshtein_cons_cons [DecidableEq α] (x y : α) (xs ys : List α) :
    levenshtein (x :: xs) (y :: ys) =
      min (min (levenshtein xs (y :: ys) + 1) (levenshtein (x :: xs) ys + 1))
        (levenshtein xs ys + if x = y then 0 else 1) := by
  have hdelete := levenshtein_le ((aligned_levenshtein xs (y :: ys)).delete x)
  have hinsert := levenshtein_le ((aligned_levenshtein (x :: xs) ys).insert y)
  have hdiagonal : levenshtein (x :: xs) (y :: ys) ≤ levenshtein xs ys + if x = y then 0 else 1 := by
    split_ifs with hxy
    · subst hxy
      exact levenshtein_le ((aligned_levenshtein xs ys).keep x)
    · exact levenshtein_le ((aligned_levenshtein xs ys).substitute x y)
  apply le_antisymm
  · exact le_min (le_min hdelete hinsert) hdiagonal
  · generalize hn : levenshtein (x :: xs) (y :: ys) = n
    have h := hn ▸ aligned_levenshtein (x :: xs) (y :: ys)
    cases h with
    | keep _ h =>
      rw [if_pos rfl]
      exact (min_le_right _ _).trans (levenshtein_le h)
    | substitute _ _ h =>
      refine (min_le_right _ _).trans ?_
      have := levenshtein_le h
      split_ifs <;> omega
    | delete _ h =>
      have := levenshtein_le h
      omega
    | insert _ h =>
      have := levenshtein_le h
      omega

lemma levenshtein_concat_concat [DecidableEq α] (xs ys : List α) (x y : α) :
    levenshtein (xs ++ [x]) (ys ++ [y]) =
      min (min (levenshtein xs (ys ++ [y]) + 1) (levenshtein (xs ++ [x]) ys + 1))
        (levenshtein xs ys + if x = y then 0 else 1) := by
  have h := levenshtein_cons_cons x y xs.reverse ys.reverse
  simpa only [← List.reverse_concat, List.concat_eq_append, levenshtein_reverse] using h

end Levenshtein

end EditDistance
