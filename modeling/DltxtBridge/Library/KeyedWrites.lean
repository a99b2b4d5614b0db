import Mathlib.Data.List.Perm.Basic
import Mathlib.Logic.Function.Basic

structure KeyedWrite (κ ρ : Type) where
  key : κ
  change : ρ → ρ

namespace KeyedWrite

variable {κ ρ : Type} [DecidableEq κ]

def apply (store : κ → ρ) (w : KeyedWrite κ ρ) : κ → ρ :=
  Function.update store w.key (w.change (store w.key))

def applyAll (store : κ → ρ) (writes : List (KeyedWrite κ ρ)) : κ → ρ := writes.foldl apply store

lemma apply_of_key (store : κ → ρ) (w : KeyedWrite κ ρ) : w.apply store w.key = w.change (store w.key) :=
  Function.update_self _ _ _

lemma apply_of_ne (store : κ → ρ) {w : KeyedWrite κ ρ} {k : κ} (h : w.key ≠ k) :
    w.apply store k = store k :=
  Function.update_of_ne h.symm _ _

lemma applyAll_cons (store : κ → ρ) (w : KeyedWrite κ ρ) (writes : List (KeyedWrite κ ρ)) :
    applyAll store (w :: writes) = applyAll (w.apply store) writes := rfl

lemma applyAll_append (store : κ → ρ) (writes later : List (KeyedWrite κ ρ)) :
    applyAll store (writes ++ later) = applyAll (applyAll store writes) later :=
  List.foldl_append

lemma applyAll_apply (store : κ → ρ) (writes : List (KeyedWrite κ ρ)) (k : κ) :
    applyAll store writes k =
      (writes.filter fun w => w.key = k).foldl (fun r w => w.change r) (store k) := by
  induction writes generalizing store with
  | nil => rfl
  | cons w writes ih =>
    rw [applyAll_cons, ih]
    by_cases hkey : w.key = k
    · subst hkey
      rw [List.filter_cons_of_pos (by simp), List.foldl_cons, apply_of_key]
    · rw [List.filter_cons_of_neg (by simpa using hkey), apply_of_ne store hkey]

lemma applyAll_of_notMem (store : κ → ρ) {writes : List (KeyedWrite κ ρ)} {k : κ}
    (h : ∀ w ∈ writes, w.key ≠ k) : applyAll store writes k = store k := by
  rw [applyAll_apply, List.filter_eq_nil_iff.mpr]
  · rfl
  · intro w hw
    simpa using h w hw

lemma applyAll_invariant {I : κ → ρ → Prop} {store : κ → ρ} {writes : List (KeyedWrite κ ρ)}
    (hstore : ∀ k, I k (store k)) (hwrites : ∀ w ∈ writes, ∀ r, I w.key r → I w.key (w.change r)) :
    ∀ k, I k (applyAll store writes k) := by
  induction writes generalizing store with
  | nil => exact hstore
  | cons w writes ih =>
    obtain ⟨hw, hrest⟩ := List.forall_mem_cons.mp hwrites
    rw [applyAll_cons]
    refine ih (fun k => ?_) hrest
    by_cases hkey : w.key = k
    · rw [← hkey, apply_of_key]
      exact hw _ (hstore w.key)
    · rw [apply_of_ne store hkey]
      exact hstore k

theorem applyAll_congr {writes others : List (KeyedWrite κ ρ)}
    (h : ∀ k, (writes.filter fun w => w.key = k) = others.filter fun w => w.key = k)
    (store : κ → ρ) : applyAll store writes = applyAll store others := by
  funext k
  rw [applyAll_apply, applyAll_apply, h k]

end KeyedWrite
