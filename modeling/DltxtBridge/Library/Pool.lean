import Mathlib.Data.List.Basic

/-! A pool of suspended activities is a list in which the one at any position may go on. -/

namespace Pool

variable {α : Type}

lemma split {pool : List α} {index : ℕ} {x : α} (h : pool[index]? = some x) :
    ∃ earlier later, pool = earlier ++ x :: later ∧ pool.eraseIdx index = earlier ++ later ∧
      ∀ y, pool.set index y = earlier ++ y :: later := by
  obtain ⟨hindex, rfl⟩ := List.getElem?_eq_some_iff.mp h
  refine ⟨pool.take index, pool.drop (index + 1), ?_, ?_, ?_⟩
  · rw [List.getElem_cons_drop, List.take_append_drop]
  · exact List.eraseIdx_eq_take_drop_succ pool index
  · intro y
    rw [List.set_eq_take_append_cons_drop, if_pos hindex]

lemma mem_of_mem_set {pool : List α} {index : ℕ} {x y z : α} (h : pool[index]? = some x)
    (hz : z ∈ pool.set index y) : z = y ∨ z ∈ pool := by
  obtain ⟨earlier, later, hpool, -, hset⟩ := split h
  rw [hset, List.mem_append, List.mem_cons] at hz
  rw [hpool, List.mem_append, List.mem_cons]
  tauto

lemma perm_eraseIdx {pool : List α} {index : ℕ} {x : α} (h : pool[index]? = some x) :
    (x :: pool.eraseIdx index).Perm pool := by
  obtain ⟨earlier, later, hpool, herase, -⟩ := split h
  rw [herase, hpool]
  exact List.perm_middle.symm

end Pool
