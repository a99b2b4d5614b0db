import Mathlib.Data.List.Basic
import Mathlib.Tactic

namespace MemoTable

variable {β γ : Type}

abbrev Table (β : Type) := List (List (Option β))

def blank (rows columns : ℕ) : Table β := List.replicate rows (List.replicate columns none)

def read (table : Table β) (i j : ℕ) : Option (Option β) := table[i]?.bind fun row => row[j]?

def write (table : Table β) (i j : ℕ) (value : β) : Table β := table.modify i fun row => row.set j (some value)

abbrev MemoAction (β γ : Type) := Table β → Option (γ × Table β)

def memoize (i j : ℕ) (compute : MemoAction β β) : MemoAction β β := fun table =>
  match read table i j with
  | none => none
  | some (some cached) => some (cached, table)
  | some none => (compute table).map fun result => (result.1, write result.2 i j result.1)

structure Sound (f : ℕ → ℕ → β) (rows columns : ℕ) (table : Table β) : Prop where
  length_eq : table.length = rows
  length_row : ∀ row ∈ table, row.length = columns
  value_eq : ∀ i j value, read table i j = some (some value) → value = f i j

/-- From a sound table the action stays inside the table, gives the value and leaves the
table sound. -/
def Computes (f : ℕ → ℕ → β) (rows columns : ℕ) (action : MemoAction β γ) (value : γ) : Prop :=
  ∀ table, Sound f rows columns table →
    ∃ later, action table = some (value, later) ∧ Sound f rows columns later

variable {f : ℕ → ℕ → β} {rows columns i j : ℕ} {table : Table β}

lemma sound_blank : Sound f rows columns (blank rows columns) := by
  refine ⟨List.length_replicate, ?_, ?_⟩
  · intro row hrow
    rw [List.eq_of_mem_replicate hrow, List.length_replicate]
  · intro i j value hread
    obtain ⟨row, hrow, hvalue⟩ := Option.bind_eq_some_iff.mp hread
    rw [List.eq_of_mem_replicate (List.mem_of_getElem? hrow)] at hvalue
    exact absurd (List.eq_of_mem_replicate (List.mem_of_getElem? hvalue)) (Option.some_ne_none value)

lemma Sound.exists_read (h : Sound f rows columns table) (hi : i < rows) (hj : j < columns) :
    ∃ cell, read table i j = some cell := by
  have hrow : i < table.length := h.length_eq ▸ hi
  have hcell : j < table[i].length := h.length_row _ (List.getElem_mem hrow) ▸ hj
  exact ⟨table[i][j], by rw [read, List.getElem?_eq_getElem hrow, Option.bind_some,
    List.getElem?_eq_getElem hcell]⟩

lemma read_write (value : β) (k l : ℕ) :
    read (write table i j value) k l =
      if i = k ∧ j = l then (read table k l).map fun _ => some value else read table k l := by
  rw [read, read, write, List.getElem?_modify]
  cases table[k]? with
  | none => simp
  | some row =>
    by_cases hi : i = k
    · by_cases hj : j = l
      · subst hj
        cases hcell : row[j]? <;> simp [hi, List.getElem?_set, hcell]
        · exact List.getElem?_eq_none_iff.mp hcell
        · exact (List.getElem?_eq_some_iff.mp hcell).1
      · simp [hi, hj]
    · simp [hi]

lemma Sound.write (h : Sound f rows columns table) (i j : ℕ) :
    Sound f rows columns (write table i j (f i j)) := by
  refine ⟨by rw [MemoTable.write, List.length_modify, h.length_eq], ?_, ?_⟩
  · intro row hrow
    obtain ⟨k, hk⟩ := List.mem_iff_getElem?.mp hrow
    rw [MemoTable.write, List.getElem?_modify] at hk
    obtain ⟨earlier, hearlier, rfl⟩ := Option.map_eq_some_iff.mp hk
    have hlength := h.length_row earlier (List.mem_of_getElem? hearlier)
    split_ifs
    · rw [List.length_set, hlength]
    · exact hlength
  · intro k l value hread
    rw [read_write] at hread
    split_ifs at hread with hcell
    · obtain ⟨rfl, rfl⟩ := hcell
      obtain ⟨-, -, hvalue⟩ := Option.map_eq_some_iff.mp hread
      exact (Option.some.inj hvalue).symm
    · exact h.value_eq k l value hread

lemma computes_pure (value : γ) : Computes f rows columns (fun table => some (value, table)) value :=
  fun table htable => ⟨table, rfl, htable⟩

lemma Computes.memoize {compute : MemoAction β β} (h : Computes f rows columns compute (f i j)) (hi : i < rows)
    (hj : j < columns) : Computes f rows columns (memoize i j compute) (f i j) := by
  intro table htable
  obtain ⟨cell, hcell⟩ := htable.exists_read hi hj
  cases cell with
  | some cached =>
    refine ⟨table, ?_, htable⟩
    rw [MemoTable.memoize, hcell]
    exact congrArg some (congrArg (·, table) (htable.value_eq i j cached hcell))
  | none =>
    obtain ⟨later, hcompute, hlater⟩ := h table htable
    refine ⟨MemoTable.write later i j (f i j), ?_, hlater.write i j⟩
    rw [MemoTable.memoize, hcell, hcompute]
    rfl

end MemoTable
