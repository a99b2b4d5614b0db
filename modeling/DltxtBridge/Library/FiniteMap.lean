import Mathlib.Data.Finmap

/-! Finite maps with a constant value type. `Finmap` supplies the operations and
extensionality; the lemmas here put lookups and sizes in rewriting form. -/

abbrev FiniteMap (K V : Type) := Finmap fun _ : K => V

namespace FiniteMap

variable {K V : Type} [DecidableEq K]

def size (m : FiniteMap K V) : ℕ := m.keys.card

def emplace (k : K) (v : V) (m : FiniteMap K V) : FiniteMap K V :=
  if k ∈ m then m else m.insert k v

lemma lookup_insert (m : FiniteMap K V) (k j : K) (v : V) :
    (m.insert k v).lookup j = if j = k then some v else m.lookup j := by
  split_ifs with h
  · subst h
    exact Finmap.lookup_insert m
  · exact Finmap.lookup_insert_of_ne m h

lemma lookup_erase (m : FiniteMap K V) (k j : K) :
    (m.erase k).lookup j = if j = k then none else m.lookup j := by
  split_ifs with h
  · subst h
    exact Finmap.lookup_erase j m
  · exact Finmap.lookup_erase_ne h

lemma lookup_erase_or_insert (m : FiniteMap K V) (P : Prop) [Decidable P] (k j : K) (v : V) :
    (if P then m.erase k else m.insert k v).lookup j =
      if j = k then (if P then none else some v) else m.lookup j := by
  by_cases h : P
  · rw [if_pos h, if_pos h, lookup_erase]
  · rw [if_neg h, if_neg h, lookup_insert]

lemma lookup_emplace (m : FiniteMap K V) (k j : K) (v : V) (h : m.lookup k = none) :
    (emplace k v m).lookup j = if j = k then some v else m.lookup j := by
  rw [emplace, if_neg (Finmap.lookup_eq_none.mp h), lookup_insert]

lemma lookup_emplace_eq_or (m : FiniteMap K V) (k j : K) (v : V) :
    (emplace k v m).lookup j = (m.lookup j).or (if j = k then some v else none) := by
  rw [emplace]
  split_ifs with hmem hj hj
  · obtain ⟨w, hw⟩ := Finmap.mem_iff.mp hmem
    rw [hj, hw, Option.some_or]
  · rw [Option.or_none]
  · rw [lookup_insert, if_pos hj, hj, Finmap.lookup_eq_none.mpr hmem, Option.none_or]
  · rw [lookup_insert, if_neg hj, Option.or_none]

lemma mem_iff_lookup (m : FiniteMap K V) (k : K) : k ∈ m ↔ m.lookup k ≠ none := by
  rw [ne_eq, Finmap.lookup_eq_none, not_not]

lemma mem_keys_iff (m : FiniteMap K V) (k : K) : k ∈ m.keys ↔ ∃ v, m.lookup k = some v := by
  rw [Finmap.mem_keys, Finmap.mem_iff]

lemma keys_insert (m : FiniteMap K V) (k : K) (v : V) : (m.insert k v).keys = insert k m.keys := by
  ext j
  simp [Finmap.mem_keys, Finmap.mem_insert]

lemma size_eq_zero (m : FiniteMap K V) : size m = 0 ↔ m = ∅ := by
  constructor
  · intro h
    apply Finmap.ext_lookup
    intro k
    rw [Finmap.lookup_empty, Finmap.lookup_eq_none, ← Finmap.mem_keys, Finset.card_eq_zero.mp h]
    exact Finset.notMem_empty k
  · rintro rfl
    simp [size]

lemma erase_insert (m : FiniteMap K V) (k : K) (v : V) (h : m.lookup k = none) :
    (m.insert k v).erase k = m := by
  apply Finmap.ext_lookup
  intro j
  rw [lookup_erase, lookup_insert]
  split_ifs with hj
  · rw [hj, h]
  · rfl

lemma erase_of_lookup_none (m : FiniteMap K V) {k : K} (h : m.lookup k = none) : m.erase k = m := by
  apply Finmap.ext_lookup
  intro j
  rw [lookup_erase]
  split_ifs with hj
  · rw [hj, h]
  · rfl

lemma lookup_foldl_erase (ks : List K) (m : FiniteMap K V) (j : K) :
    (ks.foldl (fun m k => m.erase k) m).lookup j = if j ∈ ks then none else m.lookup j := by
  induction ks generalizing m with
  | nil => rw [List.foldl_nil, if_neg List.not_mem_nil]
  | cons k ks ih =>
    rw [List.foldl_cons, ih, lookup_erase]
    by_cases hk : j = k <;> by_cases hks : j ∈ ks <;> simp [hk, hks]

end FiniteMap
