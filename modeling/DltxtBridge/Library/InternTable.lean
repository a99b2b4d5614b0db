import DltxtBridge.Library.FiniteMap
import Mathlib.Tactic

structure InternTable (V : Type) where
  idsByValue : FiniteMap V ℕ := ∅
  valuesById : List V := []
  refCounts : List ℕ := []

namespace InternTable

variable {V : Type} [DecidableEq V]

def slots (T : InternTable V) : ℕ := T.valuesById.length

def refCount (T : InternTable V) (i : ℕ) : ℕ := T.refCounts.getD i 0

def references (T : InternTable V) (v : V) : ℕ :=
  match T.idsByValue.lookup v with
  | some i => T.refCount i
  | none => 0

def retain (width : ℕ → ℕ) (v : V) (T : InternTable V) : ℕ × InternTable V :=
  match T.idsByValue.lookup v with
  | some i => (i, { T with refCounts := T.refCounts.set i (T.refCount i + 1) })
  | none =>
    (width T.slots,
      { idsByValue := FiniteMap.emplace v (width T.slots) T.idsByValue
        valuesById := T.valuesById ++ [v]
        refCounts := T.refCounts ++ [1] })

def release (i : ℕ) (T : InternTable V) : InternTable V :=
  match T.refCount i with
  | 0 => T
  | n + 1 => { T with refCounts := T.refCounts.set i n }

def reclaim (blank : V) (i : ℕ) (T : InternTable V) : InternTable V :=
  match T.refCount i with
  | 0 => T
  | 1 =>
    { idsByValue := T.idsByValue.erase (T.valuesById.getD i blank)
      valuesById := T.valuesById.set i blank
      refCounts := T.refCounts.set i 0 }
  | n + 2 => { T with refCounts := T.refCounts.set i (n + 1) }

lemma reclaim_retain {T : InternTable V} {width : ℕ → ℕ} {v : V} (blank : V)
    (hlen : T.refCounts.length = T.slots) (hw : width T.slots = T.slots)
    (hv : T.idsByValue.lookup v = none) :
    (T.retain width v).2.reclaim blank T.slots =
      { idsByValue := T.idsByValue
        valuesById := T.valuesById ++ [blank]
        refCounts := T.refCounts ++ [0] } := by
  have hmem : v ∉ T.idsByValue := Finmap.lookup_eq_none.mp hv
  have hone : (T.refCounts ++ [1]).getD T.slots 0 = 1 := by
    simp [List.getD_eq_getElem?_getD, ← hlen]
  have hget : (T.valuesById ++ [v]).getD T.slots blank = v := by
    simp [List.getD_eq_getElem?_getD, slots]
  have hset : (T.valuesById ++ [v]).set T.slots blank = T.valuesById ++ [blank] := by
    rw [slots, List.set_append_right _ _ le_rfl]
    simp
  have hset' : (T.refCounts ++ [1]).set T.slots 0 = T.refCounts ++ [0] := by
    rw [← hlen, List.set_append_right _ _ le_rfl]
    simp
  simp only [retain, hv, reclaim, refCount, hone, hw, hget, hset, hset', FiniteMap.emplace,
    if_neg hmem, FiniteMap.erase_insert _ _ _ hv]

lemma release_retain {T : InternTable V} {width : ℕ → ℕ} {v : V} {i : ℕ}
    (hv : T.idsByValue.lookup v = some i) (hi : i < T.refCounts.length) :
    (T.retain width v).2.release i = T := by
  have hset : (T.refCounts.set i (T.refCount i + 1)).getD i 0 = T.refCount i + 1 := by
    simp [List.getD_eq_getElem?_getD, hi]
  have hsame : T.refCounts.set i (T.refCount i) = T.refCounts := by
    simp [refCount, List.getD_eq_getElem?_getD, hi]
  simp only [retain, hv, release, refCount] at hset ⊢
  rw [hset]
  simp only [List.set_set]
  change { T with refCounts := T.refCounts.set i (T.refCount i) } = T
  rw [hsame]

/-- Values and ids invert each other; when ids are given back, only counted ones are
mapped. -/
structure WellFormed (reclaimed : Prop) (T : InternTable V) : Prop where
  length_eq : T.refCounts.length = T.slots
  mapped_iff : ∀ v i, T.idsByValue.lookup v = some i ↔
    T.valuesById[i]? = some v ∧ (reclaimed → 0 < T.refCount i)

structure Retained (reclaimed : Prop) (T : InternTable V) (v : V) (i : ℕ) (T' : InternTable V) :
    Prop where
  wellFormed : WellFormed reclaimed T'
  mapped : T'.idsByValue.lookup v = some i
  lookup_of_ne : ∀ u, u ≠ v → T'.idsByValue.lookup u = T.idsByValue.lookup u
  lookup_of_mapped : ∀ u j, T.idsByValue.lookup u = some j → T'.idsByValue.lookup u = some j
  refCount_eq : ∀ j, T'.refCount j = T.refCount j + if j = i then 1 else 0

variable {reclaimed : Prop} {T : InternTable V}

omit [DecidableEq V] in
lemma lt_length (T : InternTable V) {i : ℕ} (hi : 0 < T.refCount i) : i < T.refCounts.length := by
  by_contra hge
  rw [refCount, List.getD_eq_getElem?_getD, List.getElem?_eq_none_iff.mpr (not_lt.mp hge)] at hi
  exact lt_irrefl 0 hi

omit [DecidableEq V] in
lemma refCount_set (T : InternTable V) {i : ℕ} (hi : i < T.refCounts.length) (n j : ℕ) :
    (T.refCounts.set i n).getD j 0 = if j = i then n else T.refCount j := by
  rw [List.getD_eq_getElem?_getD, refCount, List.getD_eq_getElem?_getD]
  split_ifs with hj
  · rw [hj, List.getElem?_set_self hi]
    rfl
  · rw [List.getElem?_set_ne (Ne.symm hj)]

omit [DecidableEq V] in
lemma refCount_append (T : InternTable V) (j : ℕ) :
    (T.refCounts ++ [1]).getD j 0 = T.refCount j + if j = T.refCounts.length then 1 else 0 := by
  rw [refCount, List.getD_eq_getElem?_getD, List.getD_eq_getElem?_getD, List.getElem?_append]
  rcases lt_trichotomy j T.refCounts.length with hj | hj | hj
  · simp [hj, hj.ne]
  · subst hj
    simp
  · have hge : [1].length ≤ j - T.refCounts.length := by simp only [List.length_singleton]; omega
    rw [if_neg (not_lt.mpr hj.le), if_neg hj.ne', List.getElem?_eq_none_iff.mpr hj.le,
      List.getElem?_eq_none_iff.mpr hge]
    rfl

lemma slots_le_retain (T : InternTable V) (width : ℕ → ℕ) (v : V) :
    T.slots ≤ (T.retain width v).2.slots := by
  rw [retain]
  split <;> simp [slots]

lemma slots_retain_le (T : InternTable V) (width : ℕ → ℕ) (v : V) :
    (T.retain width v).2.slots ≤ T.slots + 1 := by
  rw [retain]
  split <;> simp [slots]

omit [DecidableEq V] in
lemma slots_release (T : InternTable V) (i : ℕ) : (T.release i).slots = T.slots := by
  rw [release]
  split <;> rfl

omit [DecidableEq V] in
lemma valuesById_release (T : InternTable V) (i : ℕ) :
    (T.release i).valuesById = T.valuesById := by
  rw [release]
  split <;> rfl

lemma slots_reclaim (T : InternTable V) (blank : V) (i : ℕ) : (T.reclaim blank i).slots = T.slots := by
  rw [reclaim]
  split <;> simp [slots]

omit [DecidableEq V] in
lemma release_refCount (T : InternTable V) (i j : ℕ) :
    (T.release i).refCount j = if j = i then T.refCount i - 1 else T.refCount j := by
  cases hc : T.refCount i with
  | zero =>
    simp only [release, hc]
    split_ifs with hj
    · rw [hj, hc]
    · rfl
  | succ n =>
    simp only [release, hc]
    exact refCount_set T (T.lt_length (by omega)) n j

lemma reclaim_refCount (T : InternTable V) (blank : V) (i j : ℕ) :
    (T.reclaim blank i).refCount j = if j = i then T.refCount i - 1 else T.refCount j := by
  rcases hc : T.refCount i with _ | _ | n
  · simp only [reclaim, hc]
    split_ifs with hj
    · rw [hj, hc]
    · rfl
  · simp only [reclaim, hc]
    exact refCount_set T (T.lt_length (by omega)) 0 j
  · simp only [reclaim, hc]
    exact refCount_set T (T.lt_length (by omega)) (n + 1) j

namespace WellFormed

lemma empty : WellFormed reclaimed ({} : InternTable V) where
  length_eq := rfl
  mapped_iff v i := by simp [Finmap.lookup_empty]

lemma lt_slots (h : WellFormed reclaimed T) {i : ℕ} (hi : 0 < T.refCount i) : i < T.slots :=
  h.length_eq ▸ T.lt_length hi

lemma injective (h : WellFormed reclaimed T) {u v : V} {i : ℕ}
    (hu : T.idsByValue.lookup u = some i) (hv : T.idsByValue.lookup v = some i) : u = v := by
  have hu' := ((h.mapped_iff u i).mp hu).1
  have hv' := ((h.mapped_iff v i).mp hv).1
  rw [hu', Option.some.injEq] at hv'
  exact hv'

lemma mapped_lt (h : WellFormed reclaimed T) {v : V} {i : ℕ}
    (hv : T.idsByValue.lookup v = some i) : i < T.slots :=
  (List.getElem?_eq_some_iff.mp ((h.mapped_iff v i).mp hv).1).1

lemma value_of_refCount (h : WellFormed reclaimed T) {i : ℕ} (hi : 0 < T.refCount i) :
    ∃ v, T.valuesById[i]? = some v ∧ T.idsByValue.lookup v = some i := by
  obtain ⟨v, hv⟩ : ∃ v, T.valuesById[i]? = some v :=
    ⟨_, List.getElem?_eq_getElem (h.lt_slots hi)⟩
  exact ⟨v, hv, (h.mapped_iff v i).mpr ⟨hv, fun _ => hi⟩⟩

lemma getD_of_mapped (h : WellFormed reclaimed T) (blank : V) {v : V} {i : ℕ}
    (hv : T.idsByValue.lookup v = some i) : T.valuesById.getD i blank = v := by
  rw [List.getD_eq_getElem?_getD, ((h.mapped_iff v i).mp hv).1, Option.getD_some]

lemma lookup_getD (h : WellFormed reclaimed T) (blank : V) {i : ℕ} (hi : 0 < T.refCount i) :
    T.idsByValue.lookup (T.valuesById.getD i blank) = some i := by
  obtain ⟨v, -, hv⟩ := h.value_of_refCount hi
  rw [h.getD_of_mapped blank hv, hv]

lemma countP_refCounts (h : WellFormed reclaimed T) :
    T.refCounts.countP (0 < ·) = ((Finset.range T.slots).filter fun i => 0 < T.refCount i).card := by
  have hlist : T.refCounts = (List.range T.slots).map T.refCount := by
    apply List.ext_getElem
    · simp [h.length_eq]
    · intro i hi _
      simp [refCount, List.getD_eq_getElem?_getD, hi]
  rw [hlist, List.countP_map, List.countP_eq_length_filter]
  rfl

lemma retain_of_mapped (h : WellFormed reclaimed T) (width : ℕ → ℕ) {v : V} {i : ℕ}
    (hv : T.idsByValue.lookup v = some i) :
    Retained reclaimed T v (T.retain width v).1 (T.retain width v).2 := by
  have hi : i < T.refCounts.length := h.length_eq ▸ h.mapped_lt hv
  have hr : T.retain width v = (i, { T with refCounts := T.refCounts.set i (T.refCount i + 1) }) := by
    simp only [InternTable.retain, hv]
  have hcount : ∀ j, (T.retain width v).2.refCount j = T.refCount j + if j = i then 1 else 0 := by
    intro j
    rw [hr, refCount, refCount_set T hi]
    split_ifs with hj
    · rw [hj]
    · rfl
  rw [hr] at hcount ⊢
  refine ⟨⟨?_, ?_⟩, hv, fun _ _ => rfl, fun _ _ hu => hu, hcount⟩
  · simpa [slots] using h.length_eq
  · intro u j
    rw [h.mapped_iff u j, hcount j]
    apply and_congr_right
    intro huj
    apply forall_congr'
    intro hrec
    split_ifs with hj
    · subst hj
      have := ((h.mapped_iff v j).mp hv).2 hrec
      omega
    · rfl

lemma mapped_iff_append (h : WellFormed reclaimed T) {v : V} (hv : T.idsByValue.lookup v = none)
    (u : V) (j : ℕ) :
    (if u = v then some T.slots else T.idsByValue.lookup u) = some j ↔
      (T.valuesById ++ [v])[j]? = some u ∧
        (reclaimed → 0 < T.refCount j + if j = T.slots then 1 else 0) := by
  have hfresh : ∀ j, T.valuesById[j]? = some v → ¬ (reclaimed → 0 < T.refCount j) := by
    intro j hj hrec
    rw [(h.mapped_iff v j).mpr ⟨hj, hrec⟩] at hv
    cases hv
  rw [List.getElem?_append]
  by_cases hj : j < T.valuesById.length
  · have hne : ¬ j = T.slots := hj.ne
    rw [if_pos hj, if_neg hne, Nat.add_zero]
    split_ifs with hu
    · subst hu
      constructor
      · rintro he
        exact absurd (Option.some.inj he).symm hne
      · rintro ⟨hju, hrec⟩
        exact absurd hrec (hfresh j hju)
    · exact h.mapped_iff u j
  rw [if_neg hj]
  have hold : T.idsByValue.lookup u ≠ some j := fun hu => hj (h.mapped_lt hu)
  by_cases hjs : j = T.slots
  · subst hjs
    simp only [slots, Nat.sub_self, List.getElem?_cons_zero, Option.some.injEq, if_true]
    split_ifs with hu
    · simp [hu]
    · simp only [slots] at hold
      simp [hold, Ne.symm hu]
  · have hlt : T.valuesById.length < j := lt_of_le_of_ne (not_lt.mp hj) (Ne.symm hjs)
    have hge : [v].length ≤ j - T.valuesById.length := by simp only [List.length_singleton]; omega
    rw [List.getElem?_eq_none_iff.mpr hge]
    split_ifs with hu
    · simp [Ne.symm hjs]
    · simp [hold]

lemma retain_of_fresh (h : WellFormed reclaimed T) (width : ℕ → ℕ) {v : V}
    (hv : T.idsByValue.lookup v = none) (hw : width T.slots = T.slots) :
    Retained reclaimed T v (T.retain width v).1 (T.retain width v).2 := by
  have hr : T.retain width v = (T.slots,
      { idsByValue := FiniteMap.emplace v T.slots T.idsByValue
        valuesById := T.valuesById ++ [v]
        refCounts := T.refCounts ++ [1] }) := by
    simp only [InternTable.retain, hv, hw]
  have hlookup : ∀ u, (T.retain width v).2.idsByValue.lookup u =
      if u = v then some T.slots else T.idsByValue.lookup u := by
    intro u
    rw [hr]
    exact FiniteMap.lookup_emplace _ _ _ _ hv
  have hcount : ∀ j, (T.retain width v).2.refCount j =
      T.refCount j + if j = T.slots then 1 else 0 := by
    intro j
    rw [hr, ← h.length_eq]
    exact refCount_append T j
  rw [hr] at hlookup hcount ⊢
  refine ⟨⟨?_, ?_⟩, ?_, ?_, ?_, hcount⟩
  · have := h.length_eq
    simp [slots] at this ⊢
    omega
  · intro u j
    rw [hlookup u, hcount j]
    exact h.mapped_iff_append hv u j
  · rw [hlookup, if_pos rfl]
  · intro u hu
    rw [hlookup, if_neg hu]
  · intro u j hu
    rw [hlookup, if_neg ?_, hu]
    rintro rfl
    rw [hv] at hu
    cases hu

lemma retain (h : WellFormed reclaimed T) (width : ℕ → ℕ) (v : V)
    (hw : T.idsByValue.lookup v = none → width T.slots = T.slots) :
    Retained reclaimed T v (T.retain width v).1 (T.retain width v).2 := by
  cases hv : T.idsByValue.lookup v with
  | some i => exact h.retain_of_mapped width hv
  | none => exact h.retain_of_fresh width hv (hw hv)

lemma release (h : WellFormed False T) (i : ℕ) : WellFormed False (T.release i) := by
  have hkeep : ∀ v j, T.idsByValue.lookup v = some j ↔
      T.valuesById[j]? = some v ∧ (False → 0 < (T.release i).refCount j) := by
    intro v j
    rw [h.mapped_iff v j]
    exact and_congr_right fun _ => ⟨fun _ hf => hf.elim, fun _ hf => hf.elim⟩
  have hlen := h.length_eq
  cases hc : T.refCount i with
  | zero =>
    simp only [InternTable.release, hc]
    exact h
  | succ n =>
    simp only [InternTable.release, hc] at hkeep ⊢
    exact ⟨by simpa [slots] using hlen, hkeep⟩

lemma reclaim_lookup (h : WellFormed True T) (blank : V) (i : ℕ) (v : V) :
    (T.reclaim blank i).idsByValue.lookup v =
      if T.idsByValue.lookup v = some i ∧ T.refCount i = 1 then none
      else T.idsByValue.lookup v := by
  rcases hc : T.refCount i with _ | _ | n
  · simp [InternTable.reclaim, hc]
  · obtain ⟨w, hw, hmap⟩ := h.value_of_refCount (i := i) (by omega)
    have hget := h.getD_of_mapped blank hmap
    simp only [InternTable.reclaim, hc, zero_add, and_true, FiniteMap.lookup_erase, hget]
    by_cases hv : v = w
    · rw [if_pos hv, if_pos (hv ▸ hmap)]
    · rw [if_neg hv, if_neg fun hlook => hv (h.injective hlook hmap)]
  · simp [InternTable.reclaim, hc]

lemma reclaim (h : WellFormed True T) (blank : V) (i : ℕ) : WellFormed True (T.reclaim blank i) := by
  have hlen := h.length_eq
  rcases hc : T.refCount i with _ | _ | n
  · simp only [InternTable.reclaim, hc]
    exact h
  · have hi : i < T.refCounts.length := T.lt_length (by omega)
    have hlook := h.reclaim_lookup blank i
    constructor
    · simpa [InternTable.reclaim, hc, slots] using hlen
    · intro v j
      rw [hlook v, reclaim_refCount, hc]
      simp only [InternTable.reclaim, hc, zero_add, and_true, forall_true_left]
      have hmap := h.mapped_iff v j
      by_cases hj : j = i
      · subst hj
        simp only [if_true]
        constructor
        · intro hv
          split_ifs at hv with hgone
          exact absurd hv hgone
        · rintro ⟨-, hpos⟩
          omega
      · rw [if_neg hj, List.getElem?_set_ne (Ne.symm hj)]
        constructor
        · intro hv
          split_ifs at hv with hgone
          exact ⟨(hmap.mp hv).1, (hmap.mp hv).2 trivial⟩
        · rintro ⟨hv, hpos⟩
          have hlookup := hmap.mpr ⟨hv, fun _ => hpos⟩
          rw [if_neg, hlookup]
          rw [hlookup, Option.some.injEq]
          exact hj
  · have hi : i < T.refCounts.length := T.lt_length (by omega)
    have hlook := h.reclaim_lookup blank i
    constructor
    · simpa [InternTable.reclaim, hc, slots] using hlen
    · intro v j
      rw [hlook v, reclaim_refCount, hc, if_neg (by omega)]
      simp only [InternTable.reclaim, hc]
      rw [h.mapped_iff v j]
      refine and_congr_right fun _ => forall_congr' fun _ => ?_
      split_ifs with hj
      · subst hj
        omega
      · rfl

lemma foldl_reclaim (h : WellFormed True T) (blank : V) (is : List ℕ) (hn : is.Nodup) :
    WellFormed True (is.foldl (fun T i => T.reclaim blank i) T) ∧
      (∀ j, (is.foldl (fun T i => T.reclaim blank i) T).refCount j =
        if j ∈ is then T.refCount j - 1 else T.refCount j) ∧
      ∀ v j, (is.foldl (fun T i => T.reclaim blank i) T).idsByValue.lookup v = some j ↔
        T.idsByValue.lookup v = some j ∧
          0 < (is.foldl (fun T i => T.reclaim blank i) T).refCount j := by
  induction is generalizing T with
  | nil =>
    refine ⟨h, by simp, fun v j => ⟨fun hv => ⟨hv, ((h.mapped_iff v j).mp hv).2 trivial⟩, ?_⟩⟩
    exact fun hv => hv.1
  | cons i is ih =>
    rw [List.nodup_cons] at hn
    obtain ⟨hw, hc, hl⟩ := ih (h.reclaim blank i) hn.2
    rw [List.foldl_cons]
    refine ⟨hw, ?_, ?_⟩
    · intro j
      rw [hc, T.reclaim_refCount]
      by_cases hj : j = i
      · subst hj
        simp [hn.1]
      · simp [hj]
    · intro v j
      rw [hl, h.reclaim_lookup]
      constructor
      · rintro ⟨hv, hpos⟩
        split_ifs at hv
        exact ⟨hv, hpos⟩
      · rintro ⟨hv, hpos⟩
        refine ⟨?_, hpos⟩
        rw [if_neg, hv]
        rintro ⟨hi, hone⟩
        rw [hv, Option.some.injEq] at hi
        subst hi
        rw [hc, T.reclaim_refCount, if_neg hn.1, if_pos rfl] at hpos
        omega

lemma references_pos_iff (h : WellFormed True T) (v : V) :
    0 < T.references v ↔ T.idsByValue.lookup v ≠ none := by
  rw [references]
  cases hv : T.idsByValue.lookup v with
  | none => simp
  | some i => simpa using ((h.mapped_iff v i).mp hv).2 trivial

lemma references_foldl_reclaim (h : WellFormed True T) (blank : V) (is : List ℕ) (hn : is.Nodup)
    (v : V) :
    (is.foldl (fun T i => T.reclaim blank i) T).references v =
      T.references v - if ∃ i ∈ is, T.idsByValue.lookup v = some i then 1 else 0 := by
  obtain ⟨-, hcount, hlook⟩ := h.foldl_reclaim blank is hn
  generalize is.foldl (fun T i => T.reclaim blank i) T = T' at hcount hlook
  cases hv : T.idsByValue.lookup v with
  | none =>
    have hnone : T'.idsByValue.lookup v = none := by
      rw [Option.eq_none_iff_forall_ne_some]
      intro j hj
      have := ((hlook v j).mp hj).1
      simp [hv] at this
    simp [references, hv, hnone]
  | some j =>
    have hmapped := hlook v j
    have href : T'.references v = T'.refCount j := by
      rw [references]
      cases hv' : T'.idsByValue.lookup v with
      | none =>
        rw [hv', hv] at hmapped
        simpa [eq_comm] using hmapped
      | some k =>
        have hk := ((hlook v k).mp hv').1
        rw [hv, Option.some.injEq] at hk
        rw [hk]
    have hcond : (∃ i ∈ is, some j = some i) ↔ j ∈ is := by simp
    rw [href, hcount, references, hv]
    simp only [hcond]
    split_ifs <;> rfl

end WellFormed

end InternTable
