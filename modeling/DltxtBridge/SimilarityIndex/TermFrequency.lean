import DltxtBridge.SimilarityIndex.Basic

namespace DltxtBridge

lemma grams_cons_cons (a b : UInt16) (rest : Text) :
    grams (a :: b :: rest) = [a, b] :: grams (b :: rest) := by
  have hlong : ¬ (a :: b :: rest).length < 2 := by simp
  rw [grams, if_neg hlong]
  simp only [List.length_cons, Nat.add_sub_cancel, List.range_succ_eq_map, List.map_cons,
    List.drop_zero, List.take_succ_cons, List.take_zero, List.map_map]
  congr 1
  cases rest with
  | nil => rfl
  | cons c rest => simp [grams, Function.comp_def]

lemma grams_replicate_snoc (a b : UInt16) (n : ℕ) :
    grams (List.replicate (n + 1) a ++ [b]) = List.replicate n [a, a] ++ [[a, b]] := by
  induction n with
  | zero => rfl
  | succ n ih =>
    rw [List.replicate_succ, List.replicate_succ, List.cons_append, List.cons_append,
      grams_cons_cons, ← List.cons_append, ← List.replicate_succ, ih, List.replicate_succ,
      List.cons_append]

structure Tallies (frequencies : TermFrequencyMap) (ids : List TermId) : Prop where
  ascending : frequencies.Pairwise (fun a b => a.1 < b.1)
  mem_iff : ∀ t n, (t, n) ∈ frequencies ↔ t ∈ ids ∧ n = toUInt32 (ids.count t)

namespace Tallies

variable {frequencies : TermFrequencyMap} {ids : List TermId}

lemma mem_keys (h : Tallies frequencies ids) (t : TermId) :
    t ∈ frequencies.map Prod.fst ↔ t ∈ ids := by
  simp [h.mem_iff]

lemma nodup_keys (h : Tallies frequencies ids) : (frequencies.map Prod.fst).Nodup := by
  rw [List.nodup_iff_pairwise_ne, List.pairwise_map]
  exact h.ascending.imp fun hlt => hlt.ne

lemma perm {ids' : List TermId} (h : Tallies frequencies ids) (hp : ids.Perm ids') :
    Tallies frequencies ids' where
  ascending := h.ascending
  mem_iff t n := by rw [h.mem_iff, hp.mem_iff, hp.count_eq]

lemma snoc_last {before : TermFrequencyMap} {t : TermId} {count : ℕ}
    (h : Tallies (before ++ [(t, count)]) ids) :
    Tallies (before ++ [(t, toUInt32 (count + 1))]) (ids ++ [t]) := by
  have hsorted := h.ascending
  rw [List.pairwise_append] at hsorted
  have hlast := (h.mem_iff t count).mp (by simp)
  constructor
  · rw [List.pairwise_append]
    exact ⟨hsorted.1, List.pairwise_singleton _ _, by simpa using hsorted.2.2⟩
  · intro u n
    have hb := h.mem_iff u n
    simp only [List.mem_append, List.mem_singleton, Prod.mk.injEq] at hb ⊢
    by_cases hu : u = t
    · subst hu
      have hnot : (u, n) ∉ before := fun hm => by
        simpa using hsorted.2.2 _ hm (u, count) (List.mem_singleton_self _)
      simp only [hnot, false_or, true_and, or_true, List.count_append, List.count_singleton_self]
      rw [hlast.2, toUInt32_succ]
    · have hne : ¬ t = u := fun he => hu he.symm
      simp only [hu, false_and, or_false] at hb ⊢
      rw [hb, List.count_append, List.count_singleton]
      simp [hne]

lemma snoc_fresh (h : Tallies frequencies ids) {t : TermId} (hmax : ∀ e ∈ frequencies, e.1 < t) :
    Tallies (frequencies ++ [(t, 1)]) (ids ++ [t]) := by
  have hfresh : t ∉ ids := fun hm => by simpa using hmax _ ((h.mem_iff t _).mpr ⟨hm, rfl⟩)
  constructor
  · rw [List.pairwise_append]
    refine ⟨h.ascending, List.pairwise_singleton _ _, ?_⟩
    intro a ha b hb
    rw [List.mem_singleton.mp hb]
    exact hmax a ha
  · intro u n
    rw [List.mem_append, h.mem_iff, List.mem_singleton, List.mem_append, List.mem_singleton,
      Prod.mk.injEq, List.count_append, List.count_singleton]
    by_cases hu : u = t
    · subst hu
      simp [hfresh, List.count_eq_zero_of_not_mem hfresh, toUInt32]
    · have hne : ¬ t = u := fun he => hu he.symm
      simp [hu, hne]

lemma countTerm_snoc (h : Tallies frequencies ids) (t : TermId) (hlast : ∀ u ∈ ids, u ≤ t) :
    Tallies (countTerm frequencies t) (ids ++ [t]) := by
  rcases List.eq_nil_or_concat frequencies with rfl | ⟨before, ⟨lastId, count⟩, rfl⟩
  · exact h.snoc_fresh (by simp)
  rw [List.concat_eq_append] at h ⊢
  have hsorted := h.ascending
  rw [List.pairwise_append] at hsorted
  by_cases heq : lastId = t
  · subst heq
    simpa [countTerm] using h.snoc_last
  · have hlt : lastId < t := lt_of_le_of_ne (hlast lastId ((h.mem_iff lastId count).mp (by simp)).1) heq
    have hmax : ∀ e ∈ before ++ [(lastId, count)], e.1 < t := by
      intro e he
      rw [List.mem_append, List.mem_singleton] at he
      rcases he with he | rfl
      · exact (hsorted.2.2 e he (lastId, count) (List.mem_singleton_self _)).trans hlt
      · exact hlt
    simpa [countTerm, heq] using h.snoc_fresh hmax

lemma of_sorted (ids : List TermId) (hs : ids.Pairwise (· ≤ ·)) :
    Tallies (ids.foldl countTerm []) ids := by
  induction ids using List.reverseRecOn with
  | nil => exact ⟨List.Pairwise.nil, by simp⟩
  | append_singleton us t ih =>
    rw [List.pairwise_append] at hs
    rw [List.foldl_append]
    exact (ih hs.1).countTerm_snoc t fun u hu => hs.2.2 u hu t (List.mem_singleton_self t)

end Tallies

lemma buildTermFrequency_tallies {σ : Type} (resolve : Term → σ → Option TermId × σ) (text : Text)
    (st : σ) :
    Tallies (buildTermFrequency resolve text st).1 (seenTermIds resolve (grams text) st).1 :=
  (Tallies.of_sorted _ (List.pairwise_insertionSort (· ≤ ·) _)).perm (List.perm_insertionSort _ _)

lemma seenTermIds_find (terms : List Term) (T : TermTable) :
    seenTermIds findTermId terms T = (terms.filterMap T.idsByValue.lookup, T) := by
  induction terms with
  | nil => rfl
  | cons g gs ih =>
    simp only [seenTermIds, findTermId, ih, List.filterMap_cons]
    cases T.idsByValue.lookup g <;> rfl

lemma seenTermIds_append_state {σ : Type} (resolve : Term → σ → Option TermId × σ)
    (terms terms' : List Term) (st : σ) :
    (seenTermIds resolve (terms ++ terms') st).2 =
      (seenTermIds resolve terms' (seenTermIds resolve terms st).2).2 := by
  induction terms generalizing st with
  | nil => rfl
  | cons g gs ih => exact ih _

structure Interned (T : TermTable) (terms : List Term) (ids : List TermId) (T' : TermTable) :
    Prop where
  wellFormed : T'.WellFormed True
  ids_eq : terms.map T'.idsByValue.lookup = ids.map some
  lookup_of_notMem : ∀ g, g ∉ terms → T'.idsByValue.lookup g = T.idsByValue.lookup g
  lookup_of_mapped : ∀ g t, T.idsByValue.lookup g = some t → T'.idsByValue.lookup g = some t
  refCount_eq : ∀ t, T'.refCount t = T.refCount t + ids.count t

lemma slots_le_seenTermIds (terms : List Term) (T : TermTable) :
    T.slots ≤ (seenTermIds retainTermId terms T).2.slots := by
  induction terms generalizing T with
  | nil => exact le_rfl
  | cons g gs ih => exact (T.slots_le_retain toUInt32 g).trans (ih _)

lemma slots_seenTermIds_of_mapped (terms : List Term) (T : TermTable)
    (h : ∀ g ∈ terms, T.idsByValue.lookup g ≠ none) :
    (seenTermIds retainTermId terms T).2.slots = T.slots := by
  induction terms generalizing T with
  | nil => rfl
  | cons g gs ih =>
    obtain ⟨i, hi⟩ := Option.ne_none_iff_exists'.mp (h g List.mem_cons_self)
    have hstep : (seenTermIds retainTermId (g :: gs) T).2 =
        (seenTermIds retainTermId gs { T with refCounts := T.refCounts.set i (T.refCount i + 1) }).2 := by
      simp only [seenTermIds, retainTermId, InternTable.retain, hi]
    rw [hstep, ih]
    · rfl
    · exact fun u hu => h u (List.mem_cons_of_mem g hu)

lemma seenTermIds_retain (terms : List Term) {T : TermTable} (h : T.WellFormed True)
    (hslots : (seenTermIds retainTermId terms T).2.slots < 2 ^ 32) :
    Interned T terms (seenTermIds retainTermId terms T).1 (seenTermIds retainTermId terms T).2 := by
  induction terms generalizing T with
  | nil => exact ⟨h, rfl, fun _ _ => rfl, fun _ _ hg => hg, fun _ => by simp [seenTermIds]⟩
  | cons g gs ih =>
    have hbound : T.slots < 2 ^ 32 := (slots_le_seenTermIds (g :: gs) T).trans_lt hslots
    have hone := h.retain toUInt32 g fun _ => toUInt32_of_lt hbound
    have hrest := ih hone.wellFormed hslots
    have hstep : seenTermIds retainTermId (g :: gs) T =
        ((T.retain toUInt32 g).1 :: (seenTermIds retainTermId gs (T.retain toUInt32 g).2).1,
          (seenTermIds retainTermId gs (T.retain toUInt32 g).2).2) := rfl
    rw [hstep]
    constructor
    · exact hrest.wellFormed
    · rw [List.map_cons, List.map_cons, hrest.ids_eq,
        hrest.lookup_of_mapped g _ hone.mapped]
    · intro u hu
      rw [List.mem_cons, not_or] at hu
      rw [hrest.lookup_of_notMem u hu.2, hone.lookup_of_ne u hu.1]
    · intro u t hu
      exact hrest.lookup_of_mapped u t (hone.lookup_of_mapped u t hu)
    · intro t
      rw [hrest.refCount_eq, hone.refCount_eq, List.count_cons]
      by_cases ht : t = (T.retain toUInt32 g).1
      · simp [ht]
        omega
      · have hne : ¬ (T.retain toUInt32 g).1 = t := fun he => ht he.symm
        simp [ht, hne]

namespace Interned

variable {T T' : TermTable} {terms : List Term} {ids : List TermId}

lemma mem_ids_iff (h : Interned T terms ids T') (t : TermId) :
    t ∈ ids ↔ ∃ g ∈ terms, T'.idsByValue.lookup g = some t := by
  have hm : some t ∈ ids.map some ↔ some t ∈ terms.map T'.idsByValue.lookup := by rw [h.ids_eq]
  simpa using hm

lemma exists_id (h : Interned T terms ids T') {g : Term} (hg : g ∈ terms) :
    ∃ t, T'.idsByValue.lookup g = some t ∧ t ∈ ids := by
  have hm : T'.idsByValue.lookup g ∈ ids.map some := h.ids_eq ▸ List.mem_map_of_mem hg
  obtain ⟨t, ht, he⟩ := List.mem_map.mp hm
  exact ⟨t, he.symm, ht⟩

lemma count_ids (h : Interned T terms ids T') {g : Term} {t : TermId}
    (hg : T'.idsByValue.lookup g = some t) : ids.count t = terms.count g := by
  have hinj : ∀ u, T'.idsByValue.lookup u = some t ↔ u = g := by
    intro u
    refine ⟨fun hu => h.wellFormed.injective hu hg, ?_⟩
    rintro rfl
    exact hg
  calc ids.count t = (ids.map some).count (some t) :=
        (List.count_map_of_injective ids some (Option.some_injective _) t).symm
    _ = (terms.map T'.idsByValue.lookup).count (some t) := by rw [h.ids_eq]
    _ = terms.count g := by
      rw [List.count, List.countP_map, List.count]
      apply List.countP_congr
      intro u _
      simp [hinj u]

lemma references_eq (h : Interned T terms ids T') (hw : T.WellFormed True) (g : Term) :
    T'.references g = T.references g + terms.count g := by
  cases hg : T'.idsByValue.lookup g with
  | none =>
    have hmem : g ∉ terms := by
      intro hm
      obtain ⟨t, ht, -⟩ := h.exists_id hm
      simp [hg] at ht
    rw [InternTable.references, InternTable.references, hg, ← h.lookup_of_notMem g hmem, hg,
      List.count_eq_zero_of_not_mem hmem]
  | some t =>
    have hold : T.references g = T.refCount t := by
      rw [InternTable.references]
      cases hg' : T.idsByValue.lookup g with
      | some u =>
        have hu := h.lookup_of_mapped g u hg'
        rw [hg, Option.some.injEq] at hu
        rw [hu]
      | none =>
        by_contra hne
        obtain ⟨w, -, hmap⟩ := hw.value_of_refCount (i := t) (Nat.pos_of_ne_zero (Ne.symm hne))
        rw [h.wellFormed.injective (h.lookup_of_mapped w t hmap) hg, hg'] at hmap
        simp at hmap
    rw [hold, ← h.count_ids hg, InternTable.references, hg]
    exact h.refCount_eq t

end Interned

end DltxtBridge
