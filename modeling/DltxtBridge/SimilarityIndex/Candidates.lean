import DltxtBridge.SimilarityIndex.Search

namespace DltxtBridge

namespace SimilarityIndex

variable {K : Type}

def postedUnder (s : SimilarityIndex) (terms : List (WeightedQueryTerm K)) : Finset LineId :=
  (terms.flatMap fun term => (s.inverted.postings.lookup term.termId).getD []).toFinset

lemma mem_postedUnder (s : SimilarityIndex) (terms : List (WeightedQueryTerm K)) (id : LineId) :
    id ∈ postedUnder s terms ↔
      ∃ term ∈ terms, ∃ posting, s.inverted.postings.lookup term.termId = some posting ∧
        id ∈ posting := by
  rw [postedUnder, List.mem_toFinset, List.mem_flatMap]
  refine exists_congr fun term => and_congr_right fun _ => ?_
  cases s.inverted.postings.lookup term.termId <;> simp

lemma postedUnder_perm (s : SimilarityIndex) {terms terms' : List (WeightedQueryTerm K)}
    (h : terms.Perm terms') : postedUnder s terms = postedUnder s terms' := by
  ext id
  simp only [mem_postedUnder, h.mem_iff]

lemma postedUnder_cons (s : SimilarityIndex) (term : WeightedQueryTerm K)
    (terms : List (WeightedQueryTerm K)) :
    postedUnder s (term :: terms) =
      ((s.inverted.postings.lookup term.termId).getD []).toFinset ∪ postedUnder s terms := by
  rw [postedUnder, List.flatMap_cons, List.toFinset_append]
  rfl

lemma commonPostingCutoff_ge (budget : ℕ) : budget ≤ commonPostingCutoff budget := by
  rw [commonPostingCutoff]
  omega

section Insert

variable (budget : ℕ) (posting : List LineId) (ids : Finset LineId)

lemma insert_union_toFinset (id : LineId) (rest : List LineId) :
    insert id ids ∪ rest.toFinset = ids ∪ (id :: rest).toFinset := by
  rw [List.toFinset_cons, Finset.union_insert, Finset.insert_union]

lemma insertCandidates_subset :
    insertCandidatesUpToBudget ids posting budget ⊆ ids ∪ posting.toFinset := by
  induction posting generalizing ids with
  | nil => simp [insertCandidatesUpToBudget]
  | cons id rest ih =>
    rw [insertCandidatesUpToBudget, ← insert_union_toFinset]
    split_ifs
    · exact Finset.subset_union_left
    · exact ih _

lemma insertCandidates_card_le (hc : ids.card < budget) :
    (insertCandidatesUpToBudget ids posting budget).card ≤ budget := by
  induction posting generalizing ids with
  | nil => exact hc.le
  | cons id rest ih =>
    have hone := Finset.card_insert_le id ids
    rw [insertCandidatesUpToBudget]
    split_ifs with hfull
    · omega
    · exact ih _ (not_le.mp hfull)

lemma insertCandidates_eq (hc : (ids ∪ posting.toFinset).card ≤ budget) :
    insertCandidatesUpToBudget ids posting budget = ids ∪ posting.toFinset := by
  induction posting generalizing ids with
  | nil => simp [insertCandidatesUpToBudget]
  | cons id rest ih =>
    rw [← insert_union_toFinset] at hc ⊢
    rw [insertCandidatesUpToBudget]
    split_ifs with hfull
    · exact Finset.eq_of_subset_of_card_le Finset.subset_union_left (hc.trans hfull)
    · exact ih _ hc

lemma insertCandidates_nonempty (hids : ids ≠ ∅) :
    insertCandidatesUpToBudget ids posting budget ≠ ∅ := by
  induction posting generalizing ids with
  | nil => exact hids
  | cons id rest ih =>
    rw [insertCandidatesUpToBudget]
    split_ifs
    · exact Finset.insert_ne_empty _ _
    · exact ih _ (Finset.insert_ne_empty _ _)

end Insert

section Collect

variable (s : SimilarityIndex) (budget : ℕ) (terms : List (WeightedQueryTerm K))
  (ids : Finset LineId)

lemma collectCandidates_subset :
    collectCandidates s budget terms ids ⊆ ids ∪ postedUnder s terms := by
  induction terms generalizing ids with
  | nil => simp [collectCandidates]
  | cons term rest ih =>
    have hskip : ids ∪ postedUnder s rest ⊆ ids ∪ postedUnder s (term :: rest) := by
      rw [postedUnder_cons]
      exact Finset.union_subset_union_right Finset.subset_union_right
    rw [collectCandidates]
    split_ifs
    · exact (ih ids).trans hskip
    · cases hp : s.inverted.postings.lookup term.termId with
      | none => exact (ih ids).trans hskip
      | some posting =>
        have hinsert := insertCandidates_subset budget posting ids
        rw [postedUnder_cons, hp, Option.getD_some, ← Finset.union_assoc]
        dsimp only
        split_ifs
        · exact hinsert.trans Finset.subset_union_left
        · exact (ih _).trans (Finset.union_subset_union_left hinsert)

lemma collectCandidates_card_le (hc : ids.card < budget) :
    (collectCandidates s budget terms ids).card ≤ budget := by
  induction terms generalizing ids with
  | nil => exact hc.le
  | cons term rest ih =>
    rw [collectCandidates]
    split_ifs
    · exact ih ids hc
    · cases hp : s.inverted.postings.lookup term.termId with
      | none => exact ih ids hc
      | some posting =>
        dsimp only
        split_ifs with hfull
        · exact insertCandidates_card_le budget posting ids hc
        · exact ih _ (not_le.mp hfull)

lemma collectCandidates_eq (hsize : ∀ term ∈ terms, term.postingSize ≤ budget)
    (hc : (ids ∪ postedUnder s terms).card ≤ budget) :
    collectCandidates s budget terms ids = ids ∪ postedUnder s terms := by
  induction terms generalizing ids with
  | nil => simp [collectCandidates, postedUnder]
  | cons term rest ih =>
    have hcommon : ¬ commonPostingCutoff budget < term.postingSize := by
      have := hsize term List.mem_cons_self
      have := commonPostingCutoff_ge budget
      omega
    have hrest : ∀ other ∈ rest, other.postingSize ≤ budget :=
      fun other ho => hsize other (List.mem_cons_of_mem term ho)
    rw [postedUnder_cons] at hc ⊢
    rw [collectCandidates, if_neg fun h => hcommon h.1]
    cases hp : s.inverted.postings.lookup term.termId with
    | none =>
      simp only [hp, Option.getD_none, List.toFinset_nil, Finset.empty_union] at hc ⊢
      exact ih ids hrest hc
    | some posting =>
      simp only [hp, Option.getD_some, ← Finset.union_assoc] at hc ⊢
      rw [insertCandidates_eq budget posting ids
        ((Finset.card_le_card Finset.subset_union_left).trans hc)]
      split_ifs with hfull
      · exact Finset.eq_of_subset_of_card_le Finset.subset_union_left (hc.trans hfull)
      · exact ih _ hrest hc

lemma collectCandidates_nonempty (hids : ids ≠ ∅) : collectCandidates s budget terms ids ≠ ∅ := by
  induction terms generalizing ids with
  | nil => exact hids
  | cons term rest ih =>
    rw [collectCandidates]
    split_ifs
    · exact ih ids hids
    · cases s.inverted.postings.lookup term.termId with
      | none => exact ih ids hids
      | some posting =>
        have hinsert := insertCandidates_nonempty budget posting ids hids
        dsimp only
        split_ifs
        · exact hinsert
        · exact ih _ hinsert

end Collect

section Select

variable (s : SimilarityIndex) (budget : ℕ) (terms : List (WeightedQueryTerm K))

/-- The fallback finds nothing: the loop does not skip the first term. -/
lemma selectCandidates_eq_collect : selectCandidates s budget terms = collectCandidates s budget terms ∅ := by
  cases terms with
  | nil => simp [selectCandidates, collectCandidates]
  | cons term rest =>
    rw [selectCandidates]
    split_ifs with hnone
    · rw [hnone, List.head?_cons, Option.bind_some]
      rw [collectCandidates, if_neg fun h => h.2 rfl] at hnone
      cases hposting : s.inverted.postings.lookup term.termId with
      | none => rfl
      | some posting =>
        simp only [hposting] at hnone
        by_contra hinsert
        split_ifs at hnone
        · exact hinsert hnone
        · exact collectCandidates_nonempty s budget rest _ hinsert hnone
    · rfl

lemma selectCandidates_subset : selectCandidates s budget terms ⊆ postedUnder s terms := by
  have hcollect := collectCandidates_subset s budget terms ∅
  rwa [Finset.empty_union, ← selectCandidates_eq_collect] at hcollect

lemma selectCandidates_card_le (hb : 0 < budget) :
    (selectCandidates s budget terms).card ≤ budget := by
  rw [selectCandidates_eq_collect]
  exact collectCandidates_card_le s budget terms ∅ (by simpa using hb)

lemma selectCandidates_eq (hsize : ∀ term ∈ terms, term.postingSize ≤ budget)
    (hc : (postedUnder s terms).card ≤ budget) :
    selectCandidates s budget terms = postedUnder s terms := by
  have hcollect := collectCandidates_eq s budget terms ∅ hsize (by rwa [Finset.empty_union])
  rwa [Finset.empty_union, ← selectCandidates_eq_collect] at hcollect

end Select

end SimilarityIndex

end DltxtBridge
