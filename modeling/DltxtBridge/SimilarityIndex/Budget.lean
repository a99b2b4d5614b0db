import DltxtBridge.SimilarityIndex.Retrieval
import DltxtBridge.SimilarityIndex.Soundness

namespace DltxtBridge.SimilarityIndex

section Order

lemma card_before_lt {order : List LineId} {id : LineId} (hid : id ∈ order) :
    (order.takeWhile (· ≠ id)).toFinset.card < order.toFinset.card := by
  apply Finset.card_lt_card
  refine (Finset.ssubset_iff_of_subset ?_).mpr ⟨id, List.mem_toFinset.mpr hid, fun hmem => ?_⟩
  · intro x hx
    exact List.mem_toFinset.mpr ((List.takeWhile_sublist _).subset (List.mem_toFinset.mp hx))
  · simpa using List.mem_takeWhile_imp (List.mem_toFinset.mp hmem)

lemma AmongFirst.mono {order order' : List LineId} (horder : order <+: order') {count count' : ℕ}
    (hcount : count ≤ count') {id : LineId} (h : AmongFirst order count id) : AmongFirst order' count' id := by
  obtain ⟨more, rfl⟩ := horder
  refine ⟨List.mem_append_left more h.1, ?_⟩
  have hstop : (order.takeWhile (· ≠ id)).length ≠ order.length := by
    intro hlength
    have hall := (List.takeWhile_prefix (p := (· ≠ id)) (l := order)).eq_of_length hlength
    have hmem := h.1
    rw [← hall] at hmem
    simpa using List.mem_takeWhile_imp hmem
  rw [List.takeWhile_append, if_neg hstop]
  exact h.2.trans_le hcount

lemma card_insertCandidates {budget : ℕ} {ids : Finset LineId} (hids : ids.card < budget)
    (posting : List LineId) :
    (insertCandidatesUpToBudget ids posting budget).card = min budget (ids ∪ posting.toFinset).card := by
  induction posting generalizing ids with
  | nil =>
    rw [insertCandidatesUpToBudget, List.toFinset_nil, Finset.union_empty]
    omega
  | cons id rest ih =>
    have hall : ids ∪ (id :: rest).toFinset = insert id ids ∪ rest.toFinset := by
      rw [List.toFinset_cons, Finset.union_insert, Finset.insert_union]
    have hle : (insert id ids).card ≤ (insert id ids ∪ rest.toFinset).card :=
      Finset.card_le_card Finset.subset_union_left
    have hone := Finset.card_insert_le id ids
    rw [insertCandidatesUpToBudget, hall]
    split_ifs with hfull
    · omega
    · exact ih (not_le.mp hfull)

end Order

section Cutoff

variable {K : Type} {s : SimilarityIndex} {terms : List (WeightedQueryTerm K)} {budget budget' : ℕ}

lemma postedLines_append (first second : List (WeightedQueryTerm K)) :
    postedLines s (first ++ second) = postedLines s first ++ postedLines s second :=
  List.flatMap_append

lemma commonPostingCutoff_mono (h : budget ≤ budget') :
    commonPostingCutoff budget ≤ commonPostingCutoff budget' := by
  rw [commonPostingCutoff, commonPostingCutoff]
  omega

lemma exists_split_cutoffs (hsorted : terms.Pairwise fun left right => left.postingSize ≤ right.postingSize)
    (cutoff cutoff' : ℕ) :
    ∃ rare between common, terms = rare ++ (between ++ common) ∧
      (∀ term ∈ rare, term.postingSize ≤ cutoff) ∧
      (∀ term ∈ between, cutoff < term.postingSize ∧ term.postingSize ≤ cutoff') ∧
      ∀ term ∈ common, cutoff' < term.postingSize := by
  have hover := hsorted.filter fun term => cutoff < term.postingSize
  refine ⟨_, _, _, ((congrArg _ (filter_append_filter hover cutoff')).trans
    (filter_append_filter hsorted cutoff)).symm, ?_, ?_, ?_⟩
  · intro term hterm
    simpa using List.of_mem_filter hterm
  · intro term hterm
    have hbelow := List.of_mem_filter hterm
    have habove := List.of_mem_filter (List.mem_of_mem_filter hterm)
    simp only [decide_eq_true_eq] at hbelow habove
    exact ⟨habove, hbelow⟩
  · intro term hterm
    simpa using List.of_mem_filter hterm

lemma retrievalOrder_split {rare common : List (WeightedQueryTerm K)}
    (hrare : ∀ term ∈ rare, term.postingSize ≤ commonPostingCutoff budget)
    (hcommon : ∀ term ∈ common, commonPostingCutoff budget < term.postingSize) :
    retrievalOrder s budget (rare ++ common) =
      if postedLines s rare = [] then postedLines s (common.take 1) else postedLines s rare := by
  have hbelow : (rare ++ common).filter (fun term => term.postingSize ≤ commonPostingCutoff budget) = rare := by
    have hnone : common.filter (fun term => term.postingSize ≤ commonPostingCutoff budget) = [] :=
      List.filter_eq_nil_iff.mpr (by simpa using hcommon)
    rw [List.filter_append, hnone, List.append_nil]
    exact List.filter_eq_self.mpr (by simpa using hrare)
  have habove : (rare ++ common).filter (fun term => commonPostingCutoff budget < term.postingSize) = common := by
    have hnone : rare.filter (fun term => commonPostingCutoff budget < term.postingSize) = [] :=
      List.filter_eq_nil_iff.mpr (by simpa using hrare)
    rw [List.filter_append, hnone, List.nil_append]
    exact List.filter_eq_self.mpr (by simpa using hcommon)
  rw [retrievalOrder, hbelow, habove]

lemma retrievalOrder_mono (hsized : Sized s terms)
    (hsorted : terms.Pairwise fun left right => left.postingSize ≤ right.postingSize)
    (hnodup : ∀ t posting, s.inverted.postings.lookup t = some posting → posting.Nodup)
    (hbudget : budget ≤ budget') :
    retrievalOrder s budget terms <+: retrievalOrder s budget' terms ∧
      (retrievalOrder s budget terms = retrievalOrder s budget' terms ∨
        commonPostingCutoff budget < (retrievalOrder s budget' terms).toFinset.card) := by
  have hcutoff := commonPostingCutoff_mono hbudget
  obtain ⟨rare, between, common, rfl, hrare, hbetween, hcommon⟩ := exists_split_cutoffs hsorted
    (commonPostingCutoff budget) (commonPostingCutoff budget')
  have hfewer : ∀ term ∈ between ++ common, commonPostingCutoff budget < term.postingSize := by
    intro term hterm
    rcases List.mem_append.mp hterm with hterm | hterm
    · exact (hbetween term hterm).1
    · exact hcutoff.trans_lt (hcommon term hterm)
  have hmore : ∀ term ∈ rare ++ between, term.postingSize ≤ commonPostingCutoff budget' := by
    intro term hterm
    rcases List.mem_append.mp hterm with hterm | hterm
    · exact (hrare term hterm).trans hcutoff
    · exact (hbetween term hterm).2
  rw [retrievalOrder_split hrare hfewer, ← List.append_assoc, retrievalOrder_split hmore hcommon]
  cases between with
  | nil =>
    rw [List.append_nil, List.nil_append]
    exact ⟨List.prefix_refl _, Or.inl rfl⟩
  | cons term rest =>
    obtain ⟨posting, hposting, hsize⟩ := hsized term (by simp)
    have hlarge : commonPostingCutoff budget < posting.length := hsize ▸ (hbetween term List.mem_cons_self).1
    have hlines : postedLines s (rare ++ term :: rest) = postedLines s rare ++ (posting ++ postedLines s rest) := by
      rw [postedLines_append, ← List.singleton_append, postedLines_append]
      simp [postedLines, hposting]
    have hnonempty : postedLines s (rare ++ term :: rest) ≠ [] := by
      rw [hlines]
      exact List.append_ne_nil_of_right_ne_nil _ (List.append_ne_nil_of_left_ne_nil
        (List.ne_nil_of_length_pos (by omega)) _)
    rw [if_neg hnonempty]
    constructor
    · split_ifs with hrareLines
      · rw [hlines, hrareLines, List.nil_append]
        exact ⟨postedLines s rest, by simp [postedLines, hposting]⟩
      · rw [hlines]
        exact List.prefix_append _ _
    · right
      rw [← List.toFinset_card_of_nodup (hnodup _ _ hposting)] at hlarge
      refine hlarge.trans_le (Finset.card_le_card fun id hid => ?_)
      rw [hlines, List.toFinset_append, List.toFinset_append]
      exact Finset.mem_union_right _ (Finset.mem_union_left _ hid)

end Cutoff

section Query

variable {K : Type} [Field K] [LinearOrder K] {A : ScoreArithmetic K} {P : Platform K} {s : SimilarityIndex}
  {query : Text} {fewer more : ℕ}

structure Extends (A : ScoreArithmetic K) (P : Platform K) (s : SimilarityIndex) (query : Text)
    (fewer more : ℕ) : Prop where
  scored : scoredLines A P s query fewer ⊆ scoredLines A P s query more
  length_le : ∀ minScore,
    (search A P s query minScore fewer).length ≤ (search A P s query minScore more).length
  score_le : ∀ minScore (i : ℕ) (worse better : SearchResult K),
    (search A P s query minScore fewer)[i]? = some worse →
    (search A P s query minScore more)[i]? = some better → worse.score ≤ better.score

/-- Nothing is scored, or the budget has not shrunk, or the smaller one holds all lines. -/
def BudgetCovers (A : ScoreArithmetic K) (P : Platform K) (s : SimilarityIndex) (query : Text)
    (fewer more : ℕ) : Prop :=
  fewer = 0 ∨ normSquared A s (s.queryTermFrequency query) ≤ 0 ∨
    candidateBudget fewer ≤ candidateBudget more ∨
    (retrievalOrder s (candidateBudget fewer) (queryTerms A P s query)).toFinset.card ≤ candidateBudget more

lemma card_selectCandidates {budget : ℕ} (hbudget : 0 < budget) :
    (selectCandidates s budget (queryTerms A P s query)).card =
      min budget (retrievalOrder s budget (queryTerms A P s query)).toFinset.card := by
  rw [selectCandidates_eq_collect, collectCandidates_eq_insert hbudget sized_queryTerms sorted_queryTerms,
    card_insertCandidates (by simpa using hbudget), Finset.empty_union]

namespace Wired

lemma posting_nodup (h : Wired s) (t : TermId) (posting : List LineId)
    (hposting : s.inverted.postings.lookup t = some posting) : posting.Nodup :=
  (h.inverted.listed t posting hposting).1.ascending.imp ne_of_lt

lemma scoredLines_eq_select (h : Wired s) {maxResults : ℕ} (hmax : maxResults ≠ 0)
    (hnorm : 0 < normSquared A s (s.queryTermFrequency query)) :
    scoredLines A P s query maxResults =
      selectCandidates s (candidateBudget maxResults) (queryTerms A P s query) := by
  have hfrequencies : s.queryTermFrequency query ≠ [] := by
    intro hnil
    rw [hnil] at hnorm
    exact lt_irrefl 0 hnorm
  by_cases hterms : weightedTerms A s (s.queryTermFrequency query) = []
  · have hnone : queryTerms A P s query = [] := by
      rw [queryTerms, hterms]
      exact (P.sortTerms_perm []).eq_nil
    rw [hnone, scoredLines, if_pos (Or.inr (Or.inr (Or.inr (Or.inl hterms))))]
    rfl
  · have hlines : FiniteMap.size s.lines ≠ 0 := by
      intro hzero
      obtain ⟨term, hterm⟩ := List.exists_mem_of_ne_nil _ hterms
      obtain ⟨entry, -, hentry⟩ := List.mem_filterMap.mp hterm
      obtain ⟨posting, hposting, -⟩ := Option.map_eq_some_iff.mp hentry
      obtain ⟨hlists, hne⟩ := h.inverted.listed entry.1 posting hposting
      obtain ⟨id, hid⟩ := List.exists_mem_of_ne_nil _ hne
      have hkey := (Finset.mem_filter.mp ((hlists.mem_iff id).mp hid)).1
      rw [(FiniteMap.size_eq_zero _).mp hzero] at hkey
      exact absurd hkey (Finset.notMem_empty id)
    simp [scoredLines, queryTerms, hlines, hmax, hfrequencies, hterms, not_le.mpr hnorm]

lemma scoredLines_subset_iff (h : Wired s) (hle : fewer ≤ more) :
    scoredLines A P s query fewer ⊆ scoredLines A P s query more ↔ BudgetCovers A P s query fewer more := by
  by_cases hfewer : fewer = 0
  · refine iff_of_true ?_ (Or.inl hfewer)
    simp [scoredLines, hfewer]
  by_cases hnorm : normSquared A s (s.queryTermFrequency query) ≤ 0
  · refine iff_of_true ?_ (Or.inr (Or.inl hnorm))
    simp [scoredLines, hnorm]
  have hmore : more ≠ 0 := by omega
  have hpos := candidateBudget_pos
  rw [BudgetCovers, or_iff_right hfewer, or_iff_right hnorm, h.scoredLines_eq_select hfewer (not_le.mp hnorm),
    h.scoredLines_eq_select hmore (not_le.mp hnorm)]
  have hmem : ∀ maxResults id,
      id ∈ selectCandidates s (candidateBudget maxResults) (queryTerms A P s query) ↔ _ :=
    fun maxResults => mem_selectCandidates_iff (hpos maxResults) sized_queryTerms sorted_queryTerms
  constructor
  · intro hsubset
    have hcard := Finset.card_le_card hsubset
    rw [card_selectCandidates (hpos fewer), card_selectCandidates (hpos more)] at hcard
    omega
  · rintro (hbudget | hcovers) id hid
    · rw [hmem] at hid ⊢
      exact hid.mono (retrievalOrder_mono sized_queryTerms sorted_queryTerms h.posting_nodup hbudget).1 hbudget
    · rcases le_total (candidateBudget fewer) (candidateBudget more) with hbudget | hbudget
      · rw [hmem] at hid ⊢
        exact hid.mono (retrievalOrder_mono sized_queryTerms sorted_queryTerms h.posting_nodup hbudget).1 hbudget
      · have hsized : Sized s (queryTerms A P s query) := sized_queryTerms
        rcases (retrievalOrder_mono hsized sorted_queryTerms h.posting_nodup hbudget).2 with hsame | hmany
        · rw [hmem] at hid ⊢
          rw [hsame]
          exact ⟨hid.1, (card_before_lt hid.1).trans_le hcovers⟩
        · have hcutoff := commonPostingCutoff_ge (candidateBudget more)
          omega

lemma subperm_scored (h : Wired s) (A : ScoreArithmetic K) (P : Platform K) (query : Text) (minScore : K)
    {ids ids' : Finset LineId} (hids : ids ⊆ ids') :
    ((P.iterate ids).filterMap (scoreCandidate A s (s.queryTermFrequency query) minScore)).Subperm
      ((P.iterate ids').filterMap (scoreCandidate A s (s.queryTermFrequency query) minScore)) := by
  apply List.subperm_of_subset
  · exact (h.nodup_lineIds _ minScore (P.iterate_nodup ids)).of_map
  · intro result hresult
    obtain ⟨id, hid, hscore⟩ := List.mem_filterMap.mp hresult
    exact List.mem_filterMap.mpr ⟨id, (P.mem_iterate ids' id).mpr (hids ((P.mem_iterate ids id).mp hid)), hscore⟩

lemma extends_iff (h : Wired s) (hle : fewer ≤ more) :
    Extends A P s query fewer more ↔ BudgetCovers A P s query fewer more := by
  rw [← h.scoredLines_subset_iff hle]
  refine ⟨fun hextends => hextends.scored, fun hsubset => ⟨hsubset, fun minScore => ?_, ?_⟩⟩
  · have hlength := (h.subperm_scored A P query minScore hsubset).length_le
    simp only [search, scoreCandidates_eq, rankResults, List.length_take, List.length_insertionSort]
    omega
  · intro minScore i worse better hworse hbetter
    rw [search, scoreCandidates_eq] at hworse hbetter
    have hkey := AscendingList.key_le_of_subperm (pairwise_insertionSort_before _)
      (pairwise_insertionSort_before _)
      (((List.perm_insertionSort _ _).subperm.trans (h.subperm_scored A P query minScore hsubset)).trans
        (List.perm_insertionSort _ _).symm.subperm)
      (getElem?_of_rankResults hworse) (getElem?_of_rankResults hbetter)
    exact SearchResult.score_le_of_sortKey hkey

end Wired

end Query

end DltxtBridge.SimilarityIndex
