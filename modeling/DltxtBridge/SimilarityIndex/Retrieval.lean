import DltxtBridge.SimilarityIndex.Candidates
import DltxtBridge.SimilarityIndex.Ranking
import Mathlib.Data.Set.Card

namespace DltxtBridge.SimilarityIndex

variable {K : Type}

def postedLines (s : SimilarityIndex) (terms : List (WeightedQueryTerm K)) : List LineId :=
  terms.flatMap fun term => (s.inverted.postings.lookup term.termId).getD []

def retrievalOrder (s : SimilarityIndex) (budget : ℕ) (terms : List (WeightedQueryTerm K)) : List LineId :=
  let rare := terms.filter fun term => term.postingSize ≤ commonPostingCutoff budget
  let common := terms.filter fun term => commonPostingCutoff budget < term.postingSize
  if postedLines s rare = [] then postedLines s (common.take 1) else postedLines s rare

def AmongFirst (order : List LineId) (count : ℕ) (id : LineId) : Prop :=
  id ∈ order ∧ (order.takeWhile (· ≠ id)).toFinset.card < count

def Sized (s : SimilarityIndex) (terms : List (WeightedQueryTerm K)) : Prop :=
  ∀ term ∈ terms, ∃ posting, s.inverted.postings.lookup term.termId = some posting ∧
    term.postingSize = posting.length

section Insert

variable {budget : ℕ} {ids : Finset LineId}

lemma insertCandidates_append (hids : ids.card < budget) (first second : List LineId) :
    insertCandidatesUpToBudget ids (first ++ second) budget =
      if budget ≤ (insertCandidatesUpToBudget ids first budget).card then
        insertCandidatesUpToBudget ids first budget
      else insertCandidatesUpToBudget (insertCandidatesUpToBudget ids first budget) second budget := by
  induction first generalizing ids with
  | nil => rw [List.nil_append, insertCandidatesUpToBudget, if_neg (not_le.mpr hids)]
  | cons id rest ih =>
    rw [List.cons_append, insertCandidatesUpToBudget, insertCandidatesUpToBudget]
    by_cases hfull : budget ≤ (insert id ids).card
    · rw [if_pos hfull, if_pos hfull, if_pos hfull]
    · rw [if_neg hfull, if_neg hfull, ih (not_le.mp hfull)]

lemma mem_insertCandidates_iff (hids : ids.card < budget) (posting : List LineId) (id : LineId) :
    id ∈ insertCandidatesUpToBudget ids posting budget ↔
      id ∈ ids ∨ id ∈ posting ∧ (ids ∪ (posting.takeWhile (· ≠ id)).toFinset).card < budget := by
  induction posting generalizing ids with
  | nil => simp [insertCandidatesUpToBudget]
  | cons first rest ih =>
    rw [insertCandidatesUpToBudget]
    by_cases hsame : first = id
    · subst hsame
      have hcount : (ids ∪ ((first :: rest).takeWhile (· ≠ first)).toFinset).card < budget := by
        simpa using hids
      refine iff_of_true ?_ (Or.inr ⟨List.mem_cons_self, hcount⟩)
      split_ifs with hfull
      · exact Finset.mem_insert_self _ _
      · exact (ih (not_le.mp hfull)).mpr (Or.inl (Finset.mem_insert_self _ _))
    · have hbefore : ids ∪ ((first :: rest).takeWhile (· ≠ id)).toFinset =
          insert first ids ∪ (rest.takeWhile (· ≠ id)).toFinset := by
        rw [List.takeWhile_cons_of_pos (by simpa using hsame), List.toFinset_cons, Finset.union_insert,
          Finset.insert_union]
      have hmem : id ∈ first :: rest ↔ id ∈ rest := by
        rw [List.mem_cons, or_iff_right (Ne.symm hsame)]
      rw [hbefore, hmem]
      split_ifs with hfull
      · have hover : ¬ (insert first ids ∪ (rest.takeWhile (· ≠ id)).toFinset).card < budget :=
          not_lt.mpr (hfull.trans (Finset.card_le_card Finset.subset_union_left))
        rw [Finset.mem_insert, or_iff_right (Ne.symm hsame), or_iff_left fun h => hover h.2]
      · rw [ih (not_le.mp hfull), Finset.mem_insert, or_iff_right (Ne.symm hsame)]

lemma insertCandidates_eq_empty_iff (posting : List LineId) :
    insertCandidatesUpToBudget ∅ posting budget = ∅ ↔ posting = [] := by
  cases posting with
  | nil => simp [insertCandidatesUpToBudget]
  | cons id rest =>
    rw [insertCandidatesUpToBudget]
    refine iff_of_false ?_ (List.cons_ne_nil _ _)
    split_ifs
    · exact Finset.insert_ne_empty _ _
    · exact insertCandidates_nonempty budget rest _ (Finset.insert_ne_empty _ _)

end Insert

section Collect

variable {s : SimilarityIndex} {budget : ℕ} {ids : Finset LineId} {terms : List (WeightedQueryTerm K)}

lemma collectCandidates_append (hids : ids.card < budget) (first second : List (WeightedQueryTerm K)) :
    collectCandidates s budget (first ++ second) ids =
      if budget ≤ (collectCandidates s budget first ids).card then collectCandidates s budget first ids
      else collectCandidates s budget second (collectCandidates s budget first ids) := by
  induction first generalizing ids with
  | nil => rw [List.nil_append, collectCandidates, if_neg (not_le.mpr hids)]
  | cons term rest ih =>
    rw [List.cons_append, collectCandidates, collectCandidates]
    by_cases hskip : commonPostingCutoff budget < term.postingSize ∧ ids ≠ ∅
    · rw [if_pos hskip, if_pos hskip, ih hids]
    · rw [if_neg hskip, if_neg hskip]
      cases s.inverted.postings.lookup term.termId with
      | none => exact ih hids
      | some posting =>
        by_cases hfull : budget ≤ (insertCandidatesUpToBudget ids posting budget).card
        · simp only [hfull, if_true]
        · simp only [hfull, if_false]
          exact ih (not_le.mp hfull)

lemma collectCandidates_rare (hids : ids.card < budget)
    (hrare : ∀ term ∈ terms, term.postingSize ≤ commonPostingCutoff budget) :
    collectCandidates s budget terms ids = insertCandidatesUpToBudget ids (postedLines s terms) budget := by
  induction terms generalizing ids with
  | nil => rfl
  | cons term rest ih =>
    obtain ⟨hterm, hrest⟩ := List.forall_mem_cons.mp hrare
    rw [collectCandidates, if_neg fun h => (not_lt.mpr hterm) h.1, postedLines, List.flatMap_cons,
      insertCandidates_append hids]
    cases s.inverted.postings.lookup term.termId with
    | none =>
      rw [Option.getD_none, insertCandidatesUpToBudget, if_neg (not_le.mpr hids)]
      exact ih hids hrest
    | some posting =>
      dsimp only [Option.getD_some]
      split_ifs with hfull
      · rfl
      · exact ih (not_le.mp hfull) hrest

lemma collectCandidates_common (hids : ids ≠ ∅)
    (hcommon : ∀ term ∈ terms, commonPostingCutoff budget < term.postingSize) :
    collectCandidates s budget terms ids = ids := by
  induction terms with
  | nil => rfl
  | cons term rest ih =>
    obtain ⟨hterm, hrest⟩ := List.forall_mem_cons.mp hcommon
    rw [collectCandidates, if_pos ⟨hterm, hids⟩]
    exact ih hrest

lemma collectCandidates_firstCommon (hsized : Sized s terms)
    (hcommon : ∀ term ∈ terms, commonPostingCutoff budget < term.postingSize) :
    collectCandidates s budget terms ∅ =
      insertCandidatesUpToBudget ∅ (postedLines s (terms.take 1)) budget := by
  cases terms with
  | nil => rfl
  | cons term rest =>
    obtain ⟨⟨posting, hposting, hsize⟩, -⟩ := List.forall_mem_cons.mp hsized
    obtain ⟨hterm, hrest⟩ := List.forall_mem_cons.mp hcommon
    have hne : posting ≠ [] := List.ne_nil_of_length_pos (by omega)
    rw [collectCandidates, if_neg fun h => h.2 rfl, hposting]
    simp only [postedLines, List.take_succ_cons, List.take_zero, List.flatMap_singleton, hposting,
      Option.getD_some]
    split_ifs
    · rfl
    · exact collectCandidates_common (mt (insertCandidates_eq_empty_iff posting).mp hne) hrest

lemma filter_append_filter (hsorted : terms.Pairwise fun left right => left.postingSize ≤ right.postingSize)
    (cutoff : ℕ) :
    (terms.filter fun term => term.postingSize ≤ cutoff) ++
      (terms.filter fun term => cutoff < term.postingSize) = terms := by
  induction terms with
  | nil => rfl
  | cons term rest ih =>
    obtain ⟨hterm, hrest⟩ := List.pairwise_cons.mp hsorted
    by_cases hcommon : cutoff < term.postingSize
    · have hnone : (rest.filter fun other => other.postingSize ≤ cutoff) = [] := by
        rw [List.filter_eq_nil_iff]
        intro other hother
        have := hterm other hother
        simp only [decide_eq_true_eq]
        omega
      have hih := ih hrest
      rw [hnone, List.nil_append] at hih
      rw [List.filter_cons_of_neg (by simpa using hcommon), List.filter_cons_of_pos (by simpa using hcommon),
        hnone, hih, List.nil_append]
    · rw [List.filter_cons_of_pos (by simpa using hcommon), List.filter_cons_of_neg (by simpa using hcommon),
        List.cons_append, ih hrest]

lemma collectCandidates_eq_insert (hbudget : 0 < budget) (hsized : Sized s terms)
    (hsorted : terms.Pairwise fun left right => left.postingSize ≤ right.postingSize) :
    collectCandidates s budget terms ∅ =
      insertCandidatesUpToBudget ∅ (retrievalOrder s budget terms) budget := by
  have hempty : (∅ : Finset LineId).card < budget := by simpa using hbudget
  have hrare : ∀ term ∈ terms.filter fun term => term.postingSize ≤ commonPostingCutoff budget,
      term.postingSize ≤ commonPostingCutoff budget :=
    fun term hterm => by simpa using List.of_mem_filter hterm
  have hcommon : ∀ term ∈ terms.filter fun term => commonPostingCutoff budget < term.postingSize,
      commonPostingCutoff budget < term.postingSize :=
    fun term hterm => by simpa using List.of_mem_filter hterm
  rw [← filter_append_filter hsorted (commonPostingCutoff budget), collectCandidates_append hempty,
    collectCandidates_rare hempty hrare,
    filter_append_filter hsorted, retrievalOrder]
  by_cases hlines : postedLines s (terms.filter fun term => term.postingSize ≤ commonPostingCutoff budget) = []
  · rw [if_pos hlines, hlines, insertCandidatesUpToBudget, if_neg (not_le.mpr hempty)]
    exact collectCandidates_firstCommon (fun term hterm => hsized term (List.mem_of_mem_filter hterm))
      hcommon
  · rw [if_neg hlines]
    split_ifs
    · rfl
    · exact collectCandidates_common (mt (insertCandidates_eq_empty_iff _).mp hlines) hcommon

lemma mem_selectCandidates_iff (hbudget : 0 < budget) (hsized : Sized s terms)
    (hsorted : terms.Pairwise fun left right => left.postingSize ≤ right.postingSize) (id : LineId) :
    id ∈ selectCandidates s budget terms ↔ AmongFirst (retrievalOrder s budget terms) budget id := by
  rw [selectCandidates_eq_collect, collectCandidates_eq_insert hbudget hsized hsorted,
    mem_insertCandidates_iff (by simpa using hbudget)]
  simp [AmongFirst]

end Collect

section Query

variable [Field K] [LinearOrder K] (A : ScoreArithmetic K) (P : Platform K) (s : SimilarityIndex)
  (query : Text) (minScore : K) (maxResults : ℕ)

def queryTerms : List (WeightedQueryTerm K) :=
  P.sortTerms (weightedTerms A s (s.queryTermFrequency query))

structure Draws (id : LineId) : Prop where
  weighted : 0 < normSquared A s (s.queryTermFrequency query)
  amongFirst : AmongFirst (retrievalOrder s (candidateBudget maxResults) (queryTerms A P s query))
    (candidateBudget maxResults) id

def Scores (id : LineId) (result : SearchResult K) : Prop :=
  Draws A P s query maxResults id ∧
    scoreCandidate A s (s.queryTermFrequency query) minScore id = some result

variable {A P s query minScore maxResults}

lemma sized_queryTerms : Sized s (queryTerms A P s query) := by
  intro term hterm
  have hweighted := (P.sortTerms_perm _).mem_iff.mp hterm
  obtain ⟨entry, -, hentry⟩ := List.mem_filterMap.mp hweighted
  obtain ⟨posting, hposting, rfl⟩ := Option.map_eq_some_iff.mp hentry
  exact ⟨posting, hposting, rfl⟩

lemma sorted_queryTerms : (queryTerms A P s query).Pairwise
    fun left right => left.postingSize ≤ right.postingSize := by
  apply (P.sortTerms_sorted _).imp
  intro left right h
  rw [WeightedQueryTerm.Before] at h
  by_contra hlt
  rw [not_le] at hlt
  exact h (by rwa [if_pos hlt.ne])

lemma retrievalOrder_single {t : TermId} {n : ℕ} {posting : List LineId}
    (hquery : s.queryTermFrequency query = [(t, n)])
    (hposting : s.inverted.postings.lookup t = some posting) (budget : ℕ) :
    retrievalOrder s budget (queryTerms A P s query) = posting := by
  have hterms : queryTerms A P s query = [⟨t, weight A s (t, n), posting.length⟩] := by
    rw [queryTerms, hquery, weightedTerms, List.filterMap_cons, hposting]
    exact List.perm_singleton.mp (P.sortTerms_perm _)
  have hlines : postedLines s [(⟨t, weight A s (t, n), posting.length⟩ : WeightedQueryTerm K)] = posting := by
    rw [postedLines, List.flatMap_singleton, hposting, Option.getD_some]
  rw [hterms, retrievalOrder]
  by_cases hrare : posting.length ≤ commonPostingCutoff budget
  · simp only [List.filter_cons, hrare, not_lt.mpr hrare, decide_true, decide_false, if_true, List.filter_nil,
      hlines, List.take_nil, Bool.false_eq_true, if_false]
    split_ifs with hnil
    · rw [hnil]
      rfl
    · rfl
  · simp only [List.filter_cons, hrare, not_le.mp hrare, decide_true, decide_false, if_true, List.filter_nil,
      hlines, List.take_succ_cons, List.take_zero, Bool.false_eq_true, if_false]
    exact if_pos rfl

lemma candidateBudget_pos (maxResults : ℕ) : 0 < candidateBudget maxResults := by
  rw [candidateBudget, kMaxCandidateBudget]
  omega

lemma not_draws_of_weightedTerms (h : weightedTerms A s (s.queryTermFrequency query) = []) (id : LineId) :
    ¬ Draws A P s query maxResults id := by
  intro hdraws
  have hterms : queryTerms A P s query = [] := by
    rw [queryTerms, h]
    exact (P.sortTerms_perm []).eq_nil
  have hmem := hdraws.amongFirst.1
  rw [hterms] at hmem
  exact absurd hmem List.not_mem_nil

lemma mem_scoredLines_iff (hmax : maxResults ≠ 0) (hlines : FiniteMap.size s.lines ≠ 0) (id : LineId) :
    id ∈ scoredLines A P s query maxResults ↔ Draws A P s query maxResults id := by
  rw [scoredLines]
  by_cases hweighted : weightedTerms A s (s.queryTermFrequency query) = []
  · simp [hweighted, not_draws_of_weightedTerms hweighted]
  have hfrequencies : s.queryTermFrequency query ≠ [] := fun h => hweighted (by rw [h]; rfl)
  have hsized : Sized s (queryTerms A P s query) := sized_queryTerms
  have hselect := mem_selectCandidates_iff (candidateBudget_pos maxResults) hsized sorted_queryTerms id
  by_cases hnorm : normSquared A s (s.queryTermFrequency query) ≤ 0
  · simpa [hnorm] using fun h : Draws A P s query maxResults id => absurd h.weighted (not_lt.mpr hnorm)
  · simp only [hlines, hmax, hfrequencies, hweighted, hnorm, or_self, if_false]
    exact hselect.trans ⟨fun h => ⟨not_le.mp hnorm, h⟩, fun h => h.amongFirst⟩

lemma encard_filterMap {α β : Type} [DecidableEq α] {xs : List α} (hxs : xs.Nodup) (f : α → Option β)
    (p : β → Prop) [DecidablePred p] :
    {x | x ∈ xs ∧ ∃ y, f x = some y ∧ p y}.encard = ((xs.filterMap f).countP fun y => p y : ℕ) := by
  have hset : {x | x ∈ xs ∧ ∃ y, f x = some y ∧ p y} =
      ((xs.filter fun x => ((f x).map fun y => decide (p y)).getD false).toFinset : Set α) := by
    ext x
    cases hx : f x <;> simp [hx]
  rw [hset, Set.encard_coe_eq_coe_finsetCard, List.toFinset_card_of_nodup (hxs.filter _),
    List.countP_filterMap, List.countP_eq_length_filter]

lemma scores_iff (hmax : maxResults ≠ 0) {id : LineId} {result : SearchResult K} :
    Scores A P s query minScore maxResults id result ↔
      id ∈ P.iterate (scoredLines A P s query maxResults) ∧
        scoreCandidate A s (s.queryTermFrequency query) minScore id = some result := by
  refine and_congr_left fun hscore => ?_
  obtain ⟨line, hline, -⟩ := (scoreCandidate_eq_some A).mp hscore
  have hlines : FiniteMap.size s.lines ≠ 0 := by
    intro hzero
    rw [(FiniteMap.size_eq_zero _).mp hzero] at hline
    cases hline
  rw [P.mem_iterate, mem_scoredLines_iff hmax hlines]

def scoredResults (A : ScoreArithmetic K) (P : Platform K) (s : SimilarityIndex) (query : Text) (minScore : K)
    (maxResults : ℕ) : List (SearchResult K) :=
  scoreCandidates A s (s.queryTermFrequency query) minScore P.hardwareConcurrency
    (P.iterate (scoredLines A P s query maxResults))

lemma mem_scoredResults (hmax : maxResults ≠ 0) {result : SearchResult K} :
    result ∈ scoredResults A P s query minScore maxResults ↔
      ∃ id, Scores A P s query minScore maxResults id result := by
  rw [scoredResults, scoreCandidates_eq, List.mem_filterMap]
  exact exists_congr fun id => (scores_iff hmax).symm

lemma encard_scores (hmax : maxResults ≠ 0) (p : SearchResult K → Prop) [DecidablePred p] :
    {id | ∃ result, Scores A P s query minScore maxResults id result ∧ p result}.encard =
      ((scoredResults A P s query minScore maxResults).countP fun result => p result : ℕ) := by
  rw [scoredResults, scoreCandidates_eq, ← encard_filterMap (P.iterate_nodup _)]
  simp only [scores_iff hmax, and_assoc, exists_and_left]

lemma mem_search_iff {result : SearchResult K} :
    result ∈ search A P s query minScore maxResults ↔
      (∃ id, Scores A P s query minScore maxResults id result) ∧
        {id | ∃ other, Scores A P s query minScore maxResults id other ∧ other.Before result}.encard <
          maxResults := by
  by_cases hmax : maxResults = 0
  · subst hmax
    simp [search, rankResults]
  · rw [encard_scores hmax, Nat.cast_lt, ← mem_scoredResults hmax]
    exact mem_rankResults_iff

end Query

end DltxtBridge.SimilarityIndex
