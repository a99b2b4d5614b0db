import DltxtBridge.Library.ForkJoin
import DltxtBridge.SimilarityIndex.Ranking

namespace DltxtBridge.SimilarityIndex

section Ranges

variable {hardwareConcurrency n index : ℕ}

def chunkSize (n tasks : ℕ) : ℕ := (n + tasks - 1) / tasks

lemma taskRange_eq (n tasks index : ℕ) :
    taskRange n tasks index =
      (index * chunkSize n tasks, min n (index * chunkSize n tasks + chunkSize n tasks)) := rfl

lemma begin_le_of_lt {tasks : ℕ} (htasks : tasks ≤ 4) (hn : tasks = 1 ∨ 128 ≤ n) (hindex : index < tasks) :
    index * chunkSize n tasks ≤ n := by
  rcases hn with rfl | hn
  · rw [Nat.lt_one_iff.mp hindex, Nat.zero_mul]
    exact Nat.zero_le n
  · have hchunk : chunkSize n tasks * tasks ≤ n + tasks - 1 := Nat.div_mul_le_self _ _
    have hlast : index * chunkSize n tasks ≤ (tasks - 1) * chunkSize n tasks :=
      Nat.mul_le_mul_right _ (Nat.le_sub_one_of_lt hindex)
    -- at most four tasks for 128 candidates: the last chunk does not begin past the end
    interval_cases tasks <;> omega

lemma parallelTaskCount_le (hardwareConcurrency n : ℕ) : parallelTaskCount hardwareConcurrency n ≤ 4 := by
  rw [parallelTaskCount]
  split_ifs <;> omega

lemma parallelTaskCount_cases (hardwareConcurrency n : ℕ) :
    parallelTaskCount hardwareConcurrency n = 1 ∨ 128 ≤ n := by
  rw [parallelTaskCount]
  split_ifs with hn
  · exact Or.inl rfl
  · exact Or.inr (not_lt.mp hn)

def taskRanges (hardwareConcurrency n : ℕ) : List (ℕ × ℕ) :=
  (List.range (parallelTaskCount hardwareConcurrency n)).map
    (taskRange n (parallelTaskCount hardwareConcurrency n))

lemma taskRange_ordered (hindex : index < parallelTaskCount hardwareConcurrency n) :
    (taskRange n (parallelTaskCount hardwareConcurrency n) index).1 ≤
        (taskRange n (parallelTaskCount hardwareConcurrency n) index).2 ∧
      (taskRange n (parallelTaskCount hardwareConcurrency n) index).2 ≤ n := by
  have hbegin := begin_le_of_lt (parallelTaskCount_le hardwareConcurrency n)
    (parallelTaskCount_cases hardwareConcurrency n) hindex
  rw [taskRange_eq]
  exact ⟨le_min hbegin (Nat.le_add_right _ _), Nat.min_le_left _ _⟩

lemma exists_unique_taskRange {position : ℕ} (hposition : position < n) :
    ∃! index, index < parallelTaskCount hardwareConcurrency n ∧
      (taskRange n (parallelTaskCount hardwareConcurrency n) index).1 ≤ position ∧
      position < (taskRange n (parallelTaskCount hardwareConcurrency n) index).2 := by
  have htasks := parallelTaskCount_pos hardwareConcurrency n
  generalize parallelTaskCount hardwareConcurrency n = tasks at htasks
  have hcover : n ≤ tasks * chunkSize n tasks := le_mul_chunk n htasks
  have hchunk : 0 < chunkSize n tasks := by
    rcases Nat.eq_zero_or_pos (chunkSize n tasks) with hzero | hpos
    · rw [hzero, Nat.mul_zero] at hcover
      omega
    · exact hpos
  simp only [taskRange_eq, lt_min_iff, ← Nat.succ_mul]
  refine ⟨position / chunkSize n tasks, ⟨?_, Nat.div_mul_le_self _ _, hposition, ?_⟩, ?_⟩
  · exact Nat.div_lt_of_lt_mul (by rw [mul_comm]; omega)
  · exact (Nat.div_lt_iff_lt_mul hchunk).mp (Nat.lt_succ_self _)
  · rintro index ⟨-, hbegin, -, hend⟩
    exact (Nat.div_eq_of_lt_le hbegin hend).symm

end Ranges

section Scoring

variable {K : Type} [Field K] [LinearOrder K] (A : ScoreArithmetic K)

/-- What `results` may hold before the sort, for some order in which the tasks score their
candidates and count down the latch; `partial_results` are the outputs of the tasks. -/
def ScoresInParallel (s : SimilarityIndex) (query : TermFrequencyMap) (minScore : K) (hardwareConcurrency : ℕ)
    (candidateList : List LineId) (results : List (SearchResult K)) : Prop :=
  if parallelTaskCount hardwareConcurrency candidateList.length = 1 then
    results = scoreCandidateRange A s query minScore candidateList (0, candidateList.length)
  else ∃ events done,
    TransitionSystem.run (ForkJoin.step (scoreCandidate A s query minScore) candidateList)
      (ForkJoin.start (taskRanges hardwareConcurrency candidateList.length)) events = some done ∧
    done.latch = 0 ∧ results = done.tasks.flatMap ForkJoin.Task.output

variable {s : SimilarityIndex} {query : TermFrequencyMap} {minScore : K} {hardwareConcurrency : ℕ}
  {candidateList : List LineId} {results : List (SearchResult K)}

lemma fits_taskRanges : ∀ range ∈ taskRanges hardwareConcurrency candidateList.length,
    ForkJoin.Fits candidateList range := by
  intro range hrange
  obtain ⟨index, hindex, rfl⟩ := List.mem_map.mp hrange
  exact taskRange_ordered (List.mem_range.mp hindex)

lemma exists_scoresInParallel :
    ∃ results, ScoresInParallel A s query minScore hardwareConcurrency candidateList results := by
  simp only [ScoresInParallel]
  split_ifs
  · exact ⟨_, rfl⟩
  · obtain ⟨events, done, hrun, hlatch⟩ :=
      (@ForkJoin.invariant_start _ _ (scoreCandidate A s query minScore) _ _ fits_taskRanges).exists_run
    exact ⟨_, events, done, hrun, hlatch, rfl⟩

lemma ScoresInParallel.eq (h : ScoresInParallel A s query minScore hardwareConcurrency candidateList results) :
    results = scoreCandidates A s query minScore hardwareConcurrency candidateList := by
  rw [ScoresInParallel] at h
  simp only [scoreCandidates]
  split_ifs at h ⊢ with htasks
  · exact h
  · obtain ⟨events, done, hrun, hlatch, rfl⟩ := h
    rw [(ForkJoin.invariant_run (ForkJoin.invariant_start fits_taskRanges) hrun).outputs hlatch, taskRanges,
      List.flatMap_map]
    rfl

theorem parallel_scoring_eq_sequential (s : SimilarityIndex) (query : TermFrequencyMap) (minScore : K)
    (hardwareConcurrency maxResults : ℕ) (candidateList : List LineId) :
    (∀ index < parallelTaskCount hardwareConcurrency candidateList.length,
      (taskRange candidateList.length (parallelTaskCount hardwareConcurrency candidateList.length) index).1 ≤
        (taskRange candidateList.length (parallelTaskCount hardwareConcurrency candidateList.length) index).2 ∧
      (taskRange candidateList.length (parallelTaskCount hardwareConcurrency candidateList.length) index).2 ≤
        candidateList.length) ∧
    (∀ position < candidateList.length,
      ∃! index, index < parallelTaskCount hardwareConcurrency candidateList.length ∧
        (taskRange candidateList.length (parallelTaskCount hardwareConcurrency candidateList.length) index).1 ≤
          position ∧
        position <
          (taskRange candidateList.length (parallelTaskCount hardwareConcurrency candidateList.length) index).2) ∧
    (∃ results, ScoresInParallel A s query minScore hardwareConcurrency candidateList results) ∧
    ∀ results otherOrder, ScoresInParallel A s query minScore hardwareConcurrency candidateList results →
      otherOrder.Perm candidateList →
      rankResults results maxResults =
        rankResults (scoreCandidateRange A s query minScore otherOrder (0, otherOrder.length)) maxResults := by
  refine ⟨fun index => taskRange_ordered, fun position => exists_unique_taskRange,
    exists_scoresInParallel A, ?_⟩
  intro results otherOrder hscores hperm
  have hsequential : scoreCandidateRange A s query minScore otherOrder (0, otherOrder.length) =
      otherOrder.filterMap (scoreCandidate A s query minScore) := by
    rw [scoreCandidateRange, List.drop_zero, Nat.sub_zero, List.take_length]
  rw [hscores.eq, scoreCandidates_eq, hsequential]
  exact rankResults_perm (hperm.symm.filterMap _) maxResults

end Scoring

section Examples

def rationalScores : ScoreArithmetic ℚ := ⟨fun _ => 0, id⟩

def fourLines : SimilarityIndex :=
  IndexCall.run [.upsert 1 (ascii "a") 0 [97, 98, 99], .upsert 5 (ascii "a") 1 [97, 98],
    .upsert 70 (ascii "b") 0 [97, 98, 97, 98], .upsert 100 (ascii "b") 1 [98, 99]]

def turns : List ℕ := (List.range 65).flatMap fun _ => [1, 0]

lemma turns_finish :
    (TransitionSystem.run
      (ForkJoin.step (scoreCandidate rationalScores fourLines (fourLines.queryTermFrequency [97, 98]) 0)
        (List.range 128))
      (ForkJoin.start (taskRanges 2 128)) turns).map (fun done =>
        (done.latch, done.tasks.map fun task => task.output.map SearchResult.lineId)) =
      some (0, [[1, 5], [70]]) := by
  decide +kernel

theorem parallel_scoring_two_tasks :
    ∃ done, TransitionSystem.run
        (ForkJoin.step (scoreCandidate rationalScores fourLines (fourLines.queryTermFrequency [97, 98]) 0)
          (List.range 128))
        (ForkJoin.start (taskRanges 2 128)) turns = some done ∧
      done.tasks.map (fun task => task.output.map SearchResult.lineId) = [[1, 5], [70]] ∧
      rankResults (done.tasks.flatMap ForkJoin.Task.output) 2 =
        rankResults (scoreCandidateRange rationalScores fourLines (fourLines.queryTermFrequency [97, 98]) 0
          (List.range 128).reverse (0, (List.range 128).reverse.length)) 2 := by
  obtain ⟨done, hrun, hdone⟩ := Option.map_eq_some_iff.mp turns_finish
  obtain ⟨hlatch, hfound⟩ := Prod.mk.inj hdone
  have hparallel := (parallel_scoring_eq_sequential rationalScores fourLines
    (fourLines.queryTermFrequency [97, 98]) 0 2 2 (List.range 128)).2.2.2
  refine ⟨done, hrun, hfound, hparallel _ _ ?_ (List.reverse_perm _)⟩
  rw [ScoresInParallel, List.length_range, if_neg (by decide)]
  exact ⟨turns, done, hrun, hlatch, rfl⟩

end Examples

end DltxtBridge.SimilarityIndex
