import DltxtBridge.Crossref.Reachable
import DltxtBridge.Crossref.Refinement
import DltxtBridge.Crossref.SearchLine
import DltxtBridge.SimilarityIndex.Budget
import DltxtBridge.SimilarityIndex.Cosine

namespace DltxtBridge.Crossref

open SimilarityIndex TransitionSystem

section Model

variable {K : Type} [Field K] [LinearOrder K]

variable (A : ScoreArithmetic K) (P : Platform K) (s : BuildState) (q : LineQuery)

def scoredBefore (candidate : SearchResult K) : Set LineId :=
  {id | ∃ other, Scores A P s.index q.query 0 q.rawLimit id other ∧ other.Before candidate}

def Retained (id : LineId) (result : LineSearchResult) : Prop :=
  ∃ candidate, Scores A P s.index q.query 0 q.rawLimit id candidate ∧
    q.lineResult s.lineInfos candidate.lineId = some result ∧
    (scoredBefore A P s q candidate).encard < q.rawLimit

end Model

section Cut

variable {α : Type} {p : α → Bool} {xs : List α} {k : ℕ}

end Cut

section Exclusion

variable {K : Type} [Field K] [LinearOrder K] {A : ScoreArithmetic K} {P : Platform K} {s : BuildState}
  {q : LineQuery}

end Exclusion

namespace PooledService

variable {env : Environment} {s : PooledService} {event : Event} {service : CrossrefService}

lemma effect_sound (h : BuildState.Sound s.service.toBuildState) (heffect : Effect env s event service) :
    BuildState.Sound service.toBuildState := by
  have hconsistent := effect_consistent h.consistent heffect
  cases heffect with
  | unchanged | configured => exact h
  | cleared => exact BuildState.Sound.empty [] []
  | rebuilt position fs p folders documents state he htask hstamp hstate =>
    exact snapshot_induction hstate (BuildState.Sound.empty _ _)
      fun _ _ _ _ hingests hb => hb.ingests hingests
  | updated position fs document p parser pairs =>
    exact (h.replaceDocument document.filePath.genericString document.filePath.filename pairs).congr
      hconsistent rfl rfl
  | unparsed position fs document =>
    exact (h.eraseFile document.filePath.genericString).congr hconsistent rfl rfl
  | refreshed position fs path p content parser pairs =>
    exact (h.replaceDocument path.genericString path.filename pairs).congr hconsistent rfl rfl
  | erased f => exact h.eraseFile f

theorem run_sound {events : List Event} (hrun : run (step env) {} events = some s) :
    BuildState.Sound s.service.toBuildState :=
  invariant (fun _ _ _ h hstep => effect_sound h (effect_of_step hstep)) (BuildState.Sound.empty [] []) hrun

end PooledService

section Examples

open Documents

def otherName : FileName where
  bytes := ascii "b.txt"
  ne_nil := by decide
  no_separator := by decide
  ne_dot := by decide
  ne_dotDot := by decide

end Examples

end DltxtBridge.Crossref
