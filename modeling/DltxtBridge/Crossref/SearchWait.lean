import DltxtBridge.Crossref.Reachable

/-! The waiting section of `search_json`, next to the calls and the rebuilds it waits for.
The lock is taken for one step at a time, and `notify_all` comes after it is released. -/

namespace DltxtBridge.Crossref

open Documents TransitionSystem

/-- What the section has read when it ends. `indexParser` is the parser state of the rebuild
that was applied last. -/
structure WaitEnd where
  target : ℕ
  timedOut : Bool
  parserState : Option ParserState
  rebuildGeneration : ℕ
  appliedGeneration : ℕ
  indexParser : Option ParserState

/-- The section waits for its target; a notified one has yet to take the lock. -/
inductive WaitSection
  | outside
  | waiting (target : ℕ) (notified : Bool)
  | ended (result : WaitEnd)

/-- `notifications` counts the calls of `notify_all` that are still to come. -/
structure SearchedService where
  pool : PooledService := {}
  notifications : ℕ := 0
  indexParser : Option ParserState := none
  waitSection : WaitSection := .outside

namespace SearchedService

inductive Event
  | service (event : Crossref.Event)
  | notifyAll
  | enter
  | wake
  | spuriousWake
  | deadline

section Model

variable (env : Environment)

def appliedParser? (s : PooledService) : Crossref.Event → Option ParserState
  | .runTask position fs =>
    match s.tasks[position]? with
    | some (.rebuild parserState generation workspaceFolders openDocuments) =>
      if (buildStateFromSnapshot env fs workspaceFolders openDocuments parserState).isSome ∧
          s.service.hasStamp parserState.stamp ∧ generation = s.service.rebuildGeneration then
        some parserState
      else none
    | _ => none
  | _ => none

def failsRebuild (s : PooledService) : Crossref.Event → Bool
  | .runTask position fs =>
    match s.tasks[position]? with
    | some (.rebuild parserState _ workspaceFolders openDocuments) =>
      (buildStateFromSnapshot env fs workspaceFolders openDocuments parserState).isNone
    | _ => false
  | .failRebuild _ => true
  | _ => false

def indexParserAfter (s : SearchedService) (event : Crossref.Event) : Option ParserState :=
  match event with
  | .clearParserConfig => none
  | event => (appliedParser? env s.pool event).or s.indexParser

def mayGoOn (s : CrossrefService) (target : ℕ) : Bool :=
  s.parserState.isNone || s.rebuildGeneration ≠ target || target ≤ s.appliedGeneration

def read (s : SearchedService) (target : ℕ) (timedOut : Bool) : WaitEnd where
  target := target
  timedOut := timedOut
  parserState := s.pool.service.parserState
  rebuildGeneration := s.pool.service.rebuildGeneration
  appliedGeneration := s.pool.service.appliedGeneration
  indexParser := s.indexParser

def endSection (s : SearchedService) (target : ℕ) (timedOut : Bool) : SearchedService :=
  { s with waitSection := .ended (s.read target timedOut) }

def enter (s : SearchedService) : SearchedService :=
  let target := s.pool.service.rebuildGeneration
  if s.pool.service.parserState.isSome ∧ s.pool.service.appliedGeneration < target then
    { s with waitSection := .waiting target false }
  else s.endSection target false

def reconsider (s : SearchedService) (target : ℕ) : SearchedService :=
  if mayGoOn s.pool.service target then s.endSection target false
  else { s with waitSection := .waiting target false }

def step (s : SearchedService) : Event → Option SearchedService
  | .service event =>
    (s.pool.step env event).map fun pool =>
      { s with
        pool := pool
        notifications := s.notifications +
          if (appliedParser? env s.pool event).isSome ∨ failsRebuild env s.pool event then 1 else 0
        indexParser := indexParserAfter env s event }
  | .notifyAll =>
    if s.notifications = 0 then none
    else
      let delivered := { s with notifications := s.notifications - 1 }
      match s.waitSection with
      | .waiting target _ => some { delivered with waitSection := .waiting target true }
      | _ => some delivered
  | .enter =>
    match s.waitSection with
    | .waiting _ _ => none
    | _ => some s.enter
  | .wake =>
    match s.waitSection with
    | .waiting target true => some (s.reconsider target)
    | _ => none
  | .spuriousWake =>
    match s.waitSection with
    | .waiting target _ => some (s.reconsider target)
    | _ => none
  | .deadline =>
    match s.waitSection with
    | .waiting target _ => some (s.endSection target (!mayGoOn s.pool.service target))
    | _ => none

end Model

structure Consistent (e : WaitEnd) : Prop where
  bounded : e.appliedGeneration ≤ e.rebuildGeneration
  built : ∀ q, e.parserState = some q → e.appliedGeneration = e.rebuildGeneration → e.indexParser = some q
  current : e.timedOut = false → e.parserState.isSome → e.rebuildGeneration = e.target →
    e.appliedGeneration = e.rebuildGeneration

structure Valid (s : SearchedService) : Prop where
  pool : WellFormed s.pool
  built : ∀ q, s.pool.service.parserState = some q →
    s.pool.service.appliedGeneration = s.pool.service.rebuildGeneration → s.indexParser = some q
  ended : ∀ e, s.waitSection = .ended e → Consistent e

variable {env : Environment} {s t : SearchedService}

lemma valid_empty : Valid {} where
  pool := wellFormed_empty
  built q h := by cases h
  ended e h := by cases h

lemma appliedParser?_eq_some {s : PooledService} {event : Crossref.Event} {p : ParserState}
    (h : appliedParser? env s event = some p) :
    ∃ position fs folders documents, event = .runTask position fs ∧
      s.tasks[position]? = some (.rebuild p s.service.rebuildGeneration folders documents) := by
  cases event with
  | runTask position fs =>
    rw [appliedParser?] at h
    split at h
    · rename_i htask
      split_ifs at h with hguard
      cases h
      rw [hguard.2.2] at htask
      exact ⟨position, fs, _, _, rfl, htask⟩
    · cases h
  | _ => cases h

lemma appliedParser?_of_rebuilt {pool : PooledService} {position : ℕ} {fs : FileSystem} {p : ParserState}
    {folders : List Bytes} {documents : List TextDocument} {state : BuildState}
    (htask : pool.tasks[position]? = some (.rebuild p pool.service.rebuildGeneration folders documents))
    (hstamp : pool.service.hasStamp p.stamp)
    (hstate : buildStateFromSnapshot env fs folders documents p = some state) :
    appliedParser? env pool (.runTask position fs) = some p := by
  simp [appliedParser?, htask, hstamp, hstate]

lemma built_service (h : Valid s) {event : Crossref.Event} {pool : PooledService}
    (hstep : s.pool.step env event = some pool) {q : ParserState} (hq : pool.service.parserState = some q)
    (happlied : pool.service.appliedGeneration = pool.service.rebuildGeneration) :
    indexParserAfter env s event = some q := by
  have hclear : event ≠ .clearParserConfig := by
    rintro rfl
    cases hstep
    cases hq
  have heffect := PooledService.effect_of_step hstep
  generalize pool.service = service at heffect hq happlied
  rw [indexParserAfter.eq_2 env s event hclear]
  cases happlies : appliedParser? env s.pool event with
  | some p =>
    obtain ⟨position, fs, folders, documents, rfl, htask⟩ := appliedParser?_eq_some happlies
    have hkept : s.pool.service.parserState = some q := by
      cases heffect with
      | configured _ _ _ hevent => cases hevent
      | cleared hevent => cases hevent
      | _ => exact hq
    rw [h.pool.newest p folders documents (List.mem_of_getElem? htask) q hkept]
    rfl
  | none =>
    rw [Option.none_or]
    cases heffect with
    | configured =>
      have hbounded := h.pool.bounded
      simp only [CrossrefService.configure] at happlied
      omega
    | cleared => cases hq
    | rebuilt position fs p folders documents state hevent htask hstamp hstate =>
      subst hevent
      rw [appliedParser?_of_rebuilt htask hstamp hstate] at happlies
      cases happlies
    | _ => exact h.built q hq happlied

lemma consistent_read (h : Valid s) {target : ℕ} {timedOut : Bool}
    (hcurrent : timedOut = false → s.pool.service.parserState.isSome →
      s.pool.service.rebuildGeneration = target → target ≤ s.pool.service.appliedGeneration) :
    Consistent (s.read target timedOut) where
  bounded := h.pool.bounded
  built := h.built
  current htime hpresent hsame := by
    apply le_antisymm h.pool.bounded
    exact hsame.le.trans (hcurrent htime hpresent hsame)

lemma applied_of_mayGoOn {service : CrossrefService} {target : ℕ} (h : mayGoOn service target)
    (hpresent : service.parserState.isSome) (hsame : service.rebuildGeneration = target) :
    target ≤ service.appliedGeneration := by
  have hnone : service.parserState ≠ none := Option.isSome_iff_ne_none.mp hpresent
  simpa [mayGoOn, hnone, hsame] using h

lemma Valid.endSection (h : Valid s) {target : ℕ} {timedOut : Bool}
    (hcurrent : timedOut = false → s.pool.service.parserState.isSome →
      s.pool.service.rebuildGeneration = target → target ≤ s.pool.service.appliedGeneration) :
    Valid (s.endSection target timedOut) where
  pool := h.pool
  built := h.built
  ended e he := by
    cases he
    exact consistent_read h hcurrent

lemma Valid.waiting (h : Valid s) (notifications target : ℕ) (notified : Bool) :
    Valid { s with notifications := notifications, waitSection := .waiting target notified } where
  pool := h.pool
  built := h.built
  ended e he := by cases he

lemma Valid.reconsider (h : Valid s) (target : ℕ) : Valid (s.reconsider target) := by
  rw [SearchedService.reconsider]
  split_ifs with hgo
  · exact h.endSection fun _ hpresent hsame => applied_of_mayGoOn hgo hpresent hsame
  · exact h.waiting s.notifications target false

lemma Valid.enter (h : Valid s) : Valid s.enter := by
  rw [SearchedService.enter]
  split_ifs with hwait
  · exact h.waiting s.notifications _ false
  · apply h.endSection
    intro _ hpresent _
    rw [not_and, not_lt] at hwait
    exact hwait hpresent

lemma Valid.step (h : Valid s) {event : Event} (hstep : s.step env event = some t) : Valid t := by
  cases event with
  | service event =>
    obtain ⟨pool, hpool, rfl⟩ := Option.map_eq_some_iff.mp hstep
    exact ⟨PooledService.wellFormed_step h.pool hpool, fun q hq => built_service h hpool hq, h.ended⟩
  | notifyAll =>
    rw [SearchedService.step] at hstep
    split_ifs at hstep
    simp only at hstep
    split at hstep
    · cases hstep
      exact h.waiting _ _ true
    · cases hstep
      exact ⟨h.pool, h.built, h.ended⟩
  | enter =>
    rw [SearchedService.step] at hstep
    split at hstep
    · cases hstep
    · cases hstep
      exact h.enter
  | wake =>
    rw [SearchedService.step] at hstep
    split at hstep
    · cases hstep
      exact h.reconsider _
    · cases hstep
  | spuriousWake =>
    rw [SearchedService.step] at hstep
    split at hstep
    · cases hstep
      exact h.reconsider _
    · cases hstep
  | deadline =>
    rw [SearchedService.step] at hstep
    split at hstep
    · cases hstep
      apply h.endSection
      intro htime hpresent hsame
      exact applied_of_mayGoOn (by simpa using htime) hpresent hsame
    · cases hstep

lemma run_valid {events : List Event} (hrun : run (step env) {} events = some s) : Valid s :=
  invariant (fun _ _ _ h hstep => Valid.step h hstep) valid_empty hrun

theorem search_after_wait {events : List Event} (hrun : run (step env) {} events = some s) {e : WaitEnd}
    (hend : s.waitSection = .ended e) (htime : e.timedOut = false) {parserState : ParserState}
    (hpresent : e.parserState = some parserState) :
    e.appliedGeneration = e.rebuildGeneration ∧ e.indexParser = some parserState ∨
      e.rebuildGeneration ≠ e.target := by
  have h := (run_valid hrun).ended e hend
  by_cases hsame : e.rebuildGeneration = e.target
  · have happlied := h.current htime (by rw [hpresent]; rfl) hsame
    exact .inl ⟨happlied, h.built parserState hpresent happlied⟩
  · exact .inr hsame

section Examples

def configureWorkspace (stamp : Bytes) : Event :=
  .service (.updateParserConfig ⟨{}, stamp⟩ [ascii "file:///w"] [])

def searchDuringRebuild : List Event :=
  [configureWorkspace (ascii "one"), .enter, .service (.runTask 0 (oneFile (ascii "x"))), .notifyAll, .wake]

def overtakenSearch : List Event :=
  [configureWorkspace (ascii "one"), .enter, .service (.runTask 0 (oneFile (ascii "x"))), .notifyAll,
    configureWorkspace (ascii "two"), .wake]

def outcome (s : SearchedService) : Option (Bool × Option Bytes × ℕ × ℕ × ℕ) :=
  match s.waitSection with
  | .ended e => some (e.timedOut, e.parserState.map ParserState.stamp, e.target, e.appliedGeneration,
      e.rebuildGeneration)
  | _ => none

lemma ended_of_outcome {events : List Event} {timedOut : Bool} {stamp : Bytes} {target applied rebuild : ℕ}
    (h : (run (step asciiEnvironment) {} events).bind outcome =
      some (timedOut, some stamp, target, applied, rebuild)) :
    ∃ s e q, run (step asciiEnvironment) {} events = some s ∧ s.waitSection = .ended e ∧
      e.timedOut = timedOut ∧ e.parserState = some q ∧ e.target = target ∧
      e.appliedGeneration = applied ∧ e.rebuildGeneration = rebuild := by
  obtain ⟨s, hrun, hs⟩ := Option.bind_eq_some_iff.mp h
  rw [outcome] at hs
  split at hs
  · rename_i e hend
    simp only [Option.some.injEq, Prod.mk.injEq] at hs
    obtain ⟨htime, hstamp, htarget, happlied, hrebuild⟩ := hs
    obtain ⟨q, hq, -⟩ := Option.map_eq_some_iff.mp hstamp
    exact ⟨s, e, q, hrun, hend, htime, hq, htarget, happlied, hrebuild⟩
  · cases hs

theorem search_waits_for_rebuild :
    ∃ s e q, run (step asciiEnvironment) {} searchDuringRebuild = some s ∧ s.waitSection = .ended e ∧
      e.parserState = some q ∧ e.appliedGeneration = e.rebuildGeneration ∧ e.indexParser = some q := by
  obtain ⟨s, e, q, hrun, hend, htime, hq, htarget, -, hrebuild⟩ :=
    ended_of_outcome (show (run (step asciiEnvironment) {} searchDuringRebuild).bind outcome =
      some (false, some (ascii "one"), 1, 1, 1) by decide)
  rcases search_after_wait hrun hend htime hq with ⟨happlied, hbuilt⟩ | hchanged
  · exact ⟨s, e, q, hrun, hend, hq, happlied, hbuilt⟩
  · exact absurd (hrebuild.trans htarget.symm) hchanged

theorem search_overtaken :
    ¬ ∀ (env : Environment) (events : List Event) (s : SearchedService) (e : WaitEnd),
      run (step env) {} events = some s → s.waitSection = .ended e → e.timedOut = false →
      e.parserState.isSome → e.appliedGeneration = e.rebuildGeneration := by
  intro h
  obtain ⟨s, e, q, hrun, hend, htime, hq, -, happlied, hrebuild⟩ :=
    ended_of_outcome (show (run (step asciiEnvironment) {} overtakenSearch).bind outcome =
      some (false, some (ascii "two"), 1, 1, 2) by decide)
  have hequal := h _ _ s e hrun hend htime (by rw [hq]; rfl)
  omega

end Examples

end SearchedService

end DltxtBridge.Crossref
