import DltxtBridge.Crossref.Reachable

namespace DltxtBridge.Crossref

open Documents TransitionSystem

def Produced (env : Environment) (config : ParserConfig) (info : LineInfo) : Prop :=
  ∃ parser content pairs, env.makeTextParser config = some parser ∧ parser content = some pairs ∧
    info.content ∈ pairs.map pairContent

def LinesFrom (env : Environment) (config : ParserConfig) (b : BuildState) : Prop :=
  ∀ id info, b.lineInfos.lookup id = some info → Produced env config info

def Lineless (b : BuildState) : Prop :=
  b.index.lines = ∅ ∧ b.lineInfos = ∅ ∧ b.fileLineIds = ∅

lemma Lineless.eraseFile {b : BuildState} (h : Lineless b) (f : Bytes) : Lineless (b.eraseFile f) := by
  have hnone : b.fileLineIds.lookup f = none := by rw [h.2.2, Finmap.lookup_empty]
  rw [BuildState.eraseFile, BuildState.eraseLines_of_none hnone]
  exact h

section Lines

variable {env : Environment} {config : ParserConfig} {b : BuildState}

lemma lookup_foldl_addPair {f base : Bytes} {pairs : List ParsedPair} {id : LineId} {info : LineInfo}
    (h : (pairs.foldl (BuildState.addPair f base) b).lineInfos.lookup id = some info) :
    b.lineInfos.lookup id = some info ∨ info.content ∈ pairs.map pairContent := by
  induction pairs generalizing b with
  | nil => exact Or.inl h
  | cons pair pairs ih =>
    rcases ih h with hold | hnew
    · change (FiniteMap.emplace b.nextLineId (BuildState.lineOf f base pair) b.lineInfos).lookup id = _ at hold
      rw [FiniteMap.emplace] at hold
      split_ifs at hold
      · exact Or.inl hold
      · rw [FiniteMap.lookup_insert] at hold
        split_ifs at hold
        · cases hold
          exact Or.inr List.mem_cons_self
        · exact Or.inl hold
    · exact Or.inr (List.mem_cons_of_mem _ hnew)

namespace LinesFrom

lemma eraseFile (h : LinesFrom env config b) (f : Bytes) : LinesFrom env config (b.eraseFile f) := by
  intro id info hinfo
  change (b.eraseLines f).lineInfos.lookup id = some info at hinfo
  rw [BuildState.lookup_lineInfos_eraseLines] at hinfo
  split_ifs at hinfo
  exact h id info hinfo

lemma addPairs (h : LinesFrom env config b) {parser : TextParser}
    (hparser : env.makeTextParser config = some parser) {content : Text} {pairs : List ParsedPair}
    (hpairs : parser content = some pairs) (f base : Bytes) :
    LinesFrom env config (b.addPairs f base pairs) := by
  intro id info hinfo
  rcases lookup_foldl_addPair hinfo with hold | hnew
  · exact h id info hold
  · exact ⟨parser, content, pairs, hparser, hpairs, hnew⟩

lemma ingests (h : LinesFrom env config b) {parser : TextParser}
    (hparser : env.makeTextParser config = some parser) {c : BuildState}
    (hingests : BuildState.Ingests parser b c) : LinesFrom env config c := by
  rcases hingests with rfl | ⟨f, base, content, pairs, versions, timestamps, hpairs, rfl⟩
  · exact h
  · exact h.addPairs hparser hpairs f base

end LinesFrom

variable {fs : FileSystem} {workspaceFolders : List Bytes} {openDocuments : List TextDocument}
  {parserState : ParserState} {state : BuildState}

lemma linesFrom_of_snapshot
    (h : buildStateFromSnapshot env fs workspaceFolders openDocuments parserState = some state) :
    LinesFrom env parserState.config state := by
  refine snapshot_induction h ?_ fun parser b c hparser hingests hb => hb.ingests hparser hingests
  intro id info hinfo
  rw [Finmap.lookup_empty] at hinfo
  cases hinfo

end Lines

def Task.parserState : Task → ParserState
  | .rebuild parserState _ _ _ => parserState
  | .update _ parserState => parserState
  | .refresh _ parserState => parserState

/-- `configOf` is the configuration that a stamp determines. -/
structure Safe (env : Environment) (configOf : Bytes → ParserConfig) (s : PooledService) : Prop
    extends WellFormed s where
  configured : ∀ q, s.service.parserState = some q → q.config = configOf q.stamp
  waiting : ∀ task ∈ s.tasks, task.parserState.config = configOf task.parserState.stamp
  current : s.service.appliedGeneration = s.service.rebuildGeneration →
    ∀ q, s.service.parserState = some q → LinesFrom env q.config s.service.toBuildState

lemma Safe.config_eq {env : Environment} {configOf : Bytes → ParserConfig} {s : PooledService}
    (h : Safe env configOf s) {position : ℕ} {task : Task}
    (htask : s.tasks[position]? = some task) (hstamp : s.service.hasStamp task.parserState.stamp)
    {q : ParserState} (hq : s.service.parserState = some q) :
    q.config = task.parserState.config := by
  rw [CrossrefService.hasStamp, hq, Option.map_some, Option.some.injEq] at hstamp
  rw [h.configured q hq, h.waiting task (List.mem_of_getElem? htask), hstamp]

lemma Safe.linesFrom_replaceDocument {env : Environment} {configOf : Bytes → ParserConfig} {s : PooledService}
    (h : Safe env configOf s) (happlied : s.service.appliedGeneration = s.service.rebuildGeneration)
    {position : ℕ} {task : Task} (htask : s.tasks[position]? = some task)
    (hstamp : s.service.hasStamp task.parserState.stamp) {q : ParserState}
    (hq : s.service.parserState = some q) {parser : TextParser}
    (hparser : env.makeTextParser task.parserState.config = some parser) {content : Text}
    {pairs : List ParsedPair} (hpairs : parser content = some pairs) (f base : Bytes) :
    LinesFrom env q.config (s.service.toBuildState.replaceDocument f base pairs) := by
  have hlines := h.current happlied q hq
  rw [h.config_eq htask hstamp hq] at hlines ⊢
  exact (hlines.eraseFile f).addPairs hparser hpairs f base

namespace PooledService

variable {env : Environment} {configOf : Bytes → ParserConfig} {s t : PooledService} {event : Event}
  {service : CrossrefService}

lemma effect_configured (h : Safe env configOf s)
    (hevent : ∀ p folders documents, event = .updateParserConfig p folders documents →
      p.config = configOf p.stamp)
    (heffect : Effect env s event service) {q : ParserState} (hq : service.parserState = some q) :
    q.config = configOf q.stamp := by
  cases heffect with
  | configured p folders documents he =>
    cases hq
    exact hevent q folders documents he
  | cleared => cases hq
  | unchanged | rebuilt | updated | unparsed | refreshed | erased => exact h.configured q hq

lemma effect_current (h : Safe env configOf s) (heffect : Effect env s event service)
    (happlied : service.appliedGeneration = service.rebuildGeneration) {q : ParserState}
    (hq : service.parserState = some q) : LinesFrom env q.config service.toBuildState := by
  cases heffect with
  | unchanged => exact h.current happlied q hq
  | configured => exact absurd happlied (Nat.lt_succ_of_le h.bounded).ne
  | cleared => cases hq
  | rebuilt position fs p folders documents state he htask hstamp hstate =>
    rw [h.newest p folders documents (List.mem_of_getElem? htask) q hq]
    exact linesFrom_of_snapshot hstate
  | updated position fs document p parser pairs he htask hstamp hworkspace hparser hpairs =>
    exact h.linesFrom_replaceDocument happlied htask hstamp hq hparser hpairs _ _
  | unparsed => exact (h.current happlied q hq).eraseFile _
  | refreshed position fs path p content parser pairs he htask hstamp hworkspace hparser hpairs =>
    exact h.linesFrom_replaceDocument happlied htask hstamp hq hparser hpairs _ _
  | erased f => exact (h.current happlied q hq).eraseFile f

lemma safe_step (h : Safe env configOf s)
    (hevent : ∀ p folders documents, event = .updateParserConfig p folders documents →
      p.config = configOf p.stamp)
    (hstep : step env s event = some t) : Safe env configOf t where
  toWellFormed := wellFormed_step h.toWellFormed hstep
  configured _ hq := effect_configured h hevent (effect_of_step hstep) hq
  current happlied _ hq := effect_current h (effect_of_step hstep) happlied hq
  waiting task htask := by
    cases posted_of_step hstep htask with
    | waiting _ hwaiting => exact h.waiting task hwaiting
    | rebuild p folders documents he => exact hevent p folders documents he
    | update document p _ hp => exact h.configured p hp
    | refresh uri p _ hp => exact h.configured p hp

def AppliesLater (env : Environment) (generation : ℕ) (s : PooledService) (event : Event) : Prop :=
  ∃ position fs p later folders documents t, event = .runTask position fs ∧
    s.tasks[position]? = some (.rebuild p later folders documents) ∧ generation < later ∧
    step env s event = some t ∧ t.service ≠ s.service

structure Emptied (generation : ℕ) (s : PooledService) : Prop where
  roots : s.service.workspaceRootPaths = []
  lineless : Lineless s.service.toBuildState
  newer : generation ≤ s.service.rebuildGeneration
  pending : ∀ p other folders documents, .rebuild p other folders documents ∈ s.tasks →
    other ≠ generation

lemma not_isInWorkspace_of_roots (h : s.service.workspaceRootPaths = []) (path : FsPath) :
    s.service.isInWorkspaceUnlocked path = false := by
  rw [CrossrefService.isInWorkspaceUnlocked, BuildState.isInWorkspace, h]
  rfl

lemma effect_emptied {generation : ℕ} (h : Emptied generation s) (hstep : step env s event = some t)
    (hlater : ¬ AppliesLater env generation s event) :
    t.service.workspaceRootPaths = [] ∧ Lineless t.service.toBuildState := by
  have heffect := effect_of_step hstep
  generalize hservice : t.service = service at heffect
  cases heffect with
  | unchanged | configured => exact ⟨h.roots, h.lineless⟩
  | cleared => exact ⟨rfl, rfl, rfl, rfl⟩
  | rebuilt position fs p folders documents state he htask hstamp hstate =>
    have hnewer := lt_of_le_of_ne h.newer (h.pending _ _ _ _ (List.mem_of_getElem? htask)).symm
    by_cases hsame : t.service = s.service
    · rw [← hservice, hsame]
      exact ⟨h.roots, h.lineless⟩
    · exact absurd ⟨position, fs, p, _, folders, documents, t, he, htask, hnewer, hstep, hsame⟩ hlater
  | updated position fs document p parser pairs he htask hstamp hworkspace =>
    rw [not_isInWorkspace_of_roots h.roots] at hworkspace
    cases hworkspace
  | unparsed position fs document p he htask hstamp hworkspace =>
    rw [not_isInWorkspace_of_roots h.roots] at hworkspace
    cases hworkspace
  | refreshed position fs path p content parser pairs he htask hstamp hworkspace =>
    rw [not_isInWorkspace_of_roots h.roots] at hworkspace
    cases hworkspace
  | erased f =>
    refine ⟨?_, h.lineless.eraseFile f⟩
    exact (congrArg Prod.fst (BuildState.eraseFile_frame s.service.toBuildState f).1).trans h.roots

lemma Emptied.step {generation : ℕ} (h : Emptied generation s)
    (hbounded : s.service.appliedGeneration ≤ s.service.rebuildGeneration)
    (hlater : ¬ AppliesLater env generation s event) (hstep : step env s event = some t) :
    Emptied generation t := by
  obtain ⟨hroots, hlineless⟩ := effect_emptied h hstep hlater
  obtain ⟨-, hrebuild, -⟩ := effect_generations hbounded (effect_of_step hstep)
  refine ⟨hroots, hlineless, h.newer.trans hrebuild, ?_⟩
  intro p other folders documents htask
  cases posted_of_step hstep htask with
  | waiting _ hwaiting => exact h.pending p other folders documents hwaiting
  | rebuild => exact (Nat.lt_succ_of_le h.newer).ne'

end PooledService

open PooledService

structure GenerationSafe (env : Environment) (s : PooledService) : Prop where
  bounded : s.service.appliedGeneration ≤ s.service.rebuildGeneration
  monotone : ∀ later t, run (step env) s later = some t →
    s.service.appliedGeneration ≤ t.service.appliedGeneration
  newest : ∀ position fs p generation folders documents t,
    s.tasks[position]? = some (.rebuild p generation folders documents) →
    step env s (.runTask position fs) = some t → t.service ≠ s.service →
    generation = s.service.rebuildGeneration ∧ t.service.appliedGeneration = generation ∧
      ∀ q other folders documents, .rebuild q other folders documents ∈ s.tasks → other ≤ generation
  current : ∀ p, s.service.parserState = some p →
    s.service.appliedGeneration = s.service.rebuildGeneration →
    ∀ id ∈ s.service.index.lines, ∃ info, s.service.lineInfos.lookup id = some info ∧
      Produced env p.config info
  cleared : ∀ t, step env s .clearParserConfig = some t → ∀ later u,
    run (step env) t later = some u →
    Along (step env) (fun v event => ¬ AppliesLater env t.service.rebuildGeneration v event) t later →
    Lineless u.service.toBuildState

section Runs

variable {env : Environment} {configOf : Bytes → ParserConfig} {s : PooledService}

lemma run_appliedGeneration_le (hbounded : s.service.appliedGeneration ≤ s.service.rebuildGeneration)
    {later : List Event} {t : PooledService} (hrun : run (step env) s later = some t) :
    s.service.appliedGeneration ≤ t.service.appliedGeneration := by
  refine (invariant (I := fun u => s.service.appliedGeneration ≤ u.service.appliedGeneration ∧
    u.service.appliedGeneration ≤ u.service.rebuildGeneration) ?_ ⟨le_rfl, hbounded⟩ hrun).1
  rintro u event v ⟨hle, hu⟩ hstep
  obtain ⟨happlied, -, hv⟩ := effect_generations hu (effect_of_step hstep)
  exact ⟨hle.trans happlied, hv⟩

lemma lineless_after_clear (h : Safe env configOf s) {t u : PooledService} {later : List Event}
    (hclear : step env s .clearParserConfig = some t) (hrun : run (step env) t later = some u)
    (hlater : Along (step env)
      (fun v event => ¬ AppliesLater env t.service.rebuildGeneration v event) t later) :
    Lineless u.service.toBuildState := by
  cases hclear
  have hstart : Emptied (s.service.rebuildGeneration + 1)
      { s with service := s.service.clearParserConfig } := by
    refine ⟨rfl, ⟨rfl, rfl, rfl⟩, le_rfl, ?_⟩
    intro p other folders documents htask
    exact (Nat.lt_succ_of_le (h.pending p other folders documents htask)).ne
  refine (invariant_along (I := fun u => Emptied (s.service.rebuildGeneration + 1) u ∧
    u.service.appliedGeneration ≤ u.service.rebuildGeneration) ?_ ⟨hstart, le_rfl⟩ hlater hrun).1.lineless
  rintro v event w ⟨hv, hbounded⟩ hnot hstep
  exact ⟨hv.step hbounded hnot hstep, (effect_generations hbounded (effect_of_step hstep)).2.2⟩

lemma Safe.generationSafe (h : Safe env configOf s) : GenerationSafe env s where
  bounded := h.bounded
  monotone later t hrun := run_appliedGeneration_le h.bounded hrun
  newest position fs p generation folders documents t htask hstep hchanged := by
    rw [step, htask, Option.bind_some] at hstep
    cases hstep
    rw [CrossrefService.runRebuild] at hchanged ⊢
    cases hstate : buildStateFromSnapshot env fs folders documents p with
    | none => simp [hstate] at hchanged
    | some state =>
      by_cases hguard : s.service.hasStamp p.stamp ∧ generation = s.service.rebuildGeneration
      · obtain ⟨hstamp, rfl⟩ := hguard
        simp only [hstamp, and_self, if_true]
        exact ⟨trivial, rfl, h.pending⟩
      · simp [hstate, hguard] at hchanged
  current p hp happlied id hid := by
    rw [h.consistent.live] at hid
    obtain ⟨info, hinfo⟩ := Finmap.mem_iff.mp hid
    exact ⟨info, hinfo, h.current happlied p hp id info hinfo⟩
  cleared t hclear later u hrun hlater := lineless_after_clear h hclear hrun hlater

theorem run_generationSafe (env : Environment) (configOf : Bytes → ParserConfig)
    (events : List Event) (s : PooledService) (hrun : run (step env) {} events = some s)
    (hstamp : ∀ p folders documents, .updateParserConfig p folders documents ∈ events →
      p.config = configOf p.stamp) : GenerationSafe env s := by
  have hstart : Safe env configOf {} :=
    { wellFormed_empty with
      configured := fun _ hq => nomatch hq
      waiting := fun _ htask => nomatch htask
      current := fun _ _ hq => nomatch hq }
  have hevents : ∀ event ∈ events, ∀ p folders documents,
      event = .updateParserConfig p folders documents → p.config = configOf p.stamp := by
    rintro event hevent p folders documents rfl
    exact hstamp p folders documents hevent
  exact (invariant_along (fun _ _ _ h hevent hstep => safe_step h hevent hstep) hstart
    (along_of_forall hevents _) hrun).generationSafe

def staleRebuild : List Event :=
  [.updateParserConfig ⟨{}, ascii "one"⟩ [ascii "file:///w"] [], .runTask 0 (oneFile (ascii "x")),
    .updateParserConfig ⟨{}, ascii "two"⟩ [ascii "file:///w"] [], .clearParserConfig,
    .runTask 0 (oneFile (ascii "x"))]

theorem run_generationSafe_staleRebuild :
    ∃ s, run (step asciiEnvironment) {} staleRebuild = some s ∧ GenerationSafe asciiEnvironment s := by
  obtain ⟨s, hs⟩ : ∃ s, run (step asciiEnvironment) {} staleRebuild = some s :=
    Option.isSome_iff_exists.mp (by decide)
  refine ⟨s, hs, run_generationSafe asciiEnvironment (fun _ => {}) staleRebuild s hs ?_⟩
  intro p folders documents hevent
  simp only [staleRebuild, List.mem_cons, Event.updateParserConfig.injEq, reduceCtorEq, false_or,
    List.not_mem_nil, or_false] at hevent
  rcases hevent with ⟨rfl, -, -⟩ | ⟨rfl, -, -⟩ <;> rfl

end Runs

end DltxtBridge.Crossref
