import DltxtBridge.Crossref.Tasks

namespace DltxtBridge.Crossref

open Documents TransitionSystem

section Snapshot

variable {env : Environment} {fs : FileSystem} {workspaceFolders : List Bytes}
  {openDocuments : List TextDocument} {parserState : ParserState} {state : BuildState}

lemma snapshot_induction {I : BuildState → Prop}
    (h : buildStateFromSnapshot env fs workspaceFolders openDocuments parserState = some state)
    (hstart : I { workspaceRootPaths := workspaceFolders.map filePathFromUri
                  workspaceGitignoreRules := buildWorkspaceGitignoreRules fs workspaceFolders })
    (hstep : ∀ parser b c, env.makeTextParser parserState.config = some parser →
      BuildState.Ingests parser b c → I b → I c) : I state := by
  obtain ⟨parser, hparser, rfl⟩ := Option.map_eq_some_iff.mp h
  apply List.foldlRecOn _ _ hstart
  intro b hb uri _
  exact hstep parser b _ hparser (BuildState.ingests_ingestUri env fs parser _ b uri) hb

lemma consistent_of_snapshot
    (h : buildStateFromSnapshot env fs workspaceFolders openDocuments parserState = some state) :
    BuildState.Consistent state :=
  snapshot_induction h (BuildState.consistent_empty _ _)
    fun _ _ _ _ hingests hb => hb.ingests hingests

end Snapshot

structure WellFormed (s : PooledService) : Prop where
  consistent : BuildState.Consistent s.service.toBuildState
  bounded : s.service.appliedGeneration ≤ s.service.rebuildGeneration
  pending : ∀ p generation folders documents, .rebuild p generation folders documents ∈ s.tasks →
    generation ≤ s.service.rebuildGeneration
  newest : ∀ p folders documents,
    .rebuild p s.service.rebuildGeneration folders documents ∈ s.tasks →
    ∀ q, s.service.parserState = some q → q = p

lemma wellFormed_empty : WellFormed {} where
  consistent := BuildState.consistent_empty [] []
  bounded := le_rfl
  pending p generation folders documents htask := by cases htask
  newest p folders documents htask := by cases htask

namespace PooledService

variable {env : Environment} {s t : PooledService} {event : Event} {service : CrossrefService}

lemma effect_consistent (h : BuildState.Consistent s.service.toBuildState)
    (heffect : Effect env s event service) : BuildState.Consistent service.toBuildState := by
  cases heffect with
  | unchanged | configured => exact h
  | cleared => exact BuildState.consistent_empty [] []
  | rebuilt position fs p folders documents state he htask hstamp hstate =>
    exact consistent_of_snapshot hstate
  | updated position fs document p parser pairs =>
    exact { h.replaceDocument document.filePath.genericString document.filePath.filename pairs with }
  | unparsed position fs document =>
    have herased := h.eraseFile document.filePath.genericString
    exact { herased with
      indexed := fun g ids hids => Finset.mem_insert_of_mem (herased.indexed g ids hids) }
  | refreshed position fs path p content parser pairs =>
    exact { h.replaceDocument path.genericString path.filename pairs with }
  | erased f => exact h.eraseFile f

lemma effect_generations (h : s.service.appliedGeneration ≤ s.service.rebuildGeneration)
    (heffect : Effect env s event service) :
    s.service.appliedGeneration ≤ service.appliedGeneration ∧
      s.service.rebuildGeneration ≤ service.rebuildGeneration ∧
      service.appliedGeneration ≤ service.rebuildGeneration := by
  cases heffect with
  | configured p folders documents hevent hnew =>
    exact ⟨le_rfl, Nat.le_succ _, h.trans (Nat.le_succ _)⟩
  | cleared hevent => exact ⟨h.trans (Nat.le_succ _), Nat.le_succ _, le_rfl⟩
  | rebuilt => exact ⟨h, le_rfl, le_rfl⟩
  | unchanged | updated | unparsed | refreshed | erased => exact ⟨le_rfl, le_rfl, h⟩

lemma updateParserConfig_of_new {p : ParserState} {folders : List Bytes} {documents : List TextDocument}
    (hnew : ¬ s.service.hasStamp p.stamp)
    (hstep : step env s (.updateParserConfig p folders documents) = some t) :
    t.service = s.service.configure p := by
  cases hstep
  rw [updateParserConfig, if_neg hnew]

lemma pending_step (h : WellFormed s) (hstep : step env s event = some t) {p : ParserState}
    {generation : ℕ} {folders : List Bytes} {documents : List TextDocument}
    (htask : .rebuild p generation folders documents ∈ t.tasks) :
    generation ≤ t.service.rebuildGeneration := by
  obtain ⟨-, hrebuild, -⟩ := effect_generations h.bounded (effect_of_step hstep)
  cases posted_of_step hstep htask with
  | waiting _ hwaiting => exact (h.pending p generation folders documents hwaiting).trans hrebuild
  | rebuild _ _ _ he hnew =>
    subst he
    rw [updateParserConfig_of_new hnew hstep]
    exact le_rfl

lemma newest_step (h : WellFormed s) (hstep : step env s event = some t) {p q : ParserState}
    {generation : ℕ} {folders : List Bytes} {documents : List TextDocument}
    (htask : .rebuild p generation folders documents ∈ t.tasks)
    (hnewest : generation = t.service.rebuildGeneration) (hq : t.service.parserState = some q) :
    q = p := by
  cases posted_of_step hstep htask with
  | waiting _ hwaiting =>
    have heffect := effect_of_step hstep
    generalize t.service = service at heffect hnewest hq
    cases heffect with
    | configured =>
      subst hnewest
      exact absurd (h.pending _ _ _ _ hwaiting) (Nat.not_succ_le_self _)
    | cleared => cases hq
    | unchanged | rebuilt | updated | unparsed | refreshed | erased =>
      subst hnewest
      exact h.newest p folders documents hwaiting q hq
  | rebuild _ _ _ he hnew =>
    subst he
    rw [updateParserConfig_of_new hnew hstep] at hq
    cases hq
    rfl

lemma wellFormed_step (h : WellFormed s) (hstep : step env s event = some t) : WellFormed t where
  consistent := effect_consistent h.consistent (effect_of_step hstep)
  bounded := (effect_generations h.bounded (effect_of_step hstep)).2.2
  pending _ _ _ _ htask := pending_step h hstep htask
  newest _ _ _ htask _ hq := newest_step h hstep htask rfl hq

theorem run_wellFormed {events : List Event} (hrun : run (step env) {} events = some s) :
    WellFormed s :=
  invariant (fun _ _ _ h hstep => wellFormed_step h hstep) wellFormed_empty hrun

end PooledService

end DltxtBridge.Crossref
