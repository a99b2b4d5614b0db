import DltxtBridge.Crossref.OpenByUri
import DltxtBridge.Crossref.Reachable
import DltxtBridge.Library.KeyedWrites

namespace DltxtBridge.Crossref

open Documents TransitionSystem ServiceCall

@[ext]
structure FileRecord where
  lines : List LineInfo := []
  version : Option ℤ := none
  timestamp : Option ℤ := none
  indexed : Bool := false

abbrev Catalog := Bytes → FileRecord

abbrev FileWrite := KeyedWrite Bytes FileRecord

def emptyCatalog : Catalog := fun _ => {}

def FileRecord.marks (record : FileRecord) : Option ℤ × Option ℤ × Bool :=
  (record.version, record.timestamp, record.indexed)

structure Settings where
  roots : List FsPath := []
  rules : List WorkspaceGitIgnoreRules := []
  parserState : Option ParserState := none
  rebuildGeneration : ℕ := 0
  appliedGeneration : ℕ := 0

structure CatalogService extends Settings where
  catalog : Catalog := emptyCatalog

structure PooledCatalog where
  service : CatalogService := {}
  tasks : List Task := []

def linesOf (path : FsPath) (pairs : List ParsedPair) : List LineInfo :=
  pairs.map (BuildState.lineOf path.genericString path.filename)

section Writes

def eraseWrite (filePath : Bytes) : FileWrite := ⟨filePath, fun _ => {}⟩

/-- An open document that does not parse keeps its version and no lines. -/
def updateWrite (parser : TextParser) (document : TextDocument) : FileWrite where
  key := document.filePath.genericString
  change _ :=
    { lines := linesOf document.filePath ((parser document.getContent).getD [])
      version := some document.version
      indexed := true }

def refreshWrite (path : FsPath) (pairs : List ParsedPair) (timestamp : Option ℤ) : FileWrite where
  key := path.genericString
  change _ := { lines := linesOf path pairs, timestamp := timestamp, indexed := true }

def Ingested.write (parser : TextParser) (d : Ingested) : FileWrite where
  key := d.path
  change record :=
    match parser d.document.getContent with
    | none => record
    | some pairs =>
      { lines := record.lines ++ linesOf d.document.filePath pairs
        version := if d.isOpenDocument then some d.document.version else record.version
        timestamp := if d.isOpenDocument then record.timestamp else d.timestamp.or record.timestamp
        indexed := true }

end Writes

namespace Settings

def hasStamp (s : Settings) (stamp : Bytes) : Prop := s.parserState.map ParserState.stamp = some stamp

instance (s : Settings) (stamp : Bytes) : Decidable (s.hasStamp stamp) :=
  inferInstanceAs (Decidable (_ = _))

def isInWorkspace (s : Settings) (filePath : FsPath) : Bool :=
  (s.roots.any fun root => pathIsWithinRoot filePath root) && !isGitignored filePath s.rules false

/-- What the task of one file writes; it throws when its parser cannot be made. -/
def fileWrites (env : Environment) (fs : FileSystem) (s : Settings) : Task → Option (List FileWrite)
  | .update document parserState => (env.makeTextParser parserState.config).map fun parser =>
    if s.hasStamp parserState.stamp ∧ s.isInWorkspace document.filePath then [updateWrite parser document]
    else []
  | .refresh path parserState => some <|
    if s.hasStamp parserState.stamp then
      match (if fs.present path then CrossrefService.refreshedPairs env fs path parserState else none) with
      | none => [eraseWrite path.genericString]
      | some pairs =>
        if s.isInWorkspace path then [refreshWrite path pairs (fs.lastWriteTime path)] else []
    else []
  | .rebuild _ _ _ _ => some []

end Settings

namespace CatalogService

def write (s : CatalogService) (writes : List FileWrite) : CatalogService :=
  { s with catalog := KeyedWrite.applyAll s.catalog writes }

def rebuilt (env : Environment) (fs : FileSystem) (workspaceFolders : List Bytes)
    (openDocuments : List TextDocument) (parser : TextParser) : Catalog :=
  KeyedWrite.applyAll emptyCatalog
    (((collectedUris fs workspaceFolders).filterMap (source env fs (openDocumentsByUri openDocuments))).map
      (Ingested.write parser))

def runRebuild (env : Environment) (fs : FileSystem) (s : CatalogService) (parserState : ParserState)
    (generation : ℕ) (workspaceFolders : List Bytes) (openDocuments : List TextDocument) : CatalogService :=
  match env.makeTextParser parserState.config with
  | none => s
  | some parser =>
    if s.hasStamp parserState.stamp ∧ generation = s.rebuildGeneration then
      { s with
        catalog := rebuilt env fs workspaceFolders openDocuments parser
        roots := workspaceFolders.map filePathFromUri
        rules := buildWorkspaceGitignoreRules fs workspaceFolders
        appliedGeneration := generation }
    else s

def runTask (env : Environment) (fs : FileSystem) (s : CatalogService) : Task → Option CatalogService
  | .rebuild parserState generation workspaceFolders openDocuments =>
    some (s.runRebuild env fs parserState generation workspaceFolders openDocuments)
  | task => (s.fileWrites env fs task).map s.write

end CatalogService

namespace PooledCatalog

def updateParserConfig (s : PooledCatalog) (parserState : ParserState) (workspaceFolders : List Bytes)
    (openDocuments : List TextDocument) : PooledCatalog :=
  if s.service.hasStamp parserState.stamp then s
  else
    let generation := s.service.rebuildGeneration + 1
    { service := { s.service with parserState := some parserState, rebuildGeneration := generation }
      tasks := s.tasks ++ [.rebuild parserState generation workspaceFolders openDocuments] }

def clearParserConfig (s : PooledCatalog) : PooledCatalog :=
  let generation := s.service.rebuildGeneration + 1
  { s with service := { rebuildGeneration := generation, appliedGeneration := generation } }

def scheduleOpenDocumentUpdate (s : PooledCatalog) (document : TextDocument) : PooledCatalog :=
  match s.service.parserState with
  | none => s
  | some parserState =>
    if isTextFile document.filePath ∧ s.service.isInWorkspace document.filePath ∧
        (s.service.catalog document.filePath.genericString).version ≠ some document.version then
      { s with tasks := s.tasks ++ [.update document parserState] }
    else s

def scheduleClosedDocumentRefresh (s : PooledCatalog) (uri : Bytes) : PooledCatalog :=
  let path := filePathFromUri uri
  match s.service.parserState with
  | none => s
  | some parserState =>
    if ¬ isSupportedUri uri then s
    else if s.service.isInWorkspace path then { s with tasks := s.tasks ++ [.refresh path parserState] }
    else { s with service := s.service.write [eraseWrite path.genericString] }

def step (env : Environment) (s : PooledCatalog) : Event → Option PooledCatalog
  | .updateParserConfig parserState workspaceFolders openDocuments =>
    some (s.updateParserConfig parserState workspaceFolders openDocuments)
  | .clearParserConfig => some s.clearParserConfig
  | .scheduleOpenDocumentUpdate document => some (s.scheduleOpenDocumentUpdate document)
  | .scheduleClosedDocumentRefresh uri => some (s.scheduleClosedDocumentRefresh uri)
  | .runTask position fs =>
    s.tasks[position]?.bind fun task => (s.service.runTask env fs task).map fun service =>
      { service := service, tasks := s.tasks.eraseIdx position }
  | .failRebuild position =>
    match s.tasks[position]? with
    | some (.rebuild _ _ _ _) => some { s with tasks := s.tasks.eraseIdx position }
    | _ => none

end PooledCatalog

section Abstraction

namespace BuildState

def catalog (b : BuildState) : Catalog := fun filePath =>
  { lines := b.stored filePath
    version := b.openDocumentVersions.lookup filePath
    timestamp := b.diskFileTimestamps.lookup filePath
    indexed := filePath ∈ b.indexedFilePaths }

def marks (b : BuildState) (filePath : Bytes) : Option ℤ × Option ℤ × Bool :=
  (b.openDocumentVersions.lookup filePath, b.diskFileTimestamps.lookup filePath,
    filePath ∈ b.indexedFilePaths)

end BuildState

def CrossrefService.settings (s : CrossrefService) : Settings where
  roots := s.workspaceRootPaths
  rules := s.workspaceGitignoreRules
  parserState := s.parserState
  rebuildGeneration := s.rebuildGeneration
  appliedGeneration := s.appliedGeneration

def CrossrefService.abstract (s : CrossrefService) : CatalogService where
  toSettings := s.settings
  catalog := s.toBuildState.catalog

def PooledService.abstract (s : PooledService) : PooledCatalog := ⟨s.service.abstract, s.tasks⟩

end Abstraction

namespace BuildState

variable {b : BuildState}

lemma marks_eraseLines (b : BuildState) (f g : Bytes) : (b.eraseLines f).marks g = b.marks g := by
  cases hids : b.fileLineIds.lookup f with
  | none => rw [eraseLines_of_none hids]
  | some ids =>
    rw [eraseLines_of_some hids]
    rfl

lemma marks_eraseFile (b : BuildState) (f g : Bytes) :
    (b.eraseFile f).marks g = if g = f then (none, none, false) else b.marks g := by
  rw [← marks_eraseLines b f g]
  simp only [eraseFile, marks, FiniteMap.lookup_erase, Finset.mem_erase]
  split_ifs with hg <;> simp [hg]

lemma marks_foldl_addPair (f base : Bytes) (pairs : List ParsedPair) (b : BuildState) :
    (pairs.foldl (addPair f base) b).marks = b.marks := by
  induction pairs generalizing b with
  | nil => rfl
  | cons pair pairs ih => exact ih (addPair f base b pair)

lemma marks_addPairs (b : BuildState) (f base : Bytes) (pairs : List ParsedPair) (g : Bytes) :
    (b.addPairs f base pairs).marks g =
      if g = f then ((b.marks f).1, (b.marks f).2.1, true) else b.marks g := by
  rw [addPairs, marks_foldl_addPair]
  split_ifs with hg
  · subst hg
    simp [marks]
  · simp [marks, hg]

lemma marks_replaceDocument (b : BuildState) (f base : Bytes) (pairs : List ParsedPair) (g : Bytes) :
    (b.replaceDocument f base pairs).marks g = if g = f then (none, none, true) else b.marks g := by
  rw [replaceDocument, marks_addPairs, marks_eraseFile, marks_eraseFile, if_pos rfl]
  split_ifs <;> rfl

lemma catalog_eq_apply {c : BuildState} {w : FileWrite}
    (hstored : ∀ g, c.stored g = if g = w.key then (w.change (b.catalog w.key)).lines else b.stored g)
    (hmarks : ∀ g, c.marks g = if g = w.key then (w.change (b.catalog w.key)).marks else b.marks g) :
    c.catalog = w.apply b.catalog := by
  funext g
  have hlines := hstored g
  have hrest := hmarks g
  by_cases hg : g = w.key
  · subst hg
    rw [if_pos rfl] at hlines hrest
    rw [marks, FileRecord.marks, Prod.mk.injEq, Prod.mk.injEq] at hrest
    rw [KeyedWrite.apply_of_key]
    exact FileRecord.ext hlines hrest.1 hrest.2.1 hrest.2.2
  · rw [if_neg hg] at hlines hrest
    rw [marks, marks, Prod.mk.injEq, Prod.mk.injEq] at hrest
    rw [KeyedWrite.apply_of_ne _ (Ne.symm hg)]
    exact FileRecord.ext hlines hrest.1 hrest.2.1 hrest.2.2

lemma catalog_eraseFile (h : Consistent b) (f : Bytes) :
    (b.eraseFile f).catalog = (eraseWrite f).apply b.catalog :=
  catalog_eq_apply (h.stored_eraseFile f) (marks_eraseFile b f)

lemma catalog_ingestDocument (h : Consistent b) (parser : TextParser) (d : Ingested) :
    (b.ingestDocument parser d.document d.isOpenDocument d.timestamp).catalog =
      (d.write parser).apply b.catalog := by
  cases hpairs : parser d.document.getContent with
  | none =>
    rw [ingestDocument_of_none hpairs]
    funext g
    by_cases hg : (d.write parser).key = g
    · rw [← hg, KeyedWrite.apply_of_key]
      simp only [Ingested.write, hpairs]
    · rw [KeyedWrite.apply_of_ne _ hg]
  | some pairs =>
    apply catalog_eq_apply
    · intro g
      rw [stored_ingestDocument h hpairs]
      simp only [Ingested.write, hpairs]
      change (if g = d.path then _ else _) = if g = d.path then _ else _
      split_ifs with hg
      · subst hg
        rfl
      · rfl
    · intro g
      have hadded := marks_addPairs b d.path d.document.filePath.filename pairs g
      simp only [Ingested.write, hpairs, FileRecord.marks, catalog]
      rw [BuildState.ingestDocument]
      simp only [hpairs]
      rw [← Ingested.path]
      generalize b.addPairs d.path d.document.filePath.filename pairs = c at hadded ⊢
      rw [marks, marks, marks] at hadded
      rw [marks, marks]
      by_cases hg : g = d.path
      · subst hg
        simp only [if_true, Prod.mk.injEq] at hadded ⊢
        cases d.isOpenDocument <;> cases d.timestamp <;> simp [hadded]
      · simp only [hg, if_false, Prod.mk.injEq] at hadded ⊢
        cases d.isOpenDocument <;> cases d.timestamp <;> simp [hg, hadded]

lemma catalog_ingestAll (h : Consistent b) (parser : TextParser) (documents : List Ingested) :
    (ingestAll parser b documents).catalog =
      KeyedWrite.applyAll b.catalog (documents.map (Ingested.write parser)) := by
  induction documents generalizing b with
  | nil => rfl
  | cons d documents ih =>
    rw [List.map_cons, KeyedWrite.applyAll_cons, ← catalog_ingestDocument h]
    exact ih (consistent_ingest h d)

end BuildState

lemma catalog_of_snapshot {env : Environment} {fs : FileSystem} {workspaceFolders : List Bytes}
    {openDocuments : List TextDocument} {parserState : ParserState} {parser : TextParser}
    {state : BuildState} (hparser : env.makeTextParser parserState.config = some parser)
    (hstate : buildStateFromSnapshot env fs workspaceFolders openDocuments parserState = some state) :
    state.catalog = CatalogService.rebuilt env fs workspaceFolders openDocuments parser := by
  rw [buildStateFromSnapshot_eq hparser, Option.some.injEq] at hstate
  rw [← hstate, BuildState.catalog_ingestAll (BuildState.consistent_empty _ _)]
  rfl

lemma frame_of_snapshot {env : Environment} {fs : FileSystem} {workspaceFolders : List Bytes}
    {openDocuments : List TextDocument} {parserState : ParserState} {state : BuildState}
    (hstate : buildStateFromSnapshot env fs workspaceFolders openDocuments parserState = some state) :
    state.frame =
      (workspaceFolders.map filePathFromUri, buildWorkspaceGitignoreRules fs workspaceFolders) := by
  refine snapshot_induction (I := fun b => b.frame = _) hstate rfl ?_
  rintro parser b c - hingests hframe
  rcases hingests with rfl | ⟨f, base, content, pairs, versions, timestamps, -, rfl⟩
  · exact hframe
  · exact (BuildState.addPairs_frame b f base pairs).1.trans hframe

namespace CrossrefService

variable {s : CrossrefService}

lemma abstract_eq_write {t : CrossrefService} {w : FileWrite} (hframe : t.frame = s.frame)
    (hparser : t.parserState = s.parserState) (hrebuild : t.rebuildGeneration = s.rebuildGeneration)
    (happlied : t.appliedGeneration = s.appliedGeneration)
    (hcatalog : t.catalog = w.apply s.catalog) : t.abstract = s.abstract.write [w] := by
  rw [BuildState.frame, BuildState.frame, Prod.mk.injEq] at hframe
  simp only [abstract, settings, CatalogService.write, hframe, hparser, hrebuild, happlied, hcatalog]
  rfl

lemma abstract_eraseFile (h : s.Consistent) (f : Bytes) :
    (s.eraseFileUnlocked f).abstract = s.abstract.write [eraseWrite f] :=
  abstract_eq_write (BuildState.eraseFile_frame _ f).1 rfl rfl rfl (BuildState.catalog_eraseFile h f)

lemma abstract_writeUpdate (h : s.Consistent) {document : TextDocument} {pairs : List ParsedPair}
    {parser : TextParser} (hpairs : parser document.getContent = some pairs) :
    (s.writeUpdate document pairs).abstract = s.abstract.write [updateWrite parser document] := by
  have hstored := h.stored_replaceDocument document.filePath.genericString document.filePath.filename pairs
  have hmarks := BuildState.marks_replaceDocument s.toBuildState document.filePath.genericString
    document.filePath.filename pairs
  refine abstract_eq_write (BuildState.replaceDocument_frame _ _ _ pairs).1 rfl rfl rfl ?_
  apply BuildState.catalog_eq_apply
  · intro g
    apply (hstored g).trans
    simp only [updateWrite, hpairs]
    rfl
  · intro g
    have hfile := hmarks g
    simp only [BuildState.marks, Prod.ext_iff] at hfile
    simp only [BuildState.marks, writeUpdate, replaceDocumentUnlocked, FiniteMap.lookup_insert,
      FiniteMap.lookup_erase, updateWrite, FileRecord.marks]
    split_ifs at hfile ⊢ with hg <;> simp_all

lemma abstract_writeUnparsed (h : s.Consistent) {document : TextDocument} {parser : TextParser}
    (hpairs : parser document.getContent = none) :
    (s.writeUnparsed document).abstract = s.abstract.write [updateWrite parser document] := by
  have hstored := h.stored_eraseFile document.filePath.genericString
  have hmarks := BuildState.marks_eraseFile s.toBuildState document.filePath.genericString
  refine abstract_eq_write (BuildState.eraseFile_frame _ _).1 rfl rfl rfl ?_
  apply BuildState.catalog_eq_apply
  · intro g
    apply (hstored g).trans
    simp only [updateWrite, hpairs]
    rfl
  · intro g
    have hfile := hmarks g
    simp only [BuildState.marks, Prod.ext_iff] at hfile
    simp only [BuildState.marks, writeUnparsed, eraseFileUnlocked, FiniteMap.lookup_insert,
      Finset.mem_insert, updateWrite, FileRecord.marks]
    split_ifs at hfile ⊢ with hg <;> simp_all

lemma abstract_writeRefresh (h : s.Consistent) (path : FsPath) (pairs : List ParsedPair)
    (timestamp : Option ℤ) : (s.writeRefresh path pairs timestamp).abstract =
      s.abstract.write [refreshWrite path pairs timestamp] := by
  have hstored := h.stored_replaceDocument path.genericString path.filename pairs
  have hmarks := BuildState.marks_replaceDocument s.toBuildState path.genericString path.filename pairs
  refine abstract_eq_write (BuildState.replaceDocument_frame _ _ _ pairs).1 rfl rfl rfl ?_
  apply BuildState.catalog_eq_apply
  · exact hstored
  · intro g
    have hfile := hmarks g
    simp only [BuildState.marks, Prod.ext_iff] at hfile
    cases timestamp <;>
      simp only [BuildState.marks, writeRefresh, replaceDocumentUnlocked, FiniteMap.lookup_insert,
        FiniteMap.lookup_erase, refreshWrite, FileRecord.marks] <;>
      split_ifs at hfile ⊢ with hg <;> simp_all

@[simp] lemma hasStamp_abstract (stamp : Bytes) : s.abstract.hasStamp stamp ↔ s.hasStamp stamp := Iff.rfl

@[simp] lemma isInWorkspace_abstract (path : FsPath) :
    s.abstract.isInWorkspace path = s.isInWorkspaceUnlocked path := rfl

@[simp] lemma write_nil (s : CatalogService) : s.write [] = s := rfl

lemma abstract_runRebuild (env : Environment) (fs : FileSystem) (p : ParserState) (generation : ℕ)
    (folders : List Bytes) (documents : List TextDocument) :
    (s.runRebuild env fs p generation folders documents).abstract =
      s.abstract.runRebuild env fs p generation folders documents := by
  rw [runRebuild, CatalogService.runRebuild]
  cases hparser : env.makeTextParser p.config with
  | none => simp [buildStateFromSnapshot, hparser]
  | some parser =>
    have hstate : buildStateFromSnapshot env fs folders documents p = some _ :=
      buildStateFromSnapshot_eq hparser
    generalize ingestAll parser _ _ = state at hstate
    have hframe := frame_of_snapshot hstate
    rw [BuildState.frame, Prod.mk.injEq] at hframe
    simp only [hstate, hasStamp_abstract]
    by_cases hguard : s.hasStamp p.stamp ∧ generation = s.rebuildGeneration
    · rw [if_pos hguard, if_pos (by exact hguard)]
      simp only [abstract, settings, writeRebuild, applyRebuildUnlocked, hframe,
        catalog_of_snapshot hparser hstate]
    · rw [if_neg hguard, if_neg (by exact hguard)]

lemma abstract_runUpdate (env : Environment) (fs : FileSystem) (h : s.Consistent)
    (document : TextDocument) (p : ParserState) :
    (s.runUpdate env document p).map abstract =
      (s.abstract.fileWrites env fs (.update document p)).map s.abstract.write := by
  rw [runUpdate, Settings.fileWrites, Option.map_map, Option.map_map]
  apply congrArg fun f => Option.map f (env.makeTextParser p.config)
  funext parser
  simp only [Function.comp_apply, hasStamp_abstract, isInWorkspace_abstract]
  by_cases hguard : s.hasStamp p.stamp ∧ s.isInWorkspaceUnlocked document.filePath
  · rw [if_pos hguard, if_pos hguard]
    cases hpairs : parser document.getContent with
    | none => exact abstract_writeUnparsed h hpairs
    | some pairs => exact abstract_writeUpdate h hpairs
  · rw [if_neg hguard, if_neg hguard, write_nil]

lemma abstract_runRefresh (env : Environment) (fs : FileSystem) (h : s.Consistent) (path : FsPath)
    (p : ParserState) : some (s.runRefresh env fs path p).abstract =
      (s.abstract.fileWrites env fs (.refresh path p)).map s.abstract.write := by
  rw [runRefresh, Settings.fileWrites, Option.map_some, Option.some.injEq]
  simp only [hasStamp_abstract, isInWorkspace_abstract]
  by_cases hstamp : s.hasStamp p.stamp
  · rw [if_pos hstamp, if_pos hstamp]
    cases if fs.present path then refreshedPairs env fs path p else none with
    | none => exact abstract_eraseFile h _
    | some pairs =>
      by_cases hworkspace : s.isInWorkspaceUnlocked path = true
      · simp only [hworkspace, if_true]
        exact abstract_writeRefresh h path pairs _
      · simp only [hworkspace, Bool.false_eq_true, if_false, write_nil]
  · rw [if_neg hstamp, if_neg hstamp, write_nil]

lemma abstract_runTask (env : Environment) (fs : FileSystem) (h : s.Consistent) (task : Task) :
    (task.run env fs s).map abstract = s.abstract.runTask env fs task := by
  cases task with
  | rebuild p generation folders documents =>
    exact congrArg some (abstract_runRebuild env fs p generation folders documents)
  | update document p => exact abstract_runUpdate env fs h document p
  | refresh path p => exact abstract_runRefresh env fs h path p

end CrossrefService

namespace PooledService

variable {env : Environment} {s : PooledService} {event : Event}

lemma abstract_scheduleClosedDocumentRefresh (h : s.service.Consistent) (uri : Bytes) :
    (s.scheduleClosedDocumentRefresh uri).abstract = s.abstract.scheduleClosedDocumentRefresh uri := by
  rw [scheduleClosedDocumentRefresh, PooledCatalog.scheduleClosedDocumentRefresh]
  change abstract (match s.service.parserState with | none => _ | some _ => _) =
    match s.service.parserState with | none => _ | some _ => _
  cases s.service.parserState with
  | none => rfl
  | some p =>
    by_cases hsupported : isSupportedUri uri = true
    · by_cases hworkspace : s.service.isInWorkspaceUnlocked (filePathFromUri uri) = true
      · simp [hsupported, hworkspace, abstract]
      · simp [hsupported, hworkspace, abstract, CrossrefService.abstract_eraseFile h]
    · simp [hsupported]

theorem abstract_step (h : s.service.Consistent) :
    (step env s event).map abstract = PooledCatalog.step env s.abstract event := by
  cases event with
  | updateParserConfig p folders documents =>
    simp only [step, PooledCatalog.step, Option.map_some, updateParserConfig,
      PooledCatalog.updateParserConfig]
    by_cases hstamp : s.service.hasStamp p.stamp
    · rw [if_pos hstamp, if_pos (by exact hstamp)]
    · rw [if_neg hstamp, if_neg (by exact hstamp)]
      rfl
  | clearParserConfig => rfl
  | scheduleOpenDocumentUpdate document =>
    simp only [step, PooledCatalog.step, Option.map_some, scheduleOpenDocumentUpdate,
      PooledCatalog.scheduleOpenDocumentUpdate]
    change some (abstract (match s.service.parserState with | none => _ | some _ => _)) =
      some (match s.service.parserState with | none => _ | some _ => _)
    cases s.service.parserState with
    | none => rfl
    | some p =>
      apply congrArg some
      exact apply_ite abstract _ _ _
  | scheduleClosedDocumentRefresh uri =>
    exact congrArg some (abstract_scheduleClosedDocumentRefresh h uri)
  | runTask position fs =>
    change ((s.tasks[position]?.bind _).map abstract) = s.tasks[position]?.bind _
    cases s.tasks[position]? with
    | none => rfl
    | some task =>
      rw [Option.bind_some, Option.bind_some, Option.map_map]
      have htask := CrossrefService.abstract_runTask env fs h task
      change _ = (s.service.abstract.runTask env fs task).map _
      rw [← htask, Option.map_map]
      rfl
  | failRebuild position =>
    change (match s.tasks[position]? with
      | some (.rebuild _ _ _ _) => some ({ s with tasks := s.tasks.eraseIdx position } : PooledService)
      | _ => none).map abstract = match s.tasks[position]? with
      | some (.rebuild _ _ _ _) => some ({ s.abstract with tasks := s.tasks.eraseIdx position } : PooledCatalog)
      | _ => none
    split <;> rfl

lemma run_map_abstract {s : PooledService} (h : WellFormed s) (events : List Event) :
    (run (step env) s events).map abstract = run (PooledCatalog.step env) s.abstract events := by
  apply run_map_of_invariant (I := WellFormed)
  · exact fun _ _ _ h hstep => wellFormed_step h hstep
  · exact fun _ _ h => abstract_step h.consistent
  · exact h

theorem run_abstract (events : List Event) :
    (run (step env) {} events).map abstract = run (PooledCatalog.step env) {} events := by
  have hstart : abstract {} = {} := rfl
  rw [← hstart]
  exact run_map_abstract wellFormed_empty events

end PooledService

end DltxtBridge.Crossref
