import DltxtBridge.Crossref.Bookkeeping
import DltxtBridge.Library.TransitionSystem

/-! The service and its thread pool. A call that posts work and a posted task are one step
each: only what they do under the lock touches the service. Posted tasks run in any order. -/

namespace DltxtBridge.Crossref

open Documents TransitionSystem

inductive Task
  | rebuild (parserState : ParserState) (generation : ℕ) (workspaceFolders : List Bytes)
    (openDocuments : List TextDocument)
  | update (document : TextDocument) (parserState : ParserState)
  | refresh (filePath : FsPath) (parserState : ParserState)

structure PooledService where
  service : CrossrefService := {}
  tasks : List Task := []

/-- A task sees the file system as it is when it runs; a rebuild may also fail. -/
inductive Event
  | updateParserConfig (parserState : ParserState) (workspaceFolders : List Bytes)
    (openDocuments : List TextDocument)
  | clearParserConfig
  | scheduleOpenDocumentUpdate (document : TextDocument)
  | scheduleClosedDocumentRefresh (uri : Bytes)
  | runTask (position : ℕ) (fs : FileSystem)
  | failRebuild (position : ℕ)

namespace CrossrefService

def hasStamp (s : CrossrefService) (stamp : Bytes) : Prop := s.parserState.map ParserState.stamp = some stamp

instance (s : CrossrefService) (stamp : Bytes) : Decidable (s.hasStamp stamp) :=
  inferInstanceAs (Decidable (_ = _))

def configure (s : CrossrefService) (parserState : ParserState) : CrossrefService :=
  { s with parserState := some parserState, rebuildGeneration := s.rebuildGeneration + 1 }

def clearParserConfig (s : CrossrefService) : CrossrefService :=
  resetUnlocked { s with parserState := none, rebuildGeneration := s.rebuildGeneration + 1 }

def writeRebuild (s : CrossrefService) (state : BuildState) (generation : ℕ) : CrossrefService :=
  { s.applyRebuildUnlocked state with appliedGeneration := generation }

def writeUpdate (s : CrossrefService) (document : TextDocument) (pairs : List ParsedPair) :
    CrossrefService :=
  let filePath := document.filePath.genericString
  let s := s.replaceDocumentUnlocked filePath document.filePath.filename pairs
  { s with
    openDocumentVersions := s.openDocumentVersions.insert filePath document.version
    diskFileTimestamps := s.diskFileTimestamps.erase filePath }

/-- An open document that does not parse keeps its version and no lines. -/
def writeUnparsed (s : CrossrefService) (document : TextDocument) : CrossrefService :=
  let filePath := document.filePath.genericString
  let s := s.eraseFileUnlocked filePath
  { s with
    openDocumentVersions := s.openDocumentVersions.insert filePath document.version
    indexedFilePaths := insert filePath s.indexedFilePaths }

def writeRefresh (s : CrossrefService) (path : FsPath) (pairs : List ParsedPair)
    (timestamp : Option ℤ) : CrossrefService :=
  let filePath := path.genericString
  let s := s.replaceDocumentUnlocked filePath path.filename pairs
  { s with
    openDocumentVersions := s.openDocumentVersions.erase filePath
    diskFileTimestamps :=
      match timestamp with
      | some time => s.diskFileTimestamps.insert filePath time
      | none => s.diskFileTimestamps }

def runRebuild (env : Environment) (fs : FileSystem) (s : CrossrefService) (parserState : ParserState)
    (generation : ℕ) (workspaceFolders : List Bytes) (openDocuments : List TextDocument) :
    CrossrefService :=
  match buildStateFromSnapshot env fs workspaceFolders openDocuments parserState with
  | none => s
  | some state =>
    if s.hasStamp parserState.stamp ∧ generation = s.rebuildGeneration then
      s.writeRebuild state generation
    else s

/-- The parser is made outside the handler of the task, which nothing else guards. -/
def runUpdate (env : Environment) (s : CrossrefService) (document : TextDocument)
    (parserState : ParserState) : Option CrossrefService :=
  (env.makeTextParser parserState.config).map fun parser =>
    if s.hasStamp parserState.stamp ∧ s.isInWorkspaceUnlocked document.filePath then
      match parser document.getContent with
      | some pairs => s.writeUpdate document pairs
      | none => s.writeUnparsed document
    else s

def refreshedPairs (env : Environment) (fs : FileSystem) (path : FsPath) (parserState : ParserState) :
    Option (List ParsedPair) := do
  let document ← loadFromFile env.codec fs.read path
  let parser ← env.makeTextParser parserState.config
  parser document.getContent

def runRefresh (env : Environment) (fs : FileSystem) (s : CrossrefService) (path : FsPath)
    (parserState : ParserState) : CrossrefService :=
  if s.hasStamp parserState.stamp then
    match (if fs.present path then refreshedPairs env fs path parserState else none) with
    | none => s.eraseFileUnlocked path.genericString
    | some pairs =>
      if s.isInWorkspaceUnlocked path then s.writeRefresh path pairs (fs.lastWriteTime path) else s
  else s

end CrossrefService

def Task.run (env : Environment) (fs : FileSystem) (s : CrossrefService) : Task → Option CrossrefService
  | .rebuild parserState generation workspaceFolders openDocuments =>
    some (s.runRebuild env fs parserState generation workspaceFolders openDocuments)
  | .update document parserState => s.runUpdate env document parserState
  | .refresh path parserState => some (s.runRefresh env fs path parserState)

namespace PooledService

def updateParserConfig (s : PooledService) (parserState : ParserState) (workspaceFolders : List Bytes)
    (openDocuments : List TextDocument) : PooledService :=
  if s.service.hasStamp parserState.stamp then s
  else
    { service := s.service.configure parserState
      tasks := s.tasks ++
        [.rebuild parserState (s.service.rebuildGeneration + 1) workspaceFolders openDocuments] }

def scheduleOpenDocumentUpdate (s : PooledService) (document : TextDocument) : PooledService :=
  match s.service.parserState with
  | none => s
  | some parserState =>
    if isTextFile document.filePath ∧ s.service.isInWorkspaceUnlocked document.filePath ∧
        s.service.openDocumentVersions.lookup document.filePath.genericString ≠ some document.version then
      { s with tasks := s.tasks ++ [.update document parserState] }
    else s

def scheduleClosedDocumentRefresh (s : PooledService) (uri : Bytes) : PooledService :=
  let path := filePathFromUri uri
  match s.service.parserState with
  | none => s
  | some parserState =>
    if ¬ isSupportedUri uri then s
    else if s.service.isInWorkspaceUnlocked path then
      { s with tasks := s.tasks ++ [.refresh path parserState] }
    else { s with service := s.service.eraseFileUnlocked path.genericString }

def step (env : Environment) (s : PooledService) : Event → Option PooledService
  | .updateParserConfig parserState workspaceFolders openDocuments =>
    some (s.updateParserConfig parserState workspaceFolders openDocuments)
  | .clearParserConfig => some { s with service := s.service.clearParserConfig }
  | .scheduleOpenDocumentUpdate document => some (s.scheduleOpenDocumentUpdate document)
  | .scheduleClosedDocumentRefresh uri => some (s.scheduleClosedDocumentRefresh uri)
  | .runTask position fs =>
    s.tasks[position]?.bind fun task => (task.run env fs s.service).map fun service =>
      { service := service, tasks := s.tasks.eraseIdx position }
  | .failRebuild position =>
    match s.tasks[position]? with
    | some (.rebuild _ _ _ _) => some { s with tasks := s.tasks.eraseIdx position }
    | _ => none

variable {env : Environment} {s t : PooledService} {event : Event}

inductive Effect (env : Environment) (s : PooledService) (event : Event) : CrossrefService → Prop
  | unchanged : Effect env s event s.service
  | configured (parserState : ParserState) (workspaceFolders : List Bytes)
      (openDocuments : List TextDocument)
      (hevent : event = .updateParserConfig parserState workspaceFolders openDocuments)
      (hnew : ¬ s.service.hasStamp parserState.stamp) :
      Effect env s event (s.service.configure parserState)
  | cleared (hevent : event = .clearParserConfig) : Effect env s event s.service.clearParserConfig
  | rebuilt (position : ℕ) (fs : FileSystem) (parserState : ParserState)
      (workspaceFolders : List Bytes) (openDocuments : List TextDocument) (state : BuildState)
      (hevent : event = .runTask position fs)
      (htask : s.tasks[position]? =
        some (.rebuild parserState s.service.rebuildGeneration workspaceFolders openDocuments))
      (hstamp : s.service.hasStamp parserState.stamp)
      (hstate : buildStateFromSnapshot env fs workspaceFolders openDocuments parserState = some state) :
      Effect env s event (s.service.writeRebuild state s.service.rebuildGeneration)
  | updated (position : ℕ) (fs : FileSystem) (document : TextDocument) (parserState : ParserState)
      (parser : TextParser) (pairs : List ParsedPair) (hevent : event = .runTask position fs)
      (htask : s.tasks[position]? = some (.update document parserState))
      (hstamp : s.service.hasStamp parserState.stamp)
      (hworkspace : s.service.isInWorkspaceUnlocked document.filePath)
      (hparser : env.makeTextParser parserState.config = some parser)
      (hpairs : parser document.getContent = some pairs) :
      Effect env s event (s.service.writeUpdate document pairs)
  | unparsed (position : ℕ) (fs : FileSystem) (document : TextDocument) (parserState : ParserState)
      (hevent : event = .runTask position fs)
      (htask : s.tasks[position]? = some (.update document parserState))
      (hstamp : s.service.hasStamp parserState.stamp)
      (hworkspace : s.service.isInWorkspaceUnlocked document.filePath) :
      Effect env s event (s.service.writeUnparsed document)
  | refreshed (position : ℕ) (fs : FileSystem) (path : FsPath) (parserState : ParserState)
      (content : Text) (parser : TextParser) (pairs : List ParsedPair)
      (hevent : event = .runTask position fs)
      (htask : s.tasks[position]? = some (.refresh path parserState))
      (hstamp : s.service.hasStamp parserState.stamp)
      (hworkspace : s.service.isInWorkspaceUnlocked path)
      (hparser : env.makeTextParser parserState.config = some parser)
      (hpairs : parser content = some pairs) :
      Effect env s event (s.service.writeRefresh path pairs (fs.lastWriteTime path))
  | erased (filePath : Bytes) : Effect env s event (s.service.eraseFileUnlocked filePath)

lemma effect_rebuild {position : ℕ} {fs : FileSystem} {parserState : ParserState} {generation : ℕ}
    {workspaceFolders : List Bytes} {openDocuments : List TextDocument}
    (htask : s.tasks[position]? =
      some (.rebuild parserState generation workspaceFolders openDocuments)) :
    Effect env s (.runTask position fs)
      (s.service.runRebuild env fs parserState generation workspaceFolders openDocuments) := by
  rw [CrossrefService.runRebuild]
  cases hstate : buildStateFromSnapshot env fs workspaceFolders openDocuments parserState with
  | none => exact .unchanged
  | some state =>
    by_cases hguard : s.service.hasStamp parserState.stamp ∧ generation = s.service.rebuildGeneration
    · obtain ⟨hstamp, rfl⟩ := hguard
      simp only [hstamp, and_self, if_true]
      exact .rebuilt position fs parserState workspaceFolders openDocuments state rfl htask hstamp hstate
    · simp only [hguard, if_false]
      exact .unchanged

lemma effect_update {position : ℕ} {fs : FileSystem} {document : TextDocument}
    {parserState : ParserState} (htask : s.tasks[position]? = some (.update document parserState))
    {service : CrossrefService} (hrun : s.service.runUpdate env document parserState = some service) :
    Effect env s (.runTask position fs) service := by
  obtain ⟨parser, hparser, rfl⟩ := Option.map_eq_some_iff.mp hrun
  split_ifs with hguard
  · cases hpairs : parser document.getContent with
    | none => exact .unparsed position fs document parserState rfl htask hguard.1 hguard.2
    | some pairs =>
      exact .updated position fs document parserState parser pairs rfl htask hguard.1 hguard.2 hparser hpairs
  · exact .unchanged

lemma effect_refresh {position : ℕ} {fs : FileSystem} {path : FsPath} {parserState : ParserState}
    (htask : s.tasks[position]? = some (.refresh path parserState)) :
    Effect env s (.runTask position fs) (s.service.runRefresh env fs path parserState) := by
  rw [CrossrefService.runRefresh]
  by_cases hstamp : s.service.hasStamp parserState.stamp
  · rw [if_pos hstamp]
    cases hread : (if fs.present path then CrossrefService.refreshedPairs env fs path parserState else none) with
    | none => exact .erased _
    | some pairs =>
      split_ifs at hread
      simp only [CrossrefService.refreshedPairs, Option.bind_eq_bind, Option.bind_eq_some_iff] at hread
      obtain ⟨document, -, parser, hparser, hpairs⟩ := hread
      by_cases hworkspace : s.service.isInWorkspaceUnlocked path = true
      · simp only [hworkspace, if_true]
        exact .refreshed position fs path parserState _ parser pairs rfl htask hstamp hworkspace hparser hpairs
      · simp only [hworkspace, Bool.false_eq_true, if_false]
        exact .unchanged
  · rw [if_neg hstamp]
    exact .unchanged

theorem effect_of_step (h : step env s event = some t) : Effect env s event t.service := by
  cases event with
  | updateParserConfig parserState workspaceFolders openDocuments =>
    cases h
    rw [updateParserConfig]
    split_ifs with hstamp
    · exact .unchanged
    · exact .configured parserState workspaceFolders openDocuments rfl hstamp
  | clearParserConfig =>
    cases h
    exact .cleared rfl
  | scheduleOpenDocumentUpdate document =>
    cases h
    rw [scheduleOpenDocumentUpdate]
    cases s.service.parserState with
    | none => exact .unchanged
    | some parserState =>
      simp only
      split_ifs <;> exact .unchanged
  | scheduleClosedDocumentRefresh uri =>
    cases h
    rw [scheduleClosedDocumentRefresh]
    cases s.service.parserState with
    | none => exact .unchanged
    | some parserState =>
      simp only
      split_ifs
      · exact .unchanged
      · exact .erased _
      · exact .unchanged
  | runTask position fs =>
    rw [step, Option.bind_eq_some_iff] at h
    obtain ⟨task, htask, h⟩ := h
    obtain ⟨service, hrun, rfl⟩ := Option.map_eq_some_iff.mp h
    cases task with
    | rebuild parserState generation workspaceFolders openDocuments =>
      cases hrun
      exact effect_rebuild htask
    | update document parserState => exact effect_update htask hrun
    | refresh path parserState =>
      cases hrun
      exact effect_refresh htask
  | failRebuild position =>
    rw [step] at h
    split at h
    · cases h
      exact .unchanged
    · cases h

inductive Posted (s : PooledService) (event : Event) : Task → Prop
  | waiting (task : Task) (h : task ∈ s.tasks) : Posted s event task
  | rebuild (parserState : ParserState) (workspaceFolders : List Bytes)
      (openDocuments : List TextDocument)
      (hevent : event = .updateParserConfig parserState workspaceFolders openDocuments)
      (hnew : ¬ s.service.hasStamp parserState.stamp) :
      Posted s event
        (.rebuild parserState (s.service.rebuildGeneration + 1) workspaceFolders openDocuments)
  | update (document : TextDocument) (parserState : ParserState)
      (hevent : event = .scheduleOpenDocumentUpdate document)
      (hstate : s.service.parserState = some parserState) : Posted s event (.update document parserState)
  | refresh (uri : Bytes) (parserState : ParserState)
      (hevent : event = .scheduleClosedDocumentRefresh uri)
      (hstate : s.service.parserState = some parserState) :
      Posted s event (.refresh (filePathFromUri uri) parserState)

lemma Posted.of_mem_concat {posted task : Task} (hposted : Posted s event posted)
    (htask : task ∈ s.tasks ++ [posted]) : Posted s event task := by
  rw [List.mem_append, List.mem_singleton] at htask
  rcases htask with htask | rfl
  · exact .waiting task htask
  · exact hposted

theorem posted_of_step (h : step env s event = some t) {task : Task} (htask : task ∈ t.tasks) :
    Posted s event task := by
  cases event with
  | updateParserConfig parserState workspaceFolders openDocuments =>
    cases h
    rw [updateParserConfig] at htask
    split_ifs at htask with hstamp
    · exact .waiting task htask
    · exact .of_mem_concat (.rebuild parserState workspaceFolders openDocuments rfl hstamp) htask
  | clearParserConfig =>
    cases h
    exact .waiting task htask
  | scheduleOpenDocumentUpdate document =>
    cases h
    rw [scheduleOpenDocumentUpdate] at htask
    cases hstate : s.service.parserState with
    | none => exact .waiting task (by simpa only [hstate] using htask)
    | some parserState =>
      simp only [hstate] at htask
      split_ifs at htask
      · exact .of_mem_concat (.update document parserState rfl hstate) htask
      · exact .waiting task htask
  | scheduleClosedDocumentRefresh uri =>
    cases h
    rw [scheduleClosedDocumentRefresh] at htask
    cases hstate : s.service.parserState with
    | none => exact .waiting task (by simpa only [hstate] using htask)
    | some parserState =>
      simp only [hstate] at htask
      split_ifs at htask
      · exact .of_mem_concat (.refresh uri parserState rfl hstate) htask
      · exact .waiting task htask
      · exact .waiting task htask
  | runTask position fs =>
    rw [step, Option.bind_eq_some_iff] at h
    obtain ⟨first, -, h⟩ := h
    obtain ⟨service, -, rfl⟩ := Option.map_eq_some_iff.mp h
    exact .waiting task (List.mem_of_mem_eraseIdx htask)
  | failRebuild position =>
    rw [step] at h
    split at h
    · cases h
      exact .waiting task (List.mem_of_mem_eraseIdx htask)
    · cases h

end PooledService

end DltxtBridge.Crossref
