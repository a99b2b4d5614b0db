import DltxtBridge.Crossref.Catalog
import DltxtBridge.Crossref.LastEvent
import DltxtBridge.Crossref.RuleMatching

namespace DltxtBridge.Crossref

open Documents TransitionSystem

structure Admissible (rules : List WorkspaceGitIgnoreRules) (filePath : Bytes) (record : FileRecord) :
    Prop where
  recorded : record.indexed = false → record = {}
  named : ∀ info ∈ record.lines, info.fileName = filePath
  allowed : record.indexed = true → ∀ path : FsPath, path.Spelled → path.rootDirectory = true →
    path.genericString = filePath → isGitignored path rules false = false

def NamedByUri (document : TextDocument) : Prop := document.filePath = filePathFromUri document.uri

instance (document : TextDocument) : Decidable (NamedByUri document) :=
  inferInstanceAs (Decidable (_ = _))

/-- The documents come from a `DocumentManager`, which opens each under the URI of its file. -/
def Event.Named : Event → Prop
  | .updateParserConfig _ _ openDocuments => ∀ document ∈ openDocuments, NamedByUri document
  | .scheduleOpenDocumentUpdate document => NamedByUri document
  | _ => True

instance decidableNamed : ∀ event : Event, Decidable event.Named
  | .updateParserConfig _ _ openDocuments =>
    inferInstanceAs (Decidable (∀ document ∈ openDocuments, NamedByUri document))
  | .scheduleOpenDocumentUpdate document => inferInstanceAs (Decidable (NamedByUri document))
  | .clearParserConfig | .scheduleClosedDocumentRefresh _ | .runTask _ _ | .failRebuild _ => isTrue trivial

def Task.Named : Task → Prop
  | .rebuild _ _ _ openDocuments => ∀ document ∈ openDocuments, NamedByUri document
  | .update document _ => document.filePath.Spelled
  | .refresh path _ => path.Spelled

structure Confined (s : PooledCatalog) : Prop where
  records : ∀ filePath, Admissible s.service.rules filePath (s.service.catalog filePath)
  tasks : ∀ task ∈ s.tasks, task.Named

section Writes

variable {rules : List WorkspaceGitIgnoreRules} {filePath : Bytes} {path : FsPath}

lemma spelled_filePathFromUri (uri : Bytes) : (filePathFromUri uri).Spelled := by
  rw [filePathFromUri]
  split_ifs <;> exact FsPath.spelled_ofBytes _

lemma admissible_empty (rules : List WorkspaceGitIgnoreRules) (filePath : Bytes) :
    Admissible rules filePath {} where
  recorded _ := rfl
  named info hinfo := by cases hinfo
  allowed h := by cases h

lemma mem_linesOf {info : LineInfo} {pairs : List ParsedPair} (h : info ∈ linesOf path pairs) :
    info.fileName = path.genericString := by
  obtain ⟨pair, -, rfl⟩ := List.mem_map.mp h
  rfl

lemma admissible_of_allowed (hspelled : path.Spelled) (hallowed : isGitignored path rules false = false)
    {record : FileRecord} (hindexed : record.indexed = true)
    (hnamed : ∀ info ∈ record.lines, info.fileName = path.genericString) :
    Admissible rules path.genericString record where
  recorded h := by
    rw [hindexed] at h
    cases h
  named := hnamed
  allowed _ other hother _ hsame := by rwa [FsPath.eq_of_genericString hother hspelled hsame]

lemma allowed_of_isInWorkspace {settings : Settings} (h : settings.isInWorkspace path = true) :
    isGitignored path settings.rules false = false := by
  rw [Settings.isInWorkspace, Bool.and_eq_true, Bool.not_eq_true'] at h
  exact h.2

lemma admissible_updateWrite {settings : Settings} {document : TextDocument}
    (hspelled : document.filePath.Spelled) (hworkspace : settings.isInWorkspace document.filePath = true)
    (parser : TextParser) (record : FileRecord) :
    Admissible settings.rules (updateWrite parser document).key
      ((updateWrite parser document).change record) :=
  admissible_of_allowed hspelled (allowed_of_isInWorkspace hworkspace) rfl fun _ => mem_linesOf

lemma admissible_refreshWrite {settings : Settings} (hspelled : path.Spelled)
    (hworkspace : settings.isInWorkspace path = true) (pairs : List ParsedPair) (timestamp : Option ℤ)
    (record : FileRecord) : Admissible settings.rules (refreshWrite path pairs timestamp).key
      ((refreshWrite path pairs timestamp).change record) :=
  admissible_of_allowed hspelled (allowed_of_isInWorkspace hworkspace) rfl fun _ => mem_linesOf

lemma admissible_ingest {d : Ingested} {parser : TextParser} {record : FileRecord}
    (hallowed : ∀ path : FsPath, path.Spelled → path.rootDirectory = true →
      path.genericString = d.path → isGitignored path rules false = false)
    (h : Admissible rules d.path record) : Admissible rules d.path ((d.write parser).change record) := by
  cases hpairs : parser d.document.getContent with
  | none => simpa only [Ingested.write, hpairs] using h
  | some pairs =>
    simp only [Ingested.write, hpairs]
    refine ⟨fun hindexed => Bool.noConfusion hindexed, fun info hinfo => ?_, fun _ => hallowed⟩
    rcases List.mem_append.mp hinfo with hold | hnew
    · exact h.named info hold
    · exact mem_linesOf hnew

lemma admissible_fileWrites {env : Environment} {fs : FileSystem} {settings : Settings} {task : Task}
    {writes : List FileWrite} (hnamed : task.Named) (hwrites : settings.fileWrites env fs task = some writes) :
    ∀ w ∈ writes, ∀ record, Admissible settings.rules w.key (w.change record) := by
  cases task with
  | rebuild p generation folders documents =>
    cases hwrites
    simp
  | update document p =>
    obtain ⟨parser, -, rfl⟩ := Option.map_eq_some_iff.mp hwrites
    split_ifs with hguard
    · intro w hw record
      obtain rfl := List.mem_singleton.mp hw
      exact admissible_updateWrite hnamed hguard.2 parser record
    · simp
  | refresh path p =>
    simp only [Settings.fileWrites, Option.some.injEq] at hwrites
    subst hwrites
    by_cases hstamp : settings.hasStamp p.stamp
    · rw [if_pos hstamp]
      cases if fs.present path then CrossrefService.refreshedPairs env fs path p else none with
      | none =>
        intro w hw record
        obtain rfl := List.mem_singleton.mp hw
        exact admissible_empty _ _
      | some pairs =>
        by_cases hworkspace : settings.isInWorkspace path = true
        · intro w hw record
          simp only [hworkspace, if_true, List.mem_singleton] at hw
          subst hw
          exact admissible_refreshWrite hnamed hworkspace pairs _ record
        · simp [hworkspace]
    · simp [hstamp]

end Writes

section Rebuild

variable {env : Environment} {fs : FileSystem} {workspaceFolders : List Bytes} {uri : Bytes}

lemma file_of_collected (h : uri ∈ collectedUris fs workspaceFolders)
    (habsolute : (filePathFromUri uri).rootDirectory = true) :
    ∃ parent name, filePathFromUri uri = (child parent name).lexicallyNormal ∧
      uri = fileUriFromPath (child parent name) ∧
      collectsFile (buildWorkspaceGitignoreRules fs workspaceFolders) (child parent name) = true := by
  obtain ⟨above, file, hfile, -, hcollects, rfl⟩ := mem_collectWorkspaceTextUris.mp h
  obtain ⟨parent, name, hparent, rfl⟩ := hfile.exists_child
  obtain ⟨names, hnormal, hnames⟩ := lexicallyNormal_child parent name
  have hspelling := @ofBytes_dropDriveSeparator (child parent name).lexicallyNormal
    (by simp [hnormal]) (by rw [hnormal]; exact forall_mem_concat (hnames hparent) name)
  rw [filePathFromUri_fileUriFromPath] at habsolute ⊢
  refine ⟨parent, name, ?_, rfl, hcollects⟩
  rcases hspelling with hkept | hdropped
  · exact hkept
  · rw [hdropped] at habsolute
    cases habsolute

lemma allowed_of_collected (h : uri ∈ collectedUris fs workspaceFolders)
    (habsolute : (filePathFromUri uri).rootDirectory = true) :
    isGitignored (filePathFromUri uri) (buildWorkspaceGitignoreRules fs workspaceFolders) false = false := by
  obtain ⟨parent, name, hpath, -, hcollects⟩ := file_of_collected h habsolute
  rw [hpath, isGitignored_congr (FsPath.lexicallyNormal_lexicallyNormal _)]
  rw [collectsFile, Bool.and_eq_true, Bool.not_eq_true'] at hcollects
  exact hcollects.2

lemma supported_of_collected (h : uri ∈ collectedUris fs workspaceFolders)
    (habsolute : (filePathFromUri uri).rootDirectory = true) :
    isTextFile (filePathFromUri uri) = true ∧ isSupportedUri uri = true := by
  obtain ⟨parent, name, hpath, huri, hcollects⟩ := file_of_collected h habsolute
  obtain ⟨names, hnormal, -⟩ := lexicallyNormal_child parent name
  have hname : (filePathFromUri uri).filename = (child parent name).filename := by
    rw [hpath, hnormal, filename_child]
    simp [FsPath.filename]
  have htext : isTextFile (filePathFromUri uri) = true := by
    rw [collectsFile, Bool.and_eq_true, Bool.and_eq_true] at hcollects
    rw [isTextFile, FsPath.extension, hname]
    exact hcollects.1.2
  refine ⟨htext, ?_⟩
  rw [isSupportedUri, htext, Bool.and_true, huri, fileUriFromPath]
  exact List.isPrefixOf_iff_prefix.mpr (List.prefix_append _ _)

lemma admissible_rebuilt {openDocuments : List TextDocument} (parser : TextParser)
    (hnamed : ∀ document ∈ openDocuments, NamedByUri document) (filePath : Bytes) :
    Admissible (buildWorkspaceGitignoreRules fs workspaceFolders) filePath
      (CatalogService.rebuilt env fs workspaceFolders openDocuments parser filePath) := by
  refine KeyedWrite.applyAll_invariant (I := Admissible _) (fun f => admissible_empty _ f) ?_ filePath
  intro w hw record hrecord
  obtain ⟨d, hd, rfl⟩ := List.mem_map.mp hw
  obtain ⟨uri, huri, hsource⟩ := List.mem_filterMap.mp hd
  refine admissible_ingest (fun path hspelled habsolute hpath => ?_) hrecord
  rw [path_of_source hnamed hsource] at hpath
  obtain rfl := FsPath.eq_of_genericString hspelled (spelled_filePathFromUri uri) hpath
  exact allowed_of_collected huri habsolute

end Rebuild

namespace PooledCatalog

variable {env : Environment} {s t : PooledCatalog} {event : Event}

lemma confined_empty : Confined {} where
  records := admissible_empty []
  tasks task htask := by cases htask

lemma confined_post (h : Confined s) {task : Task} (htask : task.Named) :
    Confined { s with tasks := s.tasks ++ [task] } where
  records := h.records
  tasks := List.forall_mem_append.mpr ⟨h.tasks, by simpa using htask⟩

lemma confined_runTask {fs : FileSystem} {task : Task} {service : CatalogService} (h : Confined s)
    (htask : task ∈ s.tasks) (hrun : s.service.runTask env fs task = some service) (filePath : Bytes) :
    Admissible service.rules filePath (service.catalog filePath) := by
  have hnamed := h.tasks task htask
  cases task with
  | rebuild p generation folders documents =>
    cases hrun
    rw [CatalogService.runRebuild]
    cases env.makeTextParser p.config with
    | none => exact h.records filePath
    | some parser =>
      simp only
      split_ifs
      · exact admissible_rebuilt parser hnamed filePath
      · exact h.records filePath
  | update document p =>
    obtain ⟨writes, hwrites, rfl⟩ := Option.map_eq_some_iff.mp hrun
    exact KeyedWrite.applyAll_invariant h.records
      (fun w hw record _ => admissible_fileWrites hnamed hwrites w hw record) filePath
  | refresh path p =>
    change (s.service.fileWrites env fs (.refresh path p)).map s.service.write = _ at hrun
    obtain ⟨writes, hwrites, rfl⟩ := Option.map_eq_some_iff.mp hrun
    exact KeyedWrite.applyAll_invariant h.records
      (fun w hw record _ => admissible_fileWrites hnamed hwrites w hw record) filePath

theorem confined_step (h : Confined s) (hnamed : event.Named) (hstep : step env s event = some t) :
    Confined t := by
  cases event with
  | updateParserConfig p folders documents =>
    cases hstep
    rw [updateParserConfig]
    split_ifs
    · exact h
    · exact ⟨h.records, (@confined_post _ h (.rebuild p _ folders documents) hnamed).tasks⟩
  | clearParserConfig =>
    cases hstep
    exact ⟨admissible_empty [], h.tasks⟩
  | scheduleOpenDocumentUpdate document =>
    cases hstep
    have hspelled : document.filePath.Spelled := hnamed ▸ spelled_filePathFromUri document.uri
    rw [scheduleOpenDocumentUpdate]
    cases s.service.parserState with
    | none => exact h
    | some p =>
      simp only
      split_ifs
      · exact confined_post h hspelled
      · exact h
  | scheduleClosedDocumentRefresh uri =>
    cases hstep
    rw [scheduleClosedDocumentRefresh]
    cases s.service.parserState with
    | none => exact h
    | some p =>
      simp only
      split_ifs
      · exact confined_post h (spelled_filePathFromUri uri)
      · refine ⟨KeyedWrite.applyAll_invariant h.records ?_, h.tasks⟩
        intro w hw record _
        obtain rfl := List.mem_singleton.mp hw
        exact admissible_empty _ _
      · exact h
  | runTask position fs =>
    rw [step, Option.bind_eq_some_iff] at hstep
    obtain ⟨task, htask, hstep⟩ := hstep
    obtain ⟨service, hrun, rfl⟩ := Option.map_eq_some_iff.mp hstep
    exact ⟨confined_runTask h (List.mem_of_getElem? htask) hrun,
      fun task htask => h.tasks task (List.mem_of_mem_eraseIdx htask)⟩
  | failRebuild position =>
    rw [step] at hstep
    split at hstep
    · cases hstep
      exact ⟨h.records, fun task htask => h.tasks task (List.mem_of_mem_eraseIdx htask)⟩
    · cases hstep

theorem run_confined {events : List Event} (hnamed : ∀ event ∈ events, event.Named)
    (hrun : run (step env) {} events = some s) : Confined s :=
  invariant_along (fun _ _ _ h hevent hstep => confined_step h hevent hstep) confined_empty
    (along_of_forall (Q := Event.Named) hnamed _) hrun

end PooledCatalog

namespace PooledService

variable {env : Environment} {s : PooledService} {events : List Event}

lemma confined_abstract (hnamed : ∀ event ∈ events, event.Named)
    (hrun : run (step env) {} events = some s) : Confined s.abstract := by
  apply @PooledCatalog.run_confined env _ _ hnamed
  change run (PooledCatalog.step env) (abstract {}) events = some s.abstract
  rw [← run_map_abstract wellFormed_empty, hrun, Option.map_some]

lemma untraced_of_confined (hconfined : Confined s.abstract) (hconsistent : s.service.toBuildState.Consistent)
    {uri : Bytes} (habsolute : (filePathFromUri uri).rootDirectory = true)
    (hignored : isGitignored (filePathFromUri uri) s.service.workspaceGitignoreRules false = true) :
    s.service.catalog (filePathFromUri uri).genericString = {} ∧
      ∀ id info, s.service.lineInfos.lookup id = some info →
        info.fileName ≠ (filePathFromUri uri).genericString := by
  have hrecord := hconfined.records (filePathFromUri uri).genericString
  have hempty : s.service.catalog (filePathFromUri uri).genericString = {} := by
    apply hrecord.recorded
    rw [Bool.eq_false_iff]
    intro hindexed
    have hallowed := hrecord.allowed hindexed _ (spelled_filePathFromUri uri) habsolute rfl
    exact absurd (hignored.symm.trans hallowed) (by decide)
  refine ⟨hempty, ?_⟩
  intro id info hinfo hname
  have hstored := hconsistent.mem_stored hinfo
  have hlines := congrArg FileRecord.lines hempty
  rw [← hname] at hlines
  change s.service.stored info.fileName = [] at hlines
  rw [hlines] at hstored
  cases hstored

theorem ignored_file_untraced (hnamed : ∀ event ∈ events, event.Named)
    (hrun : run (step env) {} events = some s) {uri : Bytes}
    (habsolute : (filePathFromUri uri).rootDirectory = true)
    (hignored : isGitignored (filePathFromUri uri) s.service.workspaceGitignoreRules false = true) :
    s.service.catalog (filePathFromUri uri).genericString = {} ∧
      ∀ id info, s.service.lineInfos.lookup id = some info →
        info.fileName ≠ (filePathFromUri uri).genericString := by
  have hconsistent := (run_wellFormed hrun).consistent
  exact untraced_of_confined (confined_abstract hnamed hrun) hconsistent habsolute hignored

end PooledService

section Order

def Task.file : Task → Option Bytes
  | .update document _ => some document.filePath.genericString
  | .refresh path _ => some path.genericString
  | .rebuild _ _ _ _ => none

abbrev Schedule := List (Task × FileSystem)

def runTasks (env : Environment) (s : CrossrefService) (schedule : Schedule) : Option CrossrefService :=
  schedule.foldlM (fun s entry => entry.1.run env entry.2 s) s

def Schedule.ofFile (schedule : Schedule) (file : Option Bytes) : Schedule :=
  schedule.filter fun entry => entry.1.file = file

namespace Settings

variable {env : Environment} {settings : Settings}

def scheduledWrites (env : Environment) (settings : Settings) (entry : Task × FileSystem) : List FileWrite :=
  (settings.fileWrites env entry.2 entry.1).getD []

lemma key_of_fileWrites {fs : FileSystem} {task : Task} {writes : List FileWrite} {w : FileWrite}
    (hwrites : settings.fileWrites env fs task = some writes) (hw : w ∈ writes) : task.file = some w.key := by
  cases task with
  | rebuild p generation folders documents =>
    cases hwrites
    cases hw
  | update document p =>
    obtain ⟨parser, -, rfl⟩ := Option.map_eq_some_iff.mp hwrites
    split_ifs at hw with hguard
    · obtain rfl := List.mem_singleton.mp hw
      rfl
    · cases hw
  | refresh path p =>
    simp only [fileWrites, Option.some.injEq] at hwrites
    subst hwrites
    by_cases hstamp : settings.hasStamp p.stamp
    · rw [if_pos hstamp] at hw
      cases hread : if fs.present path then CrossrefService.refreshedPairs env fs path p else none with
      | none =>
        rw [hread] at hw
        obtain rfl := List.mem_singleton.mp hw
        rfl
      | some pairs =>
        rw [hread] at hw
        by_cases hworkspace : settings.isInWorkspace path = true
        · simp only [hworkspace, if_true, List.mem_singleton] at hw
          subst hw
          rfl
        · simp [hworkspace] at hw
    · rw [if_neg hstamp] at hw
      cases hw

lemma key_of_scheduledWrites {entry : Task × FileSystem} {w : FileWrite}
    (hw : w ∈ settings.scheduledWrites env entry) : entry.1.file = some w.key := by
  rw [scheduledWrites] at hw
  cases hwrites : settings.fileWrites env entry.2 entry.1 with
  | none =>
    rw [hwrites] at hw
    cases hw
  | some writes =>
    rw [hwrites] at hw
    exact key_of_fileWrites hwrites hw

lemma filter_scheduledWrites (schedule : Schedule) (filePath : Bytes) :
    ((schedule.flatMap (settings.scheduledWrites env)).filter fun w => w.key = filePath) =
      (schedule.ofFile (some filePath)).flatMap (settings.scheduledWrites env) := by
  induction schedule with
  | nil => rfl
  | cons entry schedule ih =>
    rw [List.flatMap_cons, List.filter_append, ih]
    by_cases hfile : entry.1.file = some filePath
    · have hall : (settings.scheduledWrites env entry).filter (fun w => w.key = filePath) =
          settings.scheduledWrites env entry := by
        apply List.filter_eq_self.mpr
        intro w hw
        rw [key_of_scheduledWrites hw, Option.some.injEq] at hfile
        simpa using hfile
      rw [hall, Schedule.ofFile, Schedule.ofFile, List.filter_cons_of_pos (by simpa using hfile),
        List.flatMap_cons]
    · have hnone : (settings.scheduledWrites env entry).filter (fun w => w.key = filePath) = [] := by
        apply List.filter_eq_nil_iff.mpr
        intro w hw hkey
        apply hfile
        rw [key_of_scheduledWrites hw, of_decide_eq_true hkey]
      rw [hnone, List.nil_append, Schedule.ofFile, Schedule.ofFile,
        List.filter_cons_of_neg (by simpa using hfile)]

end Settings

namespace CrossrefService

variable {env : Environment} {s : CrossrefService}

lemma consistent_of_task {fs : FileSystem} {task : Task} {t : CrossrefService} (h : s.Consistent)
    (hrun : task.run env fs s = some t) : t.Consistent := by
  have hstep : PooledService.step env ⟨s, [task]⟩ (.runTask 0 fs) = some ⟨t, []⟩ := by
    simp [PooledService.step, hrun]
  exact PooledService.effect_consistent h (PooledService.effect_of_step hstep)

lemma abstract_run_of_file (env : Environment) (fs : FileSystem) {task : Task} (h : s.Consistent)
    (hfile : task.file ≠ none) :
    (task.run env fs s).map abstract = (s.settings.fileWrites env fs task).map s.abstract.write := by
  rw [abstract_runTask env fs h]
  cases task with
  | rebuild => exact absurd rfl hfile
  | update | refresh => rfl

lemma abstract_runTasks (h : s.Consistent) {schedule : Schedule}
    (hfiles : ∀ entry ∈ schedule, entry.1.file ≠ none) :
    (runTasks env s schedule).map abstract =
      if ∀ entry ∈ schedule, s.settings.fileWrites env entry.2 entry.1 ≠ none then
        some (s.abstract.write (schedule.flatMap (s.settings.scheduledWrites env)))
      else none := by
  induction schedule generalizing s with
  | nil => rfl
  | cons entry schedule ih =>
    obtain ⟨hfile, hfiles⟩ := List.forall_mem_cons.mp hfiles
    have hentry := abstract_run_of_file env entry.2 h hfile
    have hsplit : runTasks env s (entry :: schedule) =
        (entry.1.run env entry.2 s).bind fun t => runTasks env t schedule := rfl
    rw [hsplit]
    cases hrun : entry.1.run env entry.2 s with
    | none =>
      rw [hrun, Option.map_none, eq_comm, Option.map_eq_none_iff] at hentry
      simp [hentry]
    | some t =>
      rw [hrun, Option.map_some, eq_comm, Option.map_eq_some_iff] at hentry
      obtain ⟨writes, hwrites, habstract⟩ := hentry
      have hsettings : t.settings = s.settings := congrArg CatalogService.toSettings habstract.symm
      rw [Option.bind_some, ih (consistent_of_task h hrun) hfiles, hsettings, ← habstract]
      simp only [List.forall_mem_cons, hwrites, ne_eq, reduceCtorEq, not_false_eq_true, true_and,
        List.flatMap_cons, Settings.scheduledWrites, Option.getD_some]
      rw [CatalogService.write, CatalogService.write, CatalogService.write, KeyedWrite.applyAll_append]

lemma mem_of_ofFile {schedule others : Schedule} (hsame : ∀ file, schedule.ofFile file = others.ofFile file)
    {entry : Task × FileSystem} (h : entry ∈ schedule) : entry ∈ others := by
  have hfile : entry ∈ schedule.ofFile entry.1.file := List.mem_filter.mpr ⟨h, by simp⟩
  rw [hsame] at hfile
  exact List.mem_of_mem_filter hfile

theorem runTasks_order_irrelevant {events : List Event} {before : PooledService}
    (hrun : run (PooledService.step env) {} events = some before) {schedule others : Schedule}
    (hfiles : ∀ entry ∈ schedule, entry.1.file ≠ none)
    (hsame : ∀ file, schedule.ofFile file = others.ofFile file) :
    (runTasks env before.service schedule).map abstract =
      (runTasks env before.service others).map abstract := by
  have h := (PooledService.run_wellFormed hrun).consistent
  have hmem : ∀ entry, entry ∈ schedule ↔ entry ∈ others := fun entry =>
    ⟨mem_of_ofFile hsame, mem_of_ofFile fun file => (hsame file).symm⟩
  have hwrites : KeyedWrite.applyAll before.service.catalog
        (schedule.flatMap (before.service.settings.scheduledWrites env)) =
      KeyedWrite.applyAll before.service.catalog
        (others.flatMap (before.service.settings.scheduledWrites env)) := by
    apply KeyedWrite.applyAll_congr
    intro filePath
    rw [Settings.filter_scheduledWrites, Settings.filter_scheduledWrites, hsame]
  rw [abstract_runTasks h hfiles, abstract_runTasks h fun entry hentry => hfiles entry ((hmem entry).mpr hentry)]
  simp only [hmem]
  split_ifs
  · exact congrArg (fun c => some { before.service.abstract with catalog := c }) hwrites
  · rfl

end CrossrefService

end Order

section Examples

def ignoredFile : FileSystem where
  read path := if path = FsPath.ofBytes (ascii "/w/.gitignore") then some (ascii "a.txt") else none
  present _ := true
  lastWriteTime _ := none
  tree path :=
    if path = FsPath.ofBytes (ascii "/w") then some (.file gitignoreName (.file textName .done)) else none

def openedIgnored : List Event :=
  [.updateParserConfig exampleParser [ascii "file:///w"] [editedFile 1 [97]], .runTask 0 ignoredFile,
    .scheduleOpenDocumentUpdate (editedFile 2 [98])]

theorem ignored_file_untraced_opened :
    ∃ s, run (PooledService.step asciiEnvironment) {} openedIgnored = some s ∧
      s.service.catalog (ascii "/w/a.txt") = {} := by
  obtain ⟨s, hs⟩ : ∃ s, run (PooledService.step asciiEnvironment) {} openedIgnored = some s :=
    Option.isSome_iff_exists.mp (by decide)
  have hrules : (run (PooledService.step asciiEnvironment) {} openedIgnored).map (fun s =>
      isGitignored (filePathFromUri (ascii "file:///w/a.txt")) s.service.workspaceGitignoreRules false) =
        some true := by
    decide
  rw [hs, Option.map_some, Option.some.injEq] at hrules
  exact ⟨s, hs, (PooledService.ignored_file_untraced (by decide) hs (by decide) hrules).1⟩

def otherFile : TextDocument :=
  TextDocument.create (ascii "file:///w/b.txt") (ascii "client-decoded")
    (FsPath.ofBytes (ascii "/w/b.txt")) 1 [98]

def updateThenRefresh : Schedule :=
  [(.update otherFile exampleParser, oneFile (ascii "x")), (.refresh examplePath exampleParser, oneFile (ascii "y"))]

theorem runTasks_order_irrelevant_reversed :
    (runTasks asciiEnvironment indexed.service updateThenRefresh).map CrossrefService.abstract =
      (runTasks asciiEnvironment indexed.service updateThenRefresh.reverse).map CrossrefService.abstract := by
  apply CrossrefService.runTasks_order_irrelevant run_indexing
  · simp [updateThenRefresh, Task.file]
  · intro file
    have hother : otherFile.filePath.genericString = ascii "/w/b.txt" := by decide
    have hexample : examplePath.genericString = ascii "/w/a.txt" := by decide
    have hne : some (ascii "/w/a.txt") ≠ some (ascii "/w/b.txt") := by decide
    by_cases hfile : some (ascii "/w/a.txt") = file
    · subst hfile
      simp [Schedule.ofFile, updateThenRefresh, Task.file, hother, hexample, hne.symm]
    · simp [Schedule.ofFile, updateThenRefresh, Task.file, List.filter_cons, hexample, hfile]

end Examples

end DltxtBridge.Crossref
