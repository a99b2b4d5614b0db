import DltxtBridge.Crossref.CatalogRuns
import DltxtBridge.Crossref.OpenDocument
import DltxtBridge.Documents.ManagerRuns

namespace DltxtBridge.Crossref

open Documents TransitionSystem

structure Desk where
  session : IndexedSession := {}
  fs : FileSystem

inductive DeskEvent
  | message (notification : Notification) (now : ℤ)
  | diskChange (fs : FileSystem)

def Desk.step (env : Environment) (d : Desk) : DeskEvent → Option Desk
  | .message notification now =>
    (d.session.step env ⟨notification, now, d.fs⟩).map fun session => { d with session := session }
  | .diskChange fs => some { d with fs := fs }

def sourcePairs (env : Environment) (parserState : ParserState) (fs : FileSystem)
    (manager : DocumentManager) (uri : Bytes) : List ParsedPair :=
  match manager.openDocuments.lookup uri with
  | some document => parsedText env parserState document
  | none => parsedFile env parserState fs (filePathFromUri uri)

def Snapshot (manager : DocumentManager) (documents : List TextDocument) : Prop :=
  ∀ uri document, manager.openDocuments.lookup uri = some document ↔
    document ∈ documents ∧ document.uri = uri

def SpelledAsScanned (fs : FileSystem) (workspaceFolders : List Bytes) (uri : Bytes) : Prop :=
  ∀ other ∈ collectedUris fs workspaceFolders,
    (filePathFromUri uri).genericString = (filePathFromUri other).genericString → uri = other

/-- A message names its file as the scan does and leaves a version that is not recorded yet;
the disk changes only below open documents, and not the set of files. -/
def Orderly (env : Environment) (workspaceFolders : List Bytes) (parserState : ParserState) (d : Desk) :
    DeskEvent → Prop
  | .message notification now =>
    SpelledAsScanned d.fs workspaceFolders notification.uri ∧
      IndexedSession.Reindexes env notification.uri parserState d.session ⟨notification, now, d.fs⟩
  | .diskChange fs =>
    collectedUris fs workspaceFolders = collectedUris d.fs workspaceFolders ∧
      ∀ uri ∈ collectedUris fs workspaceFolders, fs.present (filePathFromUri uri) = true ∧
        (d.session.manager.openDocuments.lookup uri = none →
          fs.read (filePathFromUri uri) = d.fs.read (filePathFromUri uri))

section Rebuilt

variable {env : Environment} {fs : FileSystem} {workspaceFolders : List Bytes}
  {documents : List TextDocument} {parserState : ParserState} {parser : TextParser} {state : BuildState}
  {manager : DocumentManager} {uri : Bytes}

lemma lookup_openDocumentsByUri (documents : List TextDocument) (uri : Bytes) :
    (openDocumentsByUri documents).lookup uri =
      documents.find? fun document => isTextFile document.filePath ∧ document.uri = uri := by
  have hfold : ∀ start : FiniteMap Bytes TextDocument,
      (documents.foldl (fun found document =>
        if isTextFile document.filePath then FiniteMap.emplace document.uri document found
        else found) start).lookup uri =
      (start.lookup uri).or
        (documents.find? fun document => isTextFile document.filePath ∧ document.uri = uri) := by
    induction documents with
    | nil => simp
    | cons document documents ih =>
      intro start
      rw [List.foldl_cons, ih, List.find?_cons]
      by_cases htext : isTextFile document.filePath = true
      · rw [if_pos htext, FiniteMap.lookup_emplace_eq_or, Option.or_assoc]
        by_cases huri : document.uri = uri
        · simp [htext, huri]
        · simp [htext, huri, Ne.symm huri]
      · simp [htext]
  rw [openDocumentsByUri, hfold, Finmap.lookup_empty, Option.none_or]

lemma lookup_openDocumentsByUri_of_snapshot (hsnapshot : Snapshot manager documents)
    (hnamed : ∀ document ∈ documents, NamedByUri document) (htext : isTextFile (filePathFromUri uri) = true) :
    (openDocumentsByUri documents).lookup uri = manager.openDocuments.lookup uri := by
  rw [lookup_openDocumentsByUri]
  cases hopen : manager.openDocuments.lookup uri with
  | none =>
    rw [List.find?_eq_none]
    intro document hmem hfound
    rw [decide_eq_true_eq] at hfound
    have hlookup := (hsnapshot uri document).mpr ⟨hmem, hfound.2⟩
    rw [hopen] at hlookup
    cases hlookup
  | some document =>
    obtain ⟨hmem, huri⟩ := (hsnapshot uri document).mp hopen
    have hsome : (documents.find? fun document =>
        isTextFile document.filePath ∧ document.uri = uri).isSome := by
      rw [List.find?_isSome]
      have hpath : document.filePath = filePathFromUri document.uri := hnamed document hmem
      exact ⟨document, hmem, by simp [hpath, huri, htext]⟩
    obtain ⟨found, hfound⟩ := Option.isSome_iff_exists.mp hsome
    have hspec := List.find?_some hfound
    rw [decide_eq_true_eq] at hspec
    have hlookup := (hsnapshot uri found).mpr ⟨List.mem_of_find?_eq_some hfound, hspec.2⟩
    rw [hfound, ← hlookup, hopen]

lemma lines_write_empty (parser : TextParser) (d : Ingested) :
    ((d.write parser).change {}).lines = linesOf d.document.filePath (d.pairs parser) := by
  rw [Ingested.pairs]
  cases hpairs : parser d.document.getContent <;> simp [Ingested.write, hpairs, linesOf]

lemma rebuilt_apply (huri : uri ∈ collectedUris fs workspaceFolders)
    (hunique : Unambiguous fs workspaceFolders uri)
    (hnamed : ∀ document ∈ documents, NamedByUri document) :
    CatalogService.rebuilt env fs workspaceFolders documents parser (filePathFromUri uri).genericString =
      ((source env fs (openDocumentsByUri documents) uri).map fun d => (d.write parser).change {}).getD {} := by
  have hsources := @sourcesOf_of_unique env _ _ _ _ hnamed huri hunique
  rw [CatalogService.rebuilt, KeyedWrite.applyAll_apply, List.filter_map]
  rw [sourcesOf] at hsources
  change ((((collectedUris fs workspaceFolders).filterMap (source env fs (openDocumentsByUri documents))).filter
    fun d => d.path = (filePathFromUri uri).genericString).map (Ingested.write parser)).foldl _ _ = _
  rw [hsources]
  cases source env fs (openDocumentsByUri documents) uri <;> rfl

lemma lines_rebuilt (hparser : env.makeTextParser parserState.config = some parser)
    (hsnapshot : Snapshot manager documents) (hnamed : ∀ document ∈ documents, NamedByUri document)
    (huri : uri ∈ collectedUris fs workspaceFolders) (hunique : Unambiguous fs workspaceFolders uri)
    (htext : isTextFile (filePathFromUri uri) = true) (hpresent : fs.present (filePathFromUri uri) = true) :
    (CatalogService.rebuilt env fs workspaceFolders documents parser
        (filePathFromUri uri).genericString).lines =
      linesOf (filePathFromUri uri) (sourcePairs env parserState fs manager uri) := by
  rw [rebuilt_apply huri hunique hnamed, source, sourcePairs,
    lookup_openDocumentsByUri_of_snapshot hsnapshot hnamed htext]
  cases hopen : manager.openDocuments.lookup uri with
  | some document =>
    obtain ⟨hmem, hsame⟩ := (hsnapshot uri document).mp hopen
    simp only [Option.map_some, Option.getD_some, lines_write_empty]
    rw [hnamed document hmem, hsame, Ingested.pairs, parsedText, hparser, Option.bind_some]
  | none =>
    simp only [parsedFile, if_pos hpresent]
    cases hload : loadFromFile env.codec fs.read (filePathFromUri uri) with
    | none => rfl
    | some document =>
      simp only [Option.map_some, Option.getD_some, lines_write_empty]
      rw [filePath_loadFromFile hload, Ingested.pairs, parsedText, hparser, Option.bind_some]

end Rebuilt

section Schedule

variable {env : Environment} {path : FsPath} {s posted t : PooledService} {fs : FileSystem}

def PostsFor (path : FsPath) (s posted : PooledService) : Prop :=
  posted = s ∨ (∃ task, task.file = some path.genericString ∧ posted = { s with tasks := s.tasks ++ [task] }) ∨
    posted = { s with service := s.service.eraseFileUnlocked path.genericString }

lemma Message.uri_eq (message : Message) : message.uri = message.notification.uri := by
  obtain ⟨notification, now, fs⟩ := message
  cases notification <;> rfl

lemma postsFor_scheduleOpenDocumentUpdate {document : TextDocument} (hpath : document.filePath = path) :
    PostsFor path s (s.scheduleOpenDocumentUpdate document) := by
  rw [PooledService.scheduleOpenDocumentUpdate]
  cases s.service.parserState with
  | none => exact Or.inl rfl
  | some p =>
    simp only
    split_ifs
    · exact Or.inr (Or.inl ⟨.update document p, by rw [Task.file, hpath], rfl⟩)
    · exact Or.inl rfl

lemma postsFor_scheduleClosedDocumentRefresh (uri : Bytes) :
    PostsFor (filePathFromUri uri) s (s.scheduleClosedDocumentRefresh uri) := by
  rw [PooledService.scheduleClosedDocumentRefresh]
  cases s.service.parserState with
  | none => exact Or.inl rfl
  | some p =>
    simp only
    split_ifs
    · exact Or.inr (Or.inl ⟨.refresh (filePathFromUri uri) p, rfl, rfl⟩)
    · exact Or.inr (Or.inr rfl)
    · exact Or.inl rfl

lemma postsFor_schedule {manager : DocumentManager} {message : Message}
    (hnamed : ∀ document ∈ manager.openDocuments.lookup message.uri,
      document.filePath = filePathFromUri message.uri) :
    PostsFor (filePathFromUri message.uri) s (IndexedSession.schedule manager s message) := by
  rw [IndexedSession.schedule]
  split
  · rename_i uri hclose
    have huri : message.uri = uri := by rw [message.uri_eq, hclose, Notification.uri]
    rw [huri]
    exact postsFor_scheduleClosedDocumentRefresh uri
  · cases hopen : manager.openDocuments.lookup message.uri with
    | none => exact Or.inl rfl
    | some document => exact postsFor_scheduleOpenDocumentUpdate (hnamed document hopen)

structure KeepsOthers (path : FsPath) (s t : PooledService) : Prop where
  idle : t.tasks = []
  consistent : BuildState.Consistent t.service.toBuildState
  settings : t.service.settings = s.service.settings
  stored : ∀ filePath ≠ path.genericString, t.service.stored filePath = s.service.stored filePath

lemma keepsOthers_of_task {task : Task} {service : CrossrefService} (h : s.service.Consistent)
    (hfile : task.file = some path.genericString) (hrun : task.run env fs s.service = some service) :
    KeepsOthers path s ⟨service, []⟩ := by
  have habstract := CrossrefService.abstract_run_of_file env fs h
    (by rw [hfile]; exact Option.some_ne_none _ : task.file ≠ none)
  rw [hrun, Option.map_some, eq_comm, Option.map_eq_some_iff] at habstract
  obtain ⟨writes, hwrites, habstract⟩ := habstract
  refine ⟨rfl, CrossrefService.consistent_of_task h hrun,
    congrArg CatalogService.toSettings habstract.symm, fun filePath hne => ?_⟩
  have hkept : KeyedWrite.applyAll s.service.catalog writes filePath = s.service.catalog filePath := by
    apply KeyedWrite.applyAll_of_notMem
    intro w hw hkey
    have hsame := Settings.key_of_fileWrites hwrites hw
    rw [hfile, hkey, Option.some.injEq] at hsame
    exact hne hsame.symm
  have hcatalog := congrFun (congrArg CatalogService.catalog habstract) filePath
  exact (congrArg FileRecord.lines (hkept.symm.trans hcatalog)).symm

lemma keepsOthers_finishTask (h : s.service.Consistent) (hidle : s.tasks = []) (hposts : PostsFor path s posted)
    (hfinish : IndexedSession.finishTask env fs posted = some t) : KeepsOthers path s t := by
  rcases hposts with rfl | ⟨task, hfile, rfl⟩ | rfl
  · simp only [IndexedSession.finishTask, hidle, List.isEmpty_nil, if_true, Option.some.injEq] at hfinish
    subst hfinish
    exact ⟨hidle, h, rfl, fun _ _ => rfl⟩
  · simp only [IndexedSession.finishTask, hidle, List.nil_append, List.isEmpty_cons, Bool.false_eq_true,
      if_false, PooledService.step, List.getElem?_cons_zero, Option.bind_some, List.eraseIdx_cons_zero] at hfinish
    obtain ⟨service, hrun, rfl⟩ := Option.map_eq_some_iff.mp hfinish
    exact keepsOthers_of_task h hfile hrun
  · simp only [IndexedSession.finishTask, hidle, List.isEmpty_nil, if_true, Option.some.injEq] at hfinish
    subst hfinish
    have herased := CrossrefService.abstract_eraseFile h path.genericString
    refine ⟨rfl, h.eraseFile _, congrArg CatalogService.toSettings herased, fun filePath hne => ?_⟩
    exact (h.stored_eraseFile _ _).trans (if_neg hne)

end Schedule

section Runs

variable {env : Environment} {workspaceFolders : List Bytes} {p : ParserState} {d t : Desk}

structure Current (env : Environment) (workspaceFolders : List Bytes) (parserState : ParserState)
    (d : Desk) : Prop where
  consistent : BuildState.Consistent d.session.pooled.service.toBuildState
  configured : d.session.pooled.service.parserState = some parserState
  idle : d.session.pooled.tasks = []
  documents : d.session.manager.EveryOpen fun uri document =>
    document.uri = uri ∧ document.filePath = filePathFromUri document.uri
  absolute : ∀ uri ∈ collectedUris d.fs workspaceFolders, (filePathFromUri uri).rootDirectory = true
  present : ∀ uri ∈ collectedUris d.fs workspaceFolders, d.fs.present (filePathFromUri uri) = true
  inWorkspace : ∀ uri ∈ collectedUris d.fs workspaceFolders,
    d.session.pooled.service.isInWorkspaceUnlocked (filePathFromUri uri) = true
  lines : ∀ uri ∈ collectedUris d.fs workspaceFolders,
    Holds (filePathFromUri uri) (sourcePairs env parserState d.fs d.session.manager uri)
      d.session.pooled.service

namespace Current

lemma named (h : Current env workspaceFolders p d) : d.session.manager.Named := by
  intro uri document hopen
  obtain ⟨huri, hpath⟩ := h.documents uri document hopen
  rw [hpath, huri]

lemma served (h : Current env workspaceFolders p d) {uri : Bytes}
    (huri : uri ∈ collectedUris d.fs workspaceFolders) : IndexedSession.Served uri p d.session where
  serving := ⟨h.consistent, h.configured, h.inWorkspace uri huri⟩
  supported := (supported_of_collected huri (h.absolute uri huri)).1
  named := h.named
  idle := h.idle

lemma diskChange (h : Current env workspaceFolders p d) {fs : FileSystem}
    (horderly : Orderly env workspaceFolders p d (.diskChange fs)) :
    Current env workspaceFolders p { d with fs := fs } := by
  obtain ⟨hcollected, hdisk⟩ := horderly
  refine ⟨h.consistent, h.configured, h.idle, h.documents, ?_, fun uri huri => (hdisk uri huri).1, ?_, ?_⟩
  · exact fun uri huri => h.absolute uri (hcollected ▸ huri)
  · exact fun uri huri => h.inWorkspace uri (hcollected ▸ huri)
  · intro uri huri
    have hold : uri ∈ collectedUris d.fs workspaceFolders := hcollected ▸ huri
    have hlines := h.lines uri hold
    obtain ⟨hpresent, hread⟩ := hdisk uri huri
    rw [sourcePairs] at hlines ⊢
    cases hopen : d.session.manager.openDocuments.lookup uri with
    | some document => simpa only [hopen] using hlines
    | none =>
      simp only [hopen, parsedFile, if_pos (h.present uri hold), if_pos hpresent, loadFromFile] at hlines ⊢
      rwa [hread hopen]

variable {notification : Notification} {now : ℤ} {manager : DocumentManager} {pooled : PooledService}

lemma lines_close (h : Current env workspaceFolders p d) {uri : Bytes}
    (huri : uri ∈ collectedUris d.fs workspaceFolders)
    (hfinish : IndexedSession.finishTask env d.fs (d.session.pooled.scheduleClosedDocumentRefresh uri) =
      some pooled) :
    Holds (filePathFromUri uri) (parsedFile env p d.fs (filePathFromUri uri)) pooled.service := by
  have hsupported := (supported_of_collected huri (h.absolute uri huri)).2
  simp only [PooledService.scheduleClosedDocumentRefresh, h.configured, hsupported, h.inWorkspace uri huri,
    not_true_eq_false, if_false, if_true, IndexedSession.finishTask, h.idle, List.nil_append,
    List.isEmpty_cons, Bool.false_eq_true, PooledService.step, List.getElem?_cons_zero, Option.bind_some,
    Task.run, Option.map_some, Option.some.injEq] at hfinish
  subst hfinish
  exact ((h.served huri).serving.runRefresh env d.fs).2

lemma lines_message (h : Current env workspaceFolders p d) {uri : Bytes}
    (huri : uri ∈ collectedUris d.fs workspaceFolders) (hsame : notification.uri = uri)
    (hreindexes : IndexedSession.Reindexes env uri p d.session ⟨notification, now, d.fs⟩)
    (hmanager : tryNotification env.codec d.fs.read now d.session.manager notification = some manager)
    (hfinish : IndexedSession.finishTask env d.fs
      (IndexedSession.schedule manager d.session.pooled ⟨notification, now, d.fs⟩) = some pooled) :
    Holds (filePathFromUri uri) (sourcePairs env p d.fs manager uri) pooled.service := by
  have hhandled : handleNotification env.codec d.fs.read now d.session.manager notification = manager := by
    rw [handleNotification_eq, hmanager, Option.getD_some]
  have hopened := @isSome_lookup_handleNotification env.codec d.fs.read now d.session.manager uri notification
  rw [hhandled] at hopened
  by_cases hclose : ∃ other, notification = .didClose other
  · obtain ⟨other, rfl⟩ := hclose
    obtain rfl : other = uri := hsame
    have hnone : manager.openDocuments.lookup other = none := by
      simpa [Notification.opens] using hopened
    rw [sourcePairs, hnone]
    exact h.lines_close huri hfinish
  · have hconcerns : IndexedSession.ConcernsDocument uri ⟨notification, now, d.fs⟩ := by
      refine ⟨?_, fun other hother => hclose ⟨other, hother⟩⟩
      rw [Message.uri_eq, hsame]
    have hstep : IndexedSession.step env d.session ⟨notification, now, d.fs⟩ = some ⟨manager, pooled⟩ := by
      simp only [IndexedSession.step, hmanager, hfinish, Option.map_some]
    cases hopen : manager.openDocuments.lookup uri with
    | some document =>
      have hfollows := ((h.served huri).step hconcerns hstep).2.mpr hreindexes document hopen
      simpa only [sourcePairs, hopen] using hfollows
    | none =>
      rw [IndexedSession.schedule_of_concerns hconcerns, hopen] at hfinish
      simp only [IndexedSession.finishTask, h.idle, List.isEmpty_nil, if_true, Option.some.injEq] at hfinish
      have hbefore : d.session.manager.openDocuments.lookup uri = none :=
        lookup_eq_none_of_not_close (fun other hother => hclose ⟨other, hother⟩) (hhandled.symm ▸ hopen)
      have hlines := h.lines uri huri
      rw [sourcePairs, hbefore] at hlines
      simpa only [sourcePairs, hopen, ← hfinish] using hlines

lemma message (h : Current env workspaceFolders p d)
    (horderly : Orderly env workspaceFolders p d (.message notification now))
    (hstep : Desk.step env d (.message notification now) = some t) : Current env workspaceFolders p t := by
  obtain ⟨hspelled, hreindexes⟩ := horderly
  obtain ⟨session, hsession, rfl⟩ := Option.map_eq_some_iff.mp hstep
  rw [IndexedSession.step] at hsession
  cases hmanager : tryNotification env.codec d.fs.read now d.session.manager notification with
  | none =>
    simp only [hmanager] at hsession
    cases hsession
    exact h
  | some manager =>
    simp only [hmanager] at hsession
    obtain ⟨pooled, hfinish, rfl⟩ := Option.map_eq_some_iff.mp hsession
    have hdocuments := DocumentManager.EveryOpen.step h.documents documentInvariant_uri hmanager
    have hhandled : handleNotification env.codec d.fs.read now d.session.manager notification = manager := by
      rw [handleNotification_eq, hmanager, Option.getD_some]
    have hkeeps : KeepsOthers (filePathFromUri notification.uri) d.session.pooled pooled := by
      refine keepsOthers_finishTask h.consistent h.idle ?_ hfinish
      rw [← Message.uri_eq ⟨notification, now, d.fs⟩]
      refine postsFor_schedule fun document hopen => ?_
      obtain ⟨huri, hpath⟩ := hdocuments _ document hopen
      rw [hpath, huri]
    refine ⟨hkeeps.consistent, ?_, hkeeps.idle, hdocuments, h.absolute, h.present, fun uri huri => ?_,
      fun uri huri => ?_⟩
    · exact (congrArg Settings.parserState hkeeps.settings).trans h.configured
    · exact (congrArg (fun settings => settings.isInWorkspace (filePathFromUri uri)) hkeeps.settings).trans
        (h.inWorkspace uri huri)
    · by_cases hsame : notification.uri = uri
      · exact h.lines_message huri hsame (hsame ▸ hreindexes) hmanager hfinish
      · have hne : (filePathFromUri uri).genericString ≠ (filePathFromUri notification.uri).genericString :=
          fun hpath => hsame (hspelled uri huri hpath.symm)
        have hentry := congrArg Prod.fst (@entry_of_uri_ne env.codec d.fs.read now
          d.session.manager uri notification hsame)
        rw [hhandled] at hentry
        have hlines := h.lines uri huri
        rw [Holds, sourcePairs] at hlines ⊢
        rw [hkeeps.stored _ hne, show manager.openDocuments.lookup uri = _ from hentry]
        exact hlines

lemma step (h : Current env workspaceFolders p d) {event : DeskEvent}
    (horderly : Orderly env workspaceFolders p d event) (hstep : Desk.step env d event = some t) :
    Current env workspaceFolders p t := by
  cases event with
  | message notification now => exact h.message horderly hstep
  | diskChange fs =>
    cases hstep
    exact h.diskChange horderly

lemma run (h : Current env workspaceFolders p d) {events : List DeskEvent}
    (horderly : Along (Desk.step env) (Orderly env workspaceFolders p) d events)
    (hrun : TransitionSystem.run (Desk.step env) d events = some t) : Current env workspaceFolders p t :=
  invariant_along (fun _ _ _ h horderly hstep => h.step horderly hstep) h horderly hrun

end Current

structure JustRebuilt (env : Environment) (workspaceFolders : List Bytes) (parserState : ParserState)
    (d : Desk) : Prop where
  idle : d.session.pooled.tasks = []
  configured : d.session.pooled.service.parserState = some parserState
  built : ∃ documents, Snapshot d.session.manager documents ∧
    buildStateFromSnapshot env d.fs workspaceFolders documents parserState =
      some d.session.pooled.service.toBuildState

structure Collectable (fs : FileSystem) (workspaceFolders : List Bytes) : Prop where
  absolute : ∀ uri ∈ collectedUris fs workspaceFolders, (filePathFromUri uri).rootDirectory = true
  present : ∀ uri ∈ collectedUris fs workspaceFolders, fs.present (filePathFromUri uri) = true
  within : ∀ uri ∈ collectedUris fs workspaceFolders, WithinRoot workspaceFolders (filePathFromUri uri)

lemma stored_of_snapshot {fs : FileSystem} {documents : List TextDocument} {state : BuildState}
    {manager : DocumentManager} {uri : Bytes}
    (hstate : buildStateFromSnapshot env fs workspaceFolders documents p = some state)
    (hsnapshot : Snapshot manager documents)
    (hdocuments : manager.EveryOpen fun uri document =>
      document.uri = uri ∧ document.filePath = filePathFromUri document.uri)
    (huri : uri ∈ collectedUris fs workspaceFolders)
    (habsolute : (filePathFromUri uri).rootDirectory = true) (hpresent : fs.present (filePathFromUri uri) = true) :
    state.stored (filePathFromUri uri).genericString =
      linesOf (filePathFromUri uri) (sourcePairs env p fs manager uri) := by
  obtain ⟨parser, hparser, -⟩ := Option.map_eq_some_iff.mp hstate
  have hnamed : ∀ document ∈ documents, NamedByUri document := fun document hmem =>
    (hdocuments document.uri document ((hsnapshot document.uri document).mpr ⟨hmem, rfl⟩)).2
  rw [← lines_rebuilt hparser hsnapshot hnamed huri (unambiguous_of_absolute huri habsolute)
    (supported_of_collected huri habsolute).1 hpresent, ← catalog_of_snapshot hparser hstate]
  rfl

lemma current_of_justRebuilt {before : List Event} {history : History}
    (hbefore : TransitionSystem.run (PooledService.step env) {} before = some d.session.pooled)
    (hmanager : d.session.manager = managerAfter env.codec history)
    (hrebuilt : JustRebuilt env workspaceFolders p d) (hcollectable : Collectable d.fs workspaceFolders) :
    Current env workspaceFolders p d := by
  obtain ⟨documents, hsnapshot, hbuilt⟩ := hrebuilt.built
  have hdocuments := documentInvariant_uri.of_history env.codec history
  change (managerAfter env.codec history).EveryOpen _ at hdocuments
  rw [← hmanager] at hdocuments
  have hframe := frame_of_snapshot hbuilt
  rw [BuildState.frame, Prod.mk.injEq] at hframe
  refine ⟨(PooledService.run_wellFormed hbefore).consistent, hrebuilt.configured, hrebuilt.idle, hdocuments,
    hcollectable.absolute, hcollectable.present, fun uri huri => ?_, fun uri huri => ?_⟩
  · rw [isInWorkspaceUnlocked_iff hframe.1, hframe.2]
    exact ⟨hcollectable.within uri huri, allowed_of_collected huri (hcollectable.absolute uri huri)⟩
  · exact stored_of_snapshot hbuilt hsnapshot hdocuments huri (hcollectable.absolute uri huri)
      (hcollectable.present uri huri)

theorem incremental_eq_rebuild {before : List Event} {history : History} {events : List DeskEvent}
    (hbefore : TransitionSystem.run (PooledService.step env) {} before = some d.session.pooled)
    (hmanager : d.session.manager = managerAfter env.codec history)
    (hrebuilt : JustRebuilt env workspaceFolders p d) (hcollectable : Collectable d.fs workspaceFolders)
    (horderly : Along (Desk.step env) (Orderly env workspaceFolders p) d events)
    (hrun : TransitionSystem.run (Desk.step env) d events = some t) {documents : List TextDocument}
    (hsnapshot : Snapshot t.session.manager documents) {fresh : BuildState}
    (hfresh : buildStateFromSnapshot env t.fs workspaceFolders documents p = some fresh) :
    ∀ uri ∈ collectedUris t.fs workspaceFolders,
      t.session.pooled.service.stored (filePathFromUri uri).genericString =
        fresh.stored (filePathFromUri uri).genericString := by
  have hcurrent := (current_of_justRebuilt hbefore hmanager hrebuilt hcollectable).run horderly hrun
  intro uri huri
  rw [stored_of_snapshot hfresh hsnapshot hcurrent.documents huri (hcurrent.absolute uri huri)
    (hcurrent.present uri huri)]
  exact hcurrent.lines uri huri

end Runs

section Examples

instance decidableOrderly (env : Environment) (workspaceFolders : List Bytes) (p : ParserState) (d : Desk) :
    ∀ event, Decidable (Orderly env workspaceFolders p d event)
  | .message notification now =>
    inferInstanceAs (Decidable
      ((∀ other ∈ collectedUris d.fs workspaceFolders,
        (filePathFromUri notification.uri).genericString = (filePathFromUri other).genericString →
          notification.uri = other) ∧
        IndexedSession.Reindexes env notification.uri p d.session ⟨notification, now, d.fs⟩))
  | .diskChange fs =>
    inferInstanceAs (Decidable (collectedUris fs workspaceFolders = collectedUris d.fs workspaceFolders ∧
      ∀ uri ∈ collectedUris fs workspaceFolders, fs.present (filePathFromUri uri) = true ∧
        (d.session.manager.openDocuments.lookup uri = none →
          fs.read (filePathFromUri uri) = d.fs.read (filePathFromUri uri))))

def rebuiltDesk : Desk := ⟨IndexedSession.indexedStart, oneFile (ascii "x")⟩

def editedAndClosed : List DeskEvent :=
  [.message (.didOpen IndexedSession.exampleUri (ascii "a") 1) 0,
    .message (.didChange IndexedSession.exampleUri 2 [⟨none, ascii "b"⟩]) 0,
    .diskChange (oneFile (ascii "y")), .message (.didClose IndexedSession.exampleUri) 0]

lemma justRebuilt_rebuiltDesk :
    JustRebuilt asciiEnvironment [ascii "file:///w"] exampleParser rebuiltDesk where
  idle := rfl
  configured := rfl
  built := ⟨[], fun uri document => by simp [rebuiltDesk, IndexedSession.indexedStart], rfl⟩

theorem incremental_eq_rebuild_editedAndClosed :
    ∃ t fresh, TransitionSystem.run (Desk.step asciiEnvironment) rebuiltDesk editedAndClosed = some t ∧
      buildStateFromSnapshot asciiEnvironment t.fs [ascii "file:///w"] [] exampleParser = some fresh ∧
      t.session.pooled.service.stored (ascii "/w/a.txt") = fresh.stored (ascii "/w/a.txt") := by
  obtain ⟨t, ht⟩ : ∃ t, TransitionSystem.run (Desk.step asciiEnvironment) rebuiltDesk editedAndClosed = some t :=
    Option.isSome_iff_exists.mp (by decide)
  have hclosed : (TransitionSystem.run (Desk.step asciiEnvironment) rebuiltDesk editedAndClosed).map
      (fun t => t.session.manager.openDocuments) = some ∅ := by decide
  have hcollected : (TransitionSystem.run (Desk.step asciiEnvironment) rebuiltDesk editedAndClosed).map
      (fun t => collectedUris t.fs [ascii "file:///w"]) = some [IndexedSession.exampleUri] := by decide
  rw [ht, Option.map_some, Option.some.injEq] at hclosed hcollected
  obtain ⟨fresh, hfresh⟩ : ∃ fresh,
      buildStateFromSnapshot asciiEnvironment t.fs [ascii "file:///w"] [] exampleParser = some fresh :=
    ⟨_, buildStateFromSnapshot_eq rfl⟩
  have hcollectable : Collectable rebuiltDesk.fs [ascii "file:///w"] :=
    ⟨by decide, by decide, fun uri huri => by
      obtain rfl := List.mem_singleton.mp
        (show uri ∈ [IndexedSession.exampleUri] from huri)
      exact ⟨_, List.mem_singleton_self _, by decide⟩⟩
  have hsame := incremental_eq_rebuild run_indexing (rfl : _ = managerAfter asciiEnvironment.codec [])
    justRebuilt_rebuiltDesk hcollectable
    (by decide) ht (fun uri document => by simp [hclosed]) hfresh IndexedSession.exampleUri
    (by rw [hcollected]; exact List.mem_singleton_self _)
  exact ⟨t, fresh, ht, hfresh, hsame⟩

end Examples

end DltxtBridge.Crossref
