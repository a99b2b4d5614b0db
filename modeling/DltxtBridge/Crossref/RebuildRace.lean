import DltxtBridge.Crossref.Tasks

/-! A rebuild replaces the index by what it built from its snapshot. Beside the service we
keep the versions that update tasks have written since the parser state was set. -/

namespace DltxtBridge.Crossref

open Documents TransitionSystem

section Snapshot

variable {env : Environment} {fs : FileSystem} {parser : TextParser}
  {documents : FiniteMap Bytes TextDocument} {b : BuildState} {f : Bytes} {v : ℤ}

def snapshotVersion (parser : TextParser) (documents : FiniteMap Bytes TextDocument) (f uri : Bytes) :
    Option ℤ :=
  (documents.lookup uri).bind fun document =>
    if document.filePath.genericString = f ∧ (parser document.getContent).isSome then
      some document.version
    else none

lemma lookup_version_addPairs (g base : Bytes) (pairs : List ParsedPair) :
    (b.addPairs g base pairs).openDocumentVersions = b.openDocumentVersions :=
  (BuildState.addPairs_frame b g base pairs).2

lemma lookup_version_ingestUri (uri : Bytes) :
    (ingestUri env fs parser documents b uri).openDocumentVersions.lookup f =
      (snapshotVersion parser documents f uri).or (b.openDocumentVersions.lookup f) := by
  rw [ingestUri, snapshotVersion]
  cases documents.lookup uri with
  | some document =>
    simp only [BuildState.ingestDocument, Option.bind_some]
    cases parser document.getContent with
    | none => simp
    | some pairs =>
      simp only [if_true, lookup_version_addPairs, FiniteMap.lookup_insert, eq_comm, Option.isSome_some,
        and_true]
      split_ifs <;> rfl
  | none =>
    simp only [Option.bind_none, Option.none_or]
    cases loadFromFile env.codec fs.read (filePathFromUri uri) with
    | none => rfl
    | some document =>
      simp only [BuildState.ingestDocument]
      cases parser document.getContent with
      | none => rfl
      | some pairs =>
        cases fs.lastWriteTime document.filePath <;> simp [lookup_version_addPairs]

lemma lookup_version_foldl {uris : List Bytes}
    (hnewer : ∀ uri ∈ uris, ∀ w, snapshotVersion parser documents f uri = some w → v ≤ w)
    (hb : ∀ w, b.openDocumentVersions.lookup f = some w → v ≤ w)
    (hsome : (∃ uri ∈ uris, (snapshotVersion parser documents f uri).isSome) ∨
      (b.openDocumentVersions.lookup f).isSome) :
    ∃ w, (uris.foldl (ingestUri env fs parser documents) b).openDocumentVersions.lookup f = some w ∧
      v ≤ w := by
  induction uris generalizing b with
  | nil =>
    obtain ⟨w, hw⟩ := Option.isSome_iff_exists.mp (hsome.resolve_left (by simp))
    exact ⟨w, hw, hb w hw⟩
  | cons uri uris ih =>
    apply ih (fun other hother => hnewer other (List.mem_cons_of_mem _ hother))
    · intro w hw
      rw [lookup_version_ingestUri, Option.or_eq_some_iff] at hw
      rcases hw with hw | ⟨-, hw⟩
      · exact hnewer uri List.mem_cons_self w hw
      · exact hb w hw
    · rw [lookup_version_ingestUri, Option.isSome_or]
      rcases hsome with ⟨other, hother, hversion⟩ | hold
      · rcases List.mem_cons.mp hother with rfl | hother
        · exact Or.inr (by simp [hversion])
        · exact Or.inl ⟨other, hother, hversion⟩
      · exact Or.inr (by simp [hold])

def SnapshotHas (env : Environment) (fs : FileSystem) (parserState : ParserState)
    (workspaceFolders : List Bytes) (openDocuments : List TextDocument) (f : Bytes) (v : ℤ) : Prop :=
  ∀ parser ∈ env.makeTextParser parserState.config,
    let uris := collectWorkspaceTextUris fs workspaceFolders (buildWorkspaceGitignoreRules fs workspaceFolders)
    let version := snapshotVersion parser (openDocumentsByUri openDocuments) f
    (∀ uri ∈ uris, ∀ w ∈ version uri, v ≤ w) ∧ ∃ uri ∈ uris, (version uri).isSome

instance (env : Environment) (fs : FileSystem) (parserState : ParserState) (workspaceFolders : List Bytes)
    (openDocuments : List TextDocument) (f : Bytes) (v : ℤ) :
    Decidable (SnapshotHas env fs parserState workspaceFolders openDocuments f v) :=
  inferInstanceAs (Decidable (∀ parser ∈ env.makeTextParser parserState.config,
    (∀ uri ∈ collectWorkspaceTextUris fs workspaceFolders (buildWorkspaceGitignoreRules fs workspaceFolders),
      ∀ w ∈ snapshotVersion parser (openDocumentsByUri openDocuments) f uri, v ≤ w) ∧
    ∃ uri ∈ collectWorkspaceTextUris fs workspaceFolders (buildWorkspaceGitignoreRules fs workspaceFolders),
      (snapshotVersion parser (openDocumentsByUri openDocuments) f uri).isSome))

lemma SnapshotHas.version_le {parserState : ParserState} {workspaceFolders : List Bytes}
    {openDocuments : List TextDocument} {state : BuildState}
    (h : SnapshotHas env fs parserState workspaceFolders openDocuments f v)
    (hstate : buildStateFromSnapshot env fs workspaceFolders openDocuments parserState = some state) :
    ∃ w, state.openDocumentVersions.lookup f = some w ∧ v ≤ w := by
  obtain ⟨parser, hparser, rfl⟩ := Option.map_eq_some_iff.mp hstate
  obtain ⟨hnewer, hsome⟩ := h parser hparser
  apply lookup_version_foldl hnewer _ (Or.inl hsome)
  intro w hw
  rw [Finmap.lookup_empty] at hw
  cases hw

end Snapshot

/-- `written` has the highest version of each file that an update task wrote lines for
since the parser state was set. -/
structure TracedService where
  pooled : PooledService := {}
  written : FiniteMap Bytes ℤ := ∅

namespace TracedService

def writesLines (env : Environment) (s : CrossrefService) (document : TextDocument)
    (parserState : ParserState) : Prop :=
  s.hasStamp parserState.stamp ∧ s.isInWorkspaceUnlocked document.filePath ∧
    ((env.makeTextParser parserState.config).bind fun parser => parser document.getContent).isSome

instance (env : Environment) (s : CrossrefService) (document : TextDocument) (parserState : ParserState) :
    Decidable (writesLines env s document parserState) :=
  inferInstanceAs (Decidable (_ ∧ _ ∧ _))

def raise (written : FiniteMap Bytes ℤ) (f : Bytes) (v : ℤ) : FiniteMap Bytes ℤ :=
  written.insert f (((written.lookup f).map fun old => max old v).getD v)

def record (env : Environment) (s : TracedService) : Event → FiniteMap Bytes ℤ
  | .updateParserConfig parserState _ _ =>
    if s.pooled.service.hasStamp parserState.stamp then s.written else ∅
  | .clearParserConfig => ∅
  | .runTask position _ =>
    match s.pooled.tasks[position]? with
    | some (.update document parserState) =>
      if writesLines env s.pooled.service document parserState then
        raise s.written document.filePath.genericString document.version
      else s.written
    | _ => s.written
  | _ => s.written

def step (env : Environment) (s : TracedService) (event : Event) : Option TracedService :=
  (s.pooled.step env event).map fun pooled => ⟨pooled, record env s event⟩

def UpToDate (s : TracedService) : Prop :=
  ∀ f v, s.written.lookup f = some v →
    ∃ w, s.pooled.service.openDocumentVersions.lookup f = some w ∧ v ≤ w

/-- An update task does not run after one that wrote a newer version of its file, and a rebuild
that will be applied took its snapshot after everything that has been written. -/
def InTime (env : Environment) (s : TracedService) : Event → Prop
  | .runTask position fs =>
    match s.pooled.tasks[position]? with
    | some (.rebuild parserState generation workspaceFolders openDocuments) =>
      s.pooled.service.hasStamp parserState.stamp → generation = s.pooled.service.rebuildGeneration →
        ∀ f ∈ s.written.keys, ∀ v ∈ s.written.lookup f,
          SnapshotHas env fs parserState workspaceFolders openDocuments f v
    | some (.update document parserState) =>
      s.pooled.service.hasStamp parserState.stamp →
        ∀ v ∈ s.written.lookup document.filePath.genericString, v ≤ document.version
    | _ => True
  | _ => True

section Steps

variable {env : Environment} {s t : TracedService} {event : Event}

lemma lookup_raise_le {written : FiniteMap Bytes ℤ} {f : Bytes} {v w : ℤ}
    (hold : ∀ old, written.lookup f = some old → old ≤ v) (h : (raise written f v).lookup f = some w) :
    w ≤ v := by
  rw [raise, FiniteMap.lookup_insert, if_pos rfl, Option.some.injEq] at h
  subst h
  cases hlookup : written.lookup f with
  | none => exact le_rfl
  | some old => exact max_le (hold old hlookup) le_rfl

lemma lookup_raise_of_ne {written : FiniteMap Bytes ℤ} {f g : Bytes} (v : ℤ) (hg : g ≠ f) :
    (raise written f v).lookup g = written.lookup g := by
  rw [raise, FiniteMap.lookup_insert, if_neg hg]

lemma openDocumentVersions_writeUpdate (service : CrossrefService) (document : TextDocument)
    (pairs : List ParsedPair) :
    (service.writeUpdate document pairs).openDocumentVersions =
      (service.openDocumentVersions.erase document.filePath.genericString).insert
        document.filePath.genericString document.version :=
  congrArg (Finmap.insert _ _) (BuildState.replaceDocument_frame _ _ _ pairs).2

lemma openDocumentVersions_writeUnparsed (service : CrossrefService) (document : TextDocument) :
    (service.writeUnparsed document).openDocumentVersions =
      (service.openDocumentVersions.erase document.filePath.genericString).insert
        document.filePath.genericString document.version :=
  congrArg (Finmap.insert _ _) (BuildState.eraseFile_frame _ _).2

lemma UpToDate.of_service (h : UpToDate s) {pooled : PooledService}
    (hservice : pooled.service = s.pooled.service) : UpToDate ⟨pooled, s.written⟩ := by
  intro f v hv
  rw [hservice]
  exact h f v hv

lemma UpToDate.write (h : UpToDate s) {f : Bytes} {v : ℤ} {service : CrossrefService}
    {tasks : List Task} {written : FiniteMap Bytes ℤ}
    (hversions : service.openDocumentVersions = (s.pooled.service.openDocumentVersions.erase f).insert f v)
    (hself : ∀ w, written.lookup f = some w → w ≤ v)
    (hother : ∀ g, g ≠ f → written.lookup g = s.written.lookup g) :
    UpToDate ⟨⟨service, tasks⟩, written⟩ := by
  intro g w hw
  change ∃ u, service.openDocumentVersions.lookup g = some u ∧ w ≤ u
  rw [hversions, FiniteMap.lookup_insert]
  by_cases hg : g = f
  · subst hg
    exact ⟨v, if_pos rfl, hself w hw⟩
  · rw [if_neg hg, FiniteMap.lookup_erase, if_neg hg]
    exact h g w ((hother g hg).symm.trans hw)

lemma UpToDate.runRebuild (h : UpToDate s) {fs : FileSystem} {p : ParserState} {generation : ℕ}
    {folders : List Bytes} {documents : List TextDocument}
    (hintime : s.pooled.service.hasStamp p.stamp → generation = s.pooled.service.rebuildGeneration →
      ∀ f ∈ s.written.keys, ∀ v ∈ s.written.lookup f, SnapshotHas env fs p folders documents f v)
    (tasks : List Task) :
    UpToDate ⟨⟨s.pooled.service.runRebuild env fs p generation folders documents, tasks⟩, s.written⟩ := by
  rw [CrossrefService.runRebuild]
  cases hstate : buildStateFromSnapshot env fs folders documents p with
  | none => exact h.of_service rfl
  | some state =>
    by_cases hguard : s.pooled.service.hasStamp p.stamp ∧ generation = s.pooled.service.rebuildGeneration
    · simp only [hguard, and_self, if_true]
      intro f v hv
      have hf : f ∈ s.written.keys := (FiniteMap.mem_keys_iff _ _).mpr ⟨v, hv⟩
      exact (hintime hguard.1 hguard.2 f hf v hv).version_le hstate
    · simp only [hguard, if_false]
      exact h.of_service rfl

lemma UpToDate.runUpdate (h : UpToDate s) {document : TextDocument} {p : ParserState}
    (hintime : s.pooled.service.hasStamp p.stamp →
      ∀ v, s.written.lookup document.filePath.genericString = some v → v ≤ document.version)
    {service : CrossrefService} (hrun : s.pooled.service.runUpdate env document p = some service)
    (tasks : List Task) :
    UpToDate ⟨⟨service, tasks⟩,
      if writesLines env s.pooled.service document p then
        raise s.written document.filePath.genericString document.version
      else s.written⟩ := by
  obtain ⟨parser, hparser, rfl⟩ := Option.map_eq_some_iff.mp hrun
  by_cases hguard :
      s.pooled.service.hasStamp p.stamp ∧ s.pooled.service.isInWorkspaceUnlocked document.filePath
  · rw [if_pos hguard]
    cases hpairs : parser document.getContent with
    | none =>
      have hskip : ¬ writesLines env s.pooled.service document p := by
        simp [writesLines, hparser, hpairs]
      rw [if_neg hskip]
      refine h.write ?_ (hintime hguard.1) fun g hg => rfl
      exact openDocumentVersions_writeUnparsed _ document
    | some pairs =>
      have hwrites : writesLines env s.pooled.service document p :=
        ⟨hguard.1, hguard.2, by simp [hparser, hpairs]⟩
      rw [if_pos hwrites]
      refine h.write ?_ (fun w => lookup_raise_le (hintime hguard.1))
        fun g hg => lookup_raise_of_ne document.version hg
      exact openDocumentVersions_writeUpdate _ document pairs
  · have hskip : ¬ writesLines env s.pooled.service document p :=
      fun hwrites => hguard ⟨hwrites.1, hwrites.2.1⟩
    rw [if_neg hguard, if_neg hskip]
    exact h.of_service rfl

lemma UpToDate.runTask (h : UpToDate s) (hrefresh : ∀ path p, .refresh path p ∉ s.pooled.tasks)
    {position : ℕ} {fs : FileSystem} (hintime : InTime env s (.runTask position fs))
    (hstep : step env s (.runTask position fs) = some t) : UpToDate t := by
  obtain ⟨pooled, hpooled, rfl⟩ := Option.map_eq_some_iff.mp hstep
  rw [PooledService.step, Option.bind_eq_some_iff] at hpooled
  obtain ⟨task, htask, hpooled⟩ := hpooled
  obtain ⟨service, hrun, rfl⟩ := Option.map_eq_some_iff.mp hpooled
  simp only [InTime, htask] at hintime
  simp only [record, htask]
  cases task with
  | rebuild p generation folders documents =>
    cases hrun
    exact h.runRebuild hintime _
  | update document p => exact h.runUpdate hintime hrun _
  | refresh path p => exact absurd (List.mem_of_getElem? htask) (hrefresh path p)

lemma scheduleOpenDocumentUpdate_service (pooled : PooledService) (document : TextDocument) :
    (pooled.scheduleOpenDocumentUpdate document).service = pooled.service := by
  rw [PooledService.scheduleOpenDocumentUpdate]
  cases pooled.service.parserState with
  | none => rfl
  | some p =>
    simp only
    split_ifs <;> rfl

lemma UpToDate.step (h : UpToDate s) (hrefresh : ∀ path p, .refresh path p ∉ s.pooled.tasks)
    (hclose : ∀ uri, event ≠ .scheduleClosedDocumentRefresh uri) (hintime : InTime env s event)
    (hstep : TracedService.step env s event = some t) : UpToDate t := by
  cases event with
  | updateParserConfig p folders documents =>
    cases hstep
    rw [PooledService.updateParserConfig, record]
    split_ifs
    · exact h
    · intro f v hv
      rw [Finmap.lookup_empty] at hv
      cases hv
  | clearParserConfig =>
    cases hstep
    intro f v hv
    rw [record, Finmap.lookup_empty] at hv
    cases hv
  | scheduleOpenDocumentUpdate document =>
    cases hstep
    exact h.of_service (scheduleOpenDocumentUpdate_service _ _)
  | scheduleClosedDocumentRefresh uri => exact absurd rfl (hclose uri)
  | runTask position fs => exact h.runTask hrefresh hintime hstep
  | failRebuild position =>
    obtain ⟨pooled, hpooled, rfl⟩ := Option.map_eq_some_iff.mp hstep
    rw [PooledService.step] at hpooled
    split at hpooled
    · cases hpooled
      exact h.of_service rfl
    · cases hpooled

lemma noRefresh_step (hrefresh : ∀ path p, .refresh path p ∉ s.pooled.tasks)
    (hclose : ∀ uri, event ≠ .scheduleClosedDocumentRefresh uri)
    (hstep : step env s event = some t) (path : FsPath) (p : ParserState) :
    .refresh path p ∉ t.pooled.tasks := by
  intro htask
  obtain ⟨pooled, hpooled, rfl⟩ := Option.map_eq_some_iff.mp hstep
  cases PooledService.posted_of_step hpooled htask with
  | waiting _ hwaiting => exact hrefresh path p hwaiting
  | refresh uri _ hevent => exact hclose uri hevent

end Steps

section Runs

variable {env : Environment} {s t : TracedService} {events : List Event}

theorem run_pooled (env : Environment) (s : TracedService) (events : List Event) :
    (run (step env) s events).map TracedService.pooled =
      run (PooledService.step env) s.pooled events :=
  run_map (fun s event => by simp [step, Function.comp_def]) s events

theorem run_upToDate (hclose : ∀ uri, .scheduleClosedDocumentRefresh uri ∉ events)
    (hintime : Along (step env) (InTime env) {} events)
    (hrun : run (step env) {} events = some t) : UpToDate t := by
  have hcalls : ∀ event ∈ events, ∀ uri, event ≠ .scheduleClosedDocumentRefresh uri := by
    rintro event hevent uri rfl
    exact hclose uri hevent
  have hstart : UpToDate {} ∧ ∀ path p, .refresh path p ∉ ({} : TracedService).pooled.tasks :=
    ⟨fun f v hv => (nomatch hv), fun path p htask => (nomatch htask)⟩
  refine (invariant_along (I := fun u => UpToDate u ∧ ∀ path p, .refresh path p ∉ u.pooled.tasks) ?_
    hstart ((along_of_forall hcalls {}).and hintime) hrun).1
  rintro u event w ⟨hu, hrefresh⟩ ⟨hcall, htime⟩ hstep
  exact ⟨hu.step hrefresh hcall htime hstep, noRefresh_step hrefresh hcall hstep⟩

end Runs

section Examples

instance (env : Environment) (s : TracedService) : DecidablePred (InTime env s)
  | .runTask position fs =>
    match h : s.pooled.tasks[position]? with
    | some (.rebuild parserState generation workspaceFolders openDocuments) =>
      decidable_of_iff
        (s.pooled.service.hasStamp parserState.stamp → generation = s.pooled.service.rebuildGeneration →
          ∀ f ∈ s.written.keys, ∀ v ∈ s.written.lookup f,
            SnapshotHas env fs parserState workspaceFolders openDocuments f v)
        (by simp only [InTime, h])
    | some (.update document parserState) =>
      decidable_of_iff
        (s.pooled.service.hasStamp parserState.stamp →
          ∀ v ∈ s.written.lookup document.filePath.genericString, v ≤ document.version)
        (by simp only [InTime, h])
    | some (.refresh _ _) => isTrue (by simp only [InTime, h])
    | none => isTrue (by simp only [InTime, h])
  | .updateParserConfig _ _ _ | .clearParserConfig | .scheduleOpenDocumentUpdate _
  | .scheduleClosedDocumentRefresh _ | .failRebuild _ => isTrue trivial

def reconfiguredSession (snapshot : TextDocument) : List Event :=
  [.updateParserConfig ⟨{}, ascii "one"⟩ [ascii "file:///w"] [editedFile 1 [97]],
    .runTask 0 (oneFile (ascii "x")),
    .updateParserConfig ⟨{}, ascii "two"⟩ [ascii "file:///w"] [snapshot],
    .scheduleOpenDocumentUpdate (editedFile 2 [98]),
    .runTask 1 (oneFile (ascii "x")), .runTask 0 (oneFile (ascii "x"))]

theorem run_upToDate_newSnapshot :
    ∃ t, run (step asciiEnvironment) {} (reconfiguredSession (editedFile 2 [98])) = some t ∧
      UpToDate t := by
  obtain ⟨t, ht⟩ : ∃ t, run (step asciiEnvironment) {} (reconfiguredSession (editedFile 2 [98])) =
      some t := Option.isSome_iff_exists.mp (by decide)
  refine ⟨t, ht, run_upToDate ?_ (by decide) ht⟩
  intro uri hclose
  simp [reconfiguredSession] at hclose

theorem exists_not_upToDate :
    ¬ ∀ (env : Environment) (events : List Event) (t : TracedService),
      (∀ uri, .scheduleClosedDocumentRefresh uri ∉ events) → run (step env) {} events = some t →
      UpToDate t := by
  intro h
  obtain ⟨t, ht⟩ : ∃ t, run (step asciiEnvironment) {} (reconfiguredSession (editedFile 1 [97])) =
      some t := Option.isSome_iff_exists.mp (by decide)
  have hfinal : (run (step asciiEnvironment) {} (reconfiguredSession (editedFile 1 [97]))).map
      (fun t => (t.written.lookup (ascii "/w/a.txt"),
        t.pooled.service.openDocumentVersions.lookup (ascii "/w/a.txt"))) = some (some 2, some 1) := by
    decide
  rw [ht, Option.map_some, Option.some.injEq, Prod.mk.injEq] at hfinal
  have hclose : ∀ uri, .scheduleClosedDocumentRefresh uri ∉ reconfiguredSession (editedFile 1 [97]) := by
    intro uri hclose
    simp [reconfiguredSession] at hclose
  obtain ⟨w, hw, hle⟩ := h asciiEnvironment _ t hclose ht _ 2 hfinal.1
  rw [hfinal.2, Option.some.injEq] at hw
  omega

end Examples

end TracedService

end DltxtBridge.Crossref
