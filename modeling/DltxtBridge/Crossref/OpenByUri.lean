import DltxtBridge.Crossref.Refinement
import DltxtBridge.Crossref.Scan

namespace DltxtBridge.Crossref

open Documents BuildState ServiceCall

section Sources

def source (env : Environment) (fs : FileSystem) (documents : FiniteMap Bytes TextDocument) (uri : Bytes) :
    Option Ingested :=
  match documents.lookup uri with
  | some document => some ⟨document, true, none⟩
  | none => (loadFromFile env.codec fs.read (filePathFromUri uri)).map fun document =>
      ⟨document, false, fs.lastWriteTime document.filePath⟩

def collectedUris (fs : FileSystem) (workspaceFolders : List Bytes) : List Bytes :=
  collectWorkspaceTextUris fs workspaceFolders (buildWorkspaceGitignoreRules fs workspaceFolders)

def sourcesOf (env : Environment) (fs : FileSystem) (workspaceFolders : List Bytes)
    (openDocuments : List TextDocument) (path : FsPath) : List Ingested :=
  ((collectedUris fs workspaceFolders).filterMap (source env fs (openDocumentsByUri openDocuments))).filter
    fun d => d.path = path.genericString

variable {env : Environment} {fs : FileSystem} {parser : TextParser} {openDocuments : List TextDocument}
  {workspaceFolders : List Bytes} {parserState : ParserState} {state : BuildState}

lemma ingestUri_eq (documents : FiniteMap Bytes TextDocument) (state : BuildState) (uri : Bytes) :
    ingestUri env fs parser documents state uri =
      match source env fs documents uri with
      | some d => state.ingestDocument parser d.document d.isOpenDocument d.timestamp
      | none => state := by
  rw [ingestUri, source]
  cases documents.lookup uri with
  | some document => rfl
  | none => cases loadFromFile env.codec fs.read (filePathFromUri uri) <;> rfl

lemma foldl_ingestUri (documents : FiniteMap Bytes TextDocument) (state : BuildState) (uris : List Bytes) :
    uris.foldl (ingestUri env fs parser documents) state =
      ingestAll parser state (uris.filterMap (source env fs documents)) := by
  induction uris generalizing state with
  | nil => rfl
  | cons uri uris ih =>
    rw [List.foldl_cons, ih, ingestUri_eq]
    cases hsource : source env fs documents uri with
    | none => rw [List.filterMap_cons_none hsource]
    | some d =>
      rw [List.filterMap_cons_some hsource]
      rfl

lemma buildStateFromSnapshot_eq (hparser : env.makeTextParser parserState.config = some parser) :
    buildStateFromSnapshot env fs workspaceFolders openDocuments parserState =
      some (ingestAll parser
        { workspaceRootPaths := workspaceFolders.map filePathFromUri
          workspaceGitignoreRules := buildWorkspaceGitignoreRules fs workspaceFolders }
        ((collectedUris fs workspaceFolders).filterMap (source env fs (openDocumentsByUri openDocuments)))) := by
  simp only [buildStateFromSnapshot, hparser, Option.map_some, foldl_ingestUri, collectedUris]

end Sources

section Ingest

variable {parser : TextParser} {b : BuildState}

def Ingested.pairs (parser : TextParser) (d : Ingested) : List ParsedPair :=
  (parser d.document.getContent).getD []

/-- The version that the rebuild records: a document that does not parse is left out. -/
def Ingested.recordedVersion (parser : TextParser) (d : Ingested) : Option ℤ :=
  if d.isOpenDocument then (parser d.document.getContent).map fun _ => d.document.version else none

lemma ingestDocument_of_none {document : TextDocument} (hnone : parser document.getContent = none)
    (isOpenDocument : Bool) (timestamp : Option ℤ) :
    b.ingestDocument parser document isOpenDocument timestamp = b := by
  simp only [BuildState.ingestDocument, hnone]

lemma content_stored_ingest (h : Consistent b) (d : Ingested) (path : Bytes) :
    ((b.ingestDocument parser d.document d.isOpenDocument d.timestamp).stored path).map LineInfo.content =
      (b.stored path).map LineInfo.content ++
        if d.path = path then (d.pairs parser).map pairContent else [] := by
  rw [Ingested.pairs]
  cases hpairs : parser d.document.getContent with
  | none => simp [ingestDocument_of_none hpairs]
  | some pairs =>
    rw [stored_ingestDocument h hpairs, Ingested.path, Option.getD_some]
    by_cases hpath : d.document.filePath.genericString = path
    · rw [if_pos hpath.symm, if_pos hpath, List.map_append, content_lineOf]
    · rw [if_neg (Ne.symm hpath), if_neg hpath, List.append_nil]

lemma lookup_version_ingest (b : BuildState) (d : Ingested) (path : Bytes) :
    (b.ingestDocument parser d.document d.isOpenDocument d.timestamp).openDocumentVersions.lookup path =
      (if d.path = path then d.recordedVersion parser else none).or (b.openDocumentVersions.lookup path) := by
  rw [Ingested.recordedVersion]
  cases hpairs : parser d.document.getContent with
  | none => simp [ingestDocument_of_none hpairs]
  | some pairs =>
    have hversions := (addPairs_frame b d.path d.document.filePath.filename pairs).2
    rw [Ingested.path] at hversions ⊢
    cases hopen : d.isOpenDocument with
    | true =>
      simp only [BuildState.ingestDocument, hpairs, if_true, FiniteMap.lookup_insert, hversions]
      by_cases hpath : path = d.document.filePath.genericString
      · simp [hpath]
      · simp [hpath, Ne.symm hpath]
    | false =>
      simp only [BuildState.ingestDocument, hpairs]
      cases d.timestamp <;> simp [hversions]

lemma consistent_ingest (h : Consistent b) (d : Ingested) :
    Consistent (b.ingestDocument parser d.document d.isOpenDocument d.timestamp) :=
  h.ingests (ingests_ingestDocument b parser d.document d.isOpenDocument d.timestamp)

lemma content_stored_ingestAll (h : Consistent b) (documents : List Ingested) (path : Bytes) :
    ((ingestAll parser b documents).stored path).map LineInfo.content =
      (b.stored path).map LineInfo.content ++
        ((documents.filter fun d => d.path = path).flatMap (Ingested.pairs parser)).map pairContent := by
  induction documents generalizing b with
  | nil => simp [ingestAll]
  | cons d documents ih =>
    apply (ih (consistent_ingest h d)).trans
    rw [content_stored_ingest h d path, List.append_assoc]
    by_cases hpath : d.path = path <;> simp [hpath]

lemma lookup_version_ingestAll (b : BuildState) (documents : List Ingested) (path : Bytes) :
    (ingestAll parser b documents).openDocumentVersions.lookup path =
      (((documents.filter fun d => d.path = path).filterMap (Ingested.recordedVersion parser)).getLast?).or
        (b.openDocumentVersions.lookup path) := by
  induction documents generalizing b with
  | nil => simp [ingestAll]
  | cons d documents ih =>
    apply (ih _).trans
    rw [lookup_version_ingest b d path, ← Option.or_assoc]
    congr 1
    by_cases hpath : d.path = path
    · cases hversion : d.recordedVersion parser <;> simp [hpath, hversion, List.getLast?_cons]
    · simp [hpath]

end Ingest

section ByFile

def IndexedFrom (parser : TextParser) (path : FsPath) (document : TextDocument) (state : BuildState) : Prop :=
  ∃ pairs, parser document.getContent = some pairs ∧
    (state.stored path.genericString).map LineInfo.content = pairs.map pairContent ∧
    state.openDocumentVersions.lookup path.genericString = some document.version

def StandFor (parser : TextParser) (sources : List Ingested) (document : TextDocument) : Prop :=
  ∃ pairs, parser document.getContent = some pairs ∧
    (sources.flatMap (Ingested.pairs parser)).map pairContent = pairs.map pairContent ∧
    (sources.filterMap (Ingested.recordedVersion parser)).getLast? = some document.version

def SameToIndex (parser : TextParser) (document other : TextDocument) : Prop :=
  other.version = document.version ∧ ∃ pairs otherPairs, parser document.getContent = some pairs ∧
    parser other.getContent = some otherPairs ∧ otherPairs.map pairContent = pairs.map pairContent

variable {env : Environment} {fs : FileSystem} {parser : TextParser} {openDocuments : List TextDocument}
  {workspaceFolders : List Bytes} {parserState : ParserState} {state : BuildState} {uri : Bytes}

lemma mem_of_lookup_openDocumentsByUri :
    ∀ found ∈ (openDocumentsByUri openDocuments).lookup uri, found ∈ openDocuments ∧ found.uri = uri := by
  apply List.foldlRecOn (motive := fun documents : FiniteMap Bytes TextDocument =>
    ∀ found ∈ documents.lookup uri, found ∈ openDocuments ∧ found.uri = uri)
  · intro found hfound
    cases hfound
  · intro documents hdocuments document hdocument found hfound
    split_ifs at hfound
    · rw [FiniteMap.emplace] at hfound
      split_ifs at hfound
      · exact hdocuments found hfound
      · rw [FiniteMap.lookup_insert] at hfound
        split_ifs at hfound with huri
        · cases hfound
          exact ⟨hdocument, huri.symm⟩
        · exact hdocuments found hfound
    · exact hdocuments found hfound

lemma path_of_source (hnamed : ∀ document ∈ openDocuments, document.filePath = filePathFromUri document.uri)
    {d : Ingested} (h : source env fs (openDocumentsByUri openDocuments) uri = some d) :
    d.path = (filePathFromUri uri).genericString := by
  rw [source] at h
  cases hopen : (openDocumentsByUri openDocuments).lookup uri with
  | some document =>
    obtain ⟨hmem, huri⟩ := mem_of_lookup_openDocumentsByUri document hopen
    simp only [hopen] at h
    cases h
    rw [Ingested.path, hnamed document hmem, huri]
  | none =>
    simp only [hopen] at h
    obtain ⟨document, hload, rfl⟩ := Option.map_eq_some_iff.mp h
    rw [Ingested.path, filePath_loadFromFile hload]

lemma sourcesOf_of_unique
    (hnamed : ∀ document ∈ openDocuments, document.filePath = filePathFromUri document.uri)
    (huri : uri ∈ collectedUris fs workspaceFolders)
    (hunique : ∀ other ∈ collectedUris fs workspaceFolders,
      (filePathFromUri other).genericString = (filePathFromUri uri).genericString → other = uri) :
    sourcesOf env fs workspaceFolders openDocuments (filePathFromUri uri) =
      (source env fs (openDocumentsByUri openDocuments) uri).toList := by
  have hpaths : ∀ other ∈ collectedUris fs workspaceFolders,
      ((source env fs (openDocumentsByUri openDocuments) other).filter
        fun d => d.path = (filePathFromUri uri).genericString) =
      if other = uri then source env fs (openDocumentsByUri openDocuments) other else none := by
    intro other hother
    cases hsource : source env fs (openDocumentsByUri openDocuments) other with
    | none => simp
    | some d =>
      rw [Option.filter_some, path_of_source hnamed hsource]
      by_cases hsame : other = uri
      · simp [hsame]
      · rw [if_neg hsame, if_neg]
        simpa using fun hpath => hsame (hunique other hother hpath)
  have hnodup : (collectedUris fs workspaceFolders).Nodup := List.nodup_dedup _
  have hfilter : (collectedUris fs workspaceFolders).filter (· = uri) = [uri] := by
    rw [List.filter_eq, List.count_eq_one_of_mem hnodup huri, List.replicate_one]
  rw [sourcesOf, List.filter_filterMap, List.filterMap_congr hpaths]
  have hcommute := @List.filterMap_filter _ _ (fun other => decide (other = uri))
    (source env fs (openDocumentsByUri openDocuments)) (collectedUris fs workspaceFolders)
  simp only [decide_eq_true_eq] at hcommute
  rw [← hcommute, hfilter]
  cases hsource : source env fs (openDocumentsByUri openDocuments) uri with
  | none => rw [List.filterMap_cons_none hsource]; rfl
  | some d => rw [List.filterMap_cons_some hsource]; rfl

lemma standFor_source_iff (document : TextDocument) :
    StandFor parser (source env fs (openDocumentsByUri openDocuments) uri).toList document ↔
      ∃ other, (openDocumentsByUri openDocuments).lookup uri = some other ∧
        SameToIndex parser document other := by
  rw [source, StandFor]
  cases hopen : (openDocumentsByUri openDocuments).lookup uri with
  | none =>
    cases loadFromFile env.codec fs.read (filePathFromUri uri) <;> simp [Ingested.recordedVersion]
  | some other =>
    simp only [Option.some.injEq, exists_eq_left', SameToIndex, Option.toList_some, List.flatMap_singleton,
      Ingested.pairs]
    cases hpairs : parser other.getContent with
    | none => simp [Ingested.recordedVersion, hpairs]
    | some otherPairs =>
      have hversions : [(⟨other, true, none⟩ : Ingested)].filterMap (Ingested.recordedVersion parser) =
          [other.version] := by
        simp [Ingested.recordedVersion, hpairs]
      rw [hversions, List.getLast?_singleton, Option.getD_some]
      constructor
      · rintro ⟨pairs, hdocument, hcontent, hversion⟩
        exact ⟨Option.some.inj hversion, pairs, otherPairs, hdocument, rfl, hcontent⟩
      · rintro ⟨hversion, pairs, found, hdocument, hfound, hcontent⟩
        cases hfound
        exact ⟨pairs, hdocument, hcontent, congrArg some hversion⟩

lemma indexedFrom_iff (hparser : env.makeTextParser parserState.config = some parser)
    (hbuild : buildStateFromSnapshot env fs workspaceFolders openDocuments parserState = some state)
    (path : FsPath) (document : TextDocument) :
    IndexedFrom parser path document state ↔
      StandFor parser (sourcesOf env fs workspaceFolders openDocuments path) document := by
  rw [buildStateFromSnapshot_eq hparser, Option.some.injEq] at hbuild
  subst hbuild
  rw [IndexedFrom, StandFor, sourcesOf]
  refine exists_congr fun pairs => and_congr_right fun _ => ?_
  rw [content_stored_ingestAll (consistent_empty _ _), lookup_version_ingestAll]
  simp [stored, Finmap.lookup_empty]

def Unambiguous (fs : FileSystem) (workspaceFolders : List Bytes) (uri : Bytes) : Prop :=
  ∀ other ∈ collectedUris fs workspaceFolders,
    (filePathFromUri other).genericString = (filePathFromUri uri).genericString → other = uri

theorem rebuild_indexes_open_document_iff (hparser : env.makeTextParser parserState.config = some parser)
    (hbuild : buildStateFromSnapshot env fs workspaceFolders openDocuments parserState = some state)
    (path : FsPath) (document : TextDocument) :
    (IndexedFrom parser path document state ↔
        StandFor parser (sourcesOf env fs workspaceFolders openDocuments path) document) ∧
      ∀ uri ∈ collectedUris fs workspaceFolders, filePathFromUri uri = path →
        Unambiguous fs workspaceFolders uri →
        (∀ other ∈ openDocuments, other.filePath = filePathFromUri other.uri) →
        (IndexedFrom parser path document state ↔
          ∃ other, (openDocumentsByUri openDocuments).lookup uri = some other ∧
            SameToIndex parser document other) := by
  have hsources := indexedFrom_iff hparser hbuild path document
  refine ⟨hsources, ?_⟩
  rintro uri huri rfl hunique hnamed
  rw [hsources, sourcesOf_of_unique hnamed huri hunique, standFor_source_iff]

end ByFile

section Absolute

variable {fs : FileSystem} {workspaceFolders : List Bytes} {uri : Bytes}

lemma ofBytes_dropDriveSeparator {normal : FsPath} (hne : normal.elements ≠ [])
    (hnames : ∀ name ∈ normal.elements, name ≠ [] ∧ 47 ∉ name) :
    FsPath.ofBytes (dropDriveSeparator normal.genericString) = normal ∨
      FsPath.ofBytes (dropDriveSeparator normal.genericString) = { normal with rootDirectory := false } := by
  have hnormal := FsPath.ofBytes_genericString hne hnames
  rcases dropDriveSeparator_cases normal.genericString with hkept | hdropped
  · left
    rw [hkept, hnormal]
  · right
    have hroot : normal.rootDirectory = true := by
      rw [← hnormal, hdropped]
      rfl
    have hrelative : dropDriveSeparator normal.genericString =
        ({ normal with rootDirectory := false } : FsPath).genericString := by
      have hgeneric : normal.genericString =
          47 :: ({ normal with rootDirectory := false } : FsPath).genericString := by
        simp [FsPath.genericString, hroot]
      exact (List.cons.inj (hdropped.symm.trans hgeneric)).2
    rw [hrelative]
    exact FsPath.ofBytes_genericString hne hnames

/-- A collected URI is the canonical one of a path without empty names, and names that path
or, behind a drive letter, the relative path with the same names. -/
lemma normal_of_collected (h : uri ∈ collectedUris fs workspaceFolders) :
    ∃ normal : FsPath, (∀ name ∈ normal.elements, name ≠ [] ∧ 47 ∉ name) ∧
      uri = fileScheme ++ percentEncode normal.genericString ∧
      (filePathFromUri uri = normal ∨ filePathFromUri uri = { normal with rootDirectory := false }) := by
  obtain ⟨above, file, hfile, -, -, rfl⟩ := mem_collectWorkspaceTextUris.mp h
  obtain ⟨parent, name, hparent, rfl⟩ := hfile.exists_child
  obtain ⟨names, hnormal, hnames⟩ := lexicallyNormal_child parent name
  have hgood := forall_mem_concat (hnames hparent) name
  rw [filePathFromUri_fileUriFromPath, fileUriFromPath, hnormal]
  exact ⟨_, hgood, rfl, ofBytes_dropDriveSeparator (by simp) hgood⟩

lemma unambiguous_of_absolute (huri : uri ∈ collectedUris fs workspaceFolders)
    (habsolute : (filePathFromUri uri).rootDirectory = true) : Unambiguous fs workspaceFolders uri := by
  intro other hother hpath
  obtain ⟨normal, hnames, hcanonical, hnormal⟩ := normal_of_collected huri
  obtain ⟨otherNormal, hotherNames, hotherCanonical, hotherNormal⟩ := normal_of_collected hother
  have hkept : filePathFromUri uri = normal := by
    rcases hnormal with hnormal | hnormal
    · exact hnormal
    · rw [hnormal] at habsolute
      cases habsolute
  rw [hkept] at hpath habsolute
  have hotherKept : filePathFromUri other = otherNormal := by
    rcases hotherNormal with hotherNormal | hotherNormal
    · exact hotherNormal
    · rw [hotherNormal] at hpath
      have hsame : ({ otherNormal with rootDirectory := false } : FsPath) = normal :=
        FsPath.eq_of_genericString (FsPath.spelled_of_names hotherNames) (FsPath.spelled_of_names hnames) hpath
      rw [← hsame] at habsolute
      cases habsolute
  rw [hotherKept] at hpath
  rw [hcanonical, hotherCanonical, hpath]

end Absolute

section Examples

def encodedDocument : TextDocument :=
  TextDocument.create (ascii "file:///w/%61.txt") (ascii "client-decoded")
    (filePathFromUri (ascii "file:///w/%61.txt")) 1 [97]

def snapshotOf (document : TextDocument) : Option BuildState :=
  buildStateFromSnapshot asciiEnvironment (oneFile (ascii "b")) [ascii "file:///w"] [document] ⟨{}, []⟩

theorem rebuild_indexes_canonical_document :
    ∃ state, snapshotOf (editedFile 1 [97]) = some state ∧
      IndexedFrom wholeText (filePathFromUri (ascii "file:///w/a.txt")) (editedFile 1 [97]) state := by
  obtain ⟨state, hstate⟩ : ∃ state, snapshotOf (editedFile 1 [97]) = some state :=
    Option.isSome_iff_exists.mp (by decide)
  have huri : ascii "file:///w/a.txt" ∈ collectedUris (oneFile (ascii "b")) [ascii "file:///w"] := by decide
  have hnamed : ∀ document ∈ [editedFile 1 [97]], document.filePath = filePathFromUri document.uri := by decide
  have hunique := unambiguous_of_absolute huri (by decide)
  refine ⟨state, hstate, ((rebuild_indexes_open_document_iff rfl hstate _ _).2 _ huri rfl hunique hnamed).mpr ?_⟩
  exact ⟨editedFile 1 [97], by decide, rfl, _, _, rfl, rfl, rfl⟩

theorem encoded_uri_reads_disk :
    ¬ ∀ (env : Environment) (fs : FileSystem) (parser : TextParser) (workspaceFolders : List Bytes)
      (openDocuments : List TextDocument) (parserState : ParserState) (state : BuildState) (uri : Bytes)
      (document : TextDocument),
      (∀ document ∈ openDocuments,
        document.filePath = filePathFromUri document.uri ∧ isTextFile document.filePath) →
      env.makeTextParser parserState.config = some parser →
      buildStateFromSnapshot env fs workspaceFolders openDocuments parserState = some state →
      uri ∈ collectedUris fs workspaceFolders →
      document ∈ openDocuments → filePathFromUri document.uri = filePathFromUri uri →
      IndexedFrom parser (filePathFromUri uri) document state := by
  intro h
  have hlookup : (snapshotOf encodedDocument).map
      (fun state => state.openDocumentVersions.lookup (ascii "/w/a.txt")) = some none := by decide
  obtain ⟨state, hstate, hnone⟩ := Option.map_eq_some_iff.mp hlookup
  obtain ⟨pairs, -, -, hversion⟩ := h asciiEnvironment (oneFile (ascii "b")) wholeText [ascii "file:///w"]
    [encodedDocument] ⟨{}, []⟩ state (ascii "file:///w/a.txt") encodedDocument (by decide) rfl hstate
    (by decide) List.mem_cons_self (by decide)
  rw [show (filePathFromUri (ascii "file:///w/a.txt")).genericString = ascii "/w/a.txt" by decide,
    hnone] at hversion
  cases hversion

end Examples

end DltxtBridge.Crossref
