import DltxtBridge.Crossref.Workspace
import DltxtBridge.SimilarityIndex.Basic
import DltxtBridge.TextParser

/-! `CrossrefService`: the indexed lines of every file, and the two ways to write them.
The service holds the containers of a `BuildState` and a rebuild replaces them whole. -/

namespace DltxtBridge.Crossref

open Documents

/-- `makeTextParser` gives `none` when it throws. -/
structure Environment where
  codec : Codec
  makeTextParser : ParserConfig → Option TextParser

structure LineInfo where
  fileName : Bytes
  fileBaseName : Bytes
  lineNumber : ℕ
  jpLine : Text
  trLine : Text
deriving DecidableEq

structure BuildState where
  index : SimilarityIndex := {}
  lineInfos : FiniteMap LineId LineInfo := ∅
  fileLineIds : FiniteMap Bytes (List LineId) := ∅
  openDocumentVersions : FiniteMap Bytes ℤ := ∅
  diskFileTimestamps : FiniteMap Bytes ℤ := ∅
  workspaceRootPaths : List FsPath := []
  workspaceGitignoreRules : List WorkspaceGitIgnoreRules := []
  indexedFilePaths : Finset Bytes := ∅
  nextLineId : LineId := 1

structure CrossrefService extends BuildState where
  parserState : Option ParserState := none
  rebuildGeneration : ℕ := 0
  appliedGeneration : ℕ := 0

namespace BuildState

def addPair (filePath fileBaseName : Bytes) (state : BuildState) (pair : ParsedPair) : BuildState :=
  let lineId := state.nextLineId
  { state with
    nextLineId := lineId + 1
    fileLineIds :=
      state.fileLineIds.insert filePath ((state.fileLineIds.lookup filePath).getD [] ++ [lineId])
    lineInfos := FiniteMap.emplace lineId
      ⟨filePath, fileBaseName, pair.originalLineIndex, pair.original.text, pair.translated.text⟩
      state.lineInfos
    index := state.index.upsert lineId filePath pair.originalLineIndex pair.original.text }

def addPairs (state : BuildState) (filePath fileBaseName : Bytes) (pairs : List ParsedPair) :
    BuildState :=
  pairs.foldl (addPair filePath fileBaseName)
    { state with indexedFilePaths := insert filePath state.indexedFilePaths }

def eraseLines (state : BuildState) (filePath : Bytes) : BuildState :=
  match state.fileLineIds.lookup filePath with
  | none => state
  | some ids =>
    { state with
      index := ids.foldl (fun index id => (index.erase id).2) state.index
      lineInfos := ids.foldl (fun infos id => infos.erase id) state.lineInfos
      fileLineIds := state.fileLineIds.erase filePath }

def eraseFile (state : BuildState) (filePath : Bytes) : BuildState :=
  let state := state.eraseLines filePath
  { state with
    openDocumentVersions := state.openDocumentVersions.erase filePath
    diskFileTimestamps := state.diskFileTimestamps.erase filePath
    indexedFilePaths := state.indexedFilePaths.erase filePath }

def replaceDocument (state : BuildState) (filePath fileBaseName : Bytes) (pairs : List ParsedPair) :
    BuildState :=
  (state.eraseFile filePath).addPairs filePath fileBaseName pairs

def isInWorkspace (state : BuildState) (filePath : FsPath) : Bool :=
  (state.workspaceRootPaths.any fun rootPath => pathIsWithinRoot filePath rootPath) &&
    !isGitignored filePath state.workspaceGitignoreRules false

/-- A document that does not parse is left out. -/
def ingestDocument (parser : TextParser) (state : BuildState) (document : TextDocument)
    (isOpenDocument : Bool) (timestamp : Option ℤ) : BuildState :=
  let filePath := document.filePath.genericString
  match parser document.getContent with
  | none => state
  | some pairs =>
    let state := state.addPairs filePath document.filePath.filename pairs
    if isOpenDocument then
      { state with openDocumentVersions := state.openDocumentVersions.insert filePath document.version }
    else
      match timestamp with
      | some time => { state with diskFileTimestamps := state.diskFileTimestamps.insert filePath time }
      | none => state

end BuildState

/-- `emplace` keeps the first document of a URI. -/
def openDocumentsByUri (openDocuments : List TextDocument) : FiniteMap Bytes TextDocument :=
  openDocuments.foldl (fun documents document =>
    if isTextFile document.filePath then FiniteMap.emplace document.uri document documents
    else documents) ∅

def ingestUri (env : Environment) (fs : FileSystem) (parser : TextParser)
    (documents : FiniteMap Bytes TextDocument) (state : BuildState) (uri : Bytes) : BuildState :=
  match documents.lookup uri with
  | some document => state.ingestDocument parser document true none
  | none =>
    match loadFromFile env.codec fs.read (filePathFromUri uri) with
    | some document =>
      state.ingestDocument parser document false (fs.lastWriteTime document.filePath)
    | none => state

def buildStateFromSnapshot (env : Environment) (fs : FileSystem) (workspaceFolders : List Bytes)
    (openDocuments : List TextDocument) (parserState : ParserState) : Option BuildState :=
  (env.makeTextParser parserState.config).map fun parser =>
    let rules := buildWorkspaceGitignoreRules fs workspaceFolders
    (collectWorkspaceTextUris fs workspaceFolders rules).foldl
      (ingestUri env fs parser (openDocumentsByUri openDocuments))
      { workspaceRootPaths := workspaceFolders.map filePathFromUri
        workspaceGitignoreRules := rules }

namespace CrossrefService

def resetUnlocked (s : CrossrefService) : CrossrefService :=
  { s with toBuildState := {}, appliedGeneration := s.rebuildGeneration }

def eraseFileUnlocked (s : CrossrefService) (filePath : Bytes) : CrossrefService :=
  { s with toBuildState := s.toBuildState.eraseFile filePath }

def replaceDocumentUnlocked (s : CrossrefService) (filePath fileBaseName : Bytes)
    (pairs : List ParsedPair) : CrossrefService :=
  { s with toBuildState := s.toBuildState.replaceDocument filePath fileBaseName pairs }

def isInWorkspaceUnlocked (s : CrossrefService) (filePath : FsPath) : Bool :=
  s.toBuildState.isInWorkspace filePath

def applyRebuildUnlocked (s : CrossrefService) (state : BuildState) : CrossrefService :=
  { s with toBuildState := state }

end CrossrefService

section Examples

def linePair (text : Text) : ParsedPair := ⟨{ text := text }, { text := text }, 0, 1⟩

def wholeText : TextParser := fun text => some [linePair text]

def asciiEnvironment : Environment where
  codec := asciiCodec
  makeTextParser _ := some wholeText

def textName : FileName where
  bytes := ascii "a.txt"
  ne_nil := by decide
  no_separator := by decide
  ne_dot := by decide
  ne_dotDot := by decide

def oneFile (content : Bytes) : FileSystem where
  read path := if path = FsPath.ofBytes (ascii "/w/a.txt") then some content else none
  present path := path = FsPath.ofBytes (ascii "/w/a.txt")
  lastWriteTime _ := none
  tree path := if path = FsPath.ofBytes (ascii "/w") then some (.file textName .done) else none

def editedFile (version : ℤ) (content : Text) : TextDocument :=
  TextDocument.create (ascii "file:///w/a.txt") (ascii "client-decoded")
    (FsPath.ofBytes (ascii "/w/a.txt")) version content

end Examples

end DltxtBridge.Crossref
