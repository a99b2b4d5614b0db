import DltxtBridge.Crossref.Ignore
import DltxtBridge.Documents.Manager

namespace DltxtBridge.Crossref

open Documents

structure FileName where
  bytes : Bytes
  ne_nil : bytes ≠ []
  no_separator : 47 ∉ bytes
  ne_dot : bytes ≠ FsPath.dot
  ne_dotDot : bytes ≠ FsPath.dotDot

/-- The entries of a directory, in the order of the iteration. Those that are neither
directories nor regular files are left out. -/
inductive DirectoryTree
  | done
  | file (name : FileName) (rest : DirectoryTree)
  | directory (name : FileName) (isSymlink : Bool) (entries rest : DirectoryTree)

/-- `tree` gives `none` for a path that does not exist. -/
structure FileSystem where
  read : Disk
  present : FsPath → Bool
  lastWriteTime : FsPath → Option ℤ
  tree : FsPath → Option DirectoryTree

def child (directory : FsPath) (name : FileName) : FsPath := directory.append { elements := [name.bytes] }

def DirectoryTree.visit (disables : FsPath → Bool → Bool) (directory : FsPath) :
    DirectoryTree → List FsPath
  | .done => []
  | .file name rest => child directory name :: visit disables directory rest
  | .directory name isSymlink entries rest =>
    (if disables (child directory name) isSymlink then []
      else visit disables (child directory name) entries) ++ visit disables directory rest

def isHiddenName (path : FsPath) : Bool := path.filename.head? = some 46

def isArchiveDirectoryName (path : FsPath) : Bool :=
  path.extension = ascii ".zip" || path.extension = ascii ".ZIP" ||
    path.extension = ascii ".rar" || path.extension = ascii ".RAR" ||
    path.extension = ascii ".7z" || path.extension = ascii ".7Z"

def isGitignoreFile (path : FsPath) : Bool := path.filename = ascii ".gitignore"

def workspaceDltxtIgnorePath (workspacePath : FsPath) : FsPath :=
  (workspacePath.append (FsPath.ofBytes (ascii ".dltxt"))).append (FsPath.ofBytes (ascii "ignore"))

def shouldSkipDirectory (path : FsPath) (isSymlink : Bool) : Bool :=
  isHiddenName path || isArchiveDirectoryName path || isSymlink

def isTextFile (path : FsPath) : Bool :=
  path.extension = ascii ".txt" || path.extension = ascii ".TXT"

def isSupportedUri (uri : Bytes) : Bool := fileScheme.isPrefixOf uri && isTextFile (filePathFromUri uri)

def isProbablyTextContent (content : Bytes) : Bool := !content.contains 0

def loadIgnoreRulesFile (fs : FileSystem) (path : FsPath) (requireTextContent : Bool)
    (baseDirOverride : Option FsPath) : List GitIgnoreRule :=
  match fs.read path with
  | none => []
  | some content =>
    if requireTextContent && !isProbablyTextContent content then []
    else parseIgnoreRulesContent (baseDirOverride.getD path.parentPath) content

def loadGitignoreRules (fs : FileSystem) (gitignorePath : FsPath) : List GitIgnoreRule :=
  loadIgnoreRulesFile fs gitignorePath false none

def buildFolderRules (fs : FileSystem) (workspacePath : FsPath) (tree : DirectoryTree) :
    WorkspaceGitIgnoreRules where
  rootPath := workspacePath.lexicallyNormal
  rules := sortRules <|
    loadIgnoreRulesFile fs (workspaceDltxtIgnorePath workspacePath) true (some workspacePath) ++
      ((tree.visit shouldSkipDirectory workspacePath).filter isGitignoreFile).flatMap (loadGitignoreRules fs)

def buildWorkspaceGitignoreRules (fs : FileSystem) (workspaceFolders : List Bytes) :
    List WorkspaceGitIgnoreRules :=
  workspaceFolders.filterMap fun uri =>
    (fs.tree (filePathFromUri uri)).map (buildFolderRules fs (filePathFromUri uri))

def sortUnique (uris : List Bytes) : List Bytes := (uris.insertionSort (· ≤ ·)).dedup

def scanSkips (rules : List WorkspaceGitIgnoreRules) (path : FsPath) (isSymlink : Bool) : Bool :=
  shouldSkipDirectory path isSymlink || isGitignored path rules true

def collectsFile (rules : List WorkspaceGitIgnoreRules) (path : FsPath) : Bool :=
  !isHiddenName path && isTextFile path && !isGitignored path rules false

def collectWorkspaceTextUris (fs : FileSystem) (workspaceFolders : List Bytes)
    (rules : List WorkspaceGitIgnoreRules) : List Bytes :=
  sortUnique <| workspaceFolders.flatMap fun uri =>
    match fs.tree (filePathFromUri uri) with
    | none => []
    | some tree => ((tree.visit (scanSkips rules) (filePathFromUri uri)).filter
        (collectsFile rules)).map fileUriFromPath

end DltxtBridge.Crossref
