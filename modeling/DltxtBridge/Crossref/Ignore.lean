import DltxtBridge.FsPath

namespace DltxtBridge.Crossref

structure GitIgnoreRule where
  baseDir : FsPath
  pattern : Bytes
  negated : Bool
  directoryOnly : Bool
  basenameOnly : Bool
  baseDepth : ℕ
  order : ℕ
deriving DecidableEq

structure WorkspaceGitIgnoreRules where
  rootPath : FsPath
  rules : List GitIgnoreRule
deriving DecidableEq

section Matching

def starSuffixes : Bytes → List Bytes
  | [] => [[]]
  | ch :: rest => (ch :: rest) :: (if ch = 47 then [] else starSuffixes rest)

def wildcardMatch : Bytes → Bytes → Bool
  | [], text => text.isEmpty
  | 92 :: escaped :: pattern, text =>
    match text with
    | ch :: rest => escaped = ch && wildcardMatch pattern rest
    | [] => false
  | 42 :: 42 :: pattern, text => text.tails.any fun rest => wildcardMatch pattern rest
  | 42 :: pattern, text => (starSuffixes text).any fun rest => wildcardMatch pattern rest
  | 63 :: pattern, text =>
    match text with
    | ch :: rest => ch ≠ 47 && wildcardMatch pattern rest
    | [] => false
  | literal :: pattern, text =>
    match text with
    | ch :: rest => literal = ch && wildcardMatch pattern rest
    | [] => false

def baseName (candidate : Bytes) : Bytes := (candidate.reverse.takeWhile (· ≠ 47)).reverse

def directoryCandidatesFrom (isDirectory : Bool) (current : FsPath) : List Bytes → List Bytes
  | [] => []
  | name :: names =>
    let current := current.append (FsPath.ofBytes name)
    (if names ≠ [] ∨ isDirectory then [current.genericString] else []) ++
      directoryCandidatesFrom isDirectory current names

def buildDirectoryCandidates (relativePath : FsPath) (isDirectory : Bool) : List Bytes :=
  directoryCandidatesFrom isDirectory {} relativePath.lexicallyNormal.components

def matchesRule (rule : GitIgnoreRule) (relativePath : FsPath) (isDirectory : Bool) : Bool :=
  let directoryCandidates := buildDirectoryCandidates relativePath isDirectory
  let fullCandidate := relativePath.lexicallyNormal.genericString
  if rule.basenameOnly then
    (directoryCandidates.any fun candidate => wildcardMatch rule.pattern (baseName candidate)) ||
      (!rule.directoryOnly && wildcardMatch rule.pattern (baseName fullCandidate))
  else
    (directoryCandidates.any fun candidate => wildcardMatch rule.pattern candidate) ||
      (!rule.directoryOnly && wildcardMatch rule.pattern fullCandidate)

def pathIsWithinRoot (filePath rootPath : FsPath) : Bool :=
  let normalizedRoot := rootPath.lexicallyNormal
  !normalizedRoot.empty && normalizedRoot.components.isPrefixOf filePath.lexicallyNormal.components

def WorkspaceGitIgnoreRules.ignores (workspaceRules : WorkspaceGitIgnoreRules) (path : FsPath)
    (isDirectory : Bool) : Bool :=
  let normalizedPath := path.lexicallyNormal
  if workspaceRules.rootPath.lexicallyNormal.empty then false
  else workspaceRules.rules.foldl (fun ignored rule =>
    let normalizedBase := rule.baseDir.lexicallyNormal
    if normalizedBase.empty || !pathIsWithinRoot normalizedPath normalizedBase then ignored
    else
      let relativePath := normalizedPath.lexicallyRelative normalizedBase
      if relativePath.empty then ignored
      else if matchesRule rule relativePath isDirectory then !rule.negated
      else ignored) false

def isGitignored (path : FsPath) (workspaceGitignoreRules : List WorkspaceGitIgnoreRules)
    (isDirectory : Bool) : Bool :=
  workspaceGitignoreRules.any fun workspaceRules =>
    pathIsWithinRoot path workspaceRules.rootPath && workspaceRules.ignores path isDirectory

end Matching

section Parsing

def trimGitignoreLine (line : Bytes) : Bytes :=
  (line.reverse.dropWhile fun ch => ch = 13 || ch = 10).reverse

def normalizeGitignorePattern (pattern : Bytes) : Bytes := pattern.map fun ch => if ch = 92 then 47 else ch

/-- An escaped "#" or "!" loses its backslash; a comment gives no rule. -/
def unescapeGitignoreLine : Bytes → Option Bytes
  | 92 :: 35 :: rest => some (35 :: rest)
  | 92 :: 33 :: rest => some (33 :: rest)
  | 35 :: _ => none
  | line => some line

def gitignoreRuleOf (baseDir : FsPath) (order : ℕ) (line : Bytes) : Option GitIgnoreRule :=
  let negated := line.head? = some 33
  let pattern := normalizeGitignorePattern (if negated then line.tail else line)
  let directoryOnly := pattern.getLast? = some 47
  let pattern := if directoryOnly then pattern.dropLast else pattern
  let pattern := if pattern.head? = some 47 then pattern.tail else pattern
  if pattern = [] then none
  else some
    { baseDir := baseDir
      pattern := pattern
      negated := negated
      directoryOnly := directoryOnly
      basenameOnly := 47 ∉ pattern
      baseDepth := baseDir.components.length
      order := order }

def parseIgnoreLines (baseDir : FsPath) : ℕ → List Bytes → List GitIgnoreRule
  | _, [] => []
  | order, line :: lines =>
    match trimGitignoreLine line with
    | [] => parseIgnoreLines baseDir order lines
    | trimmed =>
      match unescapeGitignoreLine trimmed with
      | none => parseIgnoreLines baseDir order lines
      | some unescaped =>
        (gitignoreRuleOf baseDir order unescaped).toList ++ parseIgnoreLines baseDir (order + 1) lines

def parseIgnoreRulesContent (baseDir : FsPath) (content : Bytes) : List GitIgnoreRule :=
  parseIgnoreLines baseDir 0 (content.splitOn 10)

def ruleBefore (left right : GitIgnoreRule) : Bool :=
  if left.baseDepth ≠ right.baseDepth then left.baseDepth < right.baseDepth
  else if left.baseDir ≠ right.baseDir then left.baseDir.genericString < right.baseDir.genericString
  else left.order < right.order

/-- The sort of the source leaves equal rules in any order; here they keep theirs. -/
def sortRules (rules : List GitIgnoreRule) : List GitIgnoreRule :=
  rules.insertionSort fun left right => ruleBefore right left = false

end Parsing

end DltxtBridge.Crossref
