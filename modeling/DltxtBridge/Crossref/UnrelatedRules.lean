import DltxtBridge.Crossref.RuleOrder

namespace DltxtBridge.Crossref

open FsPath

section Insertion

inductive IgnoreFile
  | dltxtIgnore
  | gitignore

def rootGitignorePath (workspacePath : FsPath) : FsPath := child workspacePath gitignoreName

def IgnoreFile.path (workspacePath : FsPath) : IgnoreFile → FsPath
  | .dltxtIgnore => workspaceDltxtIgnorePath workspacePath
  | .gitignore => rootGitignorePath workspacePath

def IgnoreFile.baseDir (workspacePath : FsPath) : IgnoreFile → FsPath
  | .dltxtIgnore => workspacePath
  | .gitignore => (rootGitignorePath workspacePath).parentPath

def FileSystem.write (fs : FileSystem) (path : FsPath) (content : Bytes) : FileSystem :=
  { fs with read := Function.update fs.read path (some content) }

def insertLine (position : ℕ) (line content : Bytes) : Bytes :=
  List.intercalate [10] ((content.splitOn 10).take position ++ line :: (content.splitOn 10).drop position)

variable {position : ℕ} {line content : Bytes}

lemma splitOn_insertLine (hline : 10 ∉ line) :
    (insertLine position line content).splitOn 10 =
      (content.splitOn 10).take position ++ line :: (content.splitOn 10).drop position := by
  apply List.splitOn_intercalate
  · rw [List.forall_mem_append, List.forall_mem_cons]
    exact ⟨fun piece hpiece => Segments.not_mem_of_mem_splitOn (List.mem_of_mem_take hpiece), hline,
      fun piece hpiece => Segments.not_mem_of_mem_splitOn (List.mem_of_mem_drop hpiece)⟩
  · simp

lemma mem_insertLine {ch : UInt8} (hch : ch ≠ 10) (hline : 10 ∉ line) :
    ch ∈ insertLine position line content ↔ ch ∈ line ∨ ch ∈ content := by
  have hpieces : ∀ xs : Bytes, ch ∈ xs ↔ ch ∈ (xs.splitOn 10).flatten := by
    intro xs
    rw [Segments.flatten_splitOn, List.mem_filter]
    simp [hch]
  rw [hpieces (insertLine position line content), hpieces content, splitOn_insertLine hline]
  conv_rhs => rw [← List.take_append_drop position (content.splitOn 10)]
  simp only [List.flatten_append, List.flatten_cons, List.mem_append]
  tauto

lemma isProbablyTextContent_insertLine (hline : 10 ∉ line) (hnul : 0 ∉ line) :
    isProbablyTextContent (insertLine position line content) = isProbablyTextContent content := by
  have hmem := @mem_insertLine position line content 0 (by decide) hline
  rw [or_iff_right hnul] at hmem
  simp only [isProbablyTextContent, List.contains_eq_mem, hmem]

variable {baseDir path : FsPath} {isDirectory : Bool}

lemma filter_parse_insertLine (hline : 10 ∉ line) (hunmatched : ¬ LineMatches baseDir 0 line path isDirectory) :
    (parseIgnoreRulesContent baseDir (insertLine position line content)).filter
        (fun rule => ruleApplies rule path isDirectory) =
      ((parseIgnoreRulesContent baseDir content).filter fun rule => ruleApplies rule path isDirectory).map
        (renumber baseDir (countRules ((content.splitOn 10).take position)) (countRules [line])) := by
  rw [parseIgnoreRulesContent, splitOn_insertLine hline, filter_parse_insert hunmatched, List.take_append_drop]
  rfl

end Insertion

section Folder

variable {fs : FileSystem} {text : Bytes} {tree : DirectoryTree} {path : FsPath} {isDirectory : Bool}

def dltxtRules (fs : FileSystem) (workspacePath : FsPath) : List GitIgnoreRule :=
  loadIgnoreRulesFile fs (workspaceDltxtIgnorePath workspacePath) true (some workspacePath)

def gitignorePaths (workspacePath : FsPath) (tree : DirectoryTree) : List FsPath :=
  (tree.visit shouldSkipDirectory workspacePath).filter isGitignoreFile

def gitignoreRules (fs : FileSystem) (workspacePath : FsPath) (tree : DirectoryTree) : List GitIgnoreRule :=
  (gitignorePaths workspacePath tree).flatMap (loadGitignoreRules fs)

lemma Below.exists_descend {directory file : FsPath} {above : List (FsPath × Bool)}
    (h : Below directory tree above file) : ∃ names, names ≠ [] ∧ file = descend directory names := by
  induction h with
  | @here _ name => exact ⟨[name], List.cons_ne_nil _ _, rfl⟩
  | pastFile _ ih => exact ih
  | @inside _ name _ _ _ _ _ _ ih =>
    obtain ⟨names, -, rfl⟩ := ih
    exact ⟨name :: names, List.cons_ne_nil _ _, rfl⟩
  | pastDirectory _ ih => exact ih

lemma exists_descend_of_gitignorePaths {file : FsPath} (h : file ∈ gitignorePaths (ofBytes text) tree) :
    ∃ names name, file = descend (ofBytes text) (names ++ [name]) ∧ name.bytes = ascii ".gitignore" := by
  obtain ⟨hvisit, hname⟩ := List.mem_filter.mp h
  obtain ⟨above, hbelow, -⟩ := below_of_mem_visit hvisit
  obtain ⟨names, hne, rfl⟩ := hbelow.exists_descend
  obtain ⟨init, last, rfl⟩ := (List.eq_nil_or_concat' names).resolve_left hne
  refine ⟨init, last, rfl, ?_⟩
  rw [isGitignoreFile, decide_eq_true_iff, filename, descend_eq _ hne] at hname
  simpa using hname

lemma parentPath_descend_concat (directory : FsPath) (names : List FileName) (name : FileName) :
    (descend directory (names ++ [name])).parentPath =
      { directory with elements := stem directory ++ names.map FileName.bytes } := by
  rw [descend_eq _ (by simp), parentPath]
  simp [← List.append_assoc]

lemma named_parentPath {file : FsPath} (h : file ∈ gitignorePaths (ofBytes text) tree) :
    ∀ name ∈ file.parentPath.elements, Named name := by
  obtain ⟨names, name, rfl, -⟩ := exists_descend_of_gitignorePaths h
  rw [parentPath_descend_concat]
  exact List.forall_mem_append.mpr ⟨names_stem (spelled_ofBytes text), forall_mem_bytes FileName.named names⟩

lemma depth_of_nested {file : FsPath} (h : file ∈ gitignorePaths (ofBytes text) tree)
    (hne : file ≠ rootGitignorePath (ofBytes text)) :
    (rootGitignorePath (ofBytes text)).parentPath.components.length < file.parentPath.components.length := by
  obtain ⟨names, name, rfl, hname⟩ := exists_descend_of_gitignorePaths h
  have hnames : names ≠ [] := by
    rintro rfl
    apply hne
    change child (ofBytes text) name = child (ofBytes text) gitignoreName
    rw [child_eq, child_eq, hname]
    rfl
  have hroot := parentPath_descend_concat (ofBytes text) [] gitignoreName
  rw [parentPath_descend_concat]
  change (descend (ofBytes text) ([] ++ [gitignoreName])).parentPath.components.length < _
  rw [hroot]
  simpa [components, List.length_pos_iff] using hnames

lemma eq_root_of_parentPath {file : FsPath} (h : file ∈ gitignorePaths (ofBytes text) tree)
    (hparent : file.parentPath = (rootGitignorePath (ofBytes text)).parentPath) :
    file = rootGitignorePath (ofBytes text) := by
  by_contra hne
  have hdepth := depth_of_nested h hne
  rw [hparent] at hdepth
  exact lt_irrefl _ hdepth

lemma loadIgnoreRulesFile_fields {file : FsPath} {requireText : Bool} {baseDir : Option FsPath}
    {rule : GitIgnoreRule} (h : rule ∈ loadIgnoreRulesFile fs file requireText baseDir) :
    rule.baseDir = baseDir.getD file.parentPath ∧
      rule.baseDepth = (baseDir.getD file.parentPath).components.length := by
  rw [loadIgnoreRulesFile] at h
  split at h
  · cases h
  · split_ifs at h
    · cases h
    · exact ⟨((parseIgnoreLines_fields _ _ _).1 rule h).1, ((parseIgnoreLines_fields _ _ _).1 rule h).2.1⟩

lemma pairwise_loadIgnoreRulesFile (file : FsPath) (requireText : Bool) (baseDir : Option FsPath) :
    (loadIgnoreRulesFile fs file requireText baseDir).Pairwise fun left right => left.order < right.order := by
  rw [loadIgnoreRulesFile]
  split
  · exact List.Pairwise.nil
  · split_ifs
    · exact List.Pairwise.nil
    · exact (parseIgnoreLines_fields _ _ _).2

lemma dltxtRules_fields {rule : GitIgnoreRule} (h : rule ∈ dltxtRules fs (ofBytes text)) :
    rule.baseDir = ofBytes text ∧ Placed rule := by
  obtain ⟨hbase, hdepth⟩ := loadIgnoreRulesFile_fields h
  rw [Option.getD_some] at hbase hdepth
  exact ⟨hbase, hbase ▸ spelled_ofBytes text, hbase ▸ hdepth⟩

lemma gitignoreRules_fields {rule : GitIgnoreRule} (h : rule ∈ gitignoreRules fs (ofBytes text) tree) :
    Placed rule ∧ ∃ file ∈ gitignorePaths (ofBytes text) tree,
      rule ∈ loadGitignoreRules fs file ∧ rule.baseDir = file.parentPath := by
  obtain ⟨file, hfile, hrule⟩ := List.mem_flatMap.mp h
  obtain ⟨hbase, hdepth⟩ := loadIgnoreRulesFile_fields hrule
  rw [Option.getD_none] at hbase hdepth
  refine ⟨⟨?_, hbase ▸ hdepth⟩, file, hfile, hrule, hbase⟩
  rw [hbase]
  exact spelled_of_names (named_parentPath hfile)

lemma ignores_buildFolderRules (fs : FileSystem) (text : Bytes) (tree : DirectoryTree) :
    (buildFolderRules fs (ofBytes text) tree).ignores path isDirectory =
      (!(ofBytes text).lexicallyNormal.empty &&
        verdict (StableSort.latest before (deciding (dltxtRules fs (ofBytes text)) path isDirectory)
          (deciding (gitignoreRules fs (ofBytes text) tree) path isDirectory))) := by
  have hplaced : ∀ rule ∈ dltxtRules fs (ofBytes text) ++ gitignoreRules fs (ofBytes text) tree, Placed rule :=
    List.forall_mem_append.mpr ⟨fun rule hrule => (dltxtRules_fields hrule).2,
      fun rule hrule => (gitignoreRules_fields hrule).1⟩
  rw [← deciding_append]
  have hignores := @ignores_sortRules path isDirectory _ (ofBytes text).lexicallyNormal hplaced
  rw [lexicallyNormal_lexicallyNormal] at hignores
  exact hignores

def NestedSilent (fs : FileSystem) (workspacePath : FsPath) (tree : DirectoryTree) (path : FsPath)
    (isDirectory : Bool) : Prop :=
  ∀ file ∈ gitignorePaths workspacePath tree, file ≠ rootGitignorePath workspacePath →
    ∀ rule ∈ loadGitignoreRules fs file, ruleApplies rule path isDirectory = false

lemma deciding_gitignoreRules_iff {rule : GitIgnoreRule}
    (hroot : rootGitignorePath (ofBytes text) ∈ gitignorePaths (ofBytes text) tree) :
    (deciding (gitignoreRules fs (ofBytes text) tree) path isDirectory = some rule ∧
        rule.baseDir = (rootGitignorePath (ofBytes text)).parentPath) ↔
      lastMatch (loadGitignoreRules fs (rootGitignorePath (ofBytes text))) path isDirectory = some rule ∧
        NestedSilent fs (ofBytes text) tree path isDirectory := by
  have hmem : ∀ file ∈ gitignorePaths (ofBytes text) tree, ∀ rule ∈ loadGitignoreRules fs file,
      rule ∈ gitignoreRules fs (ofBytes text) tree := fun file hfile rule hrule =>
    List.mem_flatMap.mpr ⟨file, hfile, hrule⟩
  have hplaced : ∀ rule ∈ gitignoreRules fs (ofBytes text) tree, Placed rule := fun rule hrule =>
    (gitignoreRules_fields hrule).1
  have hbase : ∀ file, ∀ rule ∈ loadGitignoreRules fs file, rule.baseDir = file.parentPath :=
    fun file rule hrule => (loadIgnoreRulesFile_fields hrule).1
  have hsorted : (loadGitignoreRules fs (rootGitignorePath (ofBytes text))).Pairwise
      fun left right => left.order < right.order := pairwise_loadIgnoreRulesFile _ false none
  constructor
  · rintro ⟨hdeciding, hruleBase⟩
    obtain ⟨hrule, happlies, hbefore⟩ := mem_of_deciding hdeciding
    obtain ⟨-, file, hfile, hload, hparent⟩ := gitignoreRules_fields hrule
    rw [eq_root_of_parentPath hfile (hparent.symm.trans hruleBase)] at hload
    constructor
    · rw [lastMatch_eq_some_iff hsorted]
      refine ⟨hload, happlies, fun other hother hmatch => ?_⟩
      have hother' := hmem _ hroot other hother
      exact order_le_of_before (hplaced other hother') (hplaced rule hrule)
        ((hbase _ other hother).trans hruleBase.symm) (hbefore other hother' hmatch)
    -- a deeper rule that applied would come after the one that decides
    · intro other hother hne nested hnested
      by_contra hnot
      have hnested' := hmem other hother nested hnested
      have hdepth := baseDepth_le_of_before (hbefore nested hnested' (by simpa using hnot))
      rw [(hplaced nested hnested').2, (hplaced rule hrule).2, hbase other nested hnested, hruleBase] at hdepth
      exact absurd (depth_of_nested hother hne) (not_lt.mpr hdepth)
  · rintro ⟨hlast, hsilent⟩
    obtain ⟨hload, happlies, hothers⟩ := (lastMatch_eq_some_iff hsorted).mp hlast
    have hrule := hmem _ hroot rule hload
    obtain ⟨winner, hdeciding⟩ := exists_deciding hrule happlies
    obtain ⟨hwinner, hmatch, hbefore⟩ := mem_of_deciding hdeciding
    obtain ⟨-, file, hfile, hwinnerLoad, hparent⟩ := gitignoreRules_fields hwinner
    have hfile' : file = rootGitignorePath (ofBytes text) := by
      by_contra hne
      rw [hsilent file hfile hne winner hwinnerLoad] at hmatch
      cases hmatch
    rw [hfile'] at hwinnerLoad hparent
    have horder := order_le_of_before (hplaced rule hrule) (hplaced winner hwinner)
      ((hbase _ rule hload).trans hparent.symm) (hbefore rule hrule happlies)
    have hwinnerLast :
        lastMatch (loadGitignoreRules fs (rootGitignorePath (ofBytes text))) path isDirectory = some winner :=
      (lastMatch_eq_some_iff hsorted).mpr ⟨hwinnerLoad, hmatch, fun other hother hmatch =>
        (hothers other hother hmatch).trans horder⟩
    rw [hlast, Option.some.injEq] at hwinnerLast
    rw [hdeciding, ← hwinnerLast]
    exact ⟨rfl, hbase _ rule hload⟩

end Folder

section Effect

variable {fs : FileSystem} {text : Bytes} {tree : DirectoryTree} {path : FsPath} {isDirectory : Bool}
  {position : ℕ} {line content : Bytes}

lemma loadIgnoreRulesFile_write_of_ne {file other : FsPath} (h : other ≠ file) (requireText : Bool)
    (baseDir : Option FsPath) :
    loadIgnoreRulesFile (fs.write file content) other requireText baseDir =
      loadIgnoreRulesFile fs other requireText baseDir := by
  have hread : (fs.write file content).read other = fs.read other := Function.update_of_ne h _ _
  rw [loadIgnoreRulesFile, loadIgnoreRulesFile, hread]

lemma loadIgnoreRulesFile_of_read {file : FsPath} (h : fs.read file = some content) (requireText : Bool)
    (baseDir : Option FsPath) :
    loadIgnoreRulesFile fs file requireText baseDir =
      if requireText && !isProbablyTextContent content then []
      else parseIgnoreRulesContent (baseDir.getD file.parentPath) content := by
  rw [loadIgnoreRulesFile, h]

lemma read_write (fs : FileSystem) (file : FsPath) (content : Bytes) :
    (fs.write file content).read file = some content :=
  Function.update_self _ _ _

lemma filename_dltxtIgnorePath (workspacePath : FsPath) :
    (workspaceDltxtIgnorePath workspacePath).filename = ascii "ignore" := by
  have hpath : ofBytes (ascii "ignore") = { elements := [ascii "ignore"] } := by decide
  rw [workspaceDltxtIgnorePath, hpath, append, filename]
  simp

lemma ne_dltxtIgnorePath {file : FsPath} (h : file ∈ gitignorePaths (ofBytes text) tree) :
    file ≠ workspaceDltxtIgnorePath (ofBytes text) := by
  rintro rfl
  have hname := (List.mem_filter.mp h).2
  rw [isGitignoreFile, decide_eq_true_iff, filename_dltxtIgnorePath] at hname
  revert hname
  decide

lemma deciding_insert_dltxtIgnore (hread : fs.read (workspaceDltxtIgnorePath (ofBytes text)) = some content)
    (hline : 10 ∉ line) (hnul : 0 ∉ line) (hunmatched : ¬ LineMatches (ofBytes text) 0 line path isDirectory) :
    deciding (dltxtRules (fs.write (workspaceDltxtIgnorePath (ofBytes text)) (insertLine position line content))
        (ofBytes text)) path isDirectory =
      (deciding (dltxtRules fs (ofBytes text)) path isDirectory).map
        (renumber (ofBytes text) (countRules ((content.splitOn 10).take position)) (countRules [line])) := by
  apply deciding_of_filter fun rule hrule => (dltxtRules_fields hrule).2
  rw [dltxtRules, dltxtRules, loadIgnoreRulesFile_of_read hread, loadIgnoreRulesFile_of_read (read_write _ _ _),
    isProbablyTextContent_insertLine hline hnul]
  split_ifs
  · rfl
  · exact filter_parse_insertLine hline hunmatched

lemma gitignoreRules_write_dltxtIgnore :
    gitignoreRules (fs.write (workspaceDltxtIgnorePath (ofBytes text)) content) (ofBytes text) tree =
      gitignoreRules fs (ofBytes text) tree :=
  List.flatMap_congr fun _ hfile => loadIgnoreRulesFile_write_of_ne (ne_dltxtIgnorePath hfile) _ _

lemma dltxtRules_write_gitignore (hroot : rootGitignorePath (ofBytes text) ∈ gitignorePaths (ofBytes text) tree) :
    dltxtRules (fs.write (rootGitignorePath (ofBytes text)) content) (ofBytes text) =
      dltxtRules fs (ofBytes text) :=
  loadIgnoreRulesFile_write_of_ne (ne_dltxtIgnorePath hroot).symm _ _

lemma deciding_insert_gitignore (hread : fs.read (rootGitignorePath (ofBytes text)) = some content)
    (hline : 10 ∉ line)
    (hunmatched : ¬ LineMatches (rootGitignorePath (ofBytes text)).parentPath 0 line path isDirectory) :
    deciding (gitignoreRules (fs.write (rootGitignorePath (ofBytes text)) (insertLine position line content))
        (ofBytes text) tree) path isDirectory =
      (deciding (gitignoreRules fs (ofBytes text) tree) path isDirectory).map
        (renumber (rootGitignorePath (ofBytes text)).parentPath (countRules ((content.splitOn 10).take position))
          (countRules [line])) := by
  apply deciding_of_filter fun rule hrule => (gitignoreRules_fields hrule).1
  rw [gitignoreRules, gitignoreRules, List.filter_flatMap, List.filter_flatMap, List.map_flatMap]
  refine List.flatMap_congr fun file hfile => ?_
  by_cases hsame : file = rootGitignorePath (ofBytes text)
  · rw [hsame, loadGitignoreRules, loadGitignoreRules, loadIgnoreRulesFile_of_read hread,
      loadIgnoreRulesFile_of_read (read_write _ _ _)]
    exact filter_parse_insertLine hline hunmatched
  · rw [loadGitignoreRules, loadGitignoreRules, loadIgnoreRulesFile_write_of_ne hsame]
    have hkept : ∀ rule ∈ (loadIgnoreRulesFile fs file false none).filter
          fun rule => ruleApplies rule path isDirectory,
        renumber (rootGitignorePath (ofBytes text)).parentPath (countRules ((content.splitOn 10).take position))
          (countRules [line]) rule = rule := by
      intro rule hrule
      have hbase := (loadIgnoreRulesFile_fields (List.mem_of_mem_filter hrule)).1
      refine if_neg fun h => hsame (eq_root_of_parentPath hfile ?_)
      exact hbase.symm.trans h.1
    rw [List.map_congr_left hkept, List.map_id']

end Effect

section Unrelated

variable {fs : FileSystem} {text : Bytes} {tree : DirectoryTree} {path : FsPath} {isDirectory : Bool}
  {position : ℕ} {line content : Bytes}

def Clash (fs : FileSystem) (workspacePath : FsPath) (tree : DirectoryTree) (path : FsPath) (isDirectory : Bool)
    (first second : GitIgnoreRule) : Prop :=
  lastMatch (dltxtRules fs workspacePath) path isDirectory = some first ∧
    lastMatch (loadGitignoreRules fs (rootGitignorePath workspacePath)) path isDirectory = some second ∧
    NestedSilent fs workspacePath tree path isDirectory ∧ first.baseDir = second.baseDir ∧
    first.negated ≠ second.negated

/-- A line that takes the number `start` moves the rule behind it past the other one. -/
def IgnoreFile.Overtakes (start : ℕ) (first second : GitIgnoreRule) : IgnoreFile → Prop
  | .dltxtIgnore => start ≤ first.order ∧ first.order = second.order
  | .gitignore => start ≤ second.order ∧ second.order + 1 = first.order

def ChangesNothing (fs : FileSystem) (workspacePath : FsPath) (tree : DirectoryTree) (file : IgnoreFile)
    (content : Bytes) (position : ℕ) (line : Bytes) (path : FsPath) (isDirectory : Bool) : Prop :=
  (buildFolderRules (fs.write (file.path workspacePath) (insertLine position line content))
      workspacePath tree).ignores path isDirectory =
    (buildFolderRules fs workspacePath tree).ignores path isDirectory

lemma deciding_dltxtRules : deciding (dltxtRules fs (ofBytes text)) path isDirectory =
    lastMatch (dltxtRules fs (ofBytes text)) path isDirectory := by
  apply deciding_eq_lastMatch
  refine (@pairwise_loadIgnoreRulesFile fs _ true _).imp_of_mem fun hleft hright hlt => ?_
  obtain ⟨hbaseLeft, hleft⟩ := dltxtRules_fields hleft
  obtain ⟨hbaseRight, hright⟩ := dltxtRules_fields hright
  exact before_iff.mpr (Or.inr ⟨(site_eq_iff hleft hright).mpr (hbaseLeft.trans hbaseRight.symm), hlt.le⟩)

lemma stem_of_named {p : FsPath} (h : ∀ name ∈ p.elements, Named name) : stem p = p.elements := by
  rw [stem]
  split_ifs with hlast
  · rcases List.eq_nil_or_concat' p.elements with hnil | ⟨init, last, hsplit⟩
    · rw [hnil]
      rfl
    · rw [filename, hsplit, List.getLast?_concat, Option.getD_some] at hlast
      exact absurd hlast (h last (by simp [hsplit])).1
  · rfl

lemma baseDir_of_same {first second : GitIgnoreRule} (hfirst : first ∈ dltxtRules fs (ofBytes text))
    (hsecond : second ∈ gitignoreRules fs (ofBytes text) tree) (hsame : first.baseDir = second.baseDir) :
    second.baseDir = (rootGitignorePath (ofBytes text)).parentPath := by
  have hbase := (dltxtRules_fields hfirst).1
  obtain ⟨-, file, hfile, -, hparent⟩ := gitignoreRules_fields hsecond
  have hnamed := named_parentPath hfile
  rw [← hparent, ← hsame, hbase] at hnamed
  have hroot := parentPath_descend_concat (ofBytes text) [] gitignoreName
  rw [stem_of_named hnamed, List.map_nil, List.append_nil] at hroot
  rw [← hsame, hbase]
  exact hroot.symm

lemma deciding_iff {first second : GitIgnoreRule}
    (hroot : rootGitignorePath (ofBytes text) ∈ gitignorePaths (ofBytes text) tree) :
    (deciding (dltxtRules fs (ofBytes text)) path isDirectory = some first ∧
        deciding (gitignoreRules fs (ofBytes text) tree) path isDirectory = some second ∧
        first.baseDir = second.baseDir) ↔
      lastMatch (dltxtRules fs (ofBytes text)) path isDirectory = some first ∧
        lastMatch (loadGitignoreRules fs (rootGitignorePath (ofBytes text))) path isDirectory = some second ∧
        NestedSilent fs (ofBytes text) tree path isDirectory ∧ first.baseDir = second.baseDir := by
  rw [deciding_dltxtRules]
  refine and_congr_right fun hfirst => ?_
  rw [← and_assoc, ← deciding_gitignoreRules_iff hroot, and_assoc]
  refine and_congr_right fun hsecond => (and_iff_right_of_imp fun hsame => ?_).symm
  rw [← deciding_dltxtRules] at hfirst
  exact baseDir_of_same (mem_of_deciding hfirst).1 (mem_of_deciding hsecond).1 hsame

lemma deciding_of_empty (hempty : (ofBytes text).lexicallyNormal.empty = true) :
    deciding (dltxtRules fs (ofBytes text)) path isDirectory = none := by
  by_contra hne
  obtain ⟨rule, hrule⟩ := Option.ne_none_iff_exists'.mp hne
  obtain ⟨hmem, happlies, -⟩ := mem_of_deciding hrule
  rw [ruleApplies, (dltxtRules_fields hmem).1, hempty] at happlies
  simp at happlies

lemma countRules_singleton (line : Bytes) : countRules [line] = if Counts line then 1 else 0 := by
  rw [countRules, List.countP_singleton]
  simp

lemma ignores_eq_iff {fs' : FileSystem} {f g : GitIgnoreRule → GitIgnoreRule}
    {moves : GitIgnoreRule → GitIgnoreRule → Prop}
    (hroot : rootGitignorePath (ofBytes text) ∈ gitignorePaths (ofBytes text) tree)
    (hf : ∀ rule, (f rule).negated = rule.negated) (hg : ∀ rule, (g rule).negated = rule.negated)
    (hdltxt : deciding (dltxtRules fs' (ofBytes text)) path isDirectory =
      (deciding (dltxtRules fs (ofBytes text)) path isDirectory).map f)
    (hgitignore : deciding (gitignoreRules fs' (ofBytes text) tree) path isDirectory =
      (deciding (gitignoreRules fs (ofBytes text) tree) path isDirectory).map g)
    (hmoves : ∀ first ∈ dltxtRules fs (ofBytes text), ∀ second ∈ gitignoreRules fs (ofBytes text) tree,
      (¬ (before (f first) (g second) ↔ before first second) ↔
        first.baseDir = second.baseDir ∧ moves first second)) :
    (buildFolderRules fs' (ofBytes text) tree).ignores path isDirectory =
        (buildFolderRules fs (ofBytes text) tree).ignores path isDirectory ↔
      ¬ ∃ first second, Clash fs (ofBytes text) tree path isDirectory first second ∧ moves first second := by
  rw [ignores_buildFolderRules, ignores_buildFolderRules, hdltxt, hgitignore]
  cases hempty : (ofBytes text).lexicallyNormal.empty with
  | true =>
    refine iff_of_true rfl ?_
    rintro ⟨first, second, hclash, -⟩
    have hnone := @deciding_of_empty fs text path isDirectory hempty
    rw [deciding_dltxtRules, hclash.1] at hnone
    cases hnone
  | false =>
    rw [Bool.not_false, Bool.true_and, Bool.true_and, verdict_latest_map_eq_iff hf hg]
    refine not_congr (exists_congr fun first => exists_congr fun second => ?_)
    constructor
    · rintro ⟨hfirst, hsecond, hnegated, hchange⟩
      obtain ⟨hsame, hmoved⟩ :=
        (hmoves first (mem_of_deciding hfirst).1 second (mem_of_deciding hsecond).1).mp hchange
      obtain ⟨hfirst, hsecond, hsilent, -⟩ := (deciding_iff hroot).mp ⟨hfirst, hsecond, hsame⟩
      exact ⟨⟨hfirst, hsecond, hsilent, hsame, hnegated⟩, hmoved⟩
    · rintro ⟨⟨hfirst, hsecond, hsilent, hsame, hnegated⟩, hmoved⟩
      obtain ⟨hfirst, hsecond, -⟩ := (deciding_iff hroot).mpr ⟨hfirst, hsecond, hsilent, hsame⟩
      exact ⟨hfirst, hsecond, hnegated,
        (hmoves first (mem_of_deciding hfirst).1 second (mem_of_deciding hsecond).1).mpr ⟨hsame, hmoved⟩⟩

lemma exists_counts_iff {P Q R : GitIgnoreRule → GitIgnoreRule → Prop} {C : Prop}
    (h : ∀ first second, P first second ↔ C ∧ Q first second) :
    (∃ first second, R first second ∧ P first second) ↔ C ∧ ∃ first second, R first second ∧ Q first second := by
  simp only [h]
  tauto

/-- The two files are merged by the numbers of their rules, so a line without effect of its own
may let the other file win. -/
theorem changesNothing_iff (fs : FileSystem) (text : Bytes) (tree : DirectoryTree)
    (hroot : rootGitignorePath (ofBytes text) ∈ gitignorePaths (ofBytes text) tree) (file : IgnoreFile)
    (content : Bytes) (hread : fs.read (file.path (ofBytes text)) = some content) (position : ℕ) (line : Bytes)
    (hline : 10 ∉ line) (htext : file = .dltxtIgnore → 0 ∉ line) (path : FsPath) (isDirectory : Bool)
    (hunmatched : ¬ LineMatches (file.baseDir (ofBytes text)) 0 line path isDirectory) :
    ChangesNothing fs (ofBytes text) tree file content position line path isDirectory ↔
      ¬ (Counts line ∧ ∃ first second, Clash fs (ofBytes text) tree path isDirectory first second ∧
        file.Overtakes (countRules ((content.splitOn 10).take position)) first second) := by
  have hcount := countRules_singleton line
  cases file with
  | dltxtIgnore =>
    have hdltxt := @deciding_insert_dltxtIgnore fs text path isDirectory position line content hread hline
      (htext rfl) hunmatched
    have hgitignore := @gitignoreRules_write_dltxtIgnore fs text tree (insertLine position line content)
    refine (ignores_eq_iff hroot negated_renumber (fun _ => rfl) hdltxt
      (by rw [hgitignore]; exact Option.map_id'.symm) fun first hfirst second hsecond =>
        before_renumber_left_iff (dltxtRules_fields hfirst).2 (gitignoreRules_fields hsecond).1
          (dltxtRules_fields hfirst).1).trans (not_congr (exists_counts_iff fun first second => ?_))
    rw [hcount, IgnoreFile.Overtakes]
    split_ifs with hcounts
    · simp only [hcounts, true_and]
      omega
    · simp only [hcounts, false_and, iff_false]
      omega
  | gitignore =>
    have hdltxt := @dltxtRules_write_gitignore fs text tree (insertLine position line content) hroot
    have hgitignore := @deciding_insert_gitignore fs text tree path isDirectory position line content hread hline
      hunmatched
    refine (ignores_eq_iff hroot (fun _ => rfl) negated_renumber
      (by rw [hdltxt]; exact Option.map_id'.symm) hgitignore fun first hfirst second hsecond =>
        before_renumber_right_iff (dltxtRules_fields hfirst).2 (gitignoreRules_fields hsecond).1
          fun hsame => ?_).trans (not_congr (exists_counts_iff fun first second => ?_))
    · exact baseDir_of_same hfirst hsecond hsame
    rw [hcount, IgnoreFile.Overtakes]
    split_ifs with hcounts
    · simp only [hcounts, true_and]
      omega
    · simp only [hcounts, false_and, iff_false]
      omega

def disagreeing : FileSystem where
  read path :=
    if path = ofBytes (ascii "/w/.dltxt/ignore") then some (ascii "!a.txt")
    else if path = ofBytes (ascii "/w/.gitignore") then some (ascii "a.txt")
    else none
  present _ := true
  lastWriteTime _ := none
  tree path :=
    if path = ofBytes (ascii "/w") then some (.file gitignoreName (.file textName .done)) else none

theorem changesNothing_below :
    ChangesNothing disagreeing (ofBytes (ascii "/w")) (.file gitignoreName (.file textName .done)) .dltxtIgnore
      (ascii "!a.txt") 1 (ascii "x//y") (ofBytes (ascii "/w/a.txt")) false :=
  (changesNothing_iff disagreeing (ascii "/w") _ (by decide) .dltxtIgnore _ (by decide) 1 _ (by decide)
    (fun _ => by decide) _ _ (by decide)).mpr (by
      rintro ⟨-, first, second, ⟨hfirst, -⟩, hstart, -⟩
      have hlast : lastMatch (dltxtRules disagreeing (ofBytes (ascii "/w"))) (ofBytes (ascii "/w/a.txt")) false =
          some { plainRule (ofBytes (ascii "/w")) 0 (ascii "a.txt") false with negated := true } := by decide
      rw [hlast, Option.some.injEq] at hfirst
      rw [← hfirst] at hstart
      revert hstart
      decide)

lemma unspelled_matches_nothing (other : Bytes) (isDirectory : Bool) :
    ¬ LineMatches (ofBytes (ascii "/w")) 0 (ascii "x//y") (ofBytes other) isDirectory := by
  rintro ⟨rule, hrule, happlies⟩
  have hparse := @parse_plainLine (ofBytes (ascii "/w")) 0 (ascii "x//y") (ascii "x//y") (by decide) (by decide)
    (by decide) (by decide) (by decide)
  rw [hparse, List.mem_singleton] at hrule
  rw [hrule] at happlies
  exact not_ruleApplies_of_unspelled (by decide +kernel) (by decide) (by decide) other isDirectory happlies

theorem unrelated_line_changes_verdict :
    ¬ ∀ (fs : FileSystem) (text : Bytes) (tree : DirectoryTree), fs.tree (ofBytes text) = some tree →
      rootGitignorePath (ofBytes text) ∈ gitignorePaths (ofBytes text) tree →
      ∀ (file : IgnoreFile) (content : Bytes), fs.read (file.path (ofBytes text)) = some content →
        ∀ (position : ℕ) (line : Bytes), 10 ∉ line → 0 ∉ line →
          (∀ other isDirectory, ¬ LineMatches (file.baseDir (ofBytes text)) 0 line (ofBytes other) isDirectory) →
          ∀ other isDirectory,
            ChangesNothing fs (ofBytes text) tree file content position line (ofBytes other) isDirectory := by
  intro h
  have hchanged := h disagreeing (ascii "/w") _ rfl (by decide) .dltxtIgnore (ascii "!a.txt") (by decide) 0
    (ascii "x//y") (by decide) (by decide) unspelled_matches_nothing (ascii "/w/a.txt") false
  rw [ChangesNothing] at hchanged
  revert hchanged
  decide

end Unrelated

end DltxtBridge.Crossref
