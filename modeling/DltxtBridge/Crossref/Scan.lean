import DltxtBridge.Crossref.Service
import DltxtBridge.FsPath.Normal

namespace DltxtBridge.Crossref

open FsPath Documents

/-- `file` lies below `directory`, and `above` are the directories between the two, each
with whether it is a symbolic link. -/
inductive Below : FsPath → DirectoryTree → List (FsPath × Bool) → FsPath → Prop
  | here {directory name rest} : Below directory (.file name rest) [] (child directory name)
  | pastFile {directory name rest above file} (h : Below directory rest above file) :
      Below directory (.file name rest) above file
  | inside {directory name isSymlink entries rest above file}
      (h : Below (child directory name) entries above file) :
      Below directory (.directory name isSymlink entries rest) ((child directory name, isSymlink) :: above) file
  | pastDirectory {directory name isSymlink entries rest above file} (h : Below directory rest above file) :
      Below directory (.directory name isSymlink entries rest) above file

section Visit

variable {disables : FsPath → Bool → Bool} {directory file : FsPath} {tree : DirectoryTree}

lemma below_of_mem_visit (h : file ∈ tree.visit disables directory) :
    ∃ above, Below directory tree above file ∧ ∀ entry ∈ above, disables entry.1 entry.2 = false := by
  induction tree generalizing directory with
  | done => cases h
  | file name rest ih =>
    rcases List.mem_cons.mp h with rfl | h
    · exact ⟨[], .here, by simp⟩
    · obtain ⟨above, hbelow, habove⟩ := ih h
      exact ⟨above, .pastFile hbelow, habove⟩
  | directory name isSymlink entries rest ihEntries ihRest =>
    rw [DirectoryTree.visit, List.mem_append] at h
    rcases h with h | h
    · split_ifs at h with hdisabled
      · cases h
      · obtain ⟨above, hbelow, habove⟩ := ihEntries h
        refine ⟨_, .inside hbelow, List.forall_mem_cons.mpr ⟨?_, habove⟩⟩
        exact Bool.eq_false_iff.mpr hdisabled
    · obtain ⟨above, hbelow, habove⟩ := ihRest h
      exact ⟨above, .pastDirectory hbelow, habove⟩

lemma Below.mem_visit {above : List (FsPath × Bool)} (h : Below directory tree above file)
    (habove : ∀ entry ∈ above, disables entry.1 entry.2 = false) : file ∈ tree.visit disables directory := by
  induction h with
  | here => exact List.mem_cons_self
  | pastFile _ ih => exact List.mem_cons_of_mem _ (ih habove)
  | inside _ ih =>
    obtain ⟨hfirst, hrest⟩ := List.forall_mem_cons.mp habove
    rw [DirectoryTree.visit, if_neg (by simp [hfirst])]
    exact List.mem_append_left _ (ih hrest)
  | pastDirectory _ ih => exact List.mem_append_right _ (ih habove)

end Visit

section Normal

variable {directory : FsPath} {name : FileName}

lemma child_eq (directory : FsPath) (name : FileName) :
    child directory name = { directory with elements :=
      (if directory.filename = [] then directory.elements.dropLast else directory.elements) ++ [name.bytes] } := by
  simp [child, FsPath.append]

lemma filename_child : (child directory name).filename = name.bytes := by
  simp [child_eq, filename]

lemma lexicallyNormal_child (directory : FsPath) (name : FileName) :
    ∃ names, (child directory name).lexicallyNormal =
        { rootDirectory := directory.rootDirectory, elements := names ++ [name.bytes] } ∧
      (directory.Separated → ∀ other ∈ names, other ≠ [] ∧ 47 ∉ other) := by
  refine ⟨((if directory.filename = [] then directory.elements.dropLast else directory.elements).foldl
    (normalStep directory.rootDirectory) []).reverse, ?_, ?_⟩
  · rw [lexicallyNormal, filename_child, child_eq]
    simp [empty, normalStep, name.ne_nil, name.ne_dot, name.ne_dotDot]
  · intro hseparated other hother
    rw [List.mem_reverse] at hother
    refine mem_foldl_normalStep ?_ (by simp) other hother
    intro piece hpiece
    split_ifs at hpiece
    · exact hseparated piece (List.dropLast_subset _ hpiece)
    · exact hseparated piece hpiece

lemma forall_mem_concat {names : List Bytes} (h : ∀ other ∈ names, other ≠ [] ∧ 47 ∉ other)
    (name : FileName) : ∀ other ∈ names ++ [name.bytes], other ≠ [] ∧ 47 ∉ other := by
  intro other hother
  rw [List.mem_append, List.mem_singleton] at hother
  rcases hother with hother | rfl
  · exact h other hother
  · exact ⟨name.ne_nil, name.no_separator⟩

lemma separated_child (h : directory.Separated) (name : FileName) : (child directory name).Separated := by
  intro piece hpiece
  rw [child_eq, List.mem_append, List.mem_singleton] at hpiece
  rcases hpiece with hpiece | rfl
  · split_ifs at hpiece
    · exact h piece (List.dropLast_subset _ hpiece)
    · exact h piece hpiece
  · exact name.no_separator

lemma Below.exists_child {tree : DirectoryTree} {above : List (FsPath × Bool)} {file : FsPath}
    (h : Below directory tree above file) (hseparated : directory.Separated) :
    ∃ parent name, parent.Separated ∧ file = child parent name := by
  induction h with
  | here => exact ⟨_, _, hseparated, rfl⟩
  | pastFile _ ih => exact ih hseparated
  | inside _ ih => exact ih (separated_child hseparated _)
  | pastDirectory _ ih => exact ih hseparated

lemma lexicallyNormal_of_fileUri {other : FsPath} {otherName : FileName} (hdirectory : directory.Separated)
    (hother : other.Separated)
    (h : fileUriFromPath (child directory name) = fileUriFromPath (child other otherName)) :
    (child directory name).lexicallyNormal = (child other otherName).lexicallyNormal := by
  have hencoded := List.append_cancel_left h
  have hgeneric := congrArg percentDecode hencoded
  rw [percentDecode_percentEncode, percentDecode_percentEncode] at hgeneric
  obtain ⟨names, hnormal, hnames⟩ := lexicallyNormal_child directory name
  obtain ⟨otherNames, hotherNormal, hotherNames⟩ := lexicallyNormal_child other otherName
  rw [hnormal, hotherNormal] at hgeneric ⊢
  refine eq_of_genericString (spelled_of_names ?_) (spelled_of_names ?_) hgeneric
  · exact forall_mem_concat (hnames hdirectory) name
  · exact forall_mem_concat (hotherNames hother) otherName

end Normal

section SameNormal

variable {p q : FsPath}

lemma pathIsWithinRoot_congr (h : p.lexicallyNormal = q.lexicallyNormal) (rootPath : FsPath) :
    pathIsWithinRoot p rootPath = pathIsWithinRoot q rootPath := by
  rw [pathIsWithinRoot, pathIsWithinRoot, h]

lemma isGitignored_congr (h : p.lexicallyNormal = q.lexicallyNormal) (rules : List WorkspaceGitIgnoreRules)
    (isDirectory : Bool) : isGitignored p rules isDirectory = isGitignored q rules isDirectory := by
  simp only [isGitignored, WorkspaceGitIgnoreRules.ignores, pathIsWithinRoot_congr h, h]

lemma filename_of_lexicallyNormal {directory other : FsPath} {name otherName : FileName}
    (h : (child directory name).lexicallyNormal = (child other otherName).lexicallyNormal) :
    (child directory name).filename = (child other otherName).filename := by
  obtain ⟨names, hnormal, -⟩ := lexicallyNormal_child directory name
  obtain ⟨otherNames, hotherNormal, -⟩ := lexicallyNormal_child other otherName
  rw [hnormal, hotherNormal] at h
  have hlast := congrArg (fun r : FsPath => r.elements.getLast?) h
  simpa [filename_child] using hlast

lemma collectsFile_congr {directory other : FsPath} {name otherName : FileName}
    (h : (child directory name).lexicallyNormal = (child other otherName).lexicallyNormal)
    (rules : List WorkspaceGitIgnoreRules) :
    collectsFile rules (child directory name) = collectsFile rules (child other otherName) := by
  simp only [collectsFile, isHiddenName, isTextFile, extension, filename_of_lexicallyNormal h,
    isGitignored_congr h]

end SameNormal

section Agreement

variable {fs : FileSystem} {workspaceFolders : List Bytes} {rules : List WorkspaceGitIgnoreRules}
  {above : List (FsPath × Bool)} {path : FsPath}

def InFolder (fs : FileSystem) (workspaceFolders : List Bytes) (above : List (FsPath × Bool))
    (path : FsPath) : Prop :=
  ∃ uri ∈ workspaceFolders, ∃ tree, fs.tree (filePathFromUri uri) = some tree ∧
    Below (filePathFromUri uri) tree above path

def ReachedByScan (fs : FileSystem) (workspaceFolders : List Bytes) (rules : List WorkspaceGitIgnoreRules)
    (path : FsPath) : Prop :=
  ∃ above file, InFolder fs workspaceFolders above file ∧ file.lexicallyNormal = path.lexicallyNormal ∧
    ∀ entry ∈ above, shouldSkipDirectory entry.1 entry.2 = false ∧ isGitignored entry.1 rules true = false

def WithinRoot (workspaceFolders : List Bytes) (path : FsPath) : Prop :=
  ∃ uri ∈ workspaceFolders, pathIsWithinRoot path (filePathFromUri uri)

lemma InFolder.exists_child (h : InFolder fs workspaceFolders above path) :
    ∃ parent name, parent.Separated ∧ path = child parent name := by
  obtain ⟨uri, -, tree, -, hbelow⟩ := h
  apply hbelow.exists_child
  rw [filePathFromUri]
  split_ifs <;> exact separated_ofBytes _

lemma mem_sortUnique {uri : Bytes} {uris : List Bytes} : uri ∈ sortUnique uris ↔ uri ∈ uris := by
  rw [sortUnique, List.mem_dedup, List.mem_insertionSort]

lemma mem_collectWorkspaceTextUris {uri : Bytes} :
    uri ∈ collectWorkspaceTextUris fs workspaceFolders rules ↔
      ∃ above file, InFolder fs workspaceFolders above file ∧
        (∀ entry ∈ above, scanSkips rules entry.1 entry.2 = false) ∧ collectsFile rules file ∧
        fileUriFromPath file = uri := by
  rw [collectWorkspaceTextUris, mem_sortUnique, List.mem_flatMap]
  constructor
  · rintro ⟨folder, hfolder, h⟩
    cases htree : fs.tree (filePathFromUri folder) with
    | none => simp [htree] at h
    | some tree =>
      simp only [htree, List.mem_map, List.mem_filter] at h
      obtain ⟨file, ⟨hvisit, hcollects⟩, rfl⟩ := h
      obtain ⟨above, hbelow, habove⟩ := below_of_mem_visit hvisit
      exact ⟨above, file, ⟨folder, hfolder, tree, htree, hbelow⟩, habove, hcollects, rfl⟩
  · rintro ⟨above, file, ⟨folder, hfolder, tree, htree, hbelow⟩, habove, hcollects, rfl⟩
    refine ⟨folder, hfolder, ?_⟩
    simp only [htree, List.mem_map, List.mem_filter]
    exact ⟨file, ⟨hbelow.mem_visit habove, hcollects⟩, rfl⟩

lemma scanSkips_eq_false {file : FsPath} {isSymlink : Bool} :
    scanSkips rules file isSymlink = false ↔
      shouldSkipDirectory file isSymlink = false ∧ isGitignored file rules true = false := by
  rw [scanSkips, Bool.or_eq_false_iff]

lemma reports_iff (h : InFolder fs workspaceFolders above path) (hvisible : isHiddenName path = false)
    (htext : isTextFile path) :
    fileUriFromPath path ∈ collectWorkspaceTextUris fs workspaceFolders rules ↔
      ReachedByScan fs workspaceFolders rules path ∧ isGitignored path rules false = false := by
  obtain ⟨parent, name, hparent, rfl⟩ := h.exists_child
  have hcollects : collectsFile rules (child parent name) ↔
      isGitignored (child parent name) rules false = false := by
    simp [collectsFile, hvisible, htext]
  rw [mem_collectWorkspaceTextUris, ← hcollects]
  simp only [scanSkips_eq_false]
  constructor
  · rintro ⟨above, file, hfile, habove, hfileCollects, huri⟩
    obtain ⟨other, otherName, hother, rfl⟩ := hfile.exists_child
    have hnormal := lexicallyNormal_of_fileUri hother hparent huri
    exact ⟨⟨above, _, hfile, hnormal, habove⟩, collectsFile_congr hnormal rules ▸ hfileCollects⟩
  · rintro ⟨⟨above, file, hfile, hnormal, habove⟩, hpathCollects⟩
    obtain ⟨other, otherName, hother, rfl⟩ := hfile.exists_child
    refine ⟨above, _, hfile, habove, collectsFile_congr hnormal rules ▸ hpathCollects, ?_⟩
    rw [fileUriFromPath, fileUriFromPath, hnormal]

lemma isInWorkspaceUnlocked_iff {s : CrossrefService}
    (hroots : s.workspaceRootPaths = workspaceFolders.map filePathFromUri) :
    s.isInWorkspaceUnlocked path ↔
      WithinRoot workspaceFolders path ∧ isGitignored path s.workspaceGitignoreRules false = false := by
  simp [CrossrefService.isInWorkspaceUnlocked, BuildState.isInWorkspace, hroots, WithinRoot]

theorem scan_agrees_iff {s : CrossrefService}
    (hroots : s.workspaceRootPaths = workspaceFolders.map filePathFromUri)
    (h : InFolder fs workspaceFolders above path) (hvisible : isHiddenName path = false)
    (htext : isTextFile path) :
    (fileUriFromPath path ∈ collectWorkspaceTextUris fs workspaceFolders s.workspaceGitignoreRules ↔
        s.isInWorkspaceUnlocked path) ↔
      isGitignored path s.workspaceGitignoreRules false = true ∨
        (ReachedByScan fs workspaceFolders s.workspaceGitignoreRules path ↔
          WithinRoot workspaceFolders path) := by
  rw [reports_iff h hvisible htext, isInWorkspaceUnlocked_iff hroots]
  cases isGitignored path s.workspaceGitignoreRules false with
  | true => simp
  | false => simp

section Examples

def hiddenName : FileName where
  bytes := ascii ".work"
  ne_nil := by decide
  no_separator := by decide
  ne_dot := by decide
  ne_dotDot := by decide

def hiddenDirectory : FileSystem where
  read _ := none
  present _ := true
  lastWriteTime _ := none
  tree path :=
    if path = FsPath.ofBytes (ascii "/w") then some (.directory hiddenName false (.file textName .done) .done)
    else none

def oneFolder : CrossrefService := { workspaceRootPaths := [FsPath.ofBytes (ascii "/w")] }

theorem scan_agrees_oneFile :
    fileUriFromPath (FsPath.ofBytes (ascii "/w/a.txt")) ∈
        collectWorkspaceTextUris (oneFile []) [ascii "file:///w"] [] ↔
      oneFolder.isInWorkspaceUnlocked (FsPath.ofBytes (ascii "/w/a.txt")) := by
  have hfile : InFolder (oneFile []) [ascii "file:///w"] [] (FsPath.ofBytes (ascii "/w/a.txt")) :=
    ⟨_, List.mem_singleton_self _, .file textName .done, rfl, Below.here⟩
  refine (scan_agrees_iff (s := oneFolder) (by decide) hfile (by decide) (by decide)).mpr (.inr ?_)
  constructor
  · intro _
    exact ⟨_, List.mem_singleton_self _, by decide⟩
  · intro _
    exact ⟨[], _, hfile, rfl, by simp⟩

theorem hidden_directory_disagrees :
    ¬ ∀ (fs : FileSystem) (workspaceFolders : List Bytes) (above : List (FsPath × Bool)) (path : FsPath)
      (s : CrossrefService), s.workspaceRootPaths = workspaceFolders.map filePathFromUri →
      InFolder fs workspaceFolders above path → isHiddenName path = false → isTextFile path →
      (fileUriFromPath path ∈ collectWorkspaceTextUris fs workspaceFolders s.workspaceGitignoreRules ↔
        s.isInWorkspaceUnlocked path) := by
  intro h
  have hfile : InFolder hiddenDirectory [ascii "file:///w"] [(FsPath.ofBytes (ascii "/w/.work"), false)]
      (FsPath.ofBytes (ascii "/w/.work/a.txt")) :=
    ⟨_, List.mem_singleton_self _, .directory hiddenName false (.file textName .done) .done,
      rfl, Below.inside Below.here⟩
  have hagrees := h _ _ _ _ oneFolder (by decide) hfile (by decide) (by decide)
  revert hagrees
  decide

end Examples

end Agreement

end DltxtBridge.Crossref
