import DltxtBridge.Crossref.RuleMatching

namespace DltxtBridge.Crossref

open FsPath

section Matching

variable {text : Bytes} {names more : List FileName} {rule : GitIgnoreRule} {isDirectory : Bool}

/-- The pattern matches a leading part of the path below the rule's base directory; the base
directory itself is seen as ".". -/
def MatchesBelow (rule : GitIgnoreRule) (path : FsPath) (isDirectory : Bool) : Prop :=
  rule.baseDir.lexicallyNormal.empty = false ∧
    ∃ rest front back,
      path.lexicallyNormal = { rule.baseDir.lexicallyNormal with
        elements := rule.baseDir.lexicallyNormal.elements ++ rest } ∧
      front ≠ [] ∧ front ++ back = (below rest).elements ∧
      (back ≠ [] ∨ isDirectory ∨ rule.directoryOnly = false) ∧ wildcardMatch rule.pattern (subject rule front)

lemma named_descend (text : Bytes) (hne : names ≠ []) :
    ∀ name ∈ (descend (ofBytes text) names).lexicallyNormal.elements, Named name := by
  rw [lexicallyNormal_descend _ hne]
  exact List.forall_mem_append.mpr
    ⟨names_normalNames (separated_ofBytes text), forall_mem_bytes FileName.named names⟩

lemma stackNormal_descend (text : Bytes) (hne : names ≠ []) :
    StackNormal (ofBytes text).rootDirectory
      (descend (ofBytes text) names).lexicallyNormal.elements.reverse := by
  have hstack := stackNormal_normalNames (descend (ofBytes text) names)
  rw [normalNames_descend _ hne, descend_eq _ hne] at hstack
  rwa [lexicallyNormal_descend _ hne]

lemma lexicallyNormal_below_rest {front rest : List Bytes} (hne : names ≠ [])
    (h : (descend (ofBytes text) names).lexicallyNormal.elements = front ++ rest) :
    (below rest).lexicallyNormal = { elements := (below rest).elements } := by
  rcases List.eq_nil_or_concat' rest with rfl | ⟨init, last, rfl⟩
  · rfl
  · have hstack := stackNormal_descend text hne
    rw [h, List.reverse_append] at hstack
    have hlast : Plain last := by
      apply forall_mem_bytes FileName.plain names
      rw [lexicallyNormal_descend _ hne] at h
      have hend := congrArg List.getLast? h
      rw [List.getLast?_append_of_ne_nil _ (by simpa using hne), ← List.append_assoc,
        List.getLast?_concat] at hend
      exact List.mem_of_getLast? hend
    rw [below, if_neg (by simp)]
    exact lexicallyNormal_of_stackNormal hstack.of_append.relative hlast

lemma named_below_rest {front rest : List Bytes} (hne : names ≠ [])
    (h : (descend (ofBytes text) names).lexicallyNormal.elements = front ++ rest) :
    ∀ name ∈ (below rest).elements, Named name := by
  have hnamed := named_descend text hne
  rw [h, List.forall_mem_append] at hnamed
  rcases eq_or_ne rest [] with rfl | hrest
  · simp [below, Named, dot]
  · rw [below, if_neg hrest]
    exact hnamed.2

lemma ruleApplies_iff_matchesBelow (hne : names ≠ []) :
    ruleApplies rule (descend (ofBytes text) names) isDirectory ↔
      MatchesBelow rule (descend (ofBytes text) names) isDirectory := by
  have hbelow : ∀ rest : List Bytes, (below rest).elements ≠ [] := by
    intro rest
    rw [below]
    split_ifs with hrest
    · exact List.cons_ne_nil _ _
    · exact hrest
  rw [ruleApplies_iff (nil_notMem_descend _ hne), MatchesBelow]
  refine and_congr_right fun _ => exists_congr fun rest => ?_
  simp only [exists_and_left]
  refine and_congr_right fun hpath => ?_
  have helements := congrArg FsPath.elements hpath
  rw [matchesRule_iff (lexicallyNormal_below_rest hne helements) (hbelow rest) (named_below_rest hne helements)]
  simp only [exists_and_left]

lemma descend_append (directory : FsPath) (names more : List FileName) :
    descend directory (names ++ more) = descend (descend directory names) more := List.foldl_append

lemma lexicallyNormal_descend_append (directory : FsPath) (hne : names ≠ []) :
    (descend (descend directory names) more).lexicallyNormal =
      { (descend directory names).lexicallyNormal with
        elements := (descend directory names).lexicallyNormal.elements ++ more.map FileName.bytes } := by
  rw [← descend_append, lexicallyNormal_descend _ (by simp [hne]), lexicallyNormal_descend _ hne]
  simp

lemma matchesBelow_descend (h : MatchesBelow rule (descend (ofBytes text) names) true) (hne : names ≠ [])
    (hbase : rule.baseDir.lexicallyNormal ≠ (descend (ofBytes text) names).lexicallyNormal) (hmore : more ≠ []) :
    MatchesBelow rule (descend (descend (ofBytes text) names) more) isDirectory := by
  obtain ⟨hempty, rest, front, back, hpath, hfront, hsplit, -, hmatch⟩ := h
  have hrest : rest ≠ [] := by
    rintro rfl
    rw [List.append_nil] at hpath
    exact hbase hpath.symm
  have hbelow : front ++ back = rest := hsplit.trans (if_neg hrest)
  have hback : back ++ more.map FileName.bytes ≠ [] := by simp [hmore]
  refine ⟨hempty, rest ++ more.map FileName.bytes, front, back ++ more.map FileName.bytes, ?_, hfront, ?_,
    Or.inl hback, hmatch⟩
  · rw [lexicallyNormal_descend_append _ hne, hpath, List.append_assoc]
  · rw [below, if_neg (by simp [hrest]), ← hbelow, List.append_assoc]

lemma matchesBelow_self {path : FsPath} (hbase : rule.baseDir.lexicallyNormal = path.lexicallyNormal)
    (hempty : path.lexicallyNormal.empty = false) :
    MatchesBelow rule path true ↔ wildcardMatch rule.pattern dot := by
  have hsubject : subject rule [dot] = dot := by
    rw [subject, join, List.intercalate_singleton]
    exact ite_self _
  rw [MatchesBelow, hbase]
  constructor
  · rintro ⟨-, rest, front, back, hpath, hfront, hsplit, -, hmatch⟩
    have hrest : rest = [] := by simpa using congrArg FsPath.elements hpath
    subst hrest
    have hwhole : front = [dot] :=
      ((List.append_eq_singleton_iff.mp hsplit).resolve_left fun h => hfront h.1).1
    rwa [hwhole, hsubject] at hmatch
  · intro hmatch
    refine ⟨hempty, [], [dot], [], ?_, List.cons_ne_nil _ _, rfl, Or.inr (Or.inl rfl), ?_⟩
    · rw [List.append_nil]
    · rwa [hsubject]

lemma MatchesBelow.of_file {path : FsPath} (h : MatchesBelow rule path false) :
    MatchesBelow rule path isDirectory := by
  obtain ⟨hempty, rest, front, back, hpath, hfront, hsplit, hlast, hmatch⟩ := h
  refine ⟨hempty, rest, front, back, hpath, hfront, hsplit, hlast.imp_right fun h => Or.inr ?_, hmatch⟩
  exact h.resolve_left Bool.false_ne_true

end Matching

section Pruning

variable {workspaceRules : WorkspaceGitIgnoreRules} {text : Bytes} {names : List FileName} {isDirectory : Bool}

lemma ignores_iff_of_not_negated (hplain : ∀ rule ∈ workspaceRules.rules, rule.negated = false) (path : FsPath) :
    workspaceRules.ignores path isDirectory ↔
      workspaceRules.rootPath.lexicallyNormal.empty = false ∧
        ∃ rule ∈ workspaceRules.rules, ruleApplies rule path isDirectory := by
  rw [ignores_eq, Bool.and_eq_true, Bool.not_eq_true']
  refine and_congr_right fun _ => ?_
  cases hlast : (workspaceRules.rules.filter fun rule => ruleApplies rule path isDirectory).getLast? with
  | none =>
    rw [List.getLast?_eq_none_iff, List.filter_eq_nil_iff] at hlast
    simp only [Option.map_none, Option.getD_none, Bool.false_eq_true, false_iff, not_exists, not_and]
    exact hlast
  | some rule =>
    obtain ⟨hrule, happlies⟩ := List.mem_filter.mp (List.mem_of_getLast? hlast)
    simp only [Option.map_some, Option.getD_some, hplain rule hrule, Bool.not_false, true_iff]
    exact ⟨rule, hrule, happlies⟩

def HidesNothing (workspaceRules : WorkspaceGitIgnoreRules) (directory : FsPath) : Prop :=
  workspaceRules.ignores directory true →
    ∀ more : List FileName, more ≠ [] → ∀ isDirectory,
      workspaceRules.ignores (descend directory more) isDirectory

/-- The directory's own ignore file may match it as "." and yet not match what is in it. -/
theorem hidesNothing_iff (workspaceRules : WorkspaceGitIgnoreRules)
    (hplain : ∀ rule ∈ workspaceRules.rules, rule.negated = false) (text : Bytes) (names : List FileName)
    (hne : names ≠ []) :
    HidesNothing workspaceRules (descend (ofBytes text) names) ↔
      workspaceRules.rootPath.lexicallyNormal.empty = true ∨
      (∃ rule ∈ workspaceRules.rules,
        rule.baseDir.lexicallyNormal ≠ (descend (ofBytes text) names).lexicallyNormal ∧
          MatchesBelow rule (descend (ofBytes text) names) true) ∨
      (∀ rule ∈ workspaceRules.rules,
        rule.baseDir.lexicallyNormal = (descend (ofBytes text) names).lexicallyNormal →
          ¬ wildcardMatch rule.pattern dot) ∨
      ∀ more, more ≠ [] → ∃ rule ∈ workspaceRules.rules,
        MatchesBelow rule (descend (descend (ofBytes text) names) more) false := by
  have hempty : (descend (ofBytes text) names).lexicallyNormal.empty = false := by
    rw [lexicallyNormal_descend _ hne]
    simp [empty, hne]
  have hdirectory := @ignores_iff_of_not_negated _ true hplain (descend (ofBytes text) names)
  have hbelow : ∀ more isDirectory,
      workspaceRules.ignores (descend (descend (ofBytes text) names) more) isDirectory ↔
      workspaceRules.rootPath.lexicallyNormal.empty = false ∧ ∃ rule ∈ workspaceRules.rules,
        MatchesBelow rule (descend (descend (ofBytes text) names) more) isDirectory := by
    intro more isDirectory
    rw [ignores_iff_of_not_negated hplain, ← descend_append]
    simp only [ruleApplies_iff_matchesBelow (show names ++ more ≠ [] by simp [hne])]
  simp only [ruleApplies_iff_matchesBelow hne] at hdirectory
  rw [HidesNothing, hdirectory]
  constructor
  · intro h
    by_contra hnot
    simp only [not_or, not_exists, not_forall, not_and, not_not] at hnot
    obtain ⟨hroot, -, ⟨rule, hrule, hbase, hdot⟩, more, hmore, hnone⟩ := hnot
    have hself := (matchesBelow_self hbase hempty).mpr hdot
    have hignored := h ⟨Bool.eq_false_iff.mpr hroot, rule, hrule, hself⟩ more hmore false
    obtain ⟨other, hother, hmatch⟩ := ((hbelow more false).mp hignored).2
    exact hnone other hother hmatch
  · rintro h ⟨hroot, rule, hrule, hmatch⟩ more hmore isDirectory
    refine (hbelow more isDirectory).mpr ⟨hroot, ?_⟩
    rcases h with hroot' | ⟨above, habove, hbase, hmatch⟩ | hdot | hall
    · rw [hroot] at hroot'
      cases hroot'
    · exact ⟨above, habove, matchesBelow_descend hmatch hne hbase hmore⟩
    · by_cases hbase : rule.baseDir.lexicallyNormal = (descend (ofBytes text) names).lexicallyNormal
      · exact absurd ((matchesBelow_self hbase hempty).mp hmatch) (hdot rule hrule hbase)
      · exact ⟨rule, hrule, matchesBelow_descend hmatch hne hbase hmore⟩
    · obtain ⟨other, hother, hmatch⟩ := hall more hmore
      exact ⟨other, hother, hmatch.of_file⟩

def folderRules : WorkspaceGitIgnoreRules where
  rootPath := ofBytes (ascii "/w")
  rules := parseIgnoreRulesContent (ofBytes (ascii "/w")) (ascii "d")

theorem hidesNothing_folderRules : HidesNothing folderRules (descend (ofBytes (ascii "/w")) [folderName]) :=
  (hidesNothing_iff _ (by decide) _ _ (by decide)).mpr (Or.inr (Or.inr (Or.inl (by decide))))

def nestedIgnore : FileSystem where
  read path := if path = ofBytes (ascii "/w/d/.gitignore") then some (ascii ".*") else none
  present _ := true
  lastWriteTime _ := none
  tree path :=
    if path = ofBytes (ascii "/w") then
      some (.directory folderName false (.file gitignoreName (.file textName .done)) .done)
    else none

theorem dot_pattern_hides_file :
    ¬ ∀ (fs : FileSystem) (text : Bytes) (tree : DirectoryTree), fs.tree (ofBytes text) = some tree →
      (∀ rule ∈ (buildFolderRules fs (ofBytes text) tree).rules, rule.negated = false) →
      ∀ names : List FileName, names ≠ [] →
        HidesNothing (buildFolderRules fs (ofBytes text) tree) (descend (ofBytes text) names) := by
  intro h
  have hhidden := h nestedIgnore (ascii "/w") _ rfl (by decide) [folderName] (by decide) (by decide) [textName]
    (by decide) false
  revert hhidden
  decide

end Pruning

end DltxtBridge.Crossref
