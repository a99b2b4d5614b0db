import DltxtBridge.Crossref.Scan
import DltxtBridge.FsPath.Normal

namespace DltxtBridge.Crossref

open FsPath

section Candidates

def Named (name : Bytes) : Prop := name ≠ [] ∧ 47 ∉ name

def join (names : List Bytes) : Bytes := List.intercalate [47] names

lemma join_concat {names : List Bytes} (h : names ≠ []) (name : Bytes) :
    join (names ++ [name]) = join names ++ 47 :: name := by
  rw [join, Segments.intercalate_append h (List.cons_ne_nil _ _), List.intercalate_singleton, List.append_assoc]
  rfl

lemma takeWhile_reverse_name {name : Bytes} (h : 47 ∉ name) (rest : Bytes) :
    (name.reverse ++ rest).takeWhile (· ≠ 47) = name.reverse ++ rest.takeWhile (· ≠ 47) := by
  apply List.takeWhile_append_of_pos
  intro ch hch
  rw [decide_eq_true_eq]
  rintro rfl
  exact h (List.mem_reverse.mp hch)

lemma baseName_join {names : List Bytes} {name : Bytes} (h : 47 ∉ name) :
    baseName (join (names ++ [name])) = name := by
  rcases eq_or_ne names [] with rfl | hne
  · have htake := takeWhile_reverse_name h []
    rw [List.append_nil, List.takeWhile_nil, List.append_nil] at htake
    rw [List.nil_append, join, List.intercalate_singleton, baseName, htake, List.reverse_reverse]
  · rw [join_concat hne, baseName, List.reverse_append, List.reverse_cons, List.append_assoc,
      List.singleton_append, takeWhile_reverse_name h, List.takeWhile_cons_of_neg (by decide), List.append_nil,
      List.reverse_reverse]

lemma ofBytes_name {name : Bytes} (h : Named name) : ofBytes name = { elements := [name] } := by
  have hnames : ∀ other ∈ [name], Named other := by
    intro other hother
    exact List.mem_singleton.mp hother ▸ h
  have hpath := @ofBytes_genericString { elements := [name] } (List.cons_ne_nil _ _) hnames
  rwa [genericString, if_neg (by simp), List.intercalate_singleton, List.nil_append] at hpath

lemma append_ofBytes {acc : List Bytes} {name : Bytes} (hacc : ∀ other ∈ acc, Named other) (h : Named name) :
    ({ elements := acc } : FsPath).append (ofBytes name) = { elements := acc ++ [name] } := by
  rw [ofBytes_name h]
  refine append_name ((eq_or_ne acc []).imp_right fun hne => ?_) name
  obtain ⟨last, hlast⟩ := Option.isSome_iff_exists.mp (List.getLast?_isSome.mpr hne)
  rw [filename, hlast]
  exact (hacc last (List.mem_of_getLast? hlast)).1

lemma mem_directoryCandidatesFrom {isDirectory : Bool} {names acc : List Bytes} {candidate : Bytes}
    (hacc : ∀ name ∈ acc, Named name) (hnames : ∀ name ∈ names, Named name) :
    candidate ∈ directoryCandidatesFrom isDirectory { elements := acc } names ↔
      ∃ front back, front ≠ [] ∧ front ++ back = names ∧ (back ≠ [] ∨ isDirectory) ∧
        join (acc ++ front) = candidate := by
  induction names generalizing acc with
  | nil =>
    simp only [directoryCandidatesFrom, List.not_mem_nil, false_iff]
    rintro ⟨front, back, hfront, hnil, -⟩
    exact hfront (List.append_eq_nil_iff.mp hnil).1
  | cons name names ih =>
    obtain ⟨hname, hnames⟩ := List.forall_mem_cons.mp hnames
    have hacc' : ∀ other ∈ acc ++ [name], Named other :=
      List.forall_mem_append.mpr ⟨hacc, by simpa using hname⟩
    have hgeneric : ({ elements := acc ++ [name] } : FsPath).genericString = join (acc ++ [name]) := by
      simp [genericString, join]
    rw [directoryCandidatesFrom, append_ofBytes hacc hname, List.mem_append, ih hacc' hnames, hgeneric]
    constructor
    · rintro (hhead | ⟨front, back, hfront, rfl, hlast, rfl⟩)
      · split_ifs at hhead with hlast
        · rw [List.mem_singleton] at hhead
          exact ⟨[name], names, List.cons_ne_nil _ _, rfl, hlast, hhead.symm⟩
        · cases hhead
      · exact ⟨name :: front, back, List.cons_ne_nil _ _, rfl, hlast, by simp⟩
    · rintro ⟨front, back, hfront, hsplit, hlast, rfl⟩
      obtain ⟨first, front, rfl⟩ := List.exists_cons_of_ne_nil hfront
      obtain ⟨rfl, rfl⟩ := List.cons.inj hsplit
      rcases eq_or_ne front [] with rfl | hne
      · left
        rw [if_pos (by exact hlast)]
        exact List.mem_singleton_self _
      · exact Or.inr ⟨front, back, hne, rfl, hlast, by simp⟩

def subject (rule : GitIgnoreRule) (front : List Bytes) : Bytes :=
  if rule.basenameOnly then front.getLast?.getD [] else join front

lemma matchesRule_iff {rule : GitIgnoreRule} {relativePath : FsPath} {isDirectory : Bool} {names : List Bytes}
    (hnormal : relativePath.lexicallyNormal = { elements := names }) (hne : names ≠ [])
    (hnames : ∀ name ∈ names, Named name) :
    matchesRule rule relativePath isDirectory ↔
      ∃ front back, front ≠ [] ∧ front ++ back = names ∧ (back ≠ [] ∨ isDirectory ∨ rule.directoryOnly = false) ∧
        wildcardMatch rule.pattern (subject rule front) := by
  have hfull : relativePath.lexicallyNormal.genericString = join names := by
    simp [hnormal, genericString, join]
  have hcandidates : ∀ candidate, candidate ∈ buildDirectoryCandidates relativePath isDirectory ↔
      ∃ front back, front ≠ [] ∧ front ++ back = names ∧ (back ≠ [] ∨ isDirectory) ∧ join front = candidate := by
    intro candidate
    have hcomponents : relativePath.lexicallyNormal.components = names := by
      simp [hnormal, components]
    rw [buildDirectoryCandidates, hcomponents]
    exact @mem_directoryCandidatesFrom _ _ [] _ (by simp) hnames
  have hsubject : ∀ front back, front ≠ [] → front ++ back = names →
      (if rule.basenameOnly then baseName (join front) else join front) = subject rule front := by
    rintro front back hfront rfl
    obtain ⟨init, last, rfl⟩ := (List.eq_nil_or_concat' front).resolve_left hfront
    rw [subject, baseName_join (hnames last (by simp)).2, List.getLast?_concat, Option.getD_some]
  have hmatches : matchesRule rule relativePath isDirectory ↔
      (∃ candidate ∈ buildDirectoryCandidates relativePath isDirectory,
        wildcardMatch rule.pattern (if rule.basenameOnly then baseName candidate else candidate)) ∨
      (rule.directoryOnly = false ∧
        wildcardMatch rule.pattern (if rule.basenameOnly then baseName (join names) else join names)) := by
    rw [matchesRule, hfull]
    cases rule.basenameOnly <;> simp
  rw [hmatches]
  constructor
  · rintro (⟨candidate, hcandidate, hmatch⟩ | ⟨hdirectory, hmatch⟩)
    · obtain ⟨front, back, hfront, hsplit, hlast, rfl⟩ := (hcandidates candidate).mp hcandidate
      rw [hsubject front back hfront hsplit] at hmatch
      exact ⟨front, back, hfront, hsplit, hlast.imp_right Or.inl, hmatch⟩
    · rw [hsubject names [] hne (List.append_nil _)] at hmatch
      exact ⟨names, [], hne, List.append_nil _, Or.inr (Or.inr hdirectory), hmatch⟩
  · rintro ⟨front, back, hfront, hsplit, hlast, hmatch⟩
    rw [← hsubject front back hfront hsplit] at hmatch
    by_cases hcounts : back ≠ [] ∨ isDirectory
    · exact Or.inl ⟨join front, (hcandidates _).mpr ⟨front, back, hfront, hsplit, hcounts, rfl⟩, hmatch⟩
    · obtain ⟨hback, hdirectory⟩ := not_or.mp hcounts
      rw [not_not.mp hback, List.append_nil] at hsplit
      exact Or.inr ⟨(hlast.resolve_left hback).resolve_left hdirectory, hsplit ▸ hmatch⟩

end Candidates

section Rules

def ruleApplies (rule : GitIgnoreRule) (path : FsPath) (isDirectory : Bool) : Bool :=
  let normalizedPath := path.lexicallyNormal
  let normalizedBase := rule.baseDir.lexicallyNormal
  let relativePath := normalizedPath.lexicallyRelative normalizedBase
  !(normalizedBase.empty || !pathIsWithinRoot normalizedPath normalizedBase) && !relativePath.empty &&
    matchesRule rule relativePath isDirectory

lemma foldl_last {α : Type} (applies : α → Bool) (verdict : α → Bool) (rules : List α) (ignored : Bool) :
    rules.foldl (fun ignored rule => if applies rule then verdict rule else ignored) ignored =
      ((rules.filter applies).getLast?.map verdict).getD ignored := by
  induction rules generalizing ignored with
  | nil => rfl
  | cons rule rules ih =>
    rw [List.foldl_cons, ih]
    cases happlies : applies rule with
    | true =>
      rw [List.filter_cons_of_pos happlies, List.getLast?_cons, if_pos rfl]
      cases (rules.filter applies).getLast? <;> rfl
    | false => rw [List.filter_cons_of_neg (by simp [happlies])]; rfl

lemma ignores_eq (workspaceRules : WorkspaceGitIgnoreRules) (path : FsPath) (isDirectory : Bool) :
    workspaceRules.ignores path isDirectory =
      (!workspaceRules.rootPath.lexicallyNormal.empty &&
        (((workspaceRules.rules.filter fun rule => ruleApplies rule path isDirectory).getLast?.map
          fun rule => !rule.negated).getD false)) := by
  rw [WorkspaceGitIgnoreRules.ignores, ← foldl_last]
  cases workspaceRules.rootPath.lexicallyNormal.empty with
  | true => rfl
  | false =>
    simp only [Bool.false_eq_true, if_false, Bool.not_false, Bool.true_and]
    congr 1
    funext ignored rule
    simp only [ruleApplies]
    split_ifs <;> simp_all

variable {rule : GitIgnoreRule} {path : FsPath} {isDirectory : Bool}

def below (rest : List Bytes) : FsPath := { elements := if rest = [] then [dot] else rest }

lemma components_prefix_iff {p q : FsPath} (hroot : p.rootDirectory = q.rootDirectory) :
    q.components <+: p.components ↔ q.elements <+: p.elements := by
  rw [components, components, hroot, List.prefix_append_right_inj]

lemma lexicallyRelative_below (base : FsPath) {rest : List Bytes} (hrest : [] ∉ rest) :
    ({ base with elements := base.elements ++ rest } : FsPath).lexicallyRelative base = below rest := by
  rcases eq_or_ne rest [] with rfl | hne
  · rw [List.append_nil]
    exact lexicallyRelative_self base
  · rw [lexicallyRelative_append base hne hrest, below, if_neg hne]

lemma ruleApplies_iff (hnil : [] ∉ path.lexicallyNormal.elements) :
    ruleApplies rule path isDirectory ↔
      rule.baseDir.lexicallyNormal.empty = false ∧
        ∃ rest, path.lexicallyNormal = { rule.baseDir.lexicallyNormal with
            elements := rule.baseDir.lexicallyNormal.elements ++ rest } ∧
          matchesRule rule (below rest) isDirectory := by
  have hwithin : pathIsWithinRoot path.lexicallyNormal rule.baseDir.lexicallyNormal ↔
      rule.baseDir.lexicallyNormal.empty = false ∧
        rule.baseDir.lexicallyNormal.components <+: path.lexicallyNormal.components := by
    simp [pathIsWithinRoot, lexicallyNormal_lexicallyNormal]
  simp only [ruleApplies]
  generalize path.lexicallyNormal = normalizedPath at *
  generalize rule.baseDir.lexicallyNormal = normalizedBase at *
  by_cases hroot : normalizedPath.rootDirectory = normalizedBase.rootDirectory
  · rw [components_prefix_iff hroot] at hwithin
    constructor
    · intro happlies
      simp only [Bool.and_eq_true, Bool.not_eq_true', Bool.or_eq_false_iff, Bool.not_eq_false'] at happlies
      obtain ⟨⟨⟨hempty, hinside⟩, -⟩, hmatch⟩ := happlies
      obtain ⟨rest, hrest⟩ := (hwithin.mp hinside).2
      have hpath : normalizedPath = { normalizedBase with elements := normalizedBase.elements ++ rest } := by
        rw [hrest, ← hroot]
      have hnames : [] ∉ rest := fun h => hnil (hrest ▸ List.mem_append_right _ h)
      rw [hpath, lexicallyRelative_below _ hnames] at hmatch
      exact ⟨hempty, rest, hpath, hmatch⟩
    · rintro ⟨hempty, rest, hpath, hmatch⟩
      have hnames : [] ∉ rest := fun h => hnil (by rw [hpath]; exact List.mem_append_right _ h)
      have hinside := hwithin.mpr ⟨hempty, by rw [hpath]; exact List.prefix_append _ _⟩
      have hrelative : (normalizedPath.lexicallyRelative normalizedBase) = below rest := by
        rw [hpath, lexicallyRelative_below _ hnames]
      have hbelow : (below rest).empty = false := by
        rw [below]
        split_ifs with hrest <;> simp [empty, hrest]
      simp [hempty, hinside, hrelative, hmatch, hbelow]
  · have hrelative : normalizedPath.lexicallyRelative normalizedBase = {} := by
      rw [lexicallyRelative, if_pos hroot]
    constructor
    · intro happlies
      simp [hrelative, empty] at happlies
    · rintro ⟨-, rest, hpath, -⟩
      exact absurd (congrArg FsPath.rootDirectory hpath) hroot

end Rules

section Descend

def descend (directory : FsPath) (names : List FileName) : FsPath := names.foldl child directory

def stem (directory : FsPath) : List Bytes :=
  if directory.filename = [] then directory.elements.dropLast else directory.elements

lemma FileName.plain (name : FileName) : Plain name.bytes := ⟨name.ne_nil, name.ne_dot, name.ne_dotDot⟩

lemma FileName.named (name : FileName) : Named name.bytes := ⟨name.ne_nil, name.no_separator⟩

lemma forall_mem_bytes {P : Bytes → Prop} (h : ∀ name : FileName, P name.bytes) (names : List FileName) :
    ∀ name ∈ names.map FileName.bytes, P name :=
  List.forall_mem_map.mpr fun name _ => h name

variable {directory : FsPath} {names : List FileName} {isDirectory : Bool}

lemma stem_child (directory : FsPath) (name : FileName) :
    stem (child directory name) = stem directory ++ [name.bytes] := by
  rw [stem, filename_child, if_neg name.ne_nil, child_eq]
  rfl

lemma descend_eq (directory : FsPath) (hne : names ≠ []) :
    descend directory names = { directory with elements := stem directory ++ names.map FileName.bytes } := by
  induction names generalizing directory with
  | nil => exact absurd rfl hne
  | cons name names ih =>
    rcases eq_or_ne names [] with rfl | hrest
    · exact child_eq directory name
    · change descend (child directory name) names = _
      rw [ih _ hrest, stem_child, child_eq]
      simp

lemma normalNames_stem (directory : FsPath) :
    ({ directory with elements := stem directory } : FsPath).normalNames = directory.normalNames := by
  rw [stem]
  split_ifs with h
  · exact normalNames_dropLast directory h
  · rfl

lemma normalNames_descend (directory : FsPath) (hne : names ≠ []) :
    (descend directory names).normalNames = directory.normalNames ++ names.map FileName.bytes := by
  rw [descend_eq directory hne, ← normalNames_stem directory]
  exact normalNames_append_plain { directory with elements := stem directory }
    (forall_mem_bytes FileName.plain names)

lemma lexicallyNormal_descend (directory : FsPath) (hne : names ≠ []) :
    (descend directory names).lexicallyNormal =
      { directory with elements := directory.normalNames ++ names.map FileName.bytes } := by
  rw [descend_eq directory hne, ← normalNames_stem directory]
  exact lexicallyNormal_append_plain { directory with elements := stem directory } (by simpa using hne)
    (forall_mem_bytes FileName.plain names)

lemma nil_notMem_descend (directory : FsPath) (hne : names ≠ []) :
    [] ∉ (descend directory names).lexicallyNormal.elements := by
  rw [lexicallyNormal_descend directory hne, List.mem_append, not_or]
  exact ⟨nil_notMem_normalNames directory, fun h => forall_mem_bytes FileName.plain names [] h |>.1 rfl⟩

/-- The normal form of the directory is made of its names alone: it neither ends in a separator
nor is it ".". Only then does the directory contain what it holds. -/
def Reaches (directory : FsPath) : Prop :=
  directory.lexicallyNormal.empty = false ∧ directory.lexicallyNormal.elements = directory.normalNames

instance (directory : FsPath) : Decidable (Reaches directory) := inferInstanceAs (Decidable (_ ∧ _))

lemma reaches_of_append {rest : List Bytes} (hempty : directory.lexicallyNormal.empty = false)
    (hnames : names ≠ []) (h : directory.lexicallyNormal.elements ++ rest =
      directory.normalNames ++ names.map FileName.bytes) : Reaches directory := by
  refine ⟨hempty, ?_⟩
  obtain ⟨name, names, rfl⟩ := List.exists_cons_of_ne_nil hnames
  have hplain := name.plain
  have hdirectory : directory.empty = false := by
    by_contra hnot
    rw [Bool.not_eq_false] at hnot
    rw [lexicallyNormal_of_empty hnot, hnot] at hempty
    cases hempty
  by_cases hnil : directory.normalNames = []
  · rw [lexicallyNormal_of_nil hdirectory hnil, hnil] at h ⊢
    cases hroot : directory.rootDirectory with
    | true => simp
    | false =>
      simp only [hroot, Bool.false_eq_true, if_false, List.nil_append, List.map_cons] at h
      exact absurd (List.cons.inj h).1.symm hplain.2.1
  · by_cases hkeeps : directory.KeepsSeparator
    · rw [lexicallyNormal_of_directory hnil hkeeps, List.append_assoc, List.append_cancel_left_eq] at h
      exact absurd (List.cons.inj h).1.symm hplain.1
    · rw [lexicallyNormal_of_name hnil hkeeps]

lemma lexicallyNormal_below {rest : List Bytes} (hne : rest ≠ []) (hplain : ∀ name ∈ rest, Plain name) :
    (below rest).lexicallyNormal = { elements := rest } := by
  rw [below, if_neg hne]
  exact lexicallyNormal_append_plain {} hne hplain

lemma ruleApplies_descend {rule : GitIgnoreRule} (hne : names ≠ []) :
    ruleApplies rule (descend rule.baseDir names) isDirectory ↔
      Reaches rule.baseDir ∧ ∃ front back, front ≠ [] ∧ front ++ back = names.map FileName.bytes ∧
        (back ≠ [] ∨ isDirectory ∨ rule.directoryOnly = false) ∧
        wildcardMatch rule.pattern (subject rule front) := by
  have hbytes : names.map FileName.bytes ≠ [] := by simpa using hne
  rw [← matchesRule_iff (lexicallyNormal_below hbytes (forall_mem_bytes FileName.plain names)) hbytes
    (forall_mem_bytes FileName.named names), ruleApplies_iff (nil_notMem_descend _ hne),
    lexicallyNormal_descend _ hne]
  constructor
  · rintro ⟨hempty, rest, hpath, hmatch⟩
    have helements := congrArg FsPath.elements hpath
    have hreaches := reaches_of_append hempty hne helements.symm
    rw [hreaches.2, List.append_cancel_left_eq] at helements
    exact ⟨hreaches, helements ▸ hmatch⟩
  · rintro ⟨hreaches, hmatch⟩
    refine ⟨hreaches.1, _, ?_, hmatch⟩
    simp only [hreaches.2, rootDirectory_lexicallyNormal]

def gitignoreName : FileName where
  bytes := ascii ".gitignore"
  ne_nil := by decide
  no_separator := by decide
  ne_dot := by decide
  ne_dotDot := by decide

def folderName : FileName where
  bytes := ascii "d"
  ne_nil := by decide
  no_separator := by decide
  ne_dot := by decide
  ne_dotDot := by decide

end Descend

end DltxtBridge.Crossref
