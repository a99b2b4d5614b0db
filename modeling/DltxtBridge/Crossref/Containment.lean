import DltxtBridge.Crossref.Ignore
import DltxtBridge.FsPath.Normal

namespace DltxtBridge.FsPath

section Resolved

def resolveStep (names : List Bytes) (name : Bytes) : List Bytes :=
  if name = [] ∨ name = dot then names
  else if name = dotDot then names.tail
  else name :: names

/-- The directories from the root to an absolute path: "." and repeated or trailing separators
stand for nothing, and ".." leaves the last directory. -/
def resolved (p : FsPath) : List Bytes := (p.elements.foldl resolveStep []).reverse

lemma ne_dotDot_of_stackNormal {last : Bytes} {names : List Bytes} (h : StackNormal true (last :: names)) :
    last ≠ dotDot :=
  fun hlast => Bool.noConfusion (h.2.1 hlast).1

lemma normalStep_true {names : List Bytes} (h : StackNormal true names) (name : Bytes) :
    normalStep true names name = resolveStep names name := by
  rw [normalStep.eq_def, resolveStep]
  cases names with
  | nil => rfl
  | cons last names => simp only [if_neg (ne_dotDot_of_stackNormal h), List.tail_cons]

lemma foldl_normalStep_true {names : List Bytes} (h : StackNormal true names) (elements : List Bytes) :
    elements.foldl (normalStep true) names = elements.foldl resolveStep names := by
  induction elements generalizing names with
  | nil => rfl
  | cons name elements ih =>
    have hstep := stackNormal_normalStep h name
    rw [normalStep_true h] at hstep
    rw [List.foldl_cons, List.foldl_cons, normalStep_true h, ih hstep]

variable {p : FsPath}

lemma normalNames_of_absolute (h : p.rootDirectory = true) : p.normalNames = p.resolved := by
  rw [normalNames, resolved, h, @foldl_normalStep_true [] trivial]

def trailing (p : FsPath) : List Bytes := if p.resolved ≠ [] ∧ p.EndsAsDirectory then [[]] else []

lemma components_lexicallyNormal (h : p.rootDirectory = true) :
    p.lexicallyNormal.components = [47] :: (p.resolved ++ p.trailing) := by
  have hempty : p.empty = false := by simp [empty, h]
  have hroot := rootDirectory_lexicallyNormal p
  have hstack := stackNormal_normalNames p
  rw [components, hroot, h, if_pos rfl, trailing, List.singleton_append]
  congr 1
  rw [normalNames_of_absolute h] at hstack
  by_cases hnames : p.resolved = []
  · rw [lexicallyNormal_of_nil hempty ((normalNames_of_absolute h).trans hnames), hnames]
    simp [h]
  · have hnormal : p.normalNames ≠ [] := by rwa [normalNames_of_absolute h]
    have hlast : p.resolved.getLast? ≠ some dotDot := by
      intro hlast
      obtain ⟨names, hsplit⟩ := List.getLast?_eq_some_iff.mp hlast
      rw [hsplit, List.reverse_append, h] at hstack
      exact ne_dotDot_of_stackNormal hstack rfl
    by_cases hdirectory : p.EndsAsDirectory
    · have hkeeps : p.KeepsSeparator := ⟨hdirectory, (normalNames_of_absolute h).symm ▸ hlast⟩
      rw [lexicallyNormal_of_directory hnormal hkeeps, if_pos ⟨hnames, hdirectory⟩, normalNames_of_absolute h]
    · rw [lexicallyNormal_of_name hnormal (fun hkeeps => hdirectory hkeeps.1),
        if_neg (fun hkept => hdirectory hkept.2), normalNames_of_absolute h, List.append_nil]

end Resolved

end DltxtBridge.FsPath

namespace DltxtBridge.Crossref

open FsPath

section Containment

variable {filePath rootPath : FsPath}

lemma pathIsWithinRoot_iff (hfile : filePath.rootDirectory = true) (hroot : rootPath.rootDirectory = true) :
    pathIsWithinRoot filePath rootPath ↔
      rootPath.resolved ++ rootPath.trailing <+: filePath.resolved ++ filePath.trailing := by
  have hempty : rootPath.lexicallyNormal.empty = false := by
    simp [empty, rootDirectory_lexicallyNormal, hroot]
  rw [pathIsWithinRoot, components_lexicallyNormal hfile, components_lexicallyNormal hroot]
  simp [hempty]

lemma prefix_append_trailing {names others : List Bytes} (hnames : [] ∉ names) (p : FsPath) :
    names <+: others ++ p.trailing ↔ names <+: others := by
  rw [trailing]
  split_ifs
  · rw [List.prefix_concat_iff, or_iff_right]
    rintro rfl
    simp at hnames
  · rw [List.append_nil]

lemma concat_prefix_append_trailing {names others : List Bytes} (hothers : [] ∉ others) (p : FsPath) :
    names ++ [[]] <+: others ++ p.trailing ↔ names = others ∧ p.trailing = [[]] := by
  have hinside : ¬ names ++ [[]] <+: others := fun h => hothers (h.subset (by simp))
  rw [trailing]
  split_ifs
  · rw [List.prefix_concat_iff, or_iff_left hinside]
    simp
  · simpa using hinside

lemma nil_notMem_resolved {p : FsPath} (h : p.rootDirectory = true) : [] ∉ p.resolved :=
  normalNames_of_absolute h ▸ nil_notMem_normalNames p

/-- The folder contains what lies below it, if its own spelling does not end as a directory's
does; otherwise only the spellings of the folder itself that do. -/
theorem pathIsWithinRoot_iff_resolved_iff (filePath rootPath : FsPath) (hfile : filePath.rootDirectory = true)
    (hroot : rootPath.rootDirectory = true) :
    (pathIsWithinRoot filePath rootPath ↔ rootPath.resolved <+: filePath.resolved) ↔
      rootPath.resolved = [] ∨ ¬ rootPath.EndsAsDirectory ∨ ¬ rootPath.resolved <+: filePath.resolved ∨
        (filePath.resolved = rootPath.resolved ∧ filePath.EndsAsDirectory) := by
  rw [pathIsWithinRoot_iff hfile hroot]
  by_cases hkept : rootPath.resolved ≠ [] ∧ rootPath.EndsAsDirectory
  · have hnames : filePath.trailing = [[]] ↔ filePath.resolved ≠ [] ∧ filePath.EndsAsDirectory := by
      rw [trailing]
      split_ifs with h <;> simp [h]
    rw [show rootPath.trailing = [[]] from if_pos hkept,
      concat_prefix_append_trailing (nil_notMem_resolved hfile), hnames]
    obtain ⟨hne, hdirectory⟩ := hkept
    constructor
    · intro h
      by_cases hprefix : rootPath.resolved <+: filePath.resolved
      · obtain ⟨hsame, -, hfileDirectory⟩ := h.mpr hprefix
        exact Or.inr (Or.inr (Or.inr ⟨hsame.symm, hfileDirectory⟩))
      · exact Or.inr (Or.inr (Or.inl hprefix))
    · rintro (hnil | hnot | hprefix | ⟨hsame, hfileDirectory⟩)
      · exact absurd hnil hne
      · exact absurd hdirectory hnot
      · exact iff_of_false (fun h => hprefix (h.1 ▸ List.prefix_rfl)) hprefix
      · exact iff_of_true ⟨hsame.symm, hsame ▸ hne, hfileDirectory⟩ (hsame ▸ List.prefix_rfl)
  · have hplain : rootPath.resolved = [] ∨ ¬ rootPath.EndsAsDirectory := by
      rwa [ne_eq, not_and_or, not_not] at hkept
    rw [show rootPath.trailing = [] from if_neg hkept, List.append_nil,
      prefix_append_trailing (nil_notMem_resolved hroot), ← or_assoc]
    exact iff_of_true Iff.rfl (Or.inl hplain)

theorem pathIsWithinRoot_iff_resolved_iff_plain :
    (pathIsWithinRoot (FsPath.ofBytes (ascii "/w/./a.txt")) (FsPath.ofBytes (ascii "/w")) ↔
      (FsPath.ofBytes (ascii "/w")).resolved <+: (FsPath.ofBytes (ascii "/w/./a.txt")).resolved) :=
  (pathIsWithinRoot_iff_resolved_iff _ _ (by decide) (by decide)).mpr (Or.inr (Or.inl (by decide)))

theorem not_within_root_with_separator :
    ¬ ∀ filePath rootPath : FsPath, filePath.rootDirectory = true → rootPath.rootDirectory = true →
      (pathIsWithinRoot filePath rootPath ↔ rootPath.resolved <+: filePath.resolved) := by
  intro h
  have hfolder := h (FsPath.ofBytes (ascii "/w/a.txt")) (FsPath.ofBytes (ascii "/w/")) (by decide) (by decide)
  revert hfolder
  decide

end Containment

end DltxtBridge.Crossref
