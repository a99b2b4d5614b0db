import DltxtBridge.Documents.Client
import DltxtBridge.Documents.Edit
import DltxtBridge.Documents.Notifications
import DltxtBridge.Library.TransitionSystem

namespace DltxtBridge.Documents

open TransitionSystem

/-- What the editor means by the change, in a text whose line breaks are all "\n". -/
def changeContent (content : Text) (change : TextChange) : Option Text :=
  changeBuffer content ⟨change.range, normalizeNewlines change.text⟩

lemma notMem_of_outside {content : Text} {range : Range} {kept : Text × Text}
    (hcontent : carriageReturn ∉ content) (hkept : outside content range = some kept) :
    carriageReturn ∉ kept.1 ∧ carriageReturn ∉ kept.2 := by
  obtain ⟨-, ⟨rest, hstart⟩, head, hstop⟩ := outside_eq_some hkept
  have hbefore := (cutAt_cutLines hstart).joined
  have hafter := (cutAt_cutLines hstop).joined
  constructor
  · intro h
    rw [← hbefore] at hcontent
    exact hcontent (List.mem_append_left rest h)
  · intro h
    rw [← hafter] at hcontent
    exact hcontent (List.mem_append_right head h)

lemma not_seam_of_notMem {x : Text} (h : carriageReturn ∉ x) (y : Text) : ¬ Seam x y :=
  fun hseam => h (List.mem_of_getLast? hseam.1)

lemma seamFree_of_notMem {content : Text} {change : TextChange} (hcontent : carriageReturn ∉ content)
    (htext : carriageReturn ∉ change.text) : SeamFree content change := by
  intro range _ kept hkept
  exact ⟨not_seam_of_notMem (notMem_of_outside hcontent hkept).1 _, not_seam_of_notMem htext _⟩

lemma carriageReturn_notMem_changeContent {content edited : Text} {change : TextChange}
    (hcontent : carriageReturn ∉ content) (h : changeContent content change = some edited) :
    carriageReturn ∉ edited := by
  have htext := carriageReturn_notMem_normalizeNewlines change.text
  rw [changeContent, changeBuffer] at h
  cases hrange : change.range with
  | none =>
    simp only [hrange] at h
    cases h
    exact htext
  | some range =>
    simp only [hrange] at h
    obtain ⟨kept, hkept, rfl⟩ := Option.map_eq_some_iff.mp h
    obtain ⟨hbefore, hafter⟩ := notMem_of_outside hcontent hkept
    simp only [List.mem_append, not_or]
    exact ⟨⟨hbefore, htext⟩, hafter⟩

namespace TextDocument

def tryEdit (version : ℤ) (document : TextDocument) (change : TextChange) : Option TextDocument :=
  (document.edit change version).toOption

variable {document edited : TextDocument} {version : ℤ} {change : TextChange} {changes : List TextChange}

lemma editAll_eq_advance (version : ℤ) (document : TextDocument) (changes : List TextChange) :
    document.editAll version changes = advance (tryEdit version) document changes := by
  induction changes generalizing document with
  | nil => rfl
  | cons change changes ih =>
    rw [editAll, advance, tryEdit]
    cases document.edit change version with
    | error message => rfl
    | ok edited => exact ih edited

lemma call_of_tryEdit (h : document.tryEdit version change = some edited) :
    document.call (.edit change version) = edited := by
  rw [call, ← tryEdit, h, Option.getD_some]

lemma tryEdit_isSplit (hsplit : IsSplit document.lines) (h : document.tryEdit version change = some edited) :
    IsSplit edited.lines := by
  rw [← call_of_tryEdit h]
  exact isSplit_call hsplit (.edit change version)

lemma tryEdit_version (h : document.tryEdit version change = some edited) : edited.version = version := by
  rw [tryEdit, edit] at h
  cases hrange : change.range with
  | none =>
    simp only [hrange] at h
    cases h
    rfl
  | some range =>
    simp only [hrange] at h
    cases hcheck : checkRange document.lines range with
    | error message =>
      rw [hcheck] at h
      cases h
    | ok =>
      rw [hcheck] at h
      cases h
      rfl

lemma edit_normalizeNewlines (document : TextDocument) (change : TextChange) (version : ℤ) :
    document.edit ⟨change.range, normalizeNewlines change.text⟩ version = document.edit change version := by
  simp only [edit, setContent, splitLines_normalizeNewlines]

lemma map_getContent_tryEdit (hsplit : IsSplit document.lines) (version : ℤ) (change : TextChange) :
    (document.tryEdit version change).map getContent = changeContent document.getContent change := by
  have hcontent : carriageReturn ∉ document.getContent := carriageReturn_notMem_intercalate hsplit
  have hlines : document.lines = splitLines document.getContent := (splitLines_intercalate hsplit).symm
  rw [tryEdit, ← edit_normalizeNewlines]
  cases hchange : changeContent document.getContent change with
  | none =>
    obtain ⟨message, hmessage⟩ := edit_error_of_changeBuffer hchange hlines version
    rw [hmessage]
    rfl
  | some edited =>
    have hseam : SeamFree document.getContent ⟨change.range, normalizeNewlines change.text⟩ :=
      seamFree_of_notMem hcontent (carriageReturn_notMem_normalizeNewlines change.text)
    have hedited := carriageReturn_notMem_changeContent hcontent hchange
    rw [edit_splitLines hseam hchange hlines version]
    change some (List.intercalate [newline] (splitLines edited)) = some edited
    rw [intercalate_splitLines, normalizeNewlines_of_notMem hedited]

lemma map_getContent_run (hsplit : IsSplit document.lines) (version : ℤ) (changes : List TextChange) :
    (run (tryEdit version) document changes).map getContent =
      run changeContent document.getContent changes :=
  run_map_of_invariant (I := fun document => IsSplit document.lines) (fun _ _ _ hs h => tryEdit_isSplit hs h)
    (fun _ change hs => map_getContent_tryEdit hs version change) hsplit changes

lemma isSplit_of_run (hsplit : IsSplit document.lines)
    (h : run (tryEdit version) document changes = some edited) : IsSplit edited.lines :=
  invariant (I := fun document => IsSplit document.lines) (fun _ _ _ => tryEdit_isSplit) hsplit h

lemma version_of_run (hne : changes ≠ []) (h : run (tryEdit version) document changes = some edited) :
    edited.version = version := by
  induction changes generalizing document with
  | nil => exact absurd rfl hne
  | cons change changes ih =>
    rw [run_cons, Option.bind_eq_some_iff] at h
    obtain ⟨next, hnext, h⟩ := h
    cases changes with
    | nil =>
      cases h
      exact tryEdit_version hnext
    | cons later changes => exact ih (List.cons_ne_nil later changes) h

end TextDocument

lemma documentInvariant_isSplit : DocumentInvariant fun _ document => IsSplit document.lines where
  create _ _ _ content := isSplit_splitLines content
  editAll uri document version changes hsplit := by
    rw [TextDocument.editAll_eq_advance]
    exact TextDocument.isSplit_of_run hsplit (run_taken document changes)
  setContent _ _ content _ _ := isSplit_splitLines content

section AllOrNothing

structure AllOrNothing (version : ℤ) (changes : List TextChange) (document edited : TextDocument) : Prop where
  all : ∀ applied ∈ run (TextDocument.tryEdit version) document changes,
    edited = applied ∧ (changes ≠ [] → edited.version = version)
  nothing : run (TextDocument.tryEdit version) document changes = none →
    edited.getContent = document.getContent ∧ edited.version = document.version

/-- Whatever is applied before a change that is refused leaves the text and the version alone. -/
def NothingToUndo (version : ℤ) (changes : List TextChange) (document : TextDocument) : Prop :=
  ∀ earlier refused later content, changes = earlier ++ refused :: later →
    run changeContent document.getContent earlier = some content →
    changeContent content refused = none →
    earlier = [] ∨ content = document.getContent ∧ version = document.version

variable {version : ℤ} {changes earlier later : List TextChange} {refused : TextChange}
  {document stopped : TextDocument}

lemma allOrNothing_of_run {applied : TextDocument}
    (hrun : run (TextDocument.tryEdit version) document changes = some applied) :
    AllOrNothing version changes document (document.editAll version changes) where
  all other hother := by
    rw [Option.mem_def, hrun] at hother
    cases hother
    rw [TextDocument.editAll_eq_advance, advance_of_run hrun]
    exact ⟨rfl, fun hne => TextDocument.version_of_run hne hrun⟩
  nothing hnone := by
    rw [hrun] at hnone
    cases hnone

lemma allOrNothing_of_refused
    (hrun : run (TextDocument.tryEdit version) document earlier = some stopped)
    (hrefused : stopped.tryEdit version refused = none) :
    AllOrNothing version (earlier ++ refused :: later) document
        (document.editAll version (earlier ++ refused :: later)) ↔
      stopped.getContent = document.getContent ∧ stopped.version = document.version := by
  have hstops : document.editAll version (earlier ++ refused :: later) = stopped := by
    rw [TextDocument.editAll_eq_advance, advance_append hrun, advance_of_refused hrefused]
  have hnone : run (TextDocument.tryEdit version) document (earlier ++ refused :: later) = none :=
    run_eq_none_iff.mpr ⟨earlier, refused, later, stopped, rfl, hrun, hrefused⟩
  rw [hstops]
  constructor
  · intro h
    exact h.nothing hnone
  · intro h
    constructor
    · intro applied happlied
      rw [Option.mem_def, hnone] at happlied
      cases happlied
    · exact fun _ => h

lemma refused_content_iff (hsplit : IsSplit document.lines)
    (hrun : run (TextDocument.tryEdit version) document earlier = some stopped) (refused : TextChange) :
    run changeContent document.getContent earlier = some stopped.getContent ∧
      (stopped.tryEdit version refused = none ↔ changeContent stopped.getContent refused = none) := by
  have hstopped := TextDocument.isSplit_of_run hsplit hrun
  constructor
  · rw [← TextDocument.map_getContent_run hsplit version, hrun, Option.map_some]
  · rw [← TextDocument.map_getContent_tryEdit hstopped version, Option.map_eq_none_iff]

lemma allOrNothing_editAll_iff (hsplit : IsSplit document.lines) (version : ℤ) (changes : List TextChange) :
    AllOrNothing version changes document (document.editAll version changes) ↔
      NothingToUndo version changes document := by
  constructor
  · intro h
    rintro earlier refused later content rfl hearlier hrefused
    rw [← TextDocument.map_getContent_run hsplit version, Option.map_eq_some_iff] at hearlier
    obtain ⟨stopped, hrun, rfl⟩ := hearlier
    rw [← (refused_content_iff hsplit hrun refused).2] at hrefused
    obtain ⟨hcontent, hversion⟩ := (allOrNothing_of_refused hrun hrefused).mp h
    by_cases hne : earlier = []
    · exact Or.inl hne
    · right
      rw [← TextDocument.version_of_run hne hrun]
      exact ⟨hcontent, hversion⟩
  · intro h
    cases hrun : run (TextDocument.tryEdit version) document changes with
    | some applied => exact allOrNothing_of_run hrun
    | none =>
      obtain ⟨earlier, refused, later, stopped, rfl, hearlier, hrefused⟩ := run_eq_none_iff.mp hrun
      obtain ⟨hcontent, hflat⟩ := refused_content_iff hsplit hearlier refused
      rw [allOrNothing_of_refused hearlier hrefused]
      by_cases hne : earlier = []
      · subst hne
        cases hearlier
        exact ⟨rfl, rfl⟩
      · obtain ⟨hsame, hversion⟩ :=
          (h earlier refused later _ rfl hcontent (hflat.mp hrefused)).resolve_left hne
        exact ⟨hsame, (TextDocument.version_of_run hne hearlier).trans hversion⟩

theorem apply_lsp_changes_all_or_nothing_iff (codec : Codec) (history : List (ℤ × Disk × Notification))
    (uri : Bytes) (version : ℤ) (changes : List TextChange)
    (hopen : (history.foldl (fun m entry => handleNotification codec entry.2.1 entry.1 m entry.2.2)
      ({} : DocumentManager)).openDocuments.lookup uri = some document) :
    (∃ edited, ((history.foldl (fun m entry => handleNotification codec entry.2.1 entry.1 m entry.2.2)
          ({} : DocumentManager)).applyLspChanges uri version changes).openDocuments.lookup uri = some edited ∧
        AllOrNothing version changes document edited) ↔
      NothingToUndo version changes document := by
  have hsplit := documentInvariant_isSplit.of_history codec history uri document hopen
  rw [DocumentManager.applyLspChanges, hopen]
  simp only [FiniteMap.lookup_insert, if_true, Option.some.injEq, exists_eq_left']
  exact allOrNothing_editAll_iff hsplit version changes

end AllOrNothing

section Examples

def testUri : Bytes := ascii "file:///c:/repo/doc.txt"

def testHistory : List (ℤ × Disk × Notification) :=
  [(0, fun _ => none, .didOpen testUri (ascii "short\ntext") 1)]

def testDocument : TextDocument :=
  TextDocument.create testUri (ascii "client-decoded") (filePathFromUri testUri) 1
    ((ascii "short\ntext").map UInt8.toUInt16)

def outOfBounds : TextChange := ⟨some ⟨⟨0, 99⟩, ⟨0, 99⟩⟩, []⟩

def insertedX : TextChange := ⟨some ⟨⟨0, 0⟩, ⟨0, 0⟩⟩, [120]⟩

lemma open_testDocument :
    (testHistory.foldl (fun m entry => handleNotification asciiCodec entry.2.1 entry.1 m entry.2.2)
      ({} : DocumentManager)).openDocuments.lookup testUri = some testDocument := by
  decide

def sameS : TextChange := ⟨some ⟨⟨0, 0⟩, ⟨0, 1⟩⟩, [115]⟩

lemma nothingToUndo_sameS : NothingToUndo 1 [sameS, outOfBounds] testDocument := by
  intro earlier refused later content hchanges hcontent _
  cases earlier with
  | nil => exact Or.inl rfl
  | cons first earlier =>
    obtain ⟨rfl, hrest⟩ := List.cons.inj hchanges
    cases earlier with
    | nil =>
      have hsame : run changeContent testDocument.getContent [sameS] = some testDocument.getContent := by decide
      rw [hsame] at hcontent
      cases hcontent
      exact Or.inr ⟨rfl, rfl⟩
    | cons second earlier =>
      have hlength := congrArg List.length hrest
      simp at hlength

theorem apply_lsp_changes_all_or_nothing_out_of_bounds :
    run (TextDocument.tryEdit 1) testDocument [sameS] ≠ none ∧
    run (TextDocument.tryEdit 1) testDocument [sameS, outOfBounds] = none ∧
    ∃ edited, ((testHistory.foldl (fun m entry => handleNotification asciiCodec entry.2.1 entry.1 m entry.2.2)
          ({} : DocumentManager)).applyLspChanges testUri 1 [sameS, outOfBounds]).openDocuments.lookup testUri =
        some edited ∧
      AllOrNothing 1 [sameS, outOfBounds] testDocument edited := by
  refine ⟨by decide, by decide, ?_⟩
  exact (apply_lsp_changes_all_or_nothing_iff asciiCodec testHistory testUri 1 [sameS, outOfBounds]
    open_testDocument).mpr nothingToUndo_sameS

theorem refused_change_leaves_insertion :
    ¬ ∀ (codec : Codec) (history : List (ℤ × Disk × Notification)) (uri : Bytes) (version : ℤ)
      (changes : List TextChange) (document : TextDocument),
      (history.foldl (fun m entry => handleNotification codec entry.2.1 entry.1 m entry.2.2)
        ({} : DocumentManager)).openDocuments.lookup uri = some document →
      ∃ edited, ((history.foldl (fun m entry => handleNotification codec entry.2.1 entry.1 m entry.2.2)
          ({} : DocumentManager)).applyLspChanges uri version changes).openDocuments.lookup uri = some edited ∧
        AllOrNothing version changes document edited := by
  intro h
  obtain ⟨edited, hedited, hall⟩ :=
    h asciiCodec testHistory testUri 2 [insertedX, outOfBounds] testDocument open_testDocument
  have hversion : ((testHistory.foldl
      (fun m entry => handleNotification asciiCodec entry.2.1 entry.1 m entry.2.2)
      ({} : DocumentManager)).applyLspChanges testUri 2 [insertedX, outOfBounds]).openDocuments.lookup
        testUri = some (testDocument.editAll 2 [insertedX, outOfBounds]) := by
    decide
  rw [hedited, Option.some.injEq] at hversion
  subst hversion
  exact absurd (hall.nothing (by decide)).1 (by decide)

end Examples

end DltxtBridge.Documents
