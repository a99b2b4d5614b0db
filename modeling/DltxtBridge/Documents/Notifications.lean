import DltxtBridge.Documents.Manager

namespace DltxtBridge.Documents

/-- A notification that throws changes nothing. -/
def tryNotification (codec : Codec) (disk : Disk) (now : ℤ) (m : DocumentManager) :
    Notification → Option DocumentManager
  | .didOpen uri text version => m.openFromLsp codec uri text version
  | .didChange uri version contentChanges =>
    (textChangesFromJson codec contentChanges).map (m.applyLspChanges uri version)
  | .didSave uri (some text) => (m.updateSavedDocumentText codec uri text now).map Prod.snd
  | .didSave uri none => some (m.updateSavedDocumentFromDisk codec disk uri now).2
  | .didClose uri => some (m.closeDocument uri)

lemma handleNotification_eq (codec : Codec) (disk : Disk) (now : ℤ) (m : DocumentManager)
    (notification : Notification) :
    handleNotification codec disk now m notification =
      (tryNotification codec disk now m notification).getD m := by
  cases notification with
  | didOpen | didClose => rfl
  | didChange uri version contentChanges =>
    rw [handleNotification, tryNotification]
    cases textChangesFromJson codec contentChanges <;> rfl
  | didSave uri text => cases text <;> rfl

structure DocumentInvariant (P : Bytes → TextDocument → Prop) : Prop where
  create : ∀ uri encoding version content,
    P uri (TextDocument.create uri encoding (filePathFromUri uri) version content)
  editAll : ∀ uri document version changes, P uri document → P uri (document.editAll version changes)
  setContent : ∀ uri document content version, P uri document → P uri (document.setContent content version)

def DocumentManager.EveryOpen (P : Bytes → TextDocument → Prop) (m : DocumentManager) : Prop :=
  ∀ uri, ∀ document ∈ m.openDocuments.lookup uri, P uri document

namespace DocumentManager.EveryOpen

variable {P : Bytes → TextDocument → Prop} {codec : Codec} {disk : Disk} {now : ℤ} {m : DocumentManager}
  {uri : Bytes} {document : TextDocument}

lemma insert (h : m.EveryOpen P) (hdocument : P uri document) (lastFullSyncAt : FiniteMap Bytes ℤ) :
    EveryOpen P ⟨m.openDocuments.insert uri document, lastFullSyncAt⟩ := by
  intro other found hfound
  rw [Option.mem_def, FiniteMap.lookup_insert] at hfound
  split_ifs at hfound with hsame
  · cases hfound
    rw [hsame]
    exact hdocument
  · exact h other found hfound

lemma openFromLsp (h : m.EveryOpen P) (hP : DocumentInvariant P) {text : Bytes} {version : ℤ}
    {opened : DocumentManager} (hopen : m.openFromLsp codec uri text version = some opened) :
    opened.EveryOpen P := by
  obtain ⟨document, hload, rfl⟩ := Option.map_eq_some_iff.mp hopen
  obtain ⟨content, -, rfl⟩ := Option.map_eq_some_iff.mp hload
  exact h.insert (hP.create uri _ version content) _

lemma change (h : m.EveryOpen P) (hP : DocumentInvariant P) (version : ℤ) (changes : List TextChange) :
    (m.applyLspChanges uri version changes).EveryOpen P := by
  rw [applyLspChanges]
  cases hopen : m.openDocuments.lookup uri with
  | none => exact h
  | some document => exact h.insert (hP.editAll uri document version changes (h uri document hopen)) _

lemma sync (h : m.EveryOpen P) (hP : DocumentInvariant P)
    (hopen : m.openDocuments.lookup uri = some document) (content : Text) :
    (m.syncDocument uri document content now).EveryOpen P := by
  rw [syncDocument]
  apply h.insert
  exact hP.setContent uri document content document.version (h uri document hopen)

lemma saveText (h : m.EveryOpen P) (hP : DocumentInvariant P) {text : Bytes}
    {saved : Bool × DocumentManager}
    (hsave : m.updateSavedDocumentText codec uri text now = some saved) : saved.2.EveryOpen P := by
  rw [updateSavedDocumentText] at hsave
  cases hopen : m.openDocuments.lookup uri with
  | none =>
    simp only [hopen] at hsave
    cases hsave
    exact h
  | some document =>
    simp only [hopen] at hsave
    split_ifs at hsave
    · cases hsave
      exact h
    · obtain ⟨content, -, rfl⟩ := Option.map_eq_some_iff.mp hsave
      exact h.sync hP hopen content

lemma saveFromDisk (h : m.EveryOpen P) (hP : DocumentInvariant P) :
    (m.updateSavedDocumentFromDisk codec disk uri now).2.EveryOpen P := by
  rw [updateSavedDocumentFromDisk]
  cases hopen : m.openDocuments.lookup uri with
  | none => exact h
  | some document =>
    simp only
    split_ifs
    · exact h
    · cases loadFromFile codec disk document.filePath with
      | none => exact h
      | some diskDocument => exact h.sync hP hopen _

lemma close (h : m.EveryOpen P) : (m.closeDocument uri).EveryOpen P := by
  intro other found hfound
  rw [closeDocument, Option.mem_def, FiniteMap.lookup_erase] at hfound
  split_ifs at hfound
  exact h other found hfound

lemma step (h : m.EveryOpen P) (hP : DocumentInvariant P) {notification : Notification}
    {n : DocumentManager} (hstep : tryNotification codec disk now m notification = some n) :
    n.EveryOpen P := by
  cases notification with
  | didOpen uri text version => exact h.openFromLsp hP hstep
  | didChange uri version contentChanges =>
    obtain ⟨changes, -, rfl⟩ := Option.map_eq_some_iff.mp hstep
    exact h.change hP version changes
  | didSave uri text =>
    cases text with
    | none =>
      cases hstep
      exact h.saveFromDisk hP
    | some text =>
      obtain ⟨saved, hsave, rfl⟩ := Option.map_eq_some_iff.mp hstep
      exact h.saveText hP hsave
  | didClose uri =>
    cases hstep
    exact h.close

end DocumentManager.EveryOpen

lemma DocumentInvariant.of_history {P : Bytes → TextDocument → Prop} (hP : DocumentInvariant P)
    (codec : Codec) (history : List (ℤ × Disk × Notification)) :
    (history.foldl (fun m entry => handleNotification codec entry.2.1 entry.1 m entry.2.2)
      ({} : DocumentManager)).EveryOpen P := by
  apply List.foldlRecOn
  · intro uri document hdocument
    cases hdocument
  · intro m hm entry _
    rw [handleNotification_eq]
    cases hstep : tryNotification codec entry.2.1 entry.1 m entry.2.2 with
    | none => exact hm
    | some n => exact hm.step hP hstep

def DocumentManager.Named (m : DocumentManager) : Prop :=
  ∀ uri, ∀ document ∈ m.openDocuments.lookup uri, document.filePath = filePathFromUri uri

lemma documentInvariant_named :
    DocumentInvariant fun uri document => document.filePath = filePathFromUri uri where
  create _ _ _ _ := rfl
  editAll _ document version changes h := (TextDocument.editAll_filePath version document changes).trans h
  setContent _ _ _ _ h := h

lemma documentInvariant_uri :
    DocumentInvariant fun uri document =>
      document.uri = uri ∧ document.filePath = filePathFromUri document.uri where
  create _ _ _ _ := ⟨rfl, rfl⟩
  editAll _ document version changes h := by
    rw [TextDocument.editAll_uri, TextDocument.editAll_filePath]
    exact h
  setContent _ _ _ _ h := h

end DltxtBridge.Documents
