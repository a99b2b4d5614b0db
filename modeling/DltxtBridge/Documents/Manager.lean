import DltxtBridge.Documents.Encoding
import DltxtBridge.Documents.Text
import DltxtBridge.Library.FiniteMap

/-! `DocumentManager` and the notifications that drive it. A document whose bytes cannot
be read or decoded raises in the source and leaves the manager as it was. -/

namespace DltxtBridge.Documents

abbrev Disk := FsPath → Option Bytes

def decodeFile (codec : Codec) (bytes : Bytes) : Option Text :=
  (detectEncoding codec bytes).bind (convertToUtf16 codec bytes)

def loadFromFile (codec : Codec) (disk : Disk) (filePath : FsPath) : Option TextDocument := do
  let bytes ← disk filePath
  let encoding ← detectEncoding codec bytes
  let content ← convertToUtf16 codec bytes encoding
  return TextDocument.create (fileUriFromPath filePath) encoding filePath 0 content

def loadFromLsp (codec : Codec) (uri utf8Text : Bytes) (version : ℤ) : Option TextDocument :=
  (utf8ToUtf16 codec utf8Text).map fun content =>
    TextDocument.create uri (ascii "client-decoded") (filePathFromUri uri) version content

/-- In nanoseconds. -/
def savedDocumentSyncDebounceWindow : ℤ := 60 * 10 ^ 9

structure DocumentManager where
  openDocuments : FiniteMap Bytes TextDocument := ∅
  lastFullSyncAt : FiniteMap Bytes ℤ := ∅

def TextDocument.editAll (version : ℤ) : TextDocument → List TextChange → TextDocument
  | document, [] => document
  | document, change :: changes =>
    match document.edit change version with
    | .ok document => editAll version document changes
    | .error _ => document

namespace DocumentManager

def shouldDebounceSavedDocumentSync (m : DocumentManager) (uri : Bytes) (syncTime : ℤ) : Bool :=
  match m.lastFullSyncAt.lookup uri with
  | some lastSync => syncTime - lastSync < savedDocumentSyncDebounceWindow
  | none => false

def upsertOpenDocument (m : DocumentManager) (document : TextDocument) : DocumentManager where
  lastFullSyncAt := m.lastFullSyncAt.erase document.uri
  openDocuments := m.openDocuments.insert document.uri document

def openFromLsp (codec : Codec) (m : DocumentManager) (uri utf8Text : Bytes) (version : ℤ) :
    Option DocumentManager :=
  (loadFromLsp codec uri utf8Text version).map m.upsertOpenDocument

def applyLspChanges (m : DocumentManager) (uri : Bytes) (version : ℤ) (changes : List TextChange) :
    DocumentManager :=
  match m.openDocuments.lookup uri with
  | none => m
  | some document =>
    { m with openDocuments := m.openDocuments.insert uri (document.editAll version changes) }

def syncDocument (m : DocumentManager) (uri : Bytes) (document : TextDocument) (content : Text)
    (syncTime : ℤ) : DocumentManager where
  openDocuments := m.openDocuments.insert uri (document.setContent content document.version)
  lastFullSyncAt := m.lastFullSyncAt.insert uri syncTime

def updateSavedDocumentText (codec : Codec) (m : DocumentManager) (uri utf8Text : Bytes)
    (syncTime : ℤ) : Option (Bool × DocumentManager) :=
  match m.openDocuments.lookup uri with
  | none => some (false, m)
  | some document =>
    if m.shouldDebounceSavedDocumentSync uri syncTime then some (false, m)
    else (utf8ToUtf16 codec utf8Text).map fun content =>
      (true, m.syncDocument uri document content syncTime)

def updateSavedDocumentFromDisk (codec : Codec) (disk : Disk) (m : DocumentManager) (uri : Bytes)
    (syncTime : ℤ) : Bool × DocumentManager :=
  match m.openDocuments.lookup uri with
  | none => (false, m)
  | some document =>
    if m.shouldDebounceSavedDocumentSync uri syncTime then (false, m)
    else
      match loadFromFile codec disk document.filePath with
      | some diskDocument => (true, m.syncDocument uri document diskDocument.getContent syncTime)
      | none => (false, m)

def closeDocument (m : DocumentManager) (uri : Bytes) : DocumentManager where
  openDocuments := m.openDocuments.erase uri
  lastFullSyncAt := m.lastFullSyncAt.erase uri

end DocumentManager

structure ContentChange where
  range : Option Range
  text : Bytes
deriving DecidableEq

def textChangesFromJson (codec : Codec) (items : List ContentChange) : Option (List TextChange) :=
  items.mapM fun item => (utf8ToUtf16 codec item.text).map (TextChange.mk item.range)

inductive Notification
  | didOpen (uri text : Bytes) (version : ℤ)
  | didChange (uri : Bytes) (version : ℤ) (contentChanges : List ContentChange)
  | didSave (uri : Bytes) (text : Option Bytes)
  | didClose (uri : Bytes)
deriving DecidableEq

def handleNotification (codec : Codec) (disk : Disk) (now : ℤ) (m : DocumentManager) :
    Notification → DocumentManager
  | .didOpen uri text version => (m.openFromLsp codec uri text version).getD m
  | .didChange uri version contentChanges =>
    match textChangesFromJson codec contentChanges with
    | some changes => m.applyLspChanges uri version changes
    | none => m
  | .didSave uri (some text) => ((m.updateSavedDocumentText codec uri text now).map Prod.snd).getD m
  | .didSave uri none => (m.updateSavedDocumentFromDisk codec disk uri now).2
  | .didClose uri => m.closeDocument uri

namespace TextDocument

def location (document : TextDocument) : Bytes × FsPath := (document.uri, document.filePath)

lemma edit_location {document edited : TextDocument} {change : TextChange} {version : ℤ}
    (h : document.edit change version = .ok edited) : edited.location = document.location := by
  rw [edit] at h
  cases hrange : change.range with
  | none =>
    simp only [hrange] at h
    cases h
    rfl
  | some range =>
    simp only [hrange] at h
    cases hcheck : checkRange document.lines range with
    | error message => simp [hcheck] at h
    | ok =>
      simp only [hcheck] at h
      cases h
      rfl

lemma editAll_location (version : ℤ) (document : TextDocument) (changes : List TextChange) :
    (document.editAll version changes).location = document.location := by
  induction changes generalizing document with
  | nil => rfl
  | cons change changes ih =>
    rw [editAll]
    cases hedit : document.edit change version with
    | error message => rfl
    | ok edited => exact (ih edited).trans (edit_location hedit)

lemma editAll_filePath (version : ℤ) (document : TextDocument) (changes : List TextChange) :
    (document.editAll version changes).filePath = document.filePath :=
  congrArg Prod.snd (editAll_location version document changes)

lemma editAll_uri (version : ℤ) (document : TextDocument) (changes : List TextChange) :
    (document.editAll version changes).uri = document.uri :=
  congrArg Prod.fst (editAll_location version document changes)

end TextDocument

section Disk

variable {codec : Codec} {disk : Disk} {m : DocumentManager} {uri : Bytes} {document : TextDocument}

lemma loadFromFile_eq_some {filePath : FsPath} {bytes : Bytes} {content : Text}
    (hbytes : disk filePath = some bytes) (hdecode : decodeFile codec bytes = some content) :
    ∃ loaded, loadFromFile codec disk filePath = some loaded ∧ loaded.lines = splitLines content := by
  rw [decodeFile, Option.bind_eq_some_iff] at hdecode
  obtain ⟨encoding, hencoding, hcontent⟩ := hdecode
  refine ⟨TextDocument.create (fileUriFromPath filePath) encoding filePath 0 content, ?_, rfl⟩
  simp [loadFromFile, hbytes, hencoding, hcontent]

lemma filePath_loadFromFile {filePath : FsPath} {loaded : TextDocument}
    (h : loadFromFile codec disk filePath = some loaded) : loaded.filePath = filePath := by
  simp only [loadFromFile, Option.bind_eq_bind, Option.bind_eq_some_iff] at h
  obtain ⟨bytes, -, encoding, -, content, -, h⟩ := h
  cases h
  rfl

lemma updateSavedDocumentFromDisk_of_debounce {now : ℤ}
    (h : m.shouldDebounceSavedDocumentSync uri now = true) :
    (m.updateSavedDocumentFromDisk codec disk uri now).2 = m := by
  rw [DocumentManager.updateSavedDocumentFromDisk]
  cases m.openDocuments.lookup uri with
  | none => rfl
  | some document => simp [h]

lemma updateSavedDocumentFromDisk_of_load {now : ℤ} {diskDocument : TextDocument}
    (hopen : m.openDocuments.lookup uri = some document)
    (hwindow : m.shouldDebounceSavedDocumentSync uri now = false)
    (hload : loadFromFile codec disk document.filePath = some diskDocument) :
    (m.updateSavedDocumentFromDisk codec disk uri now).2 =
      m.syncDocument uri document diskDocument.getContent now := by
  simp [DocumentManager.updateSavedDocumentFromDisk, hopen, hwindow, hload]

end Disk

end DltxtBridge.Documents
