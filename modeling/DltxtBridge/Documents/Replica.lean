import DltxtBridge.Documents.Client
import DltxtBridge.Documents.Manager
import DltxtBridge.Library.TransitionSystem

/-! One document shared by an editor and the bridge: the editor's buffer, the file, the
notifications on their way, and the bridge's copy. -/

namespace DltxtBridge.Documents

open TransitionSystem

structure Replica where
  buffer : Text
  version : ℤ
  disk : Disk
  queue : List Notification
  manager : DocumentManager

structure ClientChange where
  change : TextChange
  payload : Bytes
deriving DecidableEq

namespace ClientChange

def Encoded (codec : Codec) (c : ClientChange) : Prop :=
  codec.iconv utf8 utf16le c.payload = some (utf16leBytes c.change.text)

instance (codec : Codec) : DecidablePred (Encoded codec) := fun _ => inferInstanceAs (Decidable (_ = _))

def item (c : ClientChange) : ContentChange := ⟨c.change.range, c.payload⟩

end ClientChange

def changeBufferAll (buffer : Text) (changes : List ClientChange) : Option Text :=
  changes.foldlM (fun buffer c => changeBuffer buffer c.change) buffer

namespace Replica

inductive Event
  | edit (changes : List ClientChange)
  | save (bytes : Bytes)
  | process (now : ℤ)

/-- A save writes bytes that decode to the buffer; `now` is the bridge's clock. -/
def step (codec : Codec) (uri : Bytes) (s : Replica) : Event → Option Replica
  | .edit changes =>
    if ∀ c ∈ changes, c.Encoded codec then
      (changeBufferAll s.buffer changes).map fun buffer =>
        { s with
          buffer := buffer
          version := s.version + 1
          queue := s.queue ++ [.didChange uri (s.version + 1) (changes.map ClientChange.item)] }
    else none
  | .save bytes =>
    if decodeFile codec bytes = some s.buffer then
      some { s with
        disk := Function.update s.disk (filePathFromUri uri) (some bytes)
        queue := s.queue ++ [.didSave uri none] }
    else none
  | .process now =>
    match s.queue with
    | [] => none
    | notification :: queue =>
      some { s with
        queue := queue
        manager := handleNotification codec s.disk now s.manager notification }

def isChange : Notification → Bool
  | .didChange _ _ _ => true
  | _ => false

def isSave : Notification → Bool
  | .didSave _ _ => true
  | _ => false

def staleSave : List Notification → Bool
  | [] => false
  | notification :: queue => if isChange notification then queue.any isSave else staleSave queue

def CarefulChanges (buffer : Text) : List ClientChange → Prop
  | [] => True
  | c :: changes => SeamFree buffer c.change ∧ c.change.text.head? ≠ some 0xFEFF ∧
    ∀ edited ∈ changeBuffer buffer c.change, CarefulChanges edited changes

/-- No edit joins a "\r" to a "\n" or starts with a byte order mark, and no save is
synchronised while the file on disk is ahead of it. -/
def Careful (uri : Bytes) (s : Replica) : Event → Prop
  | .edit changes => CarefulChanges s.buffer changes
  | .save _ => True
  | .process now => s.queue.head? = some (.didSave uri none) →
    s.manager.shouldDebounceSavedDocumentSync uri now = false → staleSave s.queue.tail = false

instance decidableCarefulChanges :
    ∀ (buffer : Text) (changes : List ClientChange), Decidable (CarefulChanges buffer changes)
  | _, [] => isTrue trivial
  | buffer, c :: changes =>
    have : DecidablePred fun edited => CarefulChanges edited changes :=
      fun edited => decidableCarefulChanges edited changes
    inferInstanceAs (Decidable (SeamFree buffer c.change ∧ c.change.text.head? ≠ some 0xFEFF ∧
      ∀ edited ∈ changeBuffer buffer c.change, CarefulChanges edited changes))

instance (uri : Bytes) (s : Replica) : DecidablePred (Careful uri s)
  | .edit changes => decidableCarefulChanges s.buffer changes
  | .save _ => isTrue trivial
  | .process _ => inferInstanceAs (Decidable (_ → _ → _))

section Replay

variable (codec : Codec)

def replay (document : TextDocument) : Notification → TextDocument
  | .didChange _ version items =>
    match textChangesFromJson codec items with
    | some changes => document.editAll version changes
    | none => document
  | _ => document

def atLastSave (document : TextDocument) : List Notification → Option TextDocument
  | [] => none
  | notification :: queue => (atLastSave (replay codec document notification) queue).or
    (if isSave notification then some document else none)

variable {codec}

lemma replay_of_not_change {notification : Notification} (h : isChange notification = false)
    (document : TextDocument) : replay codec document notification = document := by
  cases notification with
  | didChange uri version items => cases h
  | didOpen | didSave | didClose => rfl

lemma atLastSave_cons_of_not_save {notification : Notification} (h : isSave notification = false)
    (document : TextDocument) (queue : List Notification) :
    atLastSave codec document (notification :: queue) =
      atLastSave codec (replay codec document notification) queue := by
  rw [atLastSave, h, if_neg Bool.false_ne_true, Option.or_none]

lemma atLastSave_concat_save (document : TextDocument) (queue : List Notification)
    {notification : Notification} (h : isSave notification = true) :
    atLastSave codec document (queue ++ [notification]) =
      some (queue.foldl (replay codec) document) := by
  induction queue generalizing document with
  | nil => rw [List.nil_append, atLastSave, atLastSave, if_pos h, Option.none_or, List.foldl_nil]
  | cons first queue ih => rw [List.cons_append, atLastSave, ih, Option.some_or, List.foldl_cons]

lemma atLastSave_concat_of_not_save (document : TextDocument) (queue : List Notification)
    {notification : Notification} (h : isSave notification = false) :
    atLastSave codec document (queue ++ [notification]) = atLastSave codec document queue := by
  induction queue generalizing document with
  | nil => rw [List.nil_append, atLastSave_cons_of_not_save h, atLastSave, atLastSave]
  | cons first queue ih => rw [List.cons_append, atLastSave, ih, atLastSave]

lemma atLastSave_eq_none {document : TextDocument} {queue : List Notification}
    (h : queue.any isSave = false) : atLastSave codec document queue = none := by
  induction queue generalizing document with
  | nil => rfl
  | cons notification queue ih =>
    rw [List.any_cons, Bool.or_eq_false_iff] at h
    rw [atLastSave_cons_of_not_save h.1, ih h.2]

lemma atLastSave_of_not_stale {document saved : TextDocument} {queue : List Notification}
    (h : staleSave queue = false) (hsaved : saved ∈ atLastSave codec document queue) :
    saved = document := by
  induction queue with
  | nil => cases hsaved
  | cons notification queue ih =>
    cases hchange : isChange notification with
    | true =>
      rw [staleSave, if_pos hchange] at h
      have hsave : isSave notification = false := by
        cases notification with
        | didChange uri version items => rfl
        | didOpen | didSave | didClose => cases hchange
      rw [atLastSave_cons_of_not_save hsave, atLastSave_eq_none h] at hsaved
      cases hsaved
    | false =>
      rw [staleSave, if_neg (by simp [hchange])] at h
      rw [atLastSave, replay_of_not_change hchange, Option.mem_def, Option.or_eq_some_iff] at hsaved
      rcases hsaved with hlater | ⟨-, hnow⟩
      · exact ih h hlater
      · split_ifs at hnow
        · exact (Option.some.inj hnow).symm

lemma mem_atLastSave_cons {document saved : TextDocument} {queue : List Notification}
    {notification : Notification} (h : isChange notification = false)
    (hsaved : saved ∈ atLastSave codec document queue) :
    saved ∈ atLastSave codec document (notification :: queue) := by
  rw [atLastSave, replay_of_not_change h, hsaved, Option.some_or]
  exact rfl

lemma textChangesFromJson_items {changes : List ClientChange} {buffer edited : Text}
    (hencoded : ∀ c ∈ changes, c.Encoded codec) (hcareful : CarefulChanges buffer changes)
    (hchange : changeBufferAll buffer changes = some edited) :
    textChangesFromJson codec (changes.map ClientChange.item) = some (changes.map ClientChange.change) := by
  induction changes generalizing buffer with
  | nil => rfl
  | cons c changes ih =>
    rw [changeBufferAll, List.foldlM_cons, Option.bind_eq_bind, Option.bind_eq_some_iff] at hchange
    obtain ⟨next, hnext, hchange⟩ := hchange
    obtain ⟨-, hmark, hrest⟩ := hcareful
    have htext := utf8ToUtf16_eq_some (hencoded c List.mem_cons_self) hmark
    have hih := ih (fun d hd => hencoded d (List.mem_cons_of_mem c hd)) (hrest next hnext) hchange
    rw [textChangesFromJson] at hih ⊢
    simp [ClientChange.item, htext, hih]

lemma editAll_splitLines {changes : List ClientChange} {buffer edited : Text}
    (hcareful : CarefulChanges buffer changes)
    (hchange : changeBufferAll buffer changes = some edited) {document : TextDocument}
    (hlines : document.lines = splitLines buffer) (version : ℤ) :
    (document.editAll version (changes.map ClientChange.change)).lines = splitLines edited := by
  induction changes generalizing buffer document with
  | nil =>
    cases hchange
    exact hlines
  | cons c changes ih =>
    rw [changeBufferAll, List.foldlM_cons, Option.bind_eq_bind, Option.bind_eq_some_iff] at hchange
    obtain ⟨next, hnext, hchange⟩ := hchange
    obtain ⟨hseam, -, hrest⟩ := hcareful
    rw [List.map_cons, TextDocument.editAll, edit_splitLines hseam hnext hlines version]
    exact ih (hrest next hnext) hchange rfl

end Replay

/-- The bridge's copy, brought up to date with the queue, has the lines of the buffer; the
file has the lines the copy will have at the last waiting save. -/
structure Synced (codec : Codec) (uri : Bytes) (s : Replica) (document : TextDocument) : Prop where
  opened : s.manager.openDocuments.lookup uri = some document
  filePath : document.filePath = filePathFromUri uri
  queued : ∀ notification ∈ s.queue,
    (∃ version items, notification = .didChange uri version items) ∨ notification = .didSave uri none
  replayed : (s.queue.foldl (replay codec) document).lines = splitLines s.buffer
  saved : ∀ saved ∈ atLastSave codec document s.queue, ∃ bytes content,
    s.disk (filePathFromUri uri) = some bytes ∧ decodeFile codec bytes = some content ∧
      splitLines content = saved.lines

namespace Synced

variable {codec : Codec} {uri : Bytes} {s : Replica} {document : TextDocument}

lemma edit (h : Synced codec uri s document) {changes : List ClientChange} {edited : Text}
    (hencoded : ∀ c ∈ changes, c.Encoded codec) (hcareful : CarefulChanges s.buffer changes)
    (hchange : changeBufferAll s.buffer changes = some edited) (version : ℤ) :
    Synced codec uri
      { s with
        buffer := edited
        version := version
        queue := s.queue ++ [.didChange uri version (changes.map ClientChange.item)] } document where
  opened := h.opened
  filePath := h.filePath
  queued notification hn := by
    rw [List.mem_append, List.mem_singleton] at hn
    rcases hn with hn | rfl
    · exact h.queued notification hn
    · exact Or.inl ⟨version, _, rfl⟩
  replayed := by
    rw [List.foldl_append, List.foldl_cons, List.foldl_nil, replay,
      textChangesFromJson_items hencoded hcareful hchange]
    exact editAll_splitLines hcareful hchange h.replayed version
  saved saved hs := by
    rw [atLastSave_concat_of_not_save document s.queue rfl] at hs
    exact h.saved saved hs

lemma save (h : Synced codec uri s document) {bytes : Bytes}
    (hbytes : decodeFile codec bytes = some s.buffer) :
    Synced codec uri
      { s with
        disk := Function.update s.disk (filePathFromUri uri) (some bytes)
        queue := s.queue ++ [.didSave uri none] } document where
  opened := h.opened
  filePath := h.filePath
  queued notification hn := by
    rw [List.mem_append, List.mem_singleton] at hn
    rcases hn with hn | rfl
    · exact h.queued notification hn
    · exact Or.inr rfl
  replayed := by
    rw [List.foldl_append, List.foldl_cons, List.foldl_nil, replay_of_not_change rfl]
    exact h.replayed
  saved saved hs := by
    rw [atLastSave_concat_save document s.queue rfl] at hs
    cases hs
    exact ⟨bytes, s.buffer, Function.update_self _ _ _, hbytes, h.replayed.symm⟩

lemma processChange (h : Synced codec uri s document) {version : ℤ} {items : List ContentChange}
    {queue : List Notification} (hqueue : s.queue = .didChange uri version items :: queue) (now : ℤ) :
    Synced codec uri
      { s with
        queue := queue
        manager := handleNotification codec s.disk now s.manager (.didChange uri version items) }
      (replay codec document (.didChange uri version items)) where
  opened := by
    rw [handleNotification, replay]
    cases textChangesFromJson codec items with
    | none => exact h.opened
    | some changes =>
      simp only [DocumentManager.applyLspChanges, h.opened, FiniteMap.lookup_insert, if_pos]
  filePath := by
    rw [replay]
    cases textChangesFromJson codec items with
    | none => exact h.filePath
    | some changes => exact (TextDocument.editAll_filePath version document changes).trans h.filePath
  queued notification hn := h.queued notification (hqueue ▸ List.mem_cons_of_mem _ hn)
  replayed := by
    have hreplayed := h.replayed
    rwa [hqueue, List.foldl_cons] at hreplayed
  saved saved hs := by
    apply h.saved saved
    rwa [hqueue, atLastSave_cons_of_not_save rfl]

lemma processSave (h : Synced codec uri s document) {queue : List Notification}
    (hqueue : s.queue = .didSave uri none :: queue) {now : ℤ}
    (hcareful : s.manager.shouldDebounceSavedDocumentSync uri now = false → staleSave queue = false) :
    Synced codec uri
      { s with
        queue := queue
        manager := handleNotification codec s.disk now s.manager (.didSave uri none) } document where
  opened := by
    rw [handleNotification]
    cases hwindow : s.manager.shouldDebounceSavedDocumentSync uri now with
    | true => rw [updateSavedDocumentFromDisk_of_debounce hwindow, h.opened]
    | false =>
      have hsaved : document ∈ atLastSave codec document s.queue := by
        rw [hqueue, atLastSave, replay_of_not_change rfl]
        cases hlater : atLastSave codec document queue with
        | none => rfl
        | some later => rw [atLastSave_of_not_stale (hcareful hwindow) hlater]; rfl
      obtain ⟨bytes, content, hdisk, hdecode, hlines⟩ := h.saved document hsaved
      rw [← h.filePath] at hdisk
      obtain ⟨loaded, hload, hloaded⟩ := loadFromFile_eq_some hdisk hdecode
      have hsame : document.setContent loaded.getContent document.version = document := by
        rw [TextDocument.setContent, TextDocument.getContent, hloaded, intercalate_splitLines,
          splitLines_normalizeNewlines, hlines]
      rw [updateSavedDocumentFromDisk_of_load h.opened hwindow hload, DocumentManager.syncDocument,
        hsame, FiniteMap.lookup_insert, if_pos rfl]
  filePath := h.filePath
  queued notification hn := h.queued notification (hqueue ▸ List.mem_cons_of_mem _ hn)
  replayed := by
    have hreplayed := h.replayed
    rwa [hqueue, List.foldl_cons, replay_of_not_change rfl] at hreplayed
  saved saved hs := h.saved saved (hqueue ▸ mem_atLastSave_cons rfl hs)

lemma step (h : Synced codec uri s document) {event : Event} {t : Replica}
    (hcareful : Careful uri s event) (hstep : Replica.step codec uri s event = some t) :
    ∃ document, Synced codec uri t document := by
  cases event with
  | edit changes =>
    rw [Replica.step] at hstep
    split_ifs at hstep with hencoded
    obtain ⟨edited, hchange, rfl⟩ := Option.map_eq_some_iff.mp hstep
    exact ⟨document, h.edit hencoded hcareful hchange _⟩
  | save bytes =>
    rw [Replica.step] at hstep
    split_ifs at hstep with hbytes
    cases hstep
    exact ⟨document, h.save hbytes⟩
  | process now =>
    rw [Replica.step] at hstep
    cases hqueue : s.queue with
    | nil => simp [hqueue] at hstep
    | cons notification queue =>
      simp only [hqueue, Option.some.injEq] at hstep
      subst hstep
      rcases h.queued notification (hqueue ▸ List.mem_cons_self) with ⟨version, items, rfl⟩ | rfl
      · exact ⟨_, h.processChange hqueue now⟩
      · have hstale : s.manager.shouldDebounceSavedDocumentSync uri now = false →
            staleSave queue = false := by
          rw [Careful, hqueue] at hcareful
          exact hcareful rfl
        exact ⟨document, h.processSave hqueue hstale⟩

end Synced

section Convergence

variable {codec : Codec} {uri payload : Bytes} {initial manager : DocumentManager} {buffer : Text}

lemma synced_opened {version : ℤ} (disk : Disk)
    (hopen : initial.openFromLsp codec uri payload version = some manager)
    (hpayload : codec.iconv utf8 utf16le payload = some (utf16leBytes buffer))
    (hmark : buffer.head? ≠ some 0xFEFF) :
    ∃ document, Synced codec uri ⟨buffer, version, disk, [], manager⟩ document := by
  rw [DocumentManager.openFromLsp, loadFromLsp, utf8ToUtf16_eq_some hpayload hmark] at hopen
  cases hopen
  refine ⟨_, FiniteMap.lookup_insert _ _ _ _ |>.trans (if_pos rfl), rfl, ?_, rfl, ?_⟩
  · intro notification hn
    cases hn
  · intro saved hs
    cases hs

theorem getContent_of_queue_empty {version : ℤ} {disk : Disk} {events : List Event} {s : Replica}
    (hopen : initial.openFromLsp codec uri payload version = some manager)
    (hpayload : codec.iconv utf8 utf16le payload = some (utf16leBytes buffer))
    (hmark : buffer.head? ≠ some 0xFEFF)
    (hrun : run (step codec uri) ⟨buffer, version, disk, [], manager⟩ events = some s)
    (hcareful : Along (step codec uri) (Careful uri) ⟨buffer, version, disk, [], manager⟩ events)
    (hempty : s.queue = []) :
    (s.manager.openDocuments.lookup uri).map TextDocument.getContent =
      some (normalizeNewlines s.buffer) := by
  have hsynced := synced_opened disk hopen hpayload hmark
  obtain ⟨document, h⟩ := invariant_along (I := fun s => ∃ document, Synced codec uri s document)
    (fun _ _ _ ⟨_, h⟩ hc hs => h.step hc hs) hsynced hcareful hrun
  have hlines := h.replayed
  rw [hempty, List.foldl_nil] at hlines
  rw [h.opened, Option.map_some, TextDocument.getContent, hlines, intercalate_splitLines]

end Convergence

section Examples

def exampleUri : Bytes := ascii "file:///w/a.txt"

def opened : Replica where
  buffer := []
  version := 0
  disk _ := none
  queue := []
  manager := (DocumentManager.openFromLsp asciiCodec {} exampleUri [] 0).getD {}

def insertText (line character : ℕ) (text : String) : Event :=
  .edit [⟨⟨some ⟨⟨line, character⟩, ⟨line, character⟩⟩, (ascii text).map UInt8.toUInt16⟩, ascii text⟩]

def contentOf (s : Replica) : Option Text :=
  (s.manager.openDocuments.lookup exampleUri).map TextDocument.getContent

def savedSession : List Event :=
  [insertText 0 0 "a\r\nb", .save (ascii "a\r\nb"), .process 0, .process 1,
    insertText 1 1 "c", .save (ascii "a\r\nbc"), .process 2, .process 3]

theorem getContent_of_queue_empty_savedSession :
    ∃ s, run (step asciiCodec exampleUri) opened savedSession = some s ∧
      contentOf s = some (normalizeNewlines s.buffer) := by
  obtain ⟨s, hs⟩ : ∃ s, run (step asciiCodec exampleUri) opened savedSession = some s :=
    Option.isSome_iff_exists.mp (by decide)
  have hempty : (run (step asciiCodec exampleUri) opened savedSession).map Replica.queue = some [] := by
    decide
  rw [hs, Option.map_some, Option.some.injEq] at hempty
  exact ⟨s, hs, @getContent_of_queue_empty asciiCodec exampleUri [] {} _ [] 0 _ _ s rfl rfl (by decide) hs
    (by decide) hempty⟩

def overtakenSession : List Event :=
  [insertText 0 0 "a", .save (ascii "a"), insertText 0 1 "b", .save (ascii "ab"),
    .process 0, .process 1, .process 2, .process 3]

theorem exists_getContent_ne :
    ¬ ∀ (codec : Codec) (uri payload : Bytes) (initial manager : DocumentManager) (buffer : Text)
      (version : ℤ) (disk : Disk) (events : List Event) (s : Replica),
      initial.openFromLsp codec uri payload version = some manager →
      codec.iconv utf8 utf16le payload = some (utf16leBytes buffer) →
      buffer.head? ≠ some 0xFEFF →
      run (step codec uri) ⟨buffer, version, disk, [], manager⟩ events = some s →
      s.queue = [] →
      (s.manager.openDocuments.lookup uri).map TextDocument.getContent =
        some (normalizeNewlines s.buffer) := by
  intro h
  obtain ⟨s, hs⟩ : ∃ s, run (step asciiCodec exampleUri) opened overtakenSession = some s :=
    Option.isSome_iff_exists.mp (by decide)
  have hfinal : (run (step asciiCodec exampleUri) opened overtakenSession).map
      (fun s => (s.queue, s.buffer, contentOf s)) =
      some ([], [97, 98], some [97, 98, 98]) := by decide
  rw [hs, Option.map_some, Option.some.injEq, Prod.mk.injEq, Prod.mk.injEq] at hfinal
  obtain ⟨hempty, hbuffer, hcontent⟩ := hfinal
  have hequal := h asciiCodec exampleUri [] {} _ [] 0 _ overtakenSession s rfl rfl (by decide) hs hempty
  rw [contentOf] at hcontent
  rw [hcontent, hbuffer] at hequal
  exact absurd hequal (by decide)

end Examples

end Replica

end DltxtBridge.Documents
