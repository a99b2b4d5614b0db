import DltxtBridge.Documents.Notifications

namespace DltxtBridge.Documents

def Notification.uri : Notification → Bytes
  | .didOpen uri _ _ => uri
  | .didChange uri _ _ => uri
  | .didSave uri _ => uri
  | .didClose uri => uri

/-- A notification, the time, and the disk that it reads. -/
abbrev History := List (ℤ × Disk × Notification)

def managerAfter (codec : Codec) (history : History) : DocumentManager :=
  history.foldl (fun m entry => handleNotification codec entry.2.1 entry.1 m entry.2.2) {}

/-- Whether the notification opens or closes the document; a text that cannot be decoded
opens nothing. -/
def Notification.opens (codec : Codec) (uri : Bytes) : Notification → Option Bool
  | .didOpen other text _ => if other = uri ∧ (utf8ToUtf16 codec text).isSome then some true else none
  | .didClose other => if other = uri then some false else none
  | _ => none

section Touched

variable {codec : Codec} {disk : Disk} {now : ℤ} {m next : DocumentManager} {uri : Bytes}
  {notification : Notification}

def DocumentManager.entry (m : DocumentManager) (uri : Bytes) : Option TextDocument × Option ℤ :=
  (m.openDocuments.lookup uri, m.lastFullSyncAt.lookup uri)

lemma entry_syncDocument (document : TextDocument) (content : Text) (other : Bytes) :
    (m.syncDocument other document content now).entry uri =
      if uri = other then (some (document.setContent content document.version), some now) else m.entry uri := by
  simp only [DocumentManager.entry, DocumentManager.syncDocument, FiniteMap.lookup_insert]
  split_ifs <;> rfl

lemma entry_closeDocument (other : Bytes) :
    (m.closeDocument other).entry uri = if uri = other then (none, none) else m.entry uri := by
  simp only [DocumentManager.entry, DocumentManager.closeDocument, FiniteMap.lookup_erase]
  split_ifs <;> rfl

lemma entry_openFromLsp {other text : Bytes} {version : ℤ}
    (h : m.openFromLsp codec other text version = some next) :
    ∃ content, utf8ToUtf16 codec text = some content ∧ next.entry uri =
      if uri = other then (some (TextDocument.create other (ascii "client-decoded")
        (filePathFromUri other) version content), none) else m.entry uri := by
  obtain ⟨document, hload, rfl⟩ := Option.map_eq_some_iff.mp h
  obtain ⟨content, hcontent, rfl⟩ := Option.map_eq_some_iff.mp hload
  refine ⟨content, hcontent, ?_⟩
  simp only [DocumentManager.entry, DocumentManager.upsertOpenDocument, TextDocument.create,
    FiniteMap.lookup_insert, FiniteMap.lookup_erase]
  split_ifs <;> rfl

lemma entry_applyLspChanges (other : Bytes) (version : ℤ) (changes : List TextChange) :
    (m.applyLspChanges other version changes).entry uri =
      if uri = other then ((m.openDocuments.lookup uri).map fun document => document.editAll version changes,
        m.lastFullSyncAt.lookup uri) else m.entry uri := by
  rw [DocumentManager.applyLspChanges]
  cases hopen : m.openDocuments.lookup other with
  | none =>
    split_ifs with hsame
    · subst hsame
      simp [DocumentManager.entry, hopen]
    · rfl
  | some document =>
    simp only [DocumentManager.entry, FiniteMap.lookup_insert]
    split_ifs with hsame
    · subst hsame
      simp [hopen]
    · rfl

def Notification.syncs (codec : Codec) (disk : Disk) (now : ℤ) (m : DocumentManager) : Notification → Bool
  | .didSave uri (some text) => ((m.updateSavedDocumentText codec uri text now).map Prod.fst).getD false
  | .didSave uri none => (m.updateSavedDocumentFromDisk codec disk uri now).1
  | _ => false

lemma didSave_cases {other : Bytes} {text : Option Bytes}
    (hnext : handleNotification codec disk now m (.didSave other text) = next) :
    (Notification.syncs codec disk now m (.didSave other text) = false ∧ next = m) ∨
      ∃ document content, Notification.syncs codec disk now m (.didSave other text) = true ∧
        m.openDocuments.lookup other = some document ∧
        m.shouldDebounceSavedDocumentSync other now = false ∧
        next = m.syncDocument other document content now := by
  subst hnext
  cases hopen : m.openDocuments.lookup other with
  | none =>
    left
    cases text <;> simp [handleNotification, Notification.syncs, DocumentManager.updateSavedDocumentText,
      DocumentManager.updateSavedDocumentFromDisk, hopen]
  | some document =>
    cases hwindow : m.shouldDebounceSavedDocumentSync other now with
    | true =>
      left
      cases text <;> simp [handleNotification, Notification.syncs, DocumentManager.updateSavedDocumentText,
        DocumentManager.updateSavedDocumentFromDisk, hopen, hwindow]
    | false =>
      cases text with
      | some text =>
        cases hcontent : utf8ToUtf16 codec text with
        | none =>
          left
          simp [handleNotification, Notification.syncs, DocumentManager.updateSavedDocumentText, hopen,
            hwindow, hcontent]
        | some content =>
          right
          refine ⟨document, content, ?_⟩
          simp [handleNotification, Notification.syncs, DocumentManager.updateSavedDocumentText, hopen,
            hwindow, hcontent]
      | none =>
        cases hload : loadFromFile codec disk document.filePath with
        | none =>
          left
          simp [handleNotification, Notification.syncs, DocumentManager.updateSavedDocumentFromDisk, hopen,
            hwindow, hload]
        | some diskDocument =>
          right
          refine ⟨document, diskDocument.getContent, ?_⟩
          simp [handleNotification, Notification.syncs, DocumentManager.updateSavedDocumentFromDisk, hopen,
            hwindow, hload]

lemma entry_of_uri_ne (hne : notification.uri ≠ uri) :
    (handleNotification codec disk now m notification).entry uri = m.entry uri := by
  cases notification with
  | didOpen other text version =>
    change other ≠ uri at hne
    rw [handleNotification]
    cases hopen : m.openFromLsp codec other text version with
    | none => rfl
    | some opened =>
      obtain ⟨content, -, hentry⟩ := @entry_openFromLsp codec m opened uri _ _ _ hopen
      rw [Option.getD_some, hentry, if_neg (Ne.symm hne)]
  | didChange other version contentChanges =>
    change other ≠ uri at hne
    rw [handleNotification]
    cases textChangesFromJson codec contentChanges with
    | none => rfl
    | some changes => exact (entry_applyLspChanges other version changes).trans (if_neg (Ne.symm hne))
  | didSave other text =>
    change other ≠ uri at hne
    obtain ⟨-, hsame⟩ | ⟨document, content, -, -, -, hnext⟩ := didSave_cases (m := m) rfl
    · rw [hsame]
    · rw [hnext, entry_syncDocument, if_neg (Ne.symm hne)]
  | didClose other =>
    change other ≠ uri at hne
    exact (entry_closeDocument other).trans (if_neg (Ne.symm hne))

end Touched

section Open

variable {codec : Codec} {disk : Disk} {now : ℤ} {m : DocumentManager} {uri : Bytes}

lemma opens_of_uri_ne {notification : Notification} (hne : notification.uri ≠ uri) :
    notification.opens codec uri = none := by
  cases notification <;> simp_all [Notification.opens, Notification.uri]

lemma isSome_lookup_handleNotification (notification : Notification) :
    ((handleNotification codec disk now m notification).openDocuments.lookup uri).isSome =
      (notification.opens codec uri).getD (m.openDocuments.lookup uri).isSome := by
  by_cases huri : notification.uri = uri
  · subst huri
    cases notification with
    | didOpen other text version =>
      rw [handleNotification, Notification.uri, Notification.opens]
      cases hopen : m.openFromLsp codec other text version with
      | none =>
        have hnone : utf8ToUtf16 codec text = none := by
          simpa [DocumentManager.openFromLsp, loadFromLsp] using hopen
        simp [hnone]
      | some opened =>
        obtain ⟨content, hcontent, hentry⟩ := @entry_openFromLsp codec m opened other _ _ _ hopen
        rw [if_pos rfl, DocumentManager.entry, Prod.mk.injEq] at hentry
        simp [hcontent, hentry.1]
    | didChange other version contentChanges =>
      simp only [handleNotification, Notification.uri, Notification.opens, Option.getD_none]
      cases textChangesFromJson codec contentChanges with
      | none => rfl
      | some changes =>
        have hentry := @entry_applyLspChanges m other other version changes
        rw [if_pos rfl, DocumentManager.entry, Prod.mk.injEq] at hentry
        simp only [hentry.1, Option.isSome_map]
    | didSave other text =>
      simp only [Notification.uri, Notification.opens, Option.getD_none]
      obtain ⟨-, hsame⟩ | ⟨document, content, -, hopen, -, hnext⟩ :=
        @didSave_cases codec disk now m _ other text rfl
      · rw [hsame]
      · simp [hnext, hopen, DocumentManager.syncDocument]
    | didClose other =>
      simp [handleNotification, Notification.uri, Notification.opens, DocumentManager.closeDocument]
  · have hentry := @entry_of_uri_ne codec disk now m uri notification huri
    rw [DocumentManager.entry, DocumentManager.entry, Prod.mk.injEq] at hentry
    rw [hentry.1, opens_of_uri_ne huri, Option.getD_none]

lemma lookup_eq_none_of_not_close {notification : Notification}
    (hclose : ∀ other, notification ≠ .didClose other)
    (hnone : (handleNotification codec disk now m notification).openDocuments.lookup uri = none) :
    m.openDocuments.lookup uri = none := by
  have hopened := @isSome_lookup_handleNotification codec disk now m uri notification
  rw [hnone, Option.isSome_none] at hopened
  cases notification with
  | didOpen other text version =>
    rw [Notification.opens] at hopened
    split_ifs at hopened
    · cases hopened
    · exact Option.not_isSome_iff_eq_none.mp (by simpa using hopened.symm)
  | didChange | didSave => exact Option.not_isSome_iff_eq_none.mp (by simpa [Notification.opens] using hopened.symm)
  | didClose other => exact absurd rfl (hclose other)

lemma managerAfter_append (codec : Codec) (history : History) (entry : ℤ × Disk × Notification) :
    managerAfter codec (history ++ [entry]) =
      handleNotification codec entry.2.1 entry.1 (managerAfter codec history) entry.2.2 := by
  rw [managerAfter, List.foldl_append]
  rfl

lemma managerAfter_of_unsaved {history other : History}
    (hsame : history.map (fun entry => entry.2.2) = other.map fun entry => entry.2.2)
    (hunsaved : ∀ notification ∈ history.map (fun entry => entry.2.2), ∀ uri text,
      notification ≠ Notification.didSave uri text) :
    managerAfter codec history = managerAfter codec other := by
  induction history using List.reverseRecOn generalizing other with
  | nil =>
    rw [List.map_nil, eq_comm, List.map_eq_nil_iff] at hsame
    rw [hsame]
  | append_singleton history entry ih =>
    rw [List.map_append, List.map_singleton, eq_comm] at hsame
    obtain ⟨earlier, last, rfl, hearlier, hlast⟩ := List.map_eq_append_iff.mp hsame
    obtain ⟨entry', rfl, hentry⟩ := List.map_eq_singleton_iff.mp hlast
    rw [List.map_append, List.forall_mem_append] at hunsaved
    have hnotification := hunsaved.2 entry.2.2 (List.mem_singleton_self _)
    rw [managerAfter_append, managerAfter_append, ih hearlier.symm hunsaved.1, hentry]
    -- only a save reads the clock or the disk
    cases hcase : entry.2.2 with
    | didOpen | didChange | didClose => rfl
    | didSave uri text => exact absurd hcase (hnotification uri text)

lemma isSome_lookup_managerAfter (codec : Codec) (history : History) (uri : Bytes) :
    ((managerAfter codec history).openDocuments.lookup uri).isSome ↔
      (history.filterMap fun entry => entry.2.2.opens codec uri).getLast? = some true := by
  induction history using List.reverseRecOn with
  | nil => simp [managerAfter, Finmap.lookup_empty]
  | append_singleton history entry ih =>
    rw [managerAfter_append, isSome_lookup_handleNotification, List.filterMap_append]
    cases hopens : entry.2.2.opens codec uri with
    | none => simpa [hopens] using ih
    | some opened => simp [hopens]

theorem isOpen_iff_lastOpened (codec : Codec) (history : History) (uri : Bytes) :
    (managerAfter codec history).openDocuments.lookup uri ≠ none ↔
      (history.filterMap fun entry => entry.2.2.opens codec uri).getLast? = some true := by
  rw [← Option.isSome_iff_ne_none]
  exact isSome_lookup_managerAfter codec history uri

end Open

section Syncs

variable {codec : Codec} {uri : Bytes}

/-- The times of the syncs of a document since it was last opened or closed. -/
def logSync (codec : Codec) (uri : Bytes) (log : DocumentManager × List ℤ) (entry : ℤ × Disk × Notification) :
    DocumentManager × List ℤ :=
  (handleNotification codec entry.2.1 entry.1 log.1 entry.2.2,
    if (entry.2.2.opens codec uri).isSome then []
    else if entry.2.2.uri = uri ∧ entry.2.2.syncs codec entry.2.1 entry.1 log.1 then log.2 ++ [entry.1]
    else log.2)

def syncTimes (codec : Codec) (uri : Bytes) (history : History) : List ℤ :=
  (history.foldl (logSync codec uri) ({}, [])).2

structure SyncsApart (uri : Bytes) (log : DocumentManager × List ℤ) : Prop where
  apart : log.2.Pairwise fun earlier later => earlier + savedDocumentSyncDebounceWindow ≤ later
  last : log.1.lastFullSyncAt.lookup uri = log.2.getLast?

variable {disk : Disk} {now : ℤ} {m : DocumentManager} {notification : Notification}

lemma lastFullSyncAt_of_opens (h : (notification.opens codec uri).isSome) :
    (handleNotification codec disk now m notification).lastFullSyncAt.lookup uri = none := by
  cases notification with
  | didOpen other text version =>
    rw [Notification.opens] at h
    split_ifs at h with hopened
    · obtain ⟨rfl, hcontent⟩ := hopened
      obtain ⟨content, hcontent⟩ := Option.isSome_iff_exists.mp hcontent
      obtain ⟨opened, hopen⟩ : ∃ opened, m.openFromLsp codec other text version = some opened :=
        Option.isSome_iff_exists.mp (by simp [DocumentManager.openFromLsp, loadFromLsp, hcontent])
      obtain ⟨_, -, hentry⟩ := @entry_openFromLsp codec m opened other _ _ _ hopen
      rw [if_pos rfl, DocumentManager.entry, Prod.mk.injEq] at hentry
      rw [handleNotification, hopen]
      exact hentry.2
    · cases h
  | didChange | didSave => cases h
  | didClose other =>
    rw [Notification.opens] at h
    split_ifs at h with hclosed
    · subst hclosed
      have hentry := @entry_closeDocument m other other
      rw [if_pos rfl, DocumentManager.entry, Prod.mk.injEq] at hentry
      exact hentry.2
    · cases h

lemma lastFullSyncAt_of_not_syncs (hopens : notification.opens codec uri = none)
    (hsyncs : ¬ (notification.uri = uri ∧ notification.syncs codec disk now m)) :
    (handleNotification codec disk now m notification).lastFullSyncAt.lookup uri =
      m.lastFullSyncAt.lookup uri := by
  by_cases huri : notification.uri = uri
  · subst huri
    cases notification with
    | didOpen other text version =>
      have hnone : utf8ToUtf16 codec text = none := by
        simpa [Notification.opens, Notification.uri] using hopens
      simp [handleNotification, DocumentManager.openFromLsp, loadFromLsp, hnone]
    | didChange other version contentChanges =>
      rw [handleNotification]
      cases textChangesFromJson codec contentChanges with
      | none => rfl
      | some changes =>
        change (m.applyLspChanges other version changes).lastFullSyncAt.lookup other = _
        rw [DocumentManager.applyLspChanges]
        cases m.openDocuments.lookup other <;> rfl
    | didSave other text =>
      obtain ⟨-, hsame⟩ | ⟨document, content, htrue, -, -, -⟩ :=
        @didSave_cases codec disk now m _ other text rfl
      · rw [hsame]
      · exact absurd ⟨rfl, htrue⟩ hsyncs
    | didClose other => simp [Notification.opens, Notification.uri] at hopens
  · exact congrArg Prod.snd (entry_of_uri_ne huri)

lemma window_of_syncs (huri : notification.uri = uri) (hsyncs : notification.syncs codec disk now m = true) :
    (∀ last ∈ m.lastFullSyncAt.lookup uri, last + savedDocumentSyncDebounceWindow ≤ now) ∧
      (handleNotification codec disk now m notification).lastFullSyncAt.lookup uri = some now := by
  subst huri
  cases notification with
  | didOpen | didChange | didClose => cases hsyncs
  | didSave other text =>
    obtain ⟨hfalse, -⟩ | ⟨document, content, -, hopen, hwindow, hnext⟩ :=
      @didSave_cases codec disk now m _ other text rfl
    · rw [hfalse] at hsyncs
      cases hsyncs
    · refine ⟨?_, ?_⟩
      · intro last hlast
        rw [Option.mem_def, Notification.uri] at hlast
        simp only [DocumentManager.shouldDebounceSavedDocumentSync, hlast, decide_eq_false_iff_not] at hwindow
        omega
      · rw [hnext, Notification.uri, DocumentManager.syncDocument]
        simp

lemma syncsApart_step {log : DocumentManager × List ℤ} (h : SyncsApart uri log)
    (entry : ℤ × Disk × Notification) : SyncsApart uri (logSync codec uri log entry) := by
  rw [logSync]
  by_cases hopens : (entry.2.2.opens codec uri).isSome
  · rw [if_pos hopens]
    exact ⟨List.Pairwise.nil, lastFullSyncAt_of_opens hopens⟩
  · rw [if_neg hopens]
    by_cases hsyncs : entry.2.2.uri = uri ∧ entry.2.2.syncs codec entry.2.1 entry.1 log.1
    · rw [if_pos hsyncs]
      obtain ⟨hwindow, hlast⟩ := window_of_syncs hsyncs.1 hsyncs.2
      refine ⟨List.pairwise_append.mpr ⟨h.apart, List.pairwise_singleton _ _, ?_⟩, ?_⟩
      · intro earlier hearlier later hlater
        rw [List.mem_singleton.mp hlater]
        rw [h.last] at hwindow
        obtain ⟨init, last, hsplit⟩ := (List.eq_nil_or_concat' log.2).resolve_left
          (List.ne_nil_of_mem hearlier)
        have hapart := h.apart
        rw [hsplit, List.pairwise_append] at hapart
        have hnow := hwindow last (by simp [hsplit])
        rw [hsplit, List.mem_append, List.mem_singleton] at hearlier
        rcases hearlier with hearlier | rfl
        · have hbefore := hapart.2.2 earlier hearlier last (List.mem_singleton_self _)
          have hpositive : 0 ≤ savedDocumentSyncDebounceWindow := by decide
          omega
        · exact hnow
      · rw [List.getLast?_concat]
        exact hlast
    · rw [if_neg hsyncs]
      have hopens : entry.2.2.opens codec uri = none := Option.not_isSome_iff_eq_none.mp hopens
      exact ⟨h.apart, (lastFullSyncAt_of_not_syncs hopens hsyncs).trans h.last⟩

theorem syncTimes_apart (codec : Codec) (history : History) (uri : Bytes) :
    (syncTimes codec uri history).Pairwise fun earlier later =>
      earlier + savedDocumentSyncDebounceWindow ≤ later := by
  have hlog : SyncsApart uri (history.foldl (logSync codec uri) ({}, [])) := by
    apply List.foldlRecOn
    · exact ⟨List.Pairwise.nil, by simp⟩
    · exact fun log h entry _ => syncsApart_step h entry
  exact hlog.apart

end Syncs

end DltxtBridge.Documents
