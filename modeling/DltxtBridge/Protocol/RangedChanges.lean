import DltxtBridge.Documents.ChangeList
import DltxtBridge.Protocol.Replies

namespace DltxtBridge.Protocol

open Documents TransitionSystem

def rangeKey : Bytes := ascii "range"

section Names

def NamesPosition (json : Json) (position : Position) : Prop :=
  ∃ line character : UInt64, json.member? (ascii "line") = some (.unsigned line) ∧
    json.member? (ascii "character") = some (.unsigned character) ∧
    position = ⟨line.toNat, character.toNat⟩

def Names (json : Json) (range : Range) : Prop :=
  ∃ start stop, json.member? (ascii "start") = some start ∧ json.member? (ascii "end") = some stop ∧
    NamesPosition start range.start ∧ NamesPosition stop range.stop

lemma parsePosition_eq_some_iff {json : Json} {position : Position} :
    parsePosition json = some position ↔ NamesPosition json position := by
  constructor
  · intro h
    rw [parsePosition] at h
    split at h
    · rename_i line character hline hcharacter
      cases h
      exact ⟨line, character, hline, hcharacter, rfl⟩
    · cases h
  · rintro ⟨line, character, hline, hcharacter, rfl⟩
    simp only [parsePosition, hline, hcharacter]

lemma parsePosition_emptyObject : parsePosition .emptyObject = none := rfl

lemma bind_parsePosition_eq_some_iff {json : Json} {key : Bytes} {position : Position} :
    ((json.value some key .emptyObject).bind parsePosition) = some position ↔
      ∃ found, json.member? key = some found ∧ NamesPosition found position := by
  cases json with
  | object members =>
    rw [Json.value, Json.member?]
    cases members.lookup key with
    | none => simp [parsePosition_emptyObject]
    | some found => simp [parsePosition_eq_some_iff]
  | _ => simp [Json.value, Json.member?]

lemma rangeFromJson_eq_some_iff {json : Json} {range : Range} :
    rangeFromJson json = some range ↔ Names json range := by
  have hbind : rangeFromJson json =
      ((json.value some (ascii "start") .emptyObject).bind parsePosition).bind fun start =>
        ((json.value some (ascii "end") .emptyObject).bind parsePosition).map (Range.mk start) := by
    simp only [rangeFromJson, Option.bind_eq_bind, Option.bind_assoc, Option.map_eq_bind]
    rfl
  rw [hbind, Option.bind_eq_some_iff, Names]
  simp only [Option.map_eq_some_iff, bind_parsePosition_eq_some_iff]
  constructor
  · rintro ⟨start, ⟨first, hfirst, hstart⟩, stop, ⟨second, hsecond, hstop⟩, rfl⟩
    exact ⟨first, second, hfirst, hsecond, hstart, hstop⟩
  · rintro ⟨first, second, hfirst, hsecond, hstart, hstop⟩
    exact ⟨range.start, ⟨first, hfirst, hstart⟩, range.stop, ⟨second, hsecond, hstop⟩, rfl⟩

end Names

structure ReceivedChange where
  item : Json
  text : Text

namespace ReceivedChange

def range (received : ReceivedChange) : Json := received.item.member rangeKey

def change (received : ReceivedChange) : TextChange := ⟨rangeFromJson received.range, received.text⟩

structure KeepsRange (received : ReceivedChange) : Prop where
  whole : received.change.range = none → received.range.isNull
  ranged : received.range.isNull = false →
    ∃ range, Names received.range range ∧ received.change.range = some range

def NamesNoRange (received : ReceivedChange) : Prop :=
  received.range.isNull = false ∧ ∀ range, ¬ Names received.range range

lemma keepsRange_iff (received : ReceivedChange) : received.KeepsRange ↔ ¬ received.NamesNoRange := by
  constructor
  · rintro h ⟨hgiven, hnames⟩
    obtain ⟨range, hrange, -⟩ := h.ranged hgiven
    exact hnames range hrange
  · intro h
    have hnames : received.range.isNull = false → ∃ range, Names received.range range := by
      intro hgiven
      by_contra hnone
      exact h ⟨hgiven, not_exists.mp hnone⟩
    constructor
    · intro hwhole
      by_contra hgiven
      obtain ⟨range, hrange⟩ := hnames (Bool.eq_false_iff.mpr hgiven)
      rw [← rangeFromJson_eq_some_iff] at hrange
      rw [change, hrange] at hwhole
      cases hwhole
    · intro hgiven
      obtain ⟨range, hrange⟩ := hnames hgiven
      exact ⟨range, hrange, rangeFromJson_eq_some_iff.mpr hrange⟩

lemma NamesNoRange.change_range {received : ReceivedChange} (h : received.NamesNoRange) :
    received.change.range = none := by
  rw [change, Option.eq_none_iff_forall_ne_some]
  intro range hrange
  exact h.2 range (rangeFromJson_eq_some_iff.mp hrange)

end ReceivedChange

/-- `none` when a text cannot be decoded. -/
def receivedChanges (codec : Codec) (params : Json) : Option (List ReceivedChange) :=
  (((params.member (ascii "contentChanges")).elements.filterMap fun item =>
    (stringMember? item textKey).map (Prod.mk item))).mapM fun entry =>
      (utf8ToUtf16 codec entry.2).map (ReceivedChange.mk entry.1)

def didChangeVersion (params : Json) : Option ℤ :=
  (params.value some textDocumentKey .emptyObject).bind fun textDocument =>
    textDocument.value Json.getInt (ascii "version") 0

def receive (version : ℤ) (document : TextDocument) (received : ReceivedChange) : Option TextDocument :=
  document.tryEdit version received.change

def appliedChanges (codec : Codec) (params : Json) (document : TextDocument) : List ReceivedChange :=
  match didChangeVersion params, receivedChanges codec params with
  | some version, some changes => taken (receive version) document changes
  | _, _ => []

section Handler

variable {κ : Type} (host : Host κ) (params : Json) (w : Workspace κ)

lemma map_mapM_option {α β γ : Type} (f : α → Option β) (g : β → γ) (xs : List α) :
    (xs.mapM f).map (List.map g) = xs.mapM fun x => (f x).map g := by
  induction xs with
  | nil => rfl
  | cons x xs ih =>
    rw [List.mapM_cons, List.mapM_cons, ← ih]
    cases f x with
    | none => rfl
    | some y =>
      cases xs.mapM f with
      | none => rfl
      | some ys => rfl

lemma textChangesFromJson_contentChangesFromJson (codec : Codec) :
    textChangesFromJson codec (contentChangesFromJson params) =
      (receivedChanges codec params).map (List.map ReceivedChange.change) := by
  have hitems : contentChangesFromJson params =
      (((params.member (ascii "contentChanges")).elements.filterMap fun item =>
        (stringMember? item textKey).map (Prod.mk item))).map fun entry =>
          ⟨rangeFromJson (entry.1.member rangeKey), entry.2⟩ := by
    rw [contentChangesFromJson, List.map_filterMap]
    simp only [Option.map_map]
    rfl
  rw [textChangesFromJson, hitems, receivedChanges, map_mapM_option, List.mapM_map]
  simp only [Option.map_map]
  rfl

lemma documentManager_handleDidChange :
    (handleDidChange host params w).2.documentManager =
      match didChangeVersion params, receivedChanges host.codec params with
      | some version, some changes =>
        w.documentManager.applyLspChanges (textDocumentUriFromParams params) version
          (changes.map ReceivedChange.change)
      | _, _ => w.documentManager := by
  rw [handleDidChange, textChangesFromJson_contentChangesFromJson, didChangeVersion]
  cases params.value some textDocumentKey .emptyObject with
  | none => rfl
  | some textDocument =>
    rw [StateAction.bind_ofOption_some, Option.bind_some]
    cases textDocument.value Json.getInt (ascii "version") 0 with
    | none => rfl
    | some version =>
      rw [StateAction.bind_ofOption_some]
      cases receivedChanges host.codec params with
      | none => rfl
      | some changes => rfl

/-- A change whose range names nothing is reached by no list that is applied: the
notification throws, or a change before it is refused. -/
def NeverReached (codec : Codec) (params : Json) (document : TextDocument) : Prop :=
  ∀ version ∈ didChangeVersion params, ∀ changes ∈ receivedChanges codec params,
    ∀ earlier received later, changes = earlier ++ received :: later → received.NamesNoRange →
      run changeContent document.getContent (earlier.map ReceivedChange.change) = none

variable {document : TextDocument}

lemma run_receive_eq_none_iff (hsplit : IsSplit document.lines) (version : ℤ) (changes : List ReceivedChange) :
    run (receive version) document changes = none ↔
      run changeContent document.getContent (changes.map ReceivedChange.change) = none := by
  rw [← TextDocument.map_getContent_run hsplit version, Option.map_eq_none_iff, run_events_map]
  rfl

lemma receive_of_namesNoRange {received : ReceivedChange} (h : received.NamesNoRange) (version : ℤ)
    (document : TextDocument) :
    receive version document received = some (document.setContent received.text version) := by
  simp only [receive, TextDocument.tryEdit, TextDocument.edit, h.change_range]
  rfl

lemma keepsRange_taken_iff (hsplit : IsSplit document.lines) (version : ℤ) (changes : List ReceivedChange) :
    (∀ received ∈ taken (receive version) document changes, received.KeepsRange) ↔
      ∀ earlier received later, changes = earlier ++ received :: later → received.NamesNoRange →
        run changeContent document.getContent (earlier.map ReceivedChange.change) = none := by
  rw [forall_mem_taken_iff]
  constructor
  · intro h earlier received later hchanges hnames
    rw [← run_receive_eq_none_iff hsplit version, Option.eq_none_iff_forall_ne_some]
    intro reached hrun
    have hkeeps := h earlier received later reached _ hchanges hrun
      (receive_of_namesNoRange hnames version reached)
    exact (received.keepsRange_iff.mp hkeeps) hnames
  · intro h earlier received later reached edited hchanges hrun _
    rw [received.keepsRange_iff]
    intro hnames
    have hnone := h earlier received later hchanges hnames
    rw [← run_receive_eq_none_iff hsplit version, hrun] at hnone
    cases hnone

lemma keepsRange_appliedChanges_iff (hsplit : IsSplit document.lines) (codec : Codec) (params : Json) :
    (∀ received ∈ appliedChanges codec params document, received.KeepsRange) ↔
      NeverReached codec params document := by
  rw [appliedChanges, NeverReached]
  cases didChangeVersion params with
  | none => simp
  | some version =>
    cases receivedChanges codec params with
    | none => simp
    | some changes => simpa using keepsRange_taken_iff hsplit version changes

variable {host params w}

lemma run_appliedChanges
    (hopen : w.documentManager.openDocuments.lookup (textDocumentUriFromParams params) = some document) :
    (handleDidChange host params w).2.documentManager.openDocuments.lookup (textDocumentUriFromParams params) =
      run (receive ((didChangeVersion params).getD 0)) document
        (appliedChanges host.codec params document) := by
  rw [documentManager_handleDidChange, appliedChanges]
  cases didChangeVersion params with
  | none => exact hopen
  | some version =>
    cases receivedChanges host.codec params with
    | none => exact hopen
    | some changes =>
      simp only [DocumentManager.applyLspChanges, hopen, FiniteMap.lookup_insert, if_true,
        Option.getD_some, run_taken, TextDocument.editAll_eq_advance, advance_events_map]
      rfl

theorem did_change_keeps_ranges_iff (history : List (ℤ × Disk × Notification))
    (hmanager : w.documentManager = history.foldl
      (fun m entry => handleNotification host.codec entry.2.1 entry.1 m entry.2.2) {})
    (hopen : w.documentManager.openDocuments.lookup (textDocumentUriFromParams params) = some document) :
    (handleDidChange host params w).2.documentManager.openDocuments.lookup (textDocumentUriFromParams params) =
        run (receive ((didChangeVersion params).getD 0)) document
          (appliedChanges host.codec params document) ∧
      ((∀ received ∈ appliedChanges host.codec params document, received.KeepsRange) ↔
        NeverReached host.codec params document) := by
  rw [hmanager] at hopen
  have hsplit := documentInvariant_isSplit.of_history host.codec history _ document hopen
  rw [← hmanager] at hopen
  exact ⟨run_appliedChanges hopen, keepsRange_appliedChanges_iff hsplit host.codec params⟩

end Handler

section Examples

def shortUri : Bytes := ascii "file:///w/a.txt"

def shortDocument : TextDocument :=
  TextDocument.create shortUri (ascii "client-decoded") (filePathFromUri shortUri) 1
    ((ascii "short").map UInt8.toUInt16)

def shortHistory : List (ℤ × Disk × Notification) := [(0, fun _ => none, .didOpen shortUri (ascii "short") 1)]

def shortWorkspace : Workspace Unit where
  documentManager := shortHistory.foldl
    (fun m entry => handleNotification idleHost.codec entry.2.1 entry.1 m entry.2.2) {}
  host := ()

def positionJson (line character : Json) : Json :=
  .object [(ascii "character", character), (ascii "line", line)]

def rangeJson (line : Json) : Json :=
  .object [(ascii "end", positionJson (.unsigned 0) (.unsigned 1)),
    (ascii "start", positionJson line (.unsigned 0))]

def itemJson (line : Json) : Json := .object [(rangeKey, rangeJson line), (textKey, .ofString "x")]

def changeParams (lines : List Json) : Json :=
  .object [(ascii "contentChanges", .array (lines.map itemJson)),
    (textDocumentKey, .object [(uriKey, .string shortUri), (ascii "version", .unsigned 2)])]

lemma open_shortDocument :
    shortWorkspace.documentManager.openDocuments.lookup shortUri = some shortDocument := by
  decide

def receivedX (line : Json) : ReceivedChange := ⟨itemJson line, [120]⟩

lemma named_receivedX (line : UInt64) : ¬ (receivedX (.unsigned line)).NamesNoRange :=
  fun h => h.2 ⟨⟨line.toNat, 0⟩, ⟨0, 1⟩⟩ (rangeFromJson_eq_some_iff.mp rfl)

def changedLines : List Json := [.unsigned 0, .unsigned 0, .unsigned 99, .integer (-1)]

lemma neverReached_changedLines : NeverReached idleHost.codec (changeParams changedLines) shortDocument := by
  intro version _ changes hchanges earlier received later hsplit hnames
  have hreceived : receivedChanges idleHost.codec (changeParams changedLines) = some (changedLines.map receivedX) := rfl
  rw [hreceived] at hchanges
  cases hchanges
  have hlast : ∀ line : UInt64, received ≠ receivedX (.unsigned line) := by
    rintro line rfl
    exact named_receivedX line hnames
  have hearlier : earlier = (changedLines.map receivedX).take earlier.length := by rw [hsplit, List.take_left]
  have hread : (changedLines.map receivedX)[earlier.length]? = some received := by
    rw [hsplit, List.getElem?_append_right le_rfl, Nat.sub_self]
    rfl
  generalize earlier.length = position at hearlier hread
  subst hearlier
  rcases position with _ | _ | _ | _ | position
  · exact absurd (Option.some.inj hread).symm (hlast 0)
  · exact absurd (Option.some.inj hread).symm (hlast 0)
  · exact absurd (Option.some.inj hread).symm (hlast 99)
  · decide
  · cases hread

theorem did_change_keeps_ranges_first_character :
    appliedChanges idleHost.codec (changeParams changedLines) shortDocument =
        [receivedX (.unsigned 0), receivedX (.unsigned 0)] ∧
      (receivedX (.unsigned 0)).KeepsRange := by
  have happlied : appliedChanges idleHost.codec (changeParams changedLines) shortDocument =
      [receivedX (.unsigned 0), receivedX (.unsigned 0)] := by rfl
  have hkeeps := (@did_change_keeps_ranges_iff Unit idleHost (changeParams changedLines) shortWorkspace
    shortDocument shortHistory rfl open_shortDocument).2.mpr neverReached_changedLines
  rw [happlied] at hkeeps
  exact ⟨happlied, hkeeps _ List.mem_cons_self⟩

theorem negative_line_replaces_text :
    ¬ ∀ (κ : Type) (host : Host κ) (params : Json) (w : Workspace κ) (document : TextDocument)
      (history : List (ℤ × Disk × Notification)),
      w.documentManager = history.foldl
        (fun m entry => handleNotification host.codec entry.2.1 entry.1 m entry.2.2) {} →
      w.documentManager.openDocuments.lookup (textDocumentUriFromParams params) = some document →
      ∀ received ∈ appliedChanges host.codec params document, received.KeepsRange := by
  intro h
  have hkeeps := h Unit idleHost (changeParams [.integer (-1)]) shortWorkspace shortDocument shortHistory rfl
    open_shortDocument (receivedX (.integer (-1))) List.mem_cons_self
  exact absurd (hkeeps.whole rfl) (by decide)

end Examples

end DltxtBridge.Protocol
