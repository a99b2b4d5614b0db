import DltxtBridge.Crossref.LastEvent
import DltxtBridge.Documents.Notifications

namespace DltxtBridge.Crossref

open Documents TransitionSystem

structure Message where
  notification : Notification
  now : ℤ
  fs : FileSystem

def Message.uri (message : Message) : Bytes :=
  match message.notification with
  | .didOpen uri _ _ => uri
  | .didChange uri _ _ => uri
  | .didSave uri _ => uri
  | .didClose uri => uri

structure IndexedSession where
  manager : DocumentManager := {}
  pooled : PooledService := {}

namespace IndexedSession

def schedule (manager : DocumentManager) (pooled : PooledService) (message : Message) : PooledService :=
  match message.notification with
  | .didClose uri => pooled.scheduleClosedDocumentRefresh uri
  | _ =>
    match manager.openDocuments.lookup message.uri with
    | some document => pooled.scheduleOpenDocumentUpdate document
    | none => pooled

def finishTask (env : Environment) (fs : FileSystem) (pooled : PooledService) : Option PooledService :=
  if pooled.tasks.isEmpty then some pooled else pooled.step env (.runTask 0 fs)

def step (env : Environment) (s : IndexedSession) (message : Message) : Option IndexedSession :=
  match tryNotification env.codec message.fs.read message.now s.manager message.notification with
  | none => some s
  | some manager =>
    (finishTask env message.fs (schedule manager s.pooled message)).map fun pooled => ⟨manager, pooled⟩

def Follows (env : Environment) (uri : Bytes) (parserState : ParserState) (s : IndexedSession) : Prop :=
  ∀ document ∈ s.manager.openDocuments.lookup uri,
    Holds (filePathFromUri uri) (parsedText env parserState document) s.pooled.service

/-- The document that the message leaves has another version than the one recorded for its
file, or its pairs are in the index already. -/
def Reindexes (env : Environment) (uri : Bytes) (parserState : ParserState) (s : IndexedSession)
    (message : Message) : Prop :=
  match tryNotification env.codec message.fs.read message.now s.manager message.notification with
  | none => s.Follows env uri parserState
  | some manager =>
    ∀ document ∈ manager.openDocuments.lookup uri,
      s.pooled.service.openDocumentVersions.lookup (filePathFromUri uri).genericString ≠
          some document.version ∨
        Holds (filePathFromUri uri) (parsedText env parserState document) s.pooled.service

def ConcernsDocument (uri : Bytes) (message : Message) : Prop :=
  message.uri = uri ∧ ∀ other, message.notification ≠ .didClose other

variable {env : Environment} {uri : Bytes} {p : ParserState} {s t : IndexedSession} {message : Message}

structure Served (uri : Bytes) (parserState : ParserState) (s : IndexedSession) : Prop where
  serving : Serving (filePathFromUri uri) parserState s.pooled.service
  supported : isTextFile (filePathFromUri uri)
  named : s.manager.Named
  idle : s.pooled.tasks = []

lemma schedule_of_concerns (hconcerns : ConcernsDocument uri message) (manager : DocumentManager)
    (pooled : PooledService) :
    schedule manager pooled message =
      match manager.openDocuments.lookup uri with
      | some document => pooled.scheduleOpenDocumentUpdate document
      | none => pooled := by
  obtain ⟨rfl, hclose⟩ := hconcerns
  rw [schedule]
  split
  · rename_i other hnotification
    exact absurd hnotification (hclose other)
  · rfl

namespace Served

variable {manager : DocumentManager} {document : TextDocument}

lemma finish_of_recorded (h : Served uri p s) (hnamed : manager.Named)
    (hopen : manager.openDocuments.lookup uri = some document)
    (hversion : s.pooled.service.openDocumentVersions.lookup (filePathFromUri uri).genericString =
      some document.version) (fs : FileSystem) :
    finishTask env fs (s.pooled.scheduleOpenDocumentUpdate document) = some s.pooled := by
  rw [← hnamed uri document hopen] at hversion
  rw [PooledService.scheduleOpenDocumentUpdate, h.serving.configured]
  simp only [hversion, ne_eq, not_true_eq_false, and_false, if_false]
  rw [finishTask, h.idle]
  rfl

lemma finish_of_new (h : Served uri p s) (hnamed : manager.Named)
    (hopen : manager.openDocuments.lookup uri = some document)
    (hversion : s.pooled.service.openDocumentVersions.lookup (filePathFromUri uri).genericString ≠
      some document.version) (fs : FileSystem) :
    finishTask env fs (s.pooled.scheduleOpenDocumentUpdate document) =
      (s.pooled.service.runUpdate env document p).map fun service => ⟨service, []⟩ := by
  have hsupported := h.supported
  have hworkspace := h.serving.inWorkspace
  rw [← hnamed uri document hopen] at hversion hsupported hworkspace
  rw [PooledService.scheduleOpenDocumentUpdate, h.serving.configured]
  simp only [hsupported, hworkspace, hversion, ne_eq, not_false_eq_true, and_self, if_true]
  rw [finishTask, h.idle]
  rfl

lemma step (h : Served uri p s) (hconcerns : ConcernsDocument uri message)
    (hstep : IndexedSession.step env s message = some t) :
    Served uri p t ∧ (t.Follows env uri p ↔ Reindexes env uri p s message) := by
  rw [IndexedSession.step] at hstep
  rw [Reindexes]
  cases hmanager : tryNotification env.codec message.fs.read message.now s.manager message.notification with
  | none =>
    simp only [hmanager] at hstep ⊢
    cases hstep
    exact ⟨h, Iff.rfl⟩
  | some manager =>
    have hnamed := DocumentManager.EveryOpen.step h.named documentInvariant_named hmanager
    simp only [hmanager, schedule_of_concerns hconcerns] at hstep ⊢
    cases hopen : manager.openDocuments.lookup uri with
    | none =>
      simp only [hopen, finishTask, h.idle, List.isEmpty_nil, if_true, Option.map_some] at hstep
      cases hstep
      exact ⟨⟨h.serving, h.supported, hnamed, h.idle⟩, by simp [Follows, hopen]⟩
    | some document =>
      simp only [hopen] at hstep
      by_cases hversion : s.pooled.service.openDocumentVersions.lookup (filePathFromUri uri).genericString =
          some document.version
      · rw [h.finish_of_recorded hnamed hopen hversion] at hstep
        cases hstep
        exact ⟨⟨h.serving, h.supported, hnamed, h.idle⟩, by simp [Follows, hopen, hversion]⟩
      · rw [h.finish_of_new hnamed hopen hversion, Option.map_map] at hstep
        obtain ⟨service, hrun, rfl⟩ := Option.map_eq_some_iff.mp hstep
        obtain ⟨hserving, hholds, -⟩ := h.serving.runUpdate (hnamed uri document hopen) hrun
        refine ⟨⟨hserving, h.supported, hnamed, rfl⟩, ?_⟩
        simp [Follows, hopen, hversion, hholds]

lemma reindexes_of_stuck (h : Served uri p s) (hconcerns : ConcernsDocument uri message)
    (hstep : IndexedSession.step env s message = none) : Reindexes env uri p s message := by
  rw [IndexedSession.step] at hstep
  rw [Reindexes]
  cases hmanager : tryNotification env.codec message.fs.read message.now s.manager message.notification with
  | none => simp [hmanager] at hstep
  | some manager =>
    have hnamed := DocumentManager.EveryOpen.step h.named documentInvariant_named hmanager
    simp only [hmanager, schedule_of_concerns hconcerns] at hstep ⊢
    intro document hopen
    rw [Option.mem_def] at hopen
    left
    intro hversion
    simp [hopen, h.finish_of_recorded hnamed hopen hversion] at hstep

end Served

section Runs

variable {messages : List Message} {before : List Event} {history : List (ℤ × Disk × Notification)}
  {start : IndexedSession}

theorem follows_along_iff
    (hmanager : start.manager = history.foldl
      (fun m entry => handleNotification env.codec entry.2.1 entry.1 m entry.2.2) {})
    (hbefore : run (PooledService.step env) {} before = some start.pooled)
    (hready : Ready (filePathFromUri uri) p start.pooled)
    (hmessages : ∀ message ∈ messages, ConcernsDocument uri message) :
    Along (step env) (fun s message => ∀ t ∈ step env s message, t.Follows env uri p) start messages ↔
      Along (step env) (Reindexes env uri p) start messages := by
  have hstart : Served uri p start :=
    { serving := ⟨(PooledService.run_wellFormed hbefore).consistent, hready.configured, hready.inWorkspace⟩
      supported := hready.supported
      named := hmanager ▸ documentInvariant_named.of_history env.codec history
      idle := hready.idle }
  apply along_congr (fun _ _ _ h hmessage hstep => (h.step hmessage hstep).1) _ hstart hmessages
  intro s message h hmessage
  cases hstep : step env s message with
  | none => simpa using h.reindexes_of_stuck hmessage hstep
  | some t => simpa using (h.step hmessage hstep).2

end Runs

section Examples

instance decidableFollows (env : Environment) (uri : Bytes) (p : ParserState) (s : IndexedSession) :
    Decidable (s.Follows env uri p) :=
  inferInstanceAs (Decidable (∀ document ∈ s.manager.openDocuments.lookup uri,
    Holds (filePathFromUri uri) (parsedText env p document) s.pooled.service))

instance decidableReindexes (env : Environment) (uri : Bytes) (p : ParserState) (s : IndexedSession)
    (message : Message) : Decidable (Reindexes env uri p s message) :=
  match h : tryNotification env.codec message.fs.read message.now s.manager message.notification with
  | none => decidable_of_iff (s.Follows env uri p) (by simp only [Reindexes, h])
  | some manager =>
    decidable_of_iff
      (∀ document ∈ manager.openDocuments.lookup uri,
        s.pooled.service.openDocumentVersions.lookup (filePathFromUri uri).genericString ≠
            some document.version ∨
          Holds (filePathFromUri uri) (parsedText env p document) s.pooled.service)
      (by simp only [Reindexes, h])

def exampleUri : Bytes := ascii "file:///w/a.txt"

def exampleMessage (notification : Notification) : Message := ⟨notification, 0, oneFile (ascii "b")⟩

def indexedStart : IndexedSession := { pooled := indexed }

lemma ready_indexedStart : Ready (filePathFromUri exampleUri) exampleParser indexedStart.pooled := by
  rw [show filePathFromUri exampleUri = examplePath by decide]
  exact ready_indexed

def editedDocument : List Message :=
  [exampleMessage (.didOpen exampleUri (ascii "a") 1),
    exampleMessage (.didChange exampleUri 2 [⟨none, ascii "b"⟩]), exampleMessage (.didSave exampleUri none)]

def savedDocument : List Message :=
  [exampleMessage (.didOpen exampleUri (ascii "a") 1), exampleMessage (.didSave exampleUri none)]

lemma concernsDocument_of_mem {messages : List Message}
    (h : ∀ message ∈ messages, message.uri = exampleUri)
    (hclose : ∀ message ∈ messages, message.notification ≠ .didClose message.uri) :
    ∀ message ∈ messages, ConcernsDocument exampleUri message := by
  intro message hmessage
  refine ⟨h message hmessage, ?_⟩
  intro other hother
  apply hclose message hmessage
  rw [Message.uri, hother]

theorem edited_document_follows :
    Along (step asciiEnvironment)
      (fun s message => ∀ t ∈ step asciiEnvironment s message,
        t.Follows asciiEnvironment exampleUri exampleParser)
      indexedStart editedDocument := by
  have hmanager : indexedStart.manager = ([] : List (ℤ × Disk × Notification)).foldl
      (fun m entry => handleNotification asciiEnvironment.codec entry.2.1 entry.1 m entry.2.2) {} := rfl
  apply (follows_along_iff hmanager run_indexing ready_indexedStart
    (concernsDocument_of_mem (by decide) (by decide))).mpr
  decide

theorem saved_document_stays_behind :
    ¬ ∀ (env : Environment) (uri : Bytes) (p : ParserState) (history : List (ℤ × Disk × Notification))
      (before : List Event) (start : IndexedSession) (messages : List Message),
      start.manager = history.foldl
        (fun m entry => handleNotification env.codec entry.2.1 entry.1 m entry.2.2) {} →
      run (PooledService.step env) {} before = some start.pooled →
      Ready (filePathFromUri uri) p start.pooled →
      (∀ message ∈ messages, ConcernsDocument uri message) →
      Along (step env) (fun s message => ∀ t ∈ step env s message, t.Follows env uri p) start messages := by
  intro h
  have hfollows := h asciiEnvironment exampleUri exampleParser [] indexing indexedStart savedDocument rfl
    run_indexing ready_indexedStart (concernsDocument_of_mem (by decide) (by decide))
  exact absurd hfollows (by decide)

end Examples

end IndexedSession

end DltxtBridge.Crossref
