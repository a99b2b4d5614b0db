import DltxtBridge.Crossref.CatalogRuns
import DltxtBridge.Protocol.DocumentHistory
import DltxtBridge.Protocol.IndexReady
import DltxtBridge.Protocol.ParserPayload

namespace DltxtBridge.Protocol

open Crossref Documents StateAction TransitionSystem

/-- What the session shares with the pool, and what it sees of the outside. `rebuilds` counts the
rebuilds that have been written, `announced` the calls of their notifier. -/
structure Machine where
  pooled : PooledService := {}
  globalTextParser : Option TextParser := none
  fs : FileSystem
  now : ℤ := 0
  rebuilds : ℕ := 0
  announced : ℕ := 0

namespace Machine

inductive Event
  | runTask (position : ℕ)
  | failRebuild (position : ℕ)
  | writeDisk (fs : FileSystem)
  | tick (now : ℤ)

def setGlobalTextParser (parser : TextParser) (m : Machine) : Machine := { m with globalTextParser := some parser }

def mapPooled (f : PooledService → PooledService) (m : Machine) : Machine := { m with pooled := f m.pooled }

def announce (m : Machine) : Machine := { m with announced := m.announced + 1 }

variable (env : Environment)

def writesRebuild (m : Machine) (position : ℕ) : Bool :=
  match m.pooled.tasks[position]? with
  | some (.rebuild parserState generation workspaceFolders openDocuments) =>
    (buildStateFromSnapshot env m.fs workspaceFolders openDocuments parserState).isSome &&
      decide (m.pooled.service.hasStamp parserState.stamp ∧ generation = m.pooled.service.rebuildGeneration)
  | _ => false

def step (m : Machine) : Event → Option Machine
  | .runTask position =>
    (m.pooled.step env (.runTask position m.fs)).map fun pooled =>
      { m with pooled := pooled, rebuilds := m.rebuilds + if m.writesRebuild env position then 1 else 0 }
  | .failRebuild position => (m.pooled.step env (.failRebuild position)).map fun pooled => { m with pooled := pooled }
  | .writeDisk fs => some { m with fs := fs }
  | .tick now => some { m with now := now }

end Machine

/-- `search_json` reads the service in several sections while the pool goes on. -/
structure SearchTask (env : Environment) where
  searchJson : TextDocument → ℤ → ℕ → StateAction Machine Json
  reads : ∀ document threshold limit m,
    ∃ events, run (Machine.step env) m events = some (searchJson document threshold limit m).2

variable (env : Environment) (dump : Json → Bytes) (version : Bytes)

def setParserRegexOn (payload : Json) (workspaceFolders : List Bytes) (openDocuments : List TextDocument) :
    StateAction Machine Unit := do
  let config ← StateAction.ofOption (parserConfigFromJson payload).toOption
  logged payload
  let parser ← StateAction.ofOption (env.makeTextParser config)
  StateAction.modify (Machine.setGlobalTextParser parser)
  StateAction.modify (Machine.mapPooled (·.updateParserConfig ⟨config, dump payload⟩ workspaceFolders openDocuments))

def crossrefHost (search : SearchTask env) : Host Machine where
  codec := env.codec
  disk m := m.fs.read
  now m := m.now
  version := version
  globalTextParser m := m.globalTextParser
  loadDocumentFastFromUri uri := do
    let m ← StateAction.get
    StateAction.ofOption (loadFromFile env.codec m.fs.read (filePathFromUri uri))
  setParserRegex := setParserRegexOn env dump
  scheduleOpenDocumentUpdate document := StateAction.modify (Machine.mapPooled (·.scheduleOpenDocumentUpdate document))
  scheduleClosedDocumentRefresh uri := StateAction.modify (Machine.mapPooled (·.scheduleClosedDocumentRefresh uri))
  searchJson := search.searchJson

variable {E : Type}

def Bridge.machine (b : Bridge Machine E) : Machine := b.loop.session.workspace.host

def Bridge.Event.foreground {κ : Type} : Bridge.Event κ → Bool
  | .indexReady => false
  | .background _ => false
  | _ => true

namespace Process

inductive Event
  | input (event : Intake.Event)
  | write
  | notify
  | heartbeat
  | machine (event : Machine.Event)
  | indexReady

/-- The task of a rebuild calls the notifier once the rebuild is written. -/
def step (search : SearchTask env) (parse : Bytes → Option Json) (b : Bridge Machine E) :
    Event → Option (Bridge Machine E)
  | .input event => b.step (crossrefHost env dump version search) parse dump (.input event)
  | .write => b.step (crossrefHost env dump version search) parse dump .write
  | .notify => b.step (crossrefHost env dump version search) parse dump .notify
  | .heartbeat => b.step (crossrefHost env dump version search) parse dump .heartbeat
  | .machine event => (b.machine.step env event).map fun m => b.changeHost fun _ => m
  | .indexReady =>
    if b.machine.announced < b.machine.rebuilds then
      (b.changeHost Machine.announce).step (crossrefHost env dump version search) parse dump .indexReady
    else none

def start (input : Reader E) (fs : FileSystem) : Bridge Machine E := Bridge.start input { host := { fs := fs } }

end Process

section Rules

variable {env : Environment} {dump : Json → Bytes} {version : Bytes} {search : SearchTask env}
  {parse : Bytes → Option Json} {Q : Machine → Machine → Prop}

def Session.machine (s : Session Machine) : Machine := s.workspace.host

def NamedDocuments (m : DocumentManager) : Prop :=
  m.EveryOpen fun uri document => document.uri = uri ∧ document.filePath = filePathFromUri document.uri

lemma namedByUri_of_lookup {m : DocumentManager} (h : NamedDocuments m) {uri : Bytes} {document : TextDocument}
    (hdocument : m.openDocuments.lookup uri = some document) : NamedByUri document :=
  (h uri document hdocument).2

lemma namedByUri_of_snapshot {m : DocumentManager} (h : NamedDocuments m) :
    ∀ document ∈ Session.openDocumentsSnapshot m, NamedByUri document := by
  intro document hdocument
  obtain ⟨uri, -, hlookup⟩ := List.mem_filterMap.mp hdocument
  exact namedByUri_of_lookup h hlookup

/-- A relation that every call of the session and every step of the machine itself takes a step of. -/
structure MachineRule (env : Environment) (dump : Json → Bytes) (Q : Machine → Machine → Prop) : Prop
    extends IsPreorder Machine Q where
  sets : ∀ m payload workspaceFolders openDocuments, (∀ document ∈ openDocuments, NamedByUri document) →
    Q m (setParserRegexOn env dump payload workspaceFolders openDocuments m).2
  updates : ∀ m document, NamedByUri document → Q m (m.mapPooled (·.scheduleOpenDocumentUpdate document))
  refreshes : ∀ m uri, Q m (m.mapPooled (·.scheduleClosedDocumentRefresh uri))
  steps : ∀ m event n, m.step env event = some n → Q m n

def Moved (Q : Machine → Machine → Prop) (s t : Session Machine) : Prop :=
  NamedDocuments s.documents → NamedDocuments t.documents ∧ Q s.machine t.machine

namespace MachineRule

lemma run (h : MachineRule env dump Q) {m n : Machine} {events : List Machine.Event}
    (hrun : TransitionSystem.run (Machine.step env) m events = some n) : Q m n :=
  invariant (I := Q m) (fun _ event _ hm hstep => h.trans _ _ _ hm (h.steps _ event _ hstep)) (h.refl m) hrun

lemma moved_of_same (h : MachineRule env dump Q) {s t : Session Machine} (hdocuments : t.documents = s.documents)
    (hmachine : t.machine = s.machine) : Moved Q s t := by
  intro hnamed
  rw [hdocuments, hmachine]
  exact ⟨hnamed, h.refl _⟩

lemma handlerRule (h : MachineRule env dump Q) : HandlerRule (crossrefHost env dump version search) (Moved Q) where
  refl _ := h.moved_of_same rfl rfl
  trans _ _ _ hst htu hs := ⟨(htu (hst hs).1).1, h.trans _ _ _ (hst hs).2 (htu (hst hs).1).2⟩
  writes _ _ := h.moved_of_same rfl rfl
  stores _ _ := h.moved_of_same rfl rfl
  directs s directive := by
    rw [Session.direct]
    split_ifs <;> exact h.moved_of_same rfl rfl
  setParserRegex s payload hs := ⟨hs, h.sets _ payload _ _ (namedByUri_of_snapshot hs)⟩
  loads _ _ := h.moved_of_same rfl rfl
  searches s document threshold limit hs := by
    obtain ⟨events, hrun⟩ := search.reads document threshold limit s.machine
    exact ⟨hs, h.run hrun⟩
  updates s uri document hdocument hs := ⟨hs, h.updates _ document (namedByUri_of_lookup hs hdocument)⟩
  refreshes s uri hs := ⟨hs, h.refreshes _ uri⟩

lemma namedDocuments_notified (host : Host Machine) {w : Workspace Machine} (h : NamedDocuments w.documentManager)
    (notification : Option Notification) : NamedDocuments (w.notified host notification).1 := by
  cases notification with
  | none => exact h
  | some notification =>
    rw [Workspace.notified, Option.elim_some, handleNotification_eq]
    cases hnext : tryNotification host.codec (host.disk w.host) (host.now w.host) w.documentManager notification with
    | none => exact h
    | some next => exact h.step documentInvariant_uri hnext

lemma moves_handleRequest (h : MachineRule env dump Q) (request : Json) :
    Moves (Moved Q) (onWorkspace (handleRequest (crossrefHost env dump version search) request)) := by
  intro s hs
  obtain ⟨notification, hcontents⟩ := exists_notified (crossrefHost env dump version search) request s.workspace
  have hnamed := namedDocuments_notified (crossrefHost env dump version search) hs notification
  rw [← hcontents] at hnamed
  refine ⟨hnamed, ?_⟩
  have hmachine : (handleRequest (crossrefHost env dump version search) request s.workspace).2.host = s.machine :=
    congrArg Prod.snd hcontents
  exact hmachine.symm ▸ h.refl s.machine

lemma moved_handleEvent (h : MachineRule env dump Q) (s : Session Machine) (payload : Bytes) :
    Moved Q s (handleEvent (crossrefHost env dump version search) parse s (.message payload)).session := by
  rw [handleEvent]
  cases received parse payload with
  | none => exact h.moved_of_same rfl rfl
  | some request =>
    apply h.handlerRule.handleRequestMessage_moves
    intro _
    apply h.handlerRule.moves_handleMessage (h.moves_handleRequest request)
    intro method _ _ s
    refine h.moved_of_same (documents_initializedBy s) ?_
    rw [Session.initializedBy]
    split_ifs
    · rw [Session.markClientInitialized]
      split_ifs <;> rfl
    · rfl

end MachineRule

end Rules

section Steps

variable {env : Environment} {dump : Json → Bytes} {version : Bytes} {search : SearchTask env}
  {parse : Bytes → Option Json} {Q : Machine → Machine → Prop} {b c : Bridge Machine E}

inductive Process.Stepped (env : Environment) (dump : Json → Bytes) (version : Bytes) (search : SearchTask env)
    (parse : Bytes → Option Json) (b : Bridge Machine E) : Process.Event → Bridge Machine E → Prop
  | bridge (event : Process.Event) (taken : Bridge.Event Machine) (c : Bridge Machine E)
      (hforeground : taken.foreground)
      (hstep : b.step (crossrefHost env dump version search) parse dump taken = some c) :
      Stepped env dump version search parse b event c
  | machine (event : Machine.Event) (m : Machine) (hstep : b.machine.step env event = some m) :
      Stepped env dump version search parse b (.machine event) (b.changeHost fun _ => m)
  | indexReady (hdue : b.machine.announced < b.machine.rebuilds) (c : Bridge Machine E)
      (hstep : (b.changeHost Machine.announce).step (crossrefHost env dump version search) parse dump .indexReady =
        some c) : Stepped env dump version search parse b .indexReady c

lemma Process.stepped_of_step {event : Process.Event}
    (hstep : Process.step env dump version search parse b event = some c) :
    Process.Stepped env dump version search parse b event c := by
  cases event with
  | input event => exact .bridge _ (.input event) c rfl hstep
  | write => exact .bridge _ .write c rfl hstep
  | notify => exact .bridge _ .notify c rfl hstep
  | heartbeat => exact .bridge _ .heartbeat c rfl hstep
  | machine event =>
    obtain ⟨m, hm, rfl⟩ := Option.map_eq_some_iff.mp hstep
    exact .machine event m hm
  | indexReady =>
    rw [Process.step, Option.ite_none_right_eq_some] at hstep
    exact .indexReady hstep.1 c hstep.2

lemma machine_notifyCrossrefIndexReady (s : Session Machine) : s.notifyCrossrefIndexReady.machine = s.machine := by
  rw [Session.notifyCrossrefIndexReady]
  split_ifs <;> rfl

namespace MachineRule

lemma moved_bridge (h : MachineRule env dump Q) {taken : Bridge.Event Machine} (hforeground : taken.foreground)
    (hstep : b.step (crossrefHost env dump version search) parse dump taken = some c) :
    Moved Q b.loop.session c.loop.session := by
  cases Bridge.sessionStep_of_step hstep with
  | quiet event hpopped hsession => exact h.moved_of_same (congrArg _ hsession) (congrArg _ hsession)
  | message event payload hpopped hsession =>
    rw [hsession]
    exact h.moved_handleEvent b.loop.session payload
  | indexReady | background => cases hforeground

lemma moved_step (h : MachineRule env dump Q) (hannounce : ∀ m, m.announced < m.rebuilds → Q m m.announce)
    {event : Process.Event} (hstep : Process.step env dump version search parse b event = some c) :
    Moved Q b.loop.session c.loop.session := by
  cases Process.stepped_of_step hstep with
  | bridge event taken c hforeground hbridge => exact h.moved_bridge hforeground hbridge
  | machine event m hmachine => exact fun hnamed => ⟨hnamed, h.steps _ event m hmachine⟩
  | indexReady hdue c hbridge =>
    cases Bridge.sessionStep_of_step hbridge with
    | quiet event hpopped hsession =>
      rw [hsession]
      exact fun hnamed => ⟨hnamed, hannounce _ hdue⟩
    | indexReady hpopped hsession =>
      rw [hsession]
      intro hnamed
      rw [documents_notifyCrossrefIndexReady, machine_notifyCrossrefIndexReady]
      exact ⟨hnamed, hannounce _ hdue⟩

lemma moved_run (h : MachineRule env dump Q) (hannounce : ∀ m, m.announced < m.rebuilds → Q m m.announce)
    {input : Reader E} {fs : FileSystem} {events : List Process.Event}
    (hrun : TransitionSystem.run (Process.step env dump version search parse) (Process.start input fs) events =
      some b) : Q { fs := fs } b.machine := by
  have hstart : NamedDocuments (Process.start input fs).loop.session.documents := by
    intro uri document hdocument
    cases hdocument
  have hmoved : NamedDocuments b.loop.session.documents ∧ Q { fs := fs } b.machine :=
    invariant (I := fun b : Bridge Machine E => NamedDocuments b.loop.session.documents ∧ Q { fs := fs } b.machine)
      (fun _ _ _ hb hstep => ⟨(h.moved_step hannounce hstep hb.1).1,
        h.trans _ _ _ hb.2 (h.moved_step hannounce hstep hb.1).2⟩)
      ⟨hstart, h.refl _⟩ hrun
  exact hmoved.2

end MachineRule

end Steps

section Service

variable {env : Environment} {dump : Json → Bytes} {version : Bytes} {search : SearchTask env}
  {parse : Bytes → Option Json} {m n : Machine}

def Stamped (dump : Json → Bytes) (stamp : Bytes) (config : ParserConfig) : Prop :=
  ∃ payload, parserConfigFromJson payload = .ok config ∧ dump payload = stamp

lemma setParserRegexOn_cases (payload : Json) (workspaceFolders : List Bytes) (openDocuments : List TextDocument) :
    (setParserRegexOn env dump payload workspaceFolders openDocuments m).2 = m ∨
      ∃ config parser, parserConfigFromJson payload = .ok config ∧ env.makeTextParser config = some parser ∧
        (setParserRegexOn env dump payload workspaceFolders openDocuments m).2 =
          (m.setGlobalTextParser parser).mapPooled
            (·.updateParserConfig ⟨config, dump payload⟩ workspaceFolders openDocuments) := by
  rw [setParserRegexOn]
  cases hconfig : parserConfigFromJson payload with
  | error error => exact .inl rfl
  | ok config =>
    rw [Except.toOption, bind_ofOption_some, logged]
    split_ifs
    · cases hparser : env.makeTextParser config with
      | none => exact .inl rfl
      | some parser => exact .inr ⟨config, parser, rfl, hparser, rfl⟩
    · exact .inl rfl

def keepsSettings : Crossref.Event → Bool
  | .updateParserConfig _ _ _ => false
  | .clearParserConfig => false
  | _ => true

lemma settings_of_keepsSettings {s t : PooledService} {call : Crossref.Event} (hkeeps : keepsSettings call)
    (hstep : s.step env call = some t) :
    t.service.parserState = s.service.parserState ∧ t.service.rebuildGeneration = s.service.rebuildGeneration := by
  have heffect := PooledService.effect_of_step hstep
  generalize t.service = service at heffect ⊢
  cases heffect with
  | configured _ _ _ hevent | cleared hevent =>
    rw [hevent] at hkeeps
    cases hkeeps
  | unchanged | rebuilt | updated | unparsed | refreshed | erased => exact ⟨rfl, rfl⟩

lemma pooled_of_step {event : Machine.Event} (hstep : m.step env event = some n) :
    n.pooled = m.pooled ∨
      ∃ call : Crossref.Event, call.Named ∧ keepsSettings call ∧ m.pooled.step env call = some n.pooled := by
  cases event with
  | runTask position =>
    obtain ⟨pooled, hpooled, rfl⟩ := Option.map_eq_some_iff.mp hstep
    exact .inr ⟨.runTask position m.fs, trivial, rfl, hpooled⟩
  | failRebuild position =>
    obtain ⟨pooled, hpooled, rfl⟩ := Option.map_eq_some_iff.mp hstep
    exact .inr ⟨.failRebuild position, trivial, rfl, hpooled⟩
  | writeDisk | tick =>
    cases hstep
    exact .inl rfl

lemma frame_of_step {event : Machine.Event} (hstep : m.step env event = some n) :
    n.globalTextParser = m.globalTextParser ∧ n.announced = m.announced ∧ m.rebuilds ≤ n.rebuilds := by
  cases event with
  | runTask | failRebuild =>
    obtain ⟨pooled, -, rfl⟩ := Option.map_eq_some_iff.mp hstep
    exact ⟨rfl, rfl, by simp⟩
  | writeDisk | tick =>
    cases hstep
    exact ⟨rfl, rfl, le_rfl⟩

def Serves (env : Environment) (m n : Machine) : Prop :=
  ∃ calls : List Crossref.Event, (∀ call ∈ calls, call.Named) ∧
    run (PooledService.step env) m.pooled calls = some n.pooled

lemma serves_of_same (h : n.pooled = m.pooled) : Serves env m n := ⟨[], by simp, congrArg some h.symm⟩

lemma serves_call (call : Crossref.Event) (hnamed : call.Named) (hstep : m.pooled.step env call = some n.pooled) :
    Serves env m n :=
  ⟨[call], List.forall_mem_singleton.mpr hnamed, by rw [run_cons, hstep]; rfl⟩

lemma servesRule (env : Environment) (dump : Json → Bytes) : MachineRule env dump (Serves env) where
  refl _ := serves_of_same rfl
  trans := by
    rintro m n o ⟨calls, hcalls, hrun⟩ ⟨more, hmore, hrun'⟩
    refine ⟨calls ++ more, List.forall_mem_append.mpr ⟨hcalls, hmore⟩, ?_⟩
    rw [run_append, hrun]
    exact hrun'
  sets m payload workspaceFolders openDocuments hnamed := by
    obtain hsame | ⟨config, parser, -, -, hset⟩ :=
      @setParserRegexOn_cases env dump m payload workspaceFolders openDocuments
    · exact serves_of_same (congrArg Machine.pooled hsame)
    · rw [hset]
      exact serves_call (.updateParserConfig ⟨config, dump payload⟩ workspaceFolders openDocuments) hnamed rfl
  updates m document hnamed := serves_call (.scheduleOpenDocumentUpdate document) hnamed rfl
  refreshes m uri := serves_call (.scheduleClosedDocumentRefresh uri) trivial rfl
  steps m event n hstep := by
    rcases pooled_of_step hstep with hsame | ⟨call, hnamed, -, hcall⟩
    · exact serves_of_same hsame
    · exact serves_call call hnamed hcall

inductive ParsersAgree (env : Environment) (dump : Json → Bytes) (m : Machine) : Prop
  | unset (hglobal : m.globalTextParser = none) (hindex : m.pooled.service.parserState = none)
  | set {parserState : ParserState} {parser : TextParser} {config : ParserConfig}
      (hindex : m.pooled.service.parserState = some parserState)
      (hstamped : Stamped dump parserState.stamp parserState.config)
      (hglobal : m.globalTextParser = some parser) (hconfig : Stamped dump parserState.stamp config)
      (hparser : env.makeTextParser config = some parser)

lemma ParsersAgree.of_same (h : ParsersAgree env dump m) (hglobal : n.globalTextParser = m.globalTextParser)
    (hindex : n.pooled.service.parserState = m.pooled.service.parserState) : ParsersAgree env dump n := by
  cases h with
  | unset hglobal' hindex' => exact .unset (hglobal.trans hglobal') (hindex.trans hindex')
  | set hindex' hstamped hglobal' hconfig hparser =>
    exact .set (hindex.trans hindex') hstamped (hglobal.trans hglobal') hconfig hparser

lemma ParsersAgree.setParser (h : ParsersAgree env dump m) {payload : Json} {config : ParserConfig}
    {parser : TextParser} (hconfig : parserConfigFromJson payload = .ok config)
    (hparser : env.makeTextParser config = some parser) (workspaceFolders : List Bytes)
    (openDocuments : List TextDocument) :
    ParsersAgree env dump ((m.setGlobalTextParser parser).mapPooled
      (·.updateParserConfig ⟨config, dump payload⟩ workspaceFolders openDocuments)) := by
  by_cases hstamp : m.pooled.service.hasStamp (dump payload)
  · have hskipped : m.pooled.updateParserConfig ⟨config, dump payload⟩ workspaceFolders openDocuments = m.pooled :=
      if_pos hstamp
    cases h with
    | unset hglobal hindex =>
      rw [CrossrefService.hasStamp, hindex] at hstamp
      cases hstamp
    | set hindex hstamped hglobal hconfig' hparser' =>
      have hsame := hstamp
      rw [CrossrefService.hasStamp, hindex, Option.map_some, Option.some.injEq] at hsame
      have hindex' := (congrArg (fun pooled => pooled.service.parserState) hskipped).trans hindex
      exact .set hindex' hstamped rfl ⟨payload, hconfig, hsame.symm⟩ hparser
  · have hconfigured : (m.pooled.updateParserConfig ⟨config, dump payload⟩ workspaceFolders
        openDocuments).service.parserState = some ⟨config, dump payload⟩ := by
      rw [PooledService.updateParserConfig, if_neg hstamp]
      rfl
    exact .set hconfigured ⟨payload, hconfig, rfl⟩ rfl ⟨payload, hconfig, rfl⟩ hparser

lemma parsersRule (env : Environment) (dump : Json → Bytes) :
    MachineRule env dump fun m n => ParsersAgree env dump m → ParsersAgree env dump n where
  refl _ := id
  trans _ _ _ hmn hno := hno ∘ hmn
  sets m payload workspaceFolders openDocuments _ h := by
    obtain hsame | ⟨config, parser, hconfig, hparser, hset⟩ :=
      @setParserRegexOn_cases env dump m payload workspaceFolders openDocuments
    · exact hsame.symm ▸ h
    · rw [hset]
      exact h.setParser hconfig hparser workspaceFolders openDocuments
  updates m document hnamed h :=
    h.of_same rfl (@settings_of_keepsSettings env _ _ (.scheduleOpenDocumentUpdate document) rfl rfl).1
  refreshes m uri h :=
    h.of_same rfl (@settings_of_keepsSettings env _ _ (.scheduleClosedDocumentRefresh uri) rfl rfl).1
  steps m event n hstep h := by
    refine h.of_same (frame_of_step hstep).1 ?_
    rcases pooled_of_step hstep with hsame | ⟨call, -, hkeeps, hcall⟩
    · rw [hsame]
    · exact (settings_of_keepsSettings hkeeps hcall).1

end Service

section Rebuilds

variable {env : Environment} {dump : Json → Bytes} {m n : Machine}

def isRebuild : Task → Bool
  | .rebuild _ _ _ _ => true
  | _ => false

def Machine.rebuildsInSight (m : Machine) : ℕ := m.rebuilds + m.pooled.tasks.countP isRebuild

lemma countP_eraseIdx {α : Type} (p : α → Bool) {l : List α} {i : ℕ} {a : α} (ha : l[i]? = some a) :
    ((l.eraseIdx i).countP p + if p a then 1 else 0) = l.countP p := by
  obtain ⟨hi, rfl⟩ := List.getElem?_eq_some_iff.mp ha
  rw [← (List.getElem_cons_eraseIdx_perm hi).countP_eq p, List.countP_cons]

lemma isRebuild_of_writesRebuild {position : ℕ} {task : Task} (htask : m.pooled.tasks[position]? = some task)
    (hwrites : m.writesRebuild env position = true) : isRebuild task = true := by
  rw [Machine.writesRebuild, htask] at hwrites
  cases task with
  | rebuild => rfl
  | update | refresh => cases hwrites

lemma rebuildsInSight_of_step {event : Machine.Event} (hstep : m.step env event = some n) :
    n.rebuildsInSight ≤ m.rebuildsInSight := by
  cases event with
  | runTask position =>
    obtain ⟨pooled, hpooled, rfl⟩ := Option.map_eq_some_iff.mp hstep
    rw [PooledService.step, Option.bind_eq_some_iff] at hpooled
    obtain ⟨task, htask, hpooled⟩ := hpooled
    obtain ⟨service, -, rfl⟩ := Option.map_eq_some_iff.mp hpooled
    have hcount := countP_eraseIdx isRebuild htask
    rw [Machine.rebuildsInSight, Machine.rebuildsInSight]
    simp only
    cases hwrites : m.writesRebuild env position with
    | true =>
      rw [isRebuild_of_writesRebuild htask hwrites] at hcount
      simp only [if_true] at hcount ⊢
      omega
    | false =>
      simp only [Bool.false_eq_true, if_false]
      omega
  | failRebuild position =>
    obtain ⟨pooled, hpooled, rfl⟩ := Option.map_eq_some_iff.mp hstep
    rw [PooledService.step] at hpooled
    split at hpooled
    · rename_i htask
      cases hpooled
      have hcount := countP_eraseIdx isRebuild htask
      rw [Machine.rebuildsInSight, Machine.rebuildsInSight]
      simp only
      omega
    · cases hpooled
  | writeDisk | tick =>
    cases hstep
    exact le_rfl

structure Counts (m n : Machine) : Prop where
  announced : n.announced = m.announced
  rebuilds : m.rebuilds ≤ n.rebuilds
  inSight : m.rebuildsInSight ≤ m.pooled.service.rebuildGeneration →
    n.rebuildsInSight ≤ n.pooled.service.rebuildGeneration

lemma counts_mapPooled (f : PooledService → PooledService)
    (htasks : (f m.pooled).tasks.countP isRebuild = m.pooled.tasks.countP isRebuild)
    (hgeneration : (f m.pooled).service.rebuildGeneration = m.pooled.service.rebuildGeneration) :
    Counts m (m.mapPooled f) where
  announced := rfl
  rebuilds := le_rfl
  inSight h := by
    rw [Machine.rebuildsInSight] at h ⊢
    rw [Machine.mapPooled, hgeneration]
    exact htasks ▸ h

lemma countsRule (env : Environment) (dump : Json → Bytes) : MachineRule env dump Counts where
  refl _ := ⟨rfl, le_rfl, id⟩
  trans _ _ _ hmn hno := ⟨hno.announced.trans hmn.announced, hmn.rebuilds.trans hno.rebuilds, hno.inSight ∘ hmn.inSight⟩
  sets m payload workspaceFolders openDocuments _ := by
    obtain hsame | ⟨config, parser, -, -, hset⟩ :=
      @setParserRegexOn_cases env dump m payload workspaceFolders openDocuments
    · rw [hsame]
      exact ⟨rfl, le_rfl, id⟩
    · rw [hset]
      refine ⟨rfl, le_rfl, fun h => ?_⟩
      rw [Machine.rebuildsInSight] at h ⊢
      simp only [Machine.mapPooled, Machine.setGlobalTextParser]
      by_cases hstamp : m.pooled.service.hasStamp (dump payload)
      · rw [PooledService.updateParserConfig, if_pos hstamp]
        exact h
      · rw [PooledService.updateParserConfig, if_neg hstamp]
        simp only [List.countP_append, List.countP_singleton, isRebuild, if_true, CrossrefService.configure]
        omega
  updates m document _ := by
    refine counts_mapPooled _ ?_
      (@settings_of_keepsSettings env _ _ (.scheduleOpenDocumentUpdate document) rfl rfl).2
    rw [PooledService.scheduleOpenDocumentUpdate]
    split
    · rfl
    · split_ifs
      · simp [isRebuild]
      · rfl
  refreshes m uri := by
    refine counts_mapPooled _ ?_
      (@settings_of_keepsSettings env _ _ (.scheduleClosedDocumentRefresh uri) rfl rfl).2
    rw [PooledService.scheduleClosedDocumentRefresh]
    split
    · rfl
    · split_ifs
      · simp [isRebuild]
      · rfl
      · rfl
  steps m event n hstep := by
    obtain ⟨-, hannounced, hrebuilds⟩ := frame_of_step hstep
    refine ⟨hannounced, hrebuilds, fun h => (rebuildsInSight_of_step hstep).trans ?_⟩
    rcases pooled_of_step hstep with hsame | ⟨call, -, hkeeps, hcall⟩
    · rwa [hsame]
    · rwa [(settings_of_keepsSettings hkeeps hcall).2]

end Rebuilds

section Announcements

variable {κ : Type} {host : Host κ} {dump : Json → Bytes} {parse : Bytes → Option Json} {b c : Bridge κ E}

def Bridge.announcements (b : Bridge κ E) : ℕ :=
  (b.sentBy .indexReady).length + b.spawned.length + if b.loop.session.pendingCrossrefIndexReady then 1 else 0

lemma announcements_advance {event : SessionEvent} {added : List Json} (more : ℕ) (hopen : b.loop.isOpen = true)
    (hadded : (handleEvent host parse b.loop.session event).session.scheduled = b.loop.session.scheduled ++ added)
    (hmore : (added.length + if (handleEvent host parse b.loop.session event).session.pendingCrossrefIndexReady
      then 1 else 0) = more + if b.loop.session.pendingCrossrefIndexReady then 1 else 0) :
    (b.advance host parse event).announcements = b.announcements + more := by
  have hspawned : (b.advance host parse event).spawned = b.spawned ++ added := by
    rw [Bridge.advance, stepLoop, if_pos hopen]
    change b.spawned ++ _ = _
    rw [hadded, List.drop_left]
  rw [Bridge.announcements, Bridge.announcements, Bridge.loop_advance event hopen, hspawned, List.length_append]
  change (b.sentBy .indexReady).length + _ + _ = _
  omega

lemma announcements_message (hparse : ∀ payload request, parse payload = some request → request.isDumpable)
    (hopen : b.loop.isOpen = true) (payload : Bytes) :
    (b.advance host parse (.message payload)).announcements = b.announcements := by
  by_cases hpayload : initializes parse payload
  · have hevent := congrArg SessionLoop.session (handleEvent_initialized host hparse hpayload b.loop.session)
    have hmarked := @readiness_markClientInitialized _ b.loop.session _ _ _ rfl
    have hscheduled := (congrArg Session.scheduled hevent).trans (congrArg (fun readiness => readiness.2.2) hmarked)
    have hpending := (congrArg Session.pendingCrossrefIndexReady hevent).trans
      (congrArg (fun readiness => readiness.2.1) hmarked)
    refine announcements_advance 0 hopen hscheduled ?_
    rw [hpending]
    cases b.loop.session.pendingCrossrefIndexReady <;> rfl
  · have hsame := readiness_handleEvent host hpayload b.loop.session
    have hscheduled := (Bridge.scheduled_of_readiness hsame).trans (List.append_nil _).symm
    refine announcements_advance 0 hopen hscheduled ?_
    rw [show (handleEvent host parse b.loop.session (.message payload)).session.pendingCrossrefIndexReady = _ from
      congrArg (fun readiness => readiness.2.1) hsame]
    rfl

lemma announcements_indexReady : (b.advance host parse .crossrefIndexReady).announcements ≤ b.announcements + 1 := by
  cases hopen : b.loop.isOpen with
  | false =>
    rw [Bridge.advance_of_closed _ hopen]
    exact Nat.le_succ _
  | true =>
    cases hinitialized : b.loop.session.clientInitialized with
    | true =>
      have hready := @readiness_notify_initialized _ b.loop.session _ _ (Prod.ext hinitialized rfl)
      apply le_of_eq
      refine announcements_advance 1 hopen (congrArg (fun readiness => readiness.2.2) hready) ?_
      rw [show (handleEvent host parse b.loop.session .crossrefIndexReady).session.pendingCrossrefIndexReady = _ from
        congrArg (fun readiness => readiness.2.1) hready]
      rfl
    | false =>
      have hready := @readiness_notify_early _ b.loop.session _ _ (Prod.ext hinitialized rfl)
      have hpending : (handleEvent host parse b.loop.session .crossrefIndexReady).session.pendingCrossrefIndexReady =
          true := congrArg (fun readiness => readiness.2.1) hready
      have hscheduled : (handleEvent host parse b.loop.session .crossrefIndexReady).session.scheduled =
          b.loop.session.scheduled ++ [] :=
        (congrArg (fun readiness => readiness.2.2) hready).trans (List.append_nil _).symm
      cases hbefore : b.loop.session.pendingCrossrefIndexReady with
      | true =>
        refine (announcements_advance 0 hopen hscheduled ?_).le.trans
          (Nat.le_succ _)
        rw [hpending, hbefore]
        rfl
      | false =>
        refine (announcements_advance 1 hopen hscheduled ?_).le
        rw [hpending, hbefore]
        rfl

lemma sentBy_writeJsonMessage (dump : Json → Bytes) (b : Bridge κ E) (other sender : Sender) (message : Json) :
    (b.writeJsonMessage dump sender message).sentBy other =
      b.sentBy other ++ if sender = other then [message] else [] :=
  Bridge.sentBy_append other b (sender, message)

lemma announcements_writeOther {sender : Sender} (hsender : sender ≠ .indexReady) (message : Json) :
    (b.writeJsonMessage dump sender message).announcements = b.announcements := by
  rw [Bridge.announcements, sentBy_writeJsonMessage, if_neg hsender, List.append_nil]
  rfl

lemma announcements_foreground (hparse : ∀ payload request, parse payload = some request → request.isDumpable)
    {taken : Bridge.Event κ} (hforeground : taken.foreground) (hstep : b.step host parse dump taken = some c) :
    c.announcements ≤ b.announcements := by
  cases taken with
  | input event =>
    obtain ⟨intake, hintake, ⟨-, rfl⟩ | ⟨-, hpop, rfl, rfl⟩⟩ := Bridge.step_input_cases hstep
    · exact le_rfl
    · rw [Bridge.canPop, Bool.and_eq_true] at hpop
      cases b.intake.inbox.queue.popRound.1 with
      | none => exact le_rfl
      | some result =>
        cases result with
        | failed error | endOfInput => exact le_rfl
        | message payload =>
          exact (announcements_message (b := { b with intake := { b.intake with inbox := b.intake.inbox.popRound } })
            hparse hpop.1 payload).le
  | write =>
    rw [Bridge.step] at hstep
    split at hstep <;> cases hstep
    exact (announcements_writeOther (b := { b with outbox := _ }) (by decide) _).le
  | notify =>
    rw [Bridge.step] at hstep
    cases hspawned : b.spawned with
    | nil =>
      rw [hspawned] at hstep
      cases hstep
    | cons message rest =>
      rw [hspawned] at hstep
      cases hstep
      by_cases hopen : b.isOpen
      · rw [if_pos hopen]
        have hsent := congrArg List.length (sentBy_writeJsonMessage dump { b with spawned := rest }
          .indexReady .indexReady message)
        rw [if_pos rfl, List.length_append, List.length_singleton] at hsent
        rw [Bridge.announcements, hsent, Bridge.announcements, hspawned, List.length_cons]
        change (b.sentBy .indexReady).length + 1 + rest.length + _ ≤ _
        exact (congrArg (· + _) (Nat.add_right_comm _ 1 rest.length)).le
      · rw [if_neg hopen, Bridge.announcements, Bridge.announcements, hspawned, List.length_cons]
        exact Nat.add_le_add_right (Nat.le_succ _) _
  | heartbeat =>
    rw [Bridge.step, Option.ite_none_right_eq_some] at hstep
    obtain ⟨-, heq⟩ := hstep
    cases heq
    exact (announcements_writeOther (by decide) heartbeatMessage).le
  | indexReady | background => cases hforeground

end Announcements

section Runs

variable {env : Environment} {dump : Json → Bytes} {version : Bytes} {search : SearchTask env}
  {parse : Bytes → Option Json} {input : Reader E} {fs : FileSystem} {events : List Process.Event}
  {b c : Bridge Machine E}

theorem process_serves
    (hrun : run (Process.step env dump version search parse) (Process.start input fs) events = some b) :
    (∃ calls : List Crossref.Event, (∀ call ∈ calls, call.Named) ∧
      run (PooledService.step env) {} calls = some b.machine.pooled) ∧
    ∀ uri, (filePathFromUri uri).rootDirectory = true →
      isGitignored (filePathFromUri uri) b.machine.pooled.service.workspaceGitignoreRules false = true →
      b.machine.pooled.service.catalog (filePathFromUri uri).genericString = {} ∧
        ∀ id info, b.machine.pooled.service.lineInfos.lookup id = some info →
          info.fileName ≠ (filePathFromUri uri).genericString := by
  obtain ⟨calls, hnamed, hcalls⟩ := (servesRule env dump).moved_run (fun _ _ => serves_of_same rfl) hrun
  refine ⟨⟨calls, hnamed, hcalls⟩, fun uri habsolute hignored => ?_⟩
  have hconsistent := (PooledService.run_wellFormed hcalls).consistent
  have hconfined := PooledService.confined_abstract hnamed hcalls
  exact PooledService.untraced_of_confined hconfined hconsistent habsolute hignored

theorem parsers_agree
    (hrun : run (Process.step env dump version search parse) (Process.start input fs) events = some b) :
    ParsersAgree env dump b.machine :=
  (parsersRule env dump).moved_run (fun _ _ h => h.of_same rfl rfl) hrun (.unset rfl rfl)

lemma advance_indexReady (host : Host Machine) (parse : Bytes → Option Json) (b : Bridge Machine E) :
    (b.advance host parse .crossrefIndexReady).loop.session.documents = b.loop.session.documents ∧
      (b.advance host parse .crossrefIndexReady).machine = b.machine := by
  cases hopen : b.loop.isOpen with
  | false =>
    rw [Bridge.advance_of_closed _ hopen]
    exact ⟨rfl, rfl⟩
  | true =>
    rw [Bridge.machine, Bridge.loop_advance _ hopen]
    exact ⟨documents_notifyCrossrefIndexReady b.loop.session, machine_notifyCrossrefIndexReady b.loop.session⟩

structure Accounted (b : Bridge Machine E) : Prop where
  named : NamedDocuments b.loop.session.documents
  sent : b.announcements ≤ b.machine.announced
  announced : b.machine.announced ≤ b.machine.rebuilds
  rebuilds : b.machine.rebuildsInSight ≤ b.machine.pooled.service.rebuildGeneration

lemma Accounted.move (h : Accounted b) (hmoved : Moved Counts b.loop.session c.loop.session)
    (hsent : c.announcements ≤ b.announcements) : Accounted c := by
  obtain ⟨hnamed, hcounts⟩ := hmoved h.named
  have hannounced : c.machine.announced = b.machine.announced := hcounts.announced
  refine ⟨hnamed, ?_, ?_, hcounts.inSight h.rebuilds⟩
  · rw [hannounced]
    exact hsent.trans h.sent
  · rw [hannounced]
    exact h.announced.trans hcounts.rebuilds

lemma accounted_step (hparse : ∀ payload request, parse payload = some request → request.isDumpable)
    (h : Accounted b) {event : Process.Event}
    (hstep : Process.step env dump version search parse b event = some c) : Accounted c := by
  cases Process.stepped_of_step hstep with
  | bridge event taken c hforeground hbridge =>
    exact h.move ((countsRule env dump).moved_bridge hforeground hbridge)
      (announcements_foreground hparse hforeground hbridge)
  | machine event m hmachine =>
    exact h.move (fun hnamed => ⟨hnamed, (countsRule env dump).steps _ event m hmachine⟩) le_rfl
  | indexReady hdue c hbridge =>
    cases hbridge
    obtain ⟨hdocuments, hmachine⟩ :=
      advance_indexReady (crossrefHost env dump version search) parse (b.changeHost Machine.announce)
    have hsent := @announcements_indexReady E _ (crossrefHost env dump version search) parse
      (b.changeHost Machine.announce)
    refine ⟨hdocuments ▸ h.named, ?_, ?_, ?_⟩
    · rw [hmachine]
      exact hsent.trans (Nat.succ_le_succ h.sent)
    · rw [hmachine]
      exact hdue
    · rw [hmachine]
      exact h.rebuilds

theorem announcements_le_rebuilds (hparse : ∀ payload request, parse payload = some request → request.isDumpable)
    (hrun : run (Process.step env dump version search parse) (Process.start input fs) events = some b) :
    (b.sentBy .indexReady ++ b.spawned).length ≤ b.machine.rebuilds ∧
      b.machine.rebuilds ≤ b.machine.pooled.service.rebuildGeneration := by
  have hstart : Accounted (Process.start input fs : Bridge Machine E) := by
    refine ⟨?_, le_rfl, le_rfl, le_rfl⟩
    intro uri document hdocument
    cases hdocument
  have hend := invariant (fun _ _ _ h hstep => accounted_step hparse h hstep) hstart hrun
  refine ⟨?_, (Nat.le_add_right _ _).trans hend.rebuilds⟩
  rw [List.length_append]
  exact (Nat.le_add_right _ _).trans (hend.sent.trans hend.announced)

structure Traced (env : Environment) (dump : Json → Bytes) (version : Bytes) (search : SearchTask env)
    (parse : Bytes → Option Json) (start : Bridge Machine E) (taken : List (Bridge.Event Machine))
    (b : Bridge Machine E) : Prop where
  named : NamedDocuments b.loop.session.documents
  run : run (Bridge.step (crossrefHost env dump version search) parse dump) start taken = some b
  announced : taken.countP Bridge.Event.isIndexReady = b.machine.announced

lemma not_isIndexReady_of_foreground {κ : Type} {taken : Bridge.Event κ} (hforeground : taken.foreground) :
    taken.isIndexReady = false := by
  cases taken with
  | indexReady => cases hforeground
  | _ => rfl

lemma traced_step {first : Bridge Machine E} {taken : List (Bridge.Event Machine)}
    (h : Traced env dump version search parse first taken b) {event : Process.Event}
    (hstep : Process.step env dump version search parse b event = some c) :
    ∃ more, Traced env dump version search parse first (taken ++ more) c := by
  cases Process.stepped_of_step hstep with
  | bridge event next c hforeground hbridge =>
    obtain ⟨hnamed, hcounts⟩ := (countsRule env dump).moved_bridge hforeground hbridge h.named
    refine ⟨[next], hnamed, run_append_singleton h.run hbridge, ?_⟩
    rw [List.countP_append, List.countP_singleton, not_isIndexReady_of_foreground hforeground, h.announced]
    exact hcounts.announced.symm
  | machine event m hmachine =>
    refine ⟨[.background fun _ => m], h.named, run_append_singleton h.run rfl, ?_⟩
    rw [List.countP_append, List.countP_singleton, h.announced]
    exact (frame_of_step hmachine).2.1.symm
  | indexReady hdue c hbridge =>
    have hchanged := run_append_singleton h.run (show Bridge.step (crossrefHost env dump version search) parse dump b
      (.background Machine.announce) = some (b.changeHost Machine.announce) from rfl)
    cases hbridge
    obtain ⟨hdocuments, hmachine⟩ :=
      advance_indexReady (crossrefHost env dump version search) parse (b.changeHost Machine.announce)
    refine ⟨[.background Machine.announce] ++ [.indexReady], hdocuments ▸ h.named, ?_, ?_⟩
    · rw [← List.append_assoc]
      exact run_append_singleton hchanged rfl
    · rw [hmachine, List.countP_append, h.announced]
      rfl

theorem process_refines_bridge
    (hrun : run (Process.step env dump version search parse) (Process.start input fs) events = some b) :
    ∃ taken, run (Bridge.step (crossrefHost env dump version search) parse dump)
        (Bridge.start input { host := { fs := fs } }) taken = some b ∧
      taken.countP Bridge.Event.isIndexReady = b.machine.announced := by
  have hstart : Traced env dump version search parse (Process.start input fs : Bridge Machine E) []
      (Process.start input fs) := by
    refine ⟨?_, rfl, rfl⟩
    intro uri document hdocument
    cases hdocument
  obtain ⟨taken, htraced⟩ := invariant
    (I := fun b => ∃ taken, Traced env dump version search parse (Process.start input fs : Bridge Machine E) taken b)
    (fun _ _ _ ⟨taken, h⟩ hstep => (traced_step h hstep).imp' (taken ++ ·) fun _ => id) ⟨[], hstart⟩ hrun
  exact ⟨taken, htraced.run, htraced.announced⟩

end Runs

section Examples

def foldersPayload : Bytes :=
  ascii "\x7b\"jsonrpc\":\"2.0\",\"method\":\"workspace/didChangeWorkspaceFolders\",\"params\":" ++
    ascii "\x7b\"event\":\x7b\"added\":[\x7b\"uri\":\"file:///w\"\x7d]\x7d\x7d\x7d"

def foldersJson : Json :=
  .object [(Jsonrpc.jsonrpcKey, .ofString "2.0"), (Jsonrpc.methodKey, .string didChangeWorkspaceFolders),
    (Jsonrpc.paramsKey, .object [(ascii "event", .object
      [(ascii "added", .array [.object [(uriKey, .ofString "file:///w")]])])])]

def settingsPayload : Bytes :=
  ascii "\x7b\"jsonrpc\":\"2.0\",\"method\":\"dltxt/set_parser_regex\",\"params\":\x7b\"parserRegex\":" ++
    ascii "\x7b\"originalPrefixRegex\":\"a\",\"translatedPrefixRegex\":\"b\"\x7d\x7d\x7d"

def settingsJson : Json :=
  .object [(Jsonrpc.jsonrpcKey, .ofString "2.0"), (Jsonrpc.methodKey, .ofString "dltxt/set_parser_regex"),
    (Jsonrpc.paramsKey, .object [(ascii "parserRegex", .object
      [(ascii "originalPrefixRegex", .ofString "a"), (ascii "translatedPrefixRegex", .ofString "b")])])]

def parseSettings (payload : Bytes) : Option Json :=
  if payload = foldersPayload then some foldersJson
  else if payload = settingsPayload then some settingsJson
  else none

lemma isDumpable_parseSettings (payload : Bytes) (request : Json) (h : parseSettings payload = some request) :
    request.isDumpable := by
  rw [parseSettings] at h
  split_ifs at h <;> cases h <;> rfl

def idleSearch : SearchTask Crossref.asciiEnvironment where
  searchJson _ _ _ := pure noMatches
  reads _ _ _ _ := ⟨[], rfl⟩

abbrev stepSettings : Bridge Machine Unit → Process.Event → Option (Bridge Machine Unit) :=
  Process.step Crossref.asciiEnvironment dumpStrings (ascii "0") idleSearch parseSettings

def settingsPayloads : List Bytes := [foldersPayload, settingsPayload]

def settingsChunks : List Bytes := [frameMessage foldersPayload, frameMessage settingsPayload]

lemma chunking_settings : Chunking (settingsPayloads.flatMap frameMessage) settingsChunks :=
  ⟨rfl, by decide +kernel⟩

abbrev startSettings : Bridge Machine Unit := Process.start (readerOf .zeroBytes settingsChunks) ignoredFile

def readSettings : List Process.Event := (List.replicate 3 .read).map .input

def settingsPosted (input : Reader Unit) : Bridge Machine Unit :=
  { startSettings with
    intake := { input := input, reading := false, posted := settingsPayloads.map .message ++ [.nullopt] } }

lemma run_readSettings : ∃ input, run stepSettings startSettings readSettings = some (settingsPosted input) := by
  rw [readSettings, run_events_map]
  exact @Bridge.run_reads_frames Machine Unit _ parseSettings dumpStrings settingsPayloads (by decide +kernel) _
    chunking_settings _

def popSettings : List Process.Event :=
  [.input .deliver, .input .waitAndPop, .input .deliver, .input .waitAndPop]

def settingsConfig : ParserConfig where
  standard := some ⟨ascii "a", ascii "b", [], [], [], [], []⟩

def configured : Machine where
  pooled := ({} : PooledService).updateParserConfig
    ⟨settingsConfig, ascii "\x7b\"originalPrefixRegex\":\"a\",\"translatedPrefixRegex\":\"b\"\x7d"⟩
    [ascii "file:///w"] (Session.openDocumentsSnapshot {})
  globalTextParser := some wholeText
  fs := ignoredFile

set_option maxRecDepth 8000 in
lemma run_popSettings (input : Reader Unit) :
    (run stepSettings (settingsPosted input) popSettings).map Bridge.machine = some configured := by
  rfl

lemma run_configured : ∃ u, run stepSettings startSettings (readSettings ++ popSettings) = some u ∧
    u.machine = configured := by
  obtain ⟨input, hread⟩ := run_readSettings
  obtain ⟨u, hu, hmachine⟩ := Option.map_eq_some_iff.mp (run_popSettings input)
  refine ⟨u, ?_, hmachine⟩
  rw [run_append, hread]
  exact hu

lemma step_configured : ∃ m, configured.step Crossref.asciiEnvironment (.runTask 0) = some m ∧ m.rebuilds = 1 ∧
    m.announced = 0 ∧ isGitignored (filePathFromUri (ascii "file:///w/a.txt"))
      m.pooled.service.workspaceGitignoreRules false = true := by
  have hrebuilt : (configured.step Crossref.asciiEnvironment (.runTask 0)).map (fun m => (m.rebuilds, m.announced,
      isGitignored (filePathFromUri (ascii "file:///w/a.txt")) m.pooled.service.workspaceGitignoreRules false)) =
      some (1, 0, true) := by decide +kernel
  obtain ⟨m, hm, hcounts⟩ := Option.map_eq_some_iff.mp hrebuilt
  simp only [Prod.mk.injEq] at hcounts
  exact ⟨m, hm, hcounts⟩

def settingsEvents : List Process.Event := (readSettings ++ popSettings) ++ [.machine (.runTask 0)] ++ [.indexReady]

lemma run_settings : ∃ b, run stepSettings startSettings settingsEvents = some b ∧ b.machine.rebuilds = 1 ∧
    b.machine.announced = 1 ∧ isGitignored (filePathFromUri (ascii "file:///w/a.txt"))
      b.machine.pooled.service.workspaceGitignoreRules false = true := by
  obtain ⟨u, hu, hconfigured⟩ := run_configured
  obtain ⟨m, hm, hrebuilds, hannounced, hignored⟩ := step_configured
  have hrebuilt : stepSettings u (.machine (.runTask 0)) = some (u.changeHost fun _ => m) := by
    rw [stepSettings, Process.step, hconfigured, hm]
    rfl
  have hnotified : stepSettings (u.changeHost fun _ => m) .indexReady =
      some (((u.changeHost fun _ => m).changeHost Machine.announce).advance _ parseSettings .crossrefIndexReady) :=
    if_pos (show m.announced < m.rebuilds by omega)
  refine ⟨_, run_append_singleton (run_append_singleton hu hrebuilt) hnotified, ?_⟩
  rw [(advance_indexReady _ parseSettings _).2]
  exact ⟨hrebuilds, congrArg (· + 1) hannounced, hignored⟩

theorem process_serves_rebuild :
    ∃ b : Bridge Machine Unit, b.machine.rebuilds = 1 ∧
      b.machine.pooled.service.catalog (ascii "/w/a.txt") = {} := by
  obtain ⟨b, hrun, hrebuilds, -, hignored⟩ := run_settings
  exact ⟨b, hrebuilds, ((process_serves hrun).2 _ (by decide) hignored).1⟩

theorem parsers_agree_rebuild :
    ∃ b : Bridge Machine Unit, b.machine.rebuilds = 1 ∧
      ParsersAgree Crossref.asciiEnvironment dumpStrings b.machine := by
  obtain ⟨b, hrun, hrebuilds, -, -⟩ := run_settings
  exact ⟨b, hrebuilds, parsers_agree hrun⟩

theorem announcements_le_rebuilds_once :
    ∃ b : Bridge Machine Unit, b.machine.rebuilds = 1 ∧
      (b.sentBy .indexReady ++ b.spawned).length ≤ b.machine.rebuilds := by
  obtain ⟨b, hrun, hrebuilds, -, -⟩ := run_settings
  exact ⟨b, hrebuilds, (announcements_le_rebuilds isDumpable_parseSettings hrun).1⟩

theorem process_refines_bridge_rebuild :
    ∃ (b : Bridge Machine Unit) (taken : List (Bridge.Event Machine)),
      run (Bridge.step (crossrefHost Crossref.asciiEnvironment dumpStrings (ascii "0") idleSearch) parseSettings
          dumpStrings) (Bridge.start (readerOf .zeroBytes settingsChunks) { host := { fs := ignoredFile } }) taken =
        some b ∧
      taken.countP Bridge.Event.isIndexReady = 1 := by
  obtain ⟨b, hrun, -, hannounced, -⟩ := run_settings
  obtain ⟨taken, htaken, hcount⟩ := process_refines_bridge hrun
  exact ⟨b, taken, htaken, hcount.trans hannounced⟩

end Examples

end DltxtBridge.Protocol
