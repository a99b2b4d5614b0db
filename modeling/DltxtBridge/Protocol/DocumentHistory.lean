import DltxtBridge.Documents.ManagerRuns
import DltxtBridge.Protocol.EndToEnd
import DltxtBridge.Protocol.HandlerRules

namespace DltxtBridge.Protocol

open Documents StateAction TransitionSystem

/-- A log message has read the URI before the document is opened. -/
def didOpenNotification (params : Json) : Option Notification := do
  let textDocument ← params.value some textDocumentKey .emptyObject
  let _uri ← textDocument.value Json.getString uriKey []
  let uri ← stringMember? textDocument uriKey
  let text ← stringMember? textDocument textKey
  let version ← textDocument.value Json.getInt (ascii "version") 0
  return .didOpen uri text version

def didChangeNotification (params : Json) : Option Notification := do
  let textDocument ← params.value some textDocumentKey .emptyObject
  let version ← textDocument.value Json.getInt (ascii "version") 0
  return .didChange (textDocumentUriFromParams params) version (contentChangesFromJson params)

def notificationOf (method : Bytes) (params : Json) : Option Notification :=
  if method = didOpen then didOpenNotification params
  else if method = didChange then didChangeNotification params
  else if method = didSave then some (.didSave (textDocumentUriFromParams params) (stringMember? params textKey))
  else if method = didClose then some (.didClose (textDocumentUriFromParams params))
  else none

def requestNotification (request : Json) : Option Notification :=
  if isUnmatchedResponse request || !isJsonrpc request then none
  else do
    let method ← stringMember? request Jsonrpc.methodKey
    let params ← request.value some Jsonrpc.paramsKey .emptyObject
    notificationOf method params

def payloadNotification (parse : Bytes → Option Json) (payload : Bytes) : Option Notification :=
  (received parse payload).bind requestNotification

variable {κ E : Type} {host : Host κ} {parse : Bytes → Option Json} {dump : Json → Bytes}

def Session.documents (s : Session κ) : DocumentManager := s.workspace.documentManager

def Workspace.contents (w : Workspace κ) : DocumentManager × κ := (w.documentManager, w.host)

def Workspace.notified (host : Host κ) (w : Workspace κ) (notification : Option Notification) : DocumentManager × κ :=
  (notification.elim w.documentManager
    (handleNotification host.codec (host.disk w.host) (host.now w.host) w.documentManager), w.host)

section Handlers

variable {params request : Json} {w : Workspace κ}

lemma contents_modifyManager (f : DocumentManager → Option DocumentManager) (w : Workspace κ) :
    (modifyManager f w).2.contents = ((f w.documentManager).getD w.documentManager, w.host) := by
  have hread : (modifyManager f) w = (StateAction.ofOption (f w.documentManager) >>= fun m =>
      StateAction.modify (Workspace.setDocumentManager m)) w := rfl
  rw [hread]
  cases f w.documentManager <;> rfl

lemma stringMember?_of_value {json : Json} {key text : Bytes} (h : stringMember? json key = some text) :
    json.value Json.getString key [] = some text := by
  obtain ⟨found, hfound, htext⟩ := Option.bind_eq_some_iff.mp h
  cases json with
  | object members =>
    rw [Json.value]
    rw [Json.member?] at hfound
    rw [hfound]
    exact htext
  | _ => cases hfound

lemma contents_handleDidOpen :
    (handleDidOpen host params w).2.contents = w.notified host (didOpenNotification params) := by
  rw [handleDidOpen, didOpenNotification]
  cases params.value some textDocumentKey .emptyObject with
  | none => rfl
  | some textDocument =>
    simp only [bind_ofOption_some, Option.bind_eq_bind, Option.bind_some]
    cases huri : stringMember? textDocument uriKey with
    | none =>
      rw [Option.bind_none, Option.bind_fun_none]
      rfl
    | some uri =>
      rw [stringMember?_of_value huri, Option.bind_some, Option.bind_some]
      cases stringMember? textDocument textKey with
      | none => rfl
      | some text =>
        rw [Option.bind_some]
        cases textDocument.value Json.getInt (ascii "version") 0 with
        | none => rfl
        | some version => exact contents_modifyManager _ w

lemma contents_handleDidChange :
    (handleDidChange host params w).2.contents = w.notified host (didChangeNotification params) := by
  rw [handleDidChange, didChangeNotification]
  cases params.value some textDocumentKey .emptyObject with
  | none => rfl
  | some textDocument =>
    simp only [bind_ofOption_some, Option.bind_eq_bind, Option.bind_some]
    cases textDocument.value Json.getInt (ascii "version") 0 with
    | none => rfl
    | some version =>
      simp only [bind_ofOption_some, Option.bind_some, Workspace.notified, Option.pure_def, Option.elim_some,
        handleNotification]
      cases textChangesFromJson host.codec (contentChangesFromJson params) with
      | none => rfl
      | some changes => exact contents_modifyManager _ w

lemma contents_handleDidSave : (handleDidSave host params w).2.contents =
    w.notified host (some (.didSave (textDocumentUriFromParams params) (stringMember? params textKey))) := by
  cases htext : stringMember? params textKey with
  | none =>
    simp only [handleDidSave, htext]
    exact contents_modifyManager _ w
  | some text =>
    simp only [handleDidSave, htext]
    exact contents_modifyManager _ w

lemma contents_handleDidClose : (handleDidClose params w).2.contents =
    w.notified host (some (.didClose (textDocumentUriFromParams params))) :=
  contents_modifyManager _ w

lemma contents_documentContentUtf8ByUri (uri : Bytes) :
    Preserves Workspace.contents (documentContentUtf8ByUri host uri) := by
  rw [documentContentUtf8ByUri]
  apply Preserves.bind preserves_get
  intro w
  cases w.documentManager.openDocuments.lookup uri with
  | none => exact preserves_pure _
  | some document =>
    apply Preserves.bind (preserves_ofOption _)
    intro content
    exact preserves_pure _

lemma contents_handleGetDocumentContent (id : Json) :
    Preserves Workspace.contents (handleGetDocumentContent host id params) := by
  rw [handleGetDocumentContent]
  split
  · exact preserves_pure _
  · apply Preserves.bind (contents_documentContentUtf8ByUri _)
    intro content
    cases content with
    | none => exact preserves_pure _
    | some content => exact preserves_pure _

lemma contents_handleGetParsedDocument (id : Json) :
    Preserves Workspace.contents (handleGetParsedDocument host id params) := by
  rw [handleGetParsedDocument]
  split
  · exact preserves_pure _
  · apply Preserves.bind (contents_documentContentUtf8ByUri _)
    intro content
    cases content with
    | none => exact preserves_pure _
    | some content =>
      apply Preserves.bind preserves_get
      intro w
      cases host.globalTextParser w.host with
      | none => exact preserves_pure _
      | some parser =>
        apply Preserves.bind (preserves_ofOption _)
        intro text
        apply Preserves.bind (preserves_ofOption _)
        intro pairs
        apply Preserves.bind (preserves_ofOption _)
        intro parsedContent
        exact preserves_pure _

lemma contents_handleIdentified (method : Bytes) (id : Json) :
    Preserves Workspace.contents (handleIdentified host method id params) := by
  rw [handleIdentified]
  split_ifs
  · apply Preserves.bind (preserves_ofOption _)
    intro message
    exact preserves_pure _
  · exact preserves_pure _
  · exact contents_handleGetDocumentContent id
  · exact contents_handleGetParsedDocument id
  · apply Preserves.bind (fun w => rfl)
    intro _
    apply Preserves.bind (preserves_logged id)
    intro _
    exact preserves_pure _
  · apply Preserves.bind (preserves_logged id)
    intro _
    exact preserves_pure _
  · exact preserves_pure _

lemma contents_handleDidChangeWorkspaceFolders :
    Preserves Workspace.contents
      (handleDidChangeWorkspaceFolders params : StateAction (Workspace κ) Unit) := by
  have hadded : ∀ (folders : List Bytes) (w : Workspace κ),
      (folders.foldl Workspace.addWorkspaceFolder w).contents = w.contents := by
    apply observe_foldl
    intro w folder
    rw [Workspace.addWorkspaceFolder]
    split_ifs <;> rfl
  have hremoved : ∀ (folders : List Bytes) (w : Workspace κ),
      (folders.foldl Workspace.removeWorkspaceFolder w).contents = w.contents := observe_foldl fun _ _ => rfl
  intro w
  exact (hremoved _ _).trans (hadded _ w)

lemma contents_logged {x : StateAction (Workspace κ) Unit} (w : Workspace κ) :
    ((do x; logged params; pure {} : StateAction (Workspace κ) RequestResult) w).2.contents = (x w).2.contents := by
  apply observe_bind
  intro _
  apply Preserves.bind (preserves_logged params)
  intro _
  exact preserves_pure _

lemma contents_handleNotificationMethod {method : Bytes} {handled : StateAction (Workspace κ) RequestResult}
    (hhandled : handleNotificationMethod host method params = some handled) :
    (handled w).2.contents = w.notified host (notificationOf method params) := by
  rw [handleNotificationMethod] at hhandled
  rw [notificationOf]
  split_ifs at hhandled ⊢ with hopen hchange hsave hclose hfolders htrace hexit
  · cases hhandled
    rw [← contents_handleDidOpen]
    exact observe_bind (fun _ => preserves_pure _) w
  · cases hhandled
    exact (contents_logged w).trans contents_handleDidChange
  · cases hhandled
    exact (contents_logged w).trans contents_handleDidSave
  · cases hhandled
    exact (contents_logged w).trans contents_handleDidClose
  · cases hhandled
    exact (contents_logged w).trans (contents_handleDidChangeWorkspaceFolders w)
  · cases hhandled
    exact Preserves.bind (preserves_logged params) (fun _ => preserves_pure _) w
  · cases hhandled
    exact Preserves.bind (preserves_logged params) (fun _ => preserves_pure _) w

lemma notificationOf_eq_none {method : Bytes} (h : handleNotificationMethod host method params = none) :
    notificationOf method params = none := by
  rw [handleNotificationMethod_eq_none_iff] at h
  simp only [notificationMethods, List.mem_cons, not_or] at h
  simp [notificationOf, h]

lemma contents_handleRequest {method : Bytes} (hmethod : stringMember? request Jsonrpc.methodKey = some method)
    (hparams : request.value some Jsonrpc.paramsKey .emptyObject = some params) :
    (handleRequest host request w).2.contents = w.notified host (notificationOf method params) := by
  rw [handleRequest, hmethod]
  simp only [hparams, bind_ofOption_some]
  cases hhandled : handleNotificationMethod host method params with
  | some handled => exact contents_handleNotificationMethod hhandled
  | none =>
    rw [notificationOf_eq_none hhandled]
    cases request.member? Jsonrpc.idKey with
    | none => rfl
    | some id => exact contents_handleIdentified method id w

lemma exists_notified (host : Host κ) (request : Json) (w : Workspace κ) :
    ∃ notification, (handleRequest host request w).2.contents = w.notified host notification := by
  cases hmethod : stringMember? request Jsonrpc.methodKey with
  | none =>
    refine ⟨none, ?_⟩
    rw [handleRequest, hmethod]
    exact observe_bind (fun _ => preserves_pure _) w
  | some method =>
    cases hparams : request.value some Jsonrpc.paramsKey .emptyObject with
    | none =>
      refine ⟨none, ?_⟩
      rw [handleRequest, hmethod, hparams]
      rfl
    | some params => exact ⟨_, contents_handleRequest hmethod hparams⟩

end Handlers

section Messages

variable {request : Json} {s : Session κ}

lemma documentsRule (host : Host κ) : HandlerRule host fun s t : Session κ => t.documents = s.documents where
  refl _ := rfl
  trans _ _ _ hst htu := htu.trans hst
  writes _ _ := rfl
  stores _ _ := rfl
  directs s directive := by
    rw [Session.direct]
    split_ifs <;> rfl
  setParserRegex _ _ := rfl
  loads _ _ := rfl
  searches _ _ _ _ := rfl
  updates _ _ _ _ := rfl
  refreshes _ _ := rfl

lemma documents_initializedBy {method : Bytes} (s : Session κ) : (s.initializedBy method).documents = s.documents := by
  rw [Session.initializedBy]
  split_ifs
  · rw [Session.markClientInitialized]
    split_ifs <;> rfl
  · rfl

lemma logRequest_didOpen (params : Json) : (logRequest request didOpen params s).1 =
    ((params.value some textDocumentKey .emptyObject).bind (·.value Json.getString uriKey [])).map fun _ => () := by
  rw [logRequest, if_pos rfl]
  cases params.value some textDocumentKey .emptyObject with
  | none => rfl
  | some textDocument =>
    rw [bind_ofOption_some, Option.bind_some]
    cases textDocument.value Json.getString uriKey [] <;> rfl

lemma didOpenNotification_eq_none {params : Json}
    (h : (params.value some textDocumentKey .emptyObject).bind (·.value Json.getString uriKey []) = none) :
    didOpenNotification params = none := by
  rw [didOpenNotification]
  cases htextDocument : params.value some textDocumentKey .emptyObject with
  | none => rfl
  | some textDocument =>
    rw [htextDocument, Option.bind_some] at h
    simp only [Option.bind_eq_bind, Option.bind_some, h, Option.bind_none]

lemma notificationOf_of_unlogged (hdumpable : request.isDumpable) {method : Bytes} {params : Json}
    (hlog : (logRequest request method params s).1 = none) : notificationOf method params = none := by
  by_cases hopen : method = didOpen
  · subst hopen
    rw [logRequest_didOpen, Option.map_eq_none_iff] at hlog
    rw [notificationOf, if_pos rfl, didOpenNotification_eq_none hlog]
  · rw [logRequest, if_neg hopen] at hlog
    exact absurd hlog (neverThrows_logged hdumpable s)

lemma documents_handleMessage_of_method (hdumpable : request.isDumpable) (hjsonrpc : isJsonrpc request = true)
    {method : Bytes} (hmethod : stringMember? request Jsonrpc.methodKey = some method) {params : Json}
    (hparams : request.value some Jsonrpc.paramsKey .emptyObject = some params) :
    (handleMessage host request s).2.documents = (s.workspace.notified host (notificationOf method params)).1 := by
  obtain ⟨member, hmember, hname⟩ := Option.bind_eq_some_iff.mp hmethod
  rw [handleMessage, hjsonrpc, hmember]
  simp only [hname, hparams, bind_ofOption_some, Bool.not_true, Bool.false_eq_true, if_false]
  have := (documentsRule host).toIsPreorder
  have hsame : (logRequest request method params s).2 = s := (preserves_logRequest method params : Preserves id _) s
  cases hlog : (logRequest request method params s).1 with
  | none =>
    rw [bind_of_none hlog, hsame, notificationOf_of_unlogged hdumpable hlog]
    rfl
  | some _ =>
    rw [bind_of_some hlog, hsame]
    split_ifs with hregex hsimilar
    · subst hregex
      exact ((documentsRule host).moves_handleSetParserRegex params).bind (fun _ => moves_pure false) s
    · subst hsimilar
      cases request.member? Jsonrpc.idKey with
      | none => rfl
      | some id => exact ((documentsRule host).moves_handleGetSimilarText id params).bind (fun _ => moves_pure false) s
    · have hfinished : ∀ result, Preserves Session.documents (finishLocally host request method params result) :=
        (documentsRule host).moves_finishLocally documents_initializedBy params
      rw [handleLocally_eq, observe_bind hfinished]
      exact congrArg Prod.fst (@contents_handleRequest _ host _ request s.workspace _ hmethod hparams)

lemma documents_handleMessage (hdumpable : request.isDumpable) (hunmatched : isUnmatchedResponse request = false) :
    (handleMessage host request s).2.documents = (s.workspace.notified host (requestNotification request)).1 := by
  have := (documentsRule host).toIsPreorder
  rw [requestNotification, hunmatched, Bool.false_or]
  cases hjsonrpc : isJsonrpc request with
  | false =>
    rw [handleMessage, hjsonrpc]
    exact ((documentsRule host).moves_answer _).bind (fun _ => moves_pure false) s
  | true =>
    cases hmethod : stringMember? request Jsonrpc.methodKey with
    | some method =>
      obtain ⟨member, hmember, -⟩ := Option.bind_eq_some_iff.mp hmethod
      obtain ⟨params, hparams⟩ := Option.ne_none_iff_exists'.mp
        (value_ne_none hmember : request.value some Jsonrpc.paramsKey .emptyObject ≠ none)
      rw [hparams]
      exact documents_handleMessage_of_method hdumpable hjsonrpc hmethod hparams
    | none =>
      rw [handleMessage, hjsonrpc]
      cases hmember : request.member? Jsonrpc.methodKey with
      | none => exact ((documentsRule host).moves_answer _).bind (fun _ => moves_pure false) s
      | some member =>
        rw [stringMember?, hmember, Option.bind_some] at hmethod
        simp only [hmethod, Bool.not_true, Bool.false_eq_true, if_false]
        rfl

lemma documents_handleRequestMessage (hdumpable : request.isDumpable) :
    (handleRequestMessage host request s).session.documents =
      (s.workspace.notified host (requestNotification request)).1 := by
  rw [handleRequestMessage]
  cases hstored : tryStoreJsonrpcResponse request s.responseManager with
  | some m =>
    have hmethod : stringMember? request Jsonrpc.methodKey = none := by
      by_contra hmethod
      obtain ⟨method, hmethod⟩ := Option.ne_none_iff_exists'.mp hmethod
      rw [tryStoreJsonrpcResponse_eq_none hmethod] at hstored
      cases hstored
    have hnone : requestNotification request = none := by
      rw [requestNotification, hmethod]
      exact ite_self _
    rw [hnone]
    rfl
  | none =>
    cases hunmatched : isUnmatchedResponse request with
    | true =>
      have hnone : requestNotification request = none := by
        rw [requestNotification, hunmatched]
        rfl
      rw [hnone]
      rfl
    | false =>
      rw [← documents_handleMessage hdumpable hunmatched]
      simp only [Bool.false_eq_true, if_false]
      cases (handleMessage host request s).1 with
      | some ended => rfl
      | none => exact (documentsRule host).handleException_moves _

lemma documents_handleEvent (hparse : ∀ payload request, parse payload = some request → request.isDumpable)
    (payload : Bytes) : (handleEvent host parse s (.message payload)).session.documents =
      (s.workspace.notified host (payloadNotification parse payload)).1 := by
  rw [handleEvent, payloadNotification]
  cases hreceived : received parse payload with
  | none => rfl
  | some request => exact documents_handleRequestMessage (isDumpable_received hparse hreceived)

end Messages

section Runs

variable {events : List (Bridge.Event κ)} {input : Reader E} {workspace : Workspace κ} {b c : Bridge κ E}

def Bridge.Documented (host : Host κ) (parse : Bytes → Option Json) (b : Bridge κ E) : Prop :=
  ∃ history : History, history.map (fun entry => entry.2.2) = b.intake.popped.filterMap (payloadNotification parse) ∧
    b.loop.session.documents = managerAfter host.codec history

inductive Bridge.SessionStep (host : Host κ) (parse : Bytes → Option Json) (b c : Bridge κ E) : Bridge.Event κ → Prop
  | quiet (event : Bridge.Event κ) (hpopped : c.intake.popped = b.intake.popped)
    (hsession : c.loop.session = b.loop.session) : SessionStep host parse b c event
  | message (event : Intake.Event) (payload : Bytes) (hpopped : c.intake.popped = b.intake.popped ++ [payload])
    (hsession : c.loop.session = (handleEvent host parse b.loop.session (.message payload)).session) :
    SessionStep host parse b c (.input event)
  | indexReady (hpopped : c.intake.popped = b.intake.popped)
    (hsession : c.loop.session = b.loop.session.notifyCrossrefIndexReady) : SessionStep host parse b c .indexReady
  | background (change : κ → κ) (hpopped : c.intake.popped = b.intake.popped)
    (hsession : c.loop.session = (b.changeHost change).loop.session) : SessionStep host parse b c (.background change)

lemma Bridge.sessionStep_of_step {event : Bridge.Event κ} (hstep : b.step host parse dump event = some c) :
    SessionStep host parse b c event := by
  cases event with
  | input event =>
    obtain ⟨intake, hintake, ⟨hpops, rfl⟩ | ⟨-, hpop, rfl, rfl⟩⟩ := step_input_cases hstep
    · exact .quiet _ (congrArg LocalInputQueue.poppedMessages (inbox_of_not_pops hpops hintake)) rfl
    · rw [canPop, Bool.and_eq_true] at hpop
      have hpopped := popped_popRound b.intake
      cases hresult : b.intake.inbox.queue.popRound.1 with
      | none =>
        rw [hresult] at hpopped
        exact .quiet _ (hpopped.trans (List.append_nil _)) rfl
      | some result =>
        rw [hresult] at hpopped
        cases result with
        | failed error | endOfInput => exact .quiet _ (hpopped.trans (List.append_nil _)) rfl
        | message payload =>
          exact .message event payload hpopped (congrArg SessionLoop.session (loop_advance (b := { b with
            intake := { b.intake with inbox := b.intake.inbox.popRound } }) _ hpop.1))
  | write =>
    rw [step] at hstep
    split at hstep <;> cases hstep
    exact .quiet _ rfl rfl
  | notify =>
    rw [step] at hstep
    split at hstep
    · cases hstep
    · cases hstep
      split_ifs <;> exact .quiet _ rfl rfl
  | heartbeat =>
    rw [step, Option.ite_none_right_eq_some] at hstep
    obtain ⟨-, heq⟩ := hstep
    cases heq
    exact .quiet _ rfl rfl
  | indexReady =>
    cases hstep
    cases hopen : b.loop.isOpen with
    | false =>
      rw [advance_of_closed _ hopen]
      exact .quiet _ rfl rfl
    | true => exact .indexReady rfl (congrArg SessionLoop.session (loop_advance _ hopen))
  | background change =>
    cases hstep
    exact .background change rfl rfl

lemma documents_notifyCrossrefIndexReady (s : Session κ) : s.notifyCrossrefIndexReady.documents = s.documents := by
  rw [Session.notifyCrossrefIndexReady]
  split_ifs <;> rfl

lemma managerAfter_notified (host : Host κ) (w : Workspace κ) {history : History}
    (hdocuments : w.documentManager = managerAfter host.codec history) (notification : Option Notification) :
    ∃ handled : History, handled.map (fun entry => entry.2.2) = notification.toList ∧
      (w.notified host notification).1 = managerAfter host.codec (history ++ handled) := by
  cases notification with
  | none => exact ⟨[], rfl, by rw [List.append_nil]; exact hdocuments⟩
  | some notification =>
    refine ⟨[(host.now w.host, host.disk w.host, notification)], rfl, ?_⟩
    rw [managerAfter, List.foldl_append, ← managerAfter, ← hdocuments]
    rfl

lemma documented_step (hparse : ∀ payload request, parse payload = some request → request.isDumpable)
    (h : b.Documented host parse) {event : Bridge.Event κ} (hstep : b.step host parse dump event = some c) :
    c.Documented host parse := by
  obtain ⟨history, hhistory, hdocuments⟩ := h
  cases Bridge.sessionStep_of_step hstep with
  | quiet event hpopped hsession => exact ⟨history, hpopped.symm ▸ hhistory, hsession.symm ▸ hdocuments⟩
  | message event payload hpopped hsession =>
    obtain ⟨handled, hhandled, hafter⟩ :=
      managerAfter_notified host b.loop.session.workspace hdocuments (payloadNotification parse payload)
    refine ⟨history ++ handled, ?_, ?_⟩
    · rw [hpopped, List.map_append, hhistory, hhandled, List.filterMap_append]
      cases hnotification : payloadNotification parse payload <;> simp [hnotification]
    · rw [hsession, documents_handleEvent hparse, hafter]
  | indexReady hpopped hsession =>
    refine ⟨history, hpopped.symm ▸ hhistory, ?_⟩
    rw [hsession, documents_notifyCrossrefIndexReady, hdocuments]
  | background change hpopped hsession =>
    exact ⟨history, hpopped.symm ▸ hhistory, hsession.symm ▸ hdocuments⟩

lemma run_documented (hparse : ∀ payload request, parse payload = some request → request.isDumpable)
    (hdocuments : workspace.documentManager = {})
    (hrun : run (Bridge.step host parse dump) (Bridge.start input workspace) events = some b) :
    b.Documented host parse := by
  have hstart : (Bridge.start input workspace : Bridge κ E).Documented host parse := ⟨[], rfl, hdocuments⟩
  exact invariant (fun _ _ _ h hstep => documented_step hparse h hstep) hstart hrun

def streamNotifications (parse : Bytes → Option Json) (stream : Bytes) : List Notification :=
  (untilExit parse (streamMessages stream).1).filterMap (payloadNotification parse)

variable {stream : Bytes} {chunks : List Bytes} {atEnd : StreamEnd E}

/-- As long as no write fails; a closed session has handled all the notifications that it lives to see. -/
theorem documents_of_stream (hparse : ∀ payload request, parse payload = some request → request.isDumpable)
    (hdocuments : workspace.documentManager = {}) (hchunks : Chunking stream chunks)
    (hrun : run (Bridge.step host parse dump) (Bridge.start (readerOf atEnd chunks) workspace) events = some b) :
    ∃ history : History, b.loop.session.workspace.documentManager = managerAfter host.codec history ∧
      history.map (fun entry => entry.2.2) <+: streamNotifications parse stream ∧
      (b.isOpen = false → history.map (fun entry => entry.2.2) = streamNotifications parse stream) := by
  obtain ⟨history, hhistory, hmanager⟩ := run_documented hparse hdocuments hrun
  obtain ⟨hbegins, hended⟩ :=
    Bridge.popped_untilExit (Bridge.run_arriving hchunks hrun) (Bridge.run_answering hparse hrun)
  refine ⟨history, hmanager, ?_, fun hclosed => ?_⟩
  · rw [hhistory]
    exact hbegins.filterMap _
  · rw [Bridge.isOpen, Bool.or_eq_false_iff] at hclosed
    rw [hhistory, hended hclosed.1, streamNotifications]

lemma history_of_closed (hparse : ∀ payload request, parse payload = some request → request.isDumpable)
    (hdocuments : workspace.documentManager = {}) (hchunks : Chunking stream chunks)
    (hrun : run (Bridge.step host parse dump) (Bridge.start (readerOf atEnd chunks) workspace) events = some b)
    (hclosed : b.isOpen = false) :
    ∃ history : History, b.loop.session.workspace.documentManager = managerAfter host.codec history ∧
      history.map (fun entry => entry.2.2) = streamNotifications parse stream := by
  obtain ⟨history, hhistory, hmanager⟩ := run_documented hparse hdocuments hrun
  obtain ⟨-, hended⟩ := Bridge.popped_untilExit (Bridge.run_arriving hchunks hrun) (Bridge.run_answering hparse hrun)
  rw [Bridge.isOpen, Bool.or_eq_false_iff] at hclosed
  refine ⟨history, hmanager, ?_⟩
  rw [hhistory, hended hclosed.1, streamNotifications]

/-- As long as no write fails. -/
theorem documents_schedule_irrelevant {κ' E' : Type} {host' : Host κ'} {dump' : Json → Bytes}
    {chunks' : List Bytes} {atEnd' : StreamEnd E'} {workspace' : Workspace κ'} {events' : List (Bridge.Event κ')}
    {b' : Bridge κ' E'} (hparse : ∀ payload request, parse payload = some request → request.isDumpable)
    (hcodec : host'.codec = host.codec) (hdocuments : workspace.documentManager = {})
    (hdocuments' : workspace'.documentManager = {}) (hchunks : Chunking stream chunks)
    (hchunks' : Chunking stream chunks')
    (hrun : run (Bridge.step host parse dump) (Bridge.start (readerOf atEnd chunks) workspace) events = some b)
    (hrun' : run (Bridge.step host' parse dump') (Bridge.start (readerOf atEnd' chunks') workspace') events' = some b')
    (hclosed : b.isOpen = false) (hclosed' : b'.isOpen = false) :
    (∀ uri, b.loop.session.documents.openDocuments.lookup uri ≠ none ↔
      b'.loop.session.documents.openDocuments.lookup uri ≠ none) ∧
    ((∀ notification ∈ streamNotifications parse stream, ∀ uri text, notification ≠ .didSave uri text) →
      b.loop.session.documents = b'.loop.session.documents) := by
  obtain ⟨history, hmanager, hnotifications⟩ := history_of_closed hparse hdocuments hchunks hrun hclosed
  obtain ⟨history', hmanager', hnotifications'⟩ := history_of_closed hparse hdocuments' hchunks' hrun' hclosed'
  have hsame := hnotifications.trans hnotifications'.symm
  rw [hcodec] at hmanager'
  refine ⟨fun uri => ?_, fun hunsaved => ?_⟩
  · have hopens : ∀ history : History, history.filterMap (fun entry => entry.2.2.opens host.codec uri) =
        (history.map fun entry => entry.2.2).filterMap (Notification.opens host.codec uri) :=
      fun history => by rw [List.filterMap_map, Function.comp_def]
    rw [Session.documents, Session.documents, hmanager, hmanager', ← Option.isSome_iff_ne_none,
      ← Option.isSome_iff_ne_none, isSome_lookup_managerAfter, isSome_lookup_managerAfter, hopens, hopens, hsame]
  · rw [Session.documents, Session.documents, hmanager, hmanager']
    exact managerAfter_of_unsaved hsame (hnotifications.symm ▸ hunsaved)

end Runs

section Examples

def openingPayload : Bytes :=
  ascii "\x7b\"jsonrpc\":\"2.0\",\"method\":\"textDocument/didOpen\",\"params\":" ++
    ascii "\x7b\"textDocument\":\x7b\"text\":\"b\",\"uri\":\"file:///a\",\"version\":1\x7d\x7d\x7d"

def openingJson : Json :=
  .object [(Jsonrpc.jsonrpcKey, .ofString "2.0"), (Jsonrpc.methodKey, .string didOpen),
    (Jsonrpc.paramsKey, .object [(textDocumentKey, .object [(textKey, .ofString "b"), (uriKey, .ofString "file:///a"),
      (ascii "version", .unsigned 1)])])]

def parseOpening (payload : Bytes) : Option Json :=
  if payload = openingPayload then some openingJson else none

lemma isDumpable_parseOpening (payload : Bytes) (request : Json) (h : parseOpening payload = some request) :
    request.isDumpable := by
  rw [parseOpening, Option.ite_none_right_eq_some] at h
  obtain ⟨-, heq⟩ := h
  cases heq
  rfl

lemma chunking_opening : Chunking ([openingPayload].flatMap frameMessage) [frameMessage openingPayload] :=
  ⟨rfl, by decide +kernel⟩

abbrev stepOpening : Bridge Unit Unit → Bridge.Event Unit → Option (Bridge Unit Unit) :=
  Bridge.step idleHost parseOpening dumpStrings

abbrev startOpening : Bridge Unit Unit :=
  Bridge.start (readerOf .zeroBytes [frameMessage openingPayload]) { host := () }

def openingPosted (input : Reader Unit) : Bridge Unit Unit :=
  { startOpening with
    intake := { input := input, reading := false, posted := [.message openingPayload, .nullopt] } }

def readOpening : List (Bridge.Event Unit) := (List.replicate 2 .read).map .input

lemma run_readOpening : ∃ input, run stepOpening startOpening readOpening = some (openingPosted input) := by
  rw [readOpening, run_events_map]
  exact Bridge.run_reads_frames (by decide +kernel) chunking_opening _

def opensFirst : List (Bridge.Event Unit) :=
  [.input .deliver, .input .waitAndPop, .heartbeat, .input .deliver, .input .waitAndPop]

def endsFirst : List (Bridge.Event Unit) :=
  [.indexReady, .input .deliver, .input .deliver, .input .waitAndPop, .input .waitAndPop]

set_option maxRecDepth 4000 in
lemma closed_opensFirst (input : Reader Unit) :
    (run stepOpening (openingPosted input) opensFirst).map Bridge.isOpen = some false := rfl

set_option maxRecDepth 4000 in
lemma closed_endsFirst (input : Reader Unit) :
    (run stepOpening (openingPosted input) endsFirst).map Bridge.isOpen = some false := rfl

lemma run_opening {events : List (Bridge.Event Unit)}
    (hclosed : ∀ input, (run stepOpening (openingPosted input) events).map Bridge.isOpen = some false) :
    ∃ b, run stepOpening startOpening (readOpening ++ events) = some b ∧ b.isOpen = false := by
  obtain ⟨input, hread⟩ := run_readOpening
  obtain ⟨b, hb, hclosed⟩ := Option.map_eq_some_iff.mp (hclosed input)
  refine ⟨b, ?_, hclosed⟩
  rw [run_append, hread]
  exact hb

lemma streamNotifications_opening : streamNotifications parseOpening ([openingPayload].flatMap frameMessage) =
    [.didOpen (ascii "file:///a") (ascii "b") 1] := by
  rw [streamNotifications, Intake.streamMessages_frames (by decide +kernel)]
  decide +kernel

theorem documents_of_stream_opening :
    ∃ (b : Bridge Unit Unit) (history : History),
      b.loop.session.workspace.documentManager = managerAfter Documents.asciiCodec history ∧
      history.map (fun entry => entry.2.2) = [.didOpen (ascii "file:///a") (ascii "b") 1] := by
  obtain ⟨b, hrun, hclosed⟩ := run_opening closed_opensFirst
  obtain ⟨history, hmanager, -, hhandled⟩ :=
    documents_of_stream isDumpable_parseOpening rfl chunking_opening hrun
  exact ⟨b, history, hmanager, (hhandled hclosed).trans streamNotifications_opening⟩

theorem documents_schedule_irrelevant_opening :
    ∃ b b', run stepOpening startOpening (readOpening ++ opensFirst) = some b ∧
      run stepOpening startOpening (readOpening ++ endsFirst) = some b' ∧
      b.loop.session.documents = b'.loop.session.documents := by
  obtain ⟨b, hrun, hclosed⟩ := run_opening closed_opensFirst
  obtain ⟨b', hrun', hclosed'⟩ := run_opening closed_endsFirst
  refine ⟨b, b', hrun, hrun', ?_⟩
  refine (documents_schedule_irrelevant isDumpable_parseOpening rfl rfl rfl chunking_opening chunking_opening hrun
    hrun' hclosed hclosed').2 ?_
  rw [streamNotifications_opening, List.forall_mem_singleton]
  intro uri text h
  cases h

end Examples

end DltxtBridge.Protocol
