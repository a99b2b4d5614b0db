import DltxtBridge.Protocol.Requests
import DltxtBridge.Protocol.ResponseManager

/-! `handle_local_session`: the loop over the incoming messages. Writes succeed, and the
JSON parser, a library outside the repository, is a parameter. -/

namespace DltxtBridge.Protocol

open Documents

/-- `written` is what the loop has written, and `scheduled` what it has left to coroutines
of their own. -/
structure Session (κ : Type) where
  workspace : Workspace κ
  responseManager : ResponseManager := {}
  clientInitialized : Bool := false
  pendingCrossrefIndexReady : Bool := false
  shutdownRequested : Bool := false
  written : List Json := []
  scheduled : List Json := []

namespace Session

variable {κ : Type}

def setWorkspace (w : Workspace κ) (s : Session κ) : Session κ := { s with workspace := w }

def scheduleCrossrefIndexReadyNotification (s : Session κ) : Session κ :=
  { s with scheduled := s.scheduled ++
      [Jsonrpc.createNotification (ascii "dltxt/crossref_index_ready") .emptyObject] }

def markClientInitialized (s : Session κ) : Session κ :=
  let marked := { s with clientInitialized := true, pendingCrossrefIndexReady := false }
  if s.pendingCrossrefIndexReady then marked.scheduleCrossrefIndexReadyNotification else marked

def initializedBy (method : Bytes) (s : Session κ) : Session κ :=
  if method = initialized then s.markClientInitialized else s

/-- `notify_crossref_index_ready` on an open session, which a rebuild calls. -/
def notifyCrossrefIndexReady (s : Session κ) : Session κ :=
  if !s.clientInitialized then { s with pendingCrossrefIndexReady := true }
  else s.scheduleCrossrefIndexReadyNotification

def direct (directive : SessionDirective) (s : Session κ) : Session κ :=
  if directive = .markShutdownRequested then { s with shutdownRequested := true } else s

def openDocumentsSnapshot (m : DocumentManager) : List TextDocument :=
  (m.openDocuments.keys.sort (· ≤ ·)).filterMap m.openDocuments.lookup

end Session

section Loop

variable {κ : Type} (host : Host κ)

def onWorkspace {α : Type} (x : StateAction (Workspace κ) α) : StateAction (Session κ) α :=
  StateAction.zoom Session.workspace Session.setWorkspace x

def onHost {α : Type} (x : StateAction κ α) : StateAction (Session κ) α :=
  onWorkspace (StateAction.zoom Workspace.host (fun host w => { w with host := host }) x)

def writeJsonMessage (message : Json) : StateAction (Session κ) Unit := do
  logged message
  StateAction.modify fun s => { s with written := s.written ++ [message] }

def writeJsonError (id : Json) (code : ℤ) (message : Bytes) : StateAction (Session κ) Unit :=
  writeJsonMessage (Jsonrpc.createError id code message)

def answer (request : Json) (reply : Json → Json) : StateAction (Session κ) Unit :=
  match request.member? Jsonrpc.idKey with
  | some id => writeJsonMessage (reply id)
  | none => pure ()

def answerError (request : Json) (code : ℤ) (message : Bytes) : StateAction (Session κ) Unit :=
  answer request fun id => Jsonrpc.createError id code message

def answerNull (request : Json) : StateAction (Session κ) Unit :=
  answer request fun id => Jsonrpc.createResponse id .null

def handleSetParserRegex (request params : Json) : StateAction (Session κ) Unit :=
  match params.member? (ascii "parserRegex") with
  | none => answerError request (-32602) (ascii "Invalid params: missing 'parserRegex' field")
  | some payload =>
    if payload.isNull then answerNull request
    else if payload.isObject then do
      let s ← StateAction.get
      onHost (host.setParserRegex payload s.workspace.workspaceFolders
        (Session.openDocumentsSnapshot s.workspace.documentManager))
      answerNull request
    else answerError request (-32602) (ascii "Invalid params: 'parserRegex' must be an object or null")

def matchesKey : Bytes := ascii "matches"

def noMatches : Json := .object [(matchesKey, .array [])]

def currentDocument (uri : Bytes) : StateAction (Session κ) (Option TextDocument) := do
  let s ← StateAction.get
  match s.workspace.documentManager.openDocuments.lookup uri with
  | some document => pure (some document)
  | none => StateAction.attempt (onHost (host.loadDocumentFastFromUri uri))

def handleGetSimilarText (id params : Json) : StateAction (Session κ) Unit :=
  match stringMember? params uriKey with
  | none => writeJsonError id (-32602) invalidUri
  | some uri => do
    let threshold ← StateAction.ofOption (params.value Json.getInt (ascii "threshold") 80)
    let limit ← StateAction.ofOption (params.value Json.getSize (ascii "limit") 10)
    logged id
    match ← currentDocument host uri with
    | none => writeJsonMessage (Jsonrpc.createResponse id noMatches)
    | some document => do
      let result ← onHost (host.searchJson document threshold limit)
      writeJsonMessage (Jsonrpc.createResponse id result)
      logged id

def notifyCrossref (method : Bytes) (params : Json) : StateAction (Session κ) Unit :=
  let uri := textDocumentUriFromParams params
  if method = didOpen ∨ method = didChange ∨ method = didSave then do
    let s ← StateAction.get
    match s.workspace.documentManager.openDocuments.lookup uri with
    | some document => onHost (host.scheduleOpenDocumentUpdate document)
    | none => pure ()
  else if method = didClose then onHost (host.scheduleClosedDocumentRefresh uri)
  else pure ()

def writeResponse (id : Json) (response : Option Json) : StateAction (Session κ) Unit :=
  match response with
  | some response => do
    logged id
    writeJsonMessage response
    logged id
  | none => pure ()

/-- The result says whether the loop ends. -/
def handleLocally (request : Json) (method : Bytes) (params : Json) : StateAction (Session κ) Bool := do
  let result ← onWorkspace (handleRequest host request)
  if result.forwardToRemote then do
    answerError request (-32601) (notRecognized method)
    pure false
  else do
    StateAction.modify (Session.initializedBy method)
    notifyCrossref host method params
    writeResponse (request.member Jsonrpc.idKey) result.response
    StateAction.modify (Session.direct result.directive)
    pure (result.directive = .closeSession)

def isJsonrpc (message : Json) : Bool := (message.member Jsonrpc.jsonrpcKey).equalsString Jsonrpc.protocolVersion

/-- A log message that reads the parameters of `didOpen` before they are handled. -/
def logRequest (request : Json) (method : Bytes) (params : Json) : StateAction (Session κ) Unit :=
  if method = didOpen then do
    let textDocument ← StateAction.ofOption (params.value some textDocumentKey .emptyObject)
    let _uri ← StateAction.ofOption (textDocument.value Json.getString uriKey [])
    pure ()
  else logged request

def handleMessage (request : Json) : StateAction (Session κ) Bool :=
  if !isJsonrpc request then do
    answerError request (-32600) (ascii "Invalid Request")
    pure false
  else
    match request.member? Jsonrpc.methodKey with
    | none => do
      answerError request (-32600) (ascii "Missing method")
      pure false
    | some method => do
      let method ← StateAction.ofOption method.getString
      let params ← StateAction.ofOption (request.value some Jsonrpc.paramsKey .emptyObject)
      logRequest request method params
      if method = ascii "dltxt/set_parser_regex" then do
        handleSetParserRegex host request params
        pure false
      else if method = ascii "dltxt/get_similar_text" then
        match request.member? Jsonrpc.idKey with
        | none => pure false
        | some id => do
          handleGetSimilarText host id params
          pure false
      else handleLocally host request method params

def tryStoreJsonrpcResponse (message : Json) (m : ResponseManager) : Option ResponseManager :=
  if !Jsonrpc.isValidJsonrpcResponse message then none
  else
    match Jsonrpc.requestIdFromJson (message.member Jsonrpc.idKey) with
    | none => none
    | some id =>
      if Jsonrpc.isTrackableRequestId id && (m.pendingResponses.lookup id).isSome then
        some (m.storeResponse id message)
      else none

/-- A message the loop takes for a response that nothing waits for. -/
def isUnmatchedResponse (message : Json) : Bool :=
  isJsonrpc message && message.contains Jsonrpc.idKey &&
    (message.contains Jsonrpc.resultKey || message.contains Jsonrpc.errorKey)

/-- The session is open while the loop runs. -/
structure SessionLoop (κ : Type) where
  session : Session κ
  isOpen : Bool := true

/-- The exception path: an error is written, and the loop ends when that throws too. -/
def handleException (request : Json) (s : Session κ) : SessionLoop κ where
  session := (answerError request (-32603) (ascii "Internal error") s).2
  isOpen := (answerError request (-32603) (ascii "Internal error") s).1.isSome

def handleRequestMessage (request : Json) (s : Session κ) : SessionLoop κ :=
  match tryStoreJsonrpcResponse request s.responseManager with
  | some m => { session := { s with responseManager := m } }
  | none =>
    if isUnmatchedResponse request then { session := s }
    else
      match (handleMessage host request s).1 with
      | some ended => { session := (handleMessage host request s).2, isOpen := !ended }
      | none => handleException request (handleMessage host request s).2

inductive SessionEvent
  | message (payload : Bytes)
  | crossrefIndexReady

variable (parse : Bytes → Option Json)

/-- The loop skips an empty payload and one that does not parse. -/
def received (payload : Bytes) : Option Json := if payload.isEmpty then none else parse payload

def handleEvent (s : Session κ) : SessionEvent → SessionLoop κ
  | .message payload =>
    match received parse payload with
    | none => { session := s }
    | some request => handleRequestMessage host request s
  | .crossrefIndexReady => { session := s.notifyCrossrefIndexReady }

def stepLoop (l : SessionLoop κ) (e : SessionEvent) : SessionLoop κ :=
  if l.isOpen then handleEvent host parse l.session e else l

def handleLocalSession (l : SessionLoop κ) (events : List SessionEvent) : SessionLoop κ :=
  events.foldl (stepLoop host parse) l

end Loop

end DltxtBridge.Protocol
