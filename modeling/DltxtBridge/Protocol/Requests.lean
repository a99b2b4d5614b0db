import DltxtBridge.Documents.Manager
import DltxtBridge.Library.StateAction
import DltxtBridge.Protocol.JsonRpc
import DltxtBridge.Protocol.Framing
import DltxtBridge.TextParser

/-! `bridge_local::handle_request`. An exception is an action that throws. -/

namespace DltxtBridge.Protocol

open Documents

inductive SessionDirective
  | none
  | markShutdownRequested
  | closeSession
deriving DecidableEq

structure RequestResult where
  forwardToRemote : Bool := false
  response : Option Json := none
  directive : SessionDirective := .none

namespace RequestResult

def errorResponse (id : Json) (code : ℤ) (message : Bytes) : RequestResult :=
  { response := some (Jsonrpc.createError id code message) }

def localResponse (response : Json) (directive : SessionDirective) : RequestResult :=
  { response := some response, directive := directive }

end RequestResult

/-- What the session calls outside the document manager, on a state of its own. -/
structure Host (κ : Type) where
  codec : Codec
  disk : κ → Disk
  now : κ → ℤ
  version : Bytes
  globalTextParser : κ → Option TextParser
  loadDocumentFastFromUri : Bytes → StateAction κ TextDocument
  setParserRegex : Json → List Bytes → List TextDocument → StateAction κ Unit
  scheduleOpenDocumentUpdate : TextDocument → StateAction κ Unit
  scheduleClosedDocumentRefresh : Bytes → StateAction κ Unit
  searchJson : TextDocument → ℤ → ℕ → StateAction κ Json

structure Workspace (κ : Type) where
  documentManager : DocumentManager := {}
  workspaceFolders : List Bytes := []
  host : κ

namespace Workspace

variable {κ : Type}

def setDocumentManager (m : DocumentManager) (w : Workspace κ) : Workspace κ := { w with documentManager := m }

def addWorkspaceFolder (w : Workspace κ) (folder : Bytes) : Workspace κ :=
  if folder ∈ w.workspaceFolders then w
  else { w with workspaceFolders := w.workspaceFolders ++ [folder] }

def removeWorkspaceFolder (w : Workspace κ) (folder : Bytes) : Workspace κ :=
  { w with workspaceFolders := w.workspaceFolders.filter (· ≠ folder) }

end Workspace

def uriKey : Bytes := ascii "uri"

def textKey : Bytes := ascii "text"

def textDocumentKey : Bytes := ascii "textDocument"

/-- `is_object`, `contains` and `is_string` in one. -/
def stringMember? (json : Json) (key : Bytes) : Option Bytes := (json.member? key).bind Json.getString

def workspaceFoldersFromInitializeParams (params : Json) : List Bytes :=
  let folders := (params.member (ascii "workspaceFolders")).elements.filterMap (stringMember? · uriKey)
  let folders := if folders = [] then (stringMember? params (ascii "rootUri")).toList else folders
  if folders = [] then
    (stringMember? params (ascii "rootPath")).toList.map fun path => fileUriFromPath (FsPath.ofBytes path)
  else folders

def parsePosition (position : Json) : Option Position :=
  match position.member? (ascii "line"), position.member? (ascii "character") with
  | some (.unsigned line), some (.unsigned character) => some ⟨line.toNat, character.toNat⟩
  | _, _ => none

def rangeFromJson (value : Json) : Option Range := do
  let start ← parsePosition (← value.value some (ascii "start") .emptyObject)
  let stop ← parsePosition (← value.value some (ascii "end") .emptyObject)
  return ⟨start, stop⟩

def contentChangesFromJson (params : Json) : List ContentChange :=
  (params.member (ascii "contentChanges")).elements.filterMap fun item =>
    (stringMember? item textKey).map fun text => ⟨rangeFromJson (item.member (ascii "range")), text⟩

def textDocumentUriFromParams (params : Json) : Bytes :=
  match stringMember? (params.member textDocumentKey) uriKey with
  | some uri => uri
  | none => (stringMember? params uriKey).getD []

def jsonTrue : Json := .boolean true

def localCapabilities : Json :=
  .object [(ascii "capabilities", .object
    [(ascii "textDocumentSync", .object
        [(ascii "change", .integer 2), (ascii "openClose", jsonTrue),
          (ascii "save", .object [(ascii "includeText", .boolean false)])]),
      (ascii "workspace", .object
        [(ascii "workspaceFolders", .object
          [(ascii "changeNotifications", jsonTrue), (ascii "supported", jsonTrue)])])])]

/-- A `dump()` in a log message. -/
def logged {σ : Type} (json : Json) : StateAction σ Unit :=
  if json.isDumpable then pure () else StateAction.throw

def utf16ToUtf8 (codec : Codec) (text : Text) : Option Bytes := codec.iconv utf16le utf8 (utf16leBytes text)

section Handlers

variable {κ : Type} (host : Host κ)

def modifyManager (f : DocumentManager → Option DocumentManager) : StateAction (Workspace κ) Unit := do
  let w ← StateAction.get
  let m ← StateAction.ofOption (f w.documentManager)
  StateAction.modify (Workspace.setDocumentManager m)

def handleDidOpen (params : Json) : StateAction (Workspace κ) Unit := do
  let textDocument ← StateAction.ofOption (params.value some textDocumentKey .emptyObject)
  match stringMember? textDocument uriKey, stringMember? textDocument textKey with
  | some uri, some text => do
    let version ← StateAction.ofOption (textDocument.value Json.getInt (ascii "version") 0)
    modifyManager (·.openFromLsp host.codec uri text version)
  | _, _ => pure ()

def handleDidChange (params : Json) : StateAction (Workspace κ) Unit := do
  let textDocument ← StateAction.ofOption (params.value some textDocumentKey .emptyObject)
  let version ← StateAction.ofOption (textDocument.value Json.getInt (ascii "version") 0)
  let changes ← StateAction.ofOption (textChangesFromJson host.codec (contentChangesFromJson params))
  modifyManager fun m => some (m.applyLspChanges (textDocumentUriFromParams params) version changes)

def handleDidSave (params : Json) : StateAction (Workspace κ) Unit := do
  let w ← StateAction.get
  let uri := textDocumentUriFromParams params
  match stringMember? params textKey with
  | some text =>
    modifyManager fun m => (m.updateSavedDocumentText host.codec uri text (host.now w.host)).map Prod.snd
  | none =>
    modifyManager fun m =>
      some (m.updateSavedDocumentFromDisk host.codec (host.disk w.host) uri (host.now w.host)).2

def handleDidClose (params : Json) : StateAction (Workspace κ) Unit :=
  modifyManager fun m => some (m.closeDocument (textDocumentUriFromParams params))

def handleDidChangeWorkspaceFolders (params : Json) : StateAction (Workspace κ) Unit :=
  let event := params.member (ascii "event")
  let added := (event.member (ascii "added")).elements.filterMap (stringMember? · uriKey)
  let removed := (event.member (ascii "removed")).elements.filterMap (stringMember? · uriKey)
  StateAction.modify fun w =>
    removed.foldl Workspace.removeWorkspaceFolder (added.foldl Workspace.addWorkspaceFolder w)

def groupsText (groups : MatchedGroups) : Option Bytes := do
  let prefixText ← utf16ToUtf8 host.codec groups.prefixText
  let white ← utf16ToUtf8 host.codec groups.white
  let text ← utf16ToUtf8 host.codec groups.text
  let suffix ← utf16ToUtf8 host.codec groups.suffix
  return ascii "[" ++ prefixText ++ ascii "][" ++ white ++ ascii "][" ++ text ++ ascii "][" ++ suffix ++ ascii "]"

def pairToJson (pair : ParsedPair) : Option Json := do
  let original ← groupsText host pair.original
  let translated ← groupsText host pair.translated
  return .object
    [(ascii "original", .string original), (ascii "originalLineIndex", .unsigned (.ofNat pair.originalLineIndex)),
      (ascii "translated", .string translated),
      (ascii "translatedLineIndex", .unsigned (.ofNat pair.translatedLineIndex))]

def documentContentUtf8ByUri (uri : Bytes) : StateAction (Workspace κ) (Option Bytes) := do
  let w ← StateAction.get
  match w.documentManager.openDocuments.lookup uri with
  | none => pure none
  | some document => do
    let content ← StateAction.ofOption (utf16ToUtf8 host.codec document.getContent)
    pure (some content)

def invalidUri : Bytes := ascii "Invalid params: missing or invalid 'uri' field"

def documentNotFound (uri : Bytes) : Bytes := ascii "Document not found for URI: " ++ uri

def contentResponse (id content : Json) : RequestResult :=
  .localResponse (Jsonrpc.createResponse id (.object [(ascii "content", content)])) .none

def handleGetDocumentContent (id params : Json) : StateAction (Workspace κ) RequestResult :=
  match stringMember? params uriKey with
  | none => pure (.errorResponse id (-32602) invalidUri)
  | some uri => do
    match ← documentContentUtf8ByUri host uri with
    | some content => pure (contentResponse id (.string content))
    | none => pure (.errorResponse id (-32602) (documentNotFound uri))

def handleGetParsedDocument (id params : Json) : StateAction (Workspace κ) RequestResult :=
  match stringMember? params uriKey with
  | none => pure (.errorResponse id (-32602) invalidUri)
  | some uri => do
    match ← documentContentUtf8ByUri host uri with
    | none => pure (.errorResponse id (-32602) (documentNotFound uri))
    | some content => do
      let w ← StateAction.get
      match host.globalTextParser w.host with
      | none => pure (.errorResponse id (-32603) (ascii "Internal error: unable to acquire text parser"))
      | some parser => do
        let text ← StateAction.ofOption (utf8ToUtf16 host.codec content)
        let pairs ← StateAction.ofOption (parser text)
        let parsedContent ← StateAction.ofOption (pairs.mapM (pairToJson host))
        pure (contentResponse id (.array parsedContent))

def notRecognized (method : Bytes) : Bytes := ascii "method " ++ method ++ ascii " is not recognized"

/-- The methods the source answers only when there is an id. -/
def handleIdentified (method : Bytes) (id params : Json) : StateAction (Workspace κ) RequestResult :=
  if method = ascii "dltxt/echo" then do
    let message ← StateAction.ofOption (params.value Json.getString (ascii "message") [])
    pure (.localResponse (Jsonrpc.createResponse id (.object [(ascii "result", .string message)])) .none)
  else if method = ascii "dltxt/version" then
    pure (.localResponse (Jsonrpc.createResponse id (.object [(ascii "version", .string host.version)])) .none)
  else if method = ascii "dltxt/get_document_content" then handleGetDocumentContent host id params
  else if method = ascii "dltxt/get_parsed_document" then handleGetParsedDocument host id params
  else if method = ascii "initialize" then do
    StateAction.modify fun w => { w with workspaceFolders := workspaceFoldersFromInitializeParams params }
    logged id
    pure (.localResponse (Jsonrpc.createResponse id localCapabilities) .none)
  else if method = ascii "shutdown" then do
    logged id
    pure (.localResponse (Jsonrpc.createResponse id .null) .markShutdownRequested)
  else pure (.errorResponse id (-32601) (notRecognized method))

def didOpen : Bytes := ascii "textDocument/didOpen"

def didChange : Bytes := ascii "textDocument/didChange"

def didSave : Bytes := ascii "textDocument/didSave"

def didClose : Bytes := ascii "textDocument/didClose"

def didChangeWorkspaceFolders : Bytes := ascii "workspace/didChangeWorkspaceFolders"

def initialized : Bytes := ascii "initialized"

def setTrace : Bytes := ascii "$/setTrace"

def exitMethod : Bytes := ascii "exit"

/-- The methods the source handles before it looks for an id. -/
def handleNotificationMethod (method : Bytes) (params : Json) : Option (StateAction (Workspace κ) RequestResult) :=
  if method = didOpen then some do
    handleDidOpen host params
    pure {}
  else if method = didChange then some do
    handleDidChange host params
    logged params
    pure {}
  else if method = didSave then some do
    handleDidSave host params
    logged params
    pure {}
  else if method = didClose then some do
    handleDidClose params
    logged params
    pure {}
  else if method = didChangeWorkspaceFolders then some do
    handleDidChangeWorkspaceFolders params
    logged params
    pure {}
  else if method = initialized ∨ method = setTrace then some do
    logged params
    pure {}
  else if method = exitMethod then some do
    logged params
    pure { directive := .closeSession }
  else none

def handleRequest (request : Json) : StateAction (Workspace κ) RequestResult :=
  match stringMember? request Jsonrpc.methodKey with
  | none => do
    let id ← StateAction.ofOption
      (request.value (fun id => if id.isNull then some id else none) Jsonrpc.idKey .null)
    pure (.errorResponse id (-32600) (ascii "Invalid Request: missing or invalid 'method' field"))
  | some method => do
    let params ← StateAction.ofOption (request.value some Jsonrpc.paramsKey .emptyObject)
    match handleNotificationMethod host method params with
    | some handled => handled
    | none =>
      match request.member? Jsonrpc.idKey with
      | none => pure {}
      | some id => handleIdentified host method id params

end Handlers

end DltxtBridge.Protocol
