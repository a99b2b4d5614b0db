import DltxtBridge.Protocol.Replies

namespace DltxtBridge.Protocol

open StateAction

variable {κ : Type} {host : Host κ} {R : Session κ → Session κ → Prop} {request : Json}

structure HandlerRule (host : Host κ) (R : Session κ → Session κ → Prop) : Prop extends IsPreorder (Session κ) R where
  writes : ∀ s message, R s { s with written := s.written ++ [message] }
  stores : ∀ s m, R s { s with responseManager := m }
  directs : ∀ s directive, R s (s.direct directive)
  setParserRegex : ∀ s payload, R s (onHost (host.setParserRegex payload s.workspace.workspaceFolders
    (Session.openDocumentsSnapshot s.workspace.documentManager)) s).2
  loads : ∀ s uri, R s (onHost (host.loadDocumentFastFromUri uri) s).2
  searches : ∀ s document threshold limit, R s (onHost (host.searchJson document threshold limit) s).2
  updates : ∀ s uri document, s.workspace.documentManager.openDocuments.lookup uri = some document →
    R s (onHost (host.scheduleOpenDocumentUpdate document) s).2
  refreshes : ∀ s uri, R s (onHost (host.scheduleClosedDocumentRefresh uri) s).2

def finishLocally (host : Host κ) (request : Json) (method : Bytes) (params : Json) (result : RequestResult) :
    StateAction (Session κ) Bool :=
  if result.forwardToRemote then do
    answerError request (-32601) (notRecognized method)
    pure false
  else do
    StateAction.modify (Session.initializedBy method)
    notifyCrossref host method params
    writeResponse (request.member Jsonrpc.idKey) result.response
    StateAction.modify (Session.direct result.directive)
    pure (result.directive = .closeSession)

lemma handleLocally_eq (method : Bytes) (params : Json) :
    handleLocally host request method params =
      (onWorkspace (handleRequest host request) >>= finishLocally host request method params) := rfl

namespace HandlerRule

lemma moves_logged (h : HandlerRule host R) (json : Json) : Moves R (logged json : StateAction (Session κ) Unit) :=
  have := h.toIsPreorder
  Preserves.moves (preserves_logged json)

lemma moves_writeJsonMessage (h : HandlerRule host R) (message : Json) :
    Moves R (writeJsonMessage message : StateAction (Session κ) Unit) := by
  have := h.toIsPreorder
  apply (h.moves_logged message).bind
  intro _ s
  exact h.writes s message

lemma moves_answer (h : HandlerRule host R) (reply : Json → Json) :
    Moves R (answer request reply : StateAction (Session κ) Unit) := by
  have := h.toIsPreorder
  rw [answer]
  split
  · exact h.moves_writeJsonMessage _
  · exact moves_pure ()

lemma moves_handleSetParserRegex (h : HandlerRule host R) (params : Json) :
    Moves R (handleSetParserRegex host request params) := by
  have := h.toIsPreorder
  rw [handleSetParserRegex]
  split
  · exact h.moves_answer _
  · rename_i payload _
    split_ifs
    · exact h.moves_answer _
    · apply moves_get_bind
      intro s
      have hfirst := h.setParserRegex s payload
      cases hresult : (onHost (host.setParserRegex payload s.workspace.workspaceFolders
          (Session.openDocumentsSnapshot s.workspace.documentManager)) s).1 with
      | none =>
        rw [bind_of_none hresult]
        exact hfirst
      | some _ =>
        rw [bind_of_some hresult]
        exact IsTrans.trans _ _ _ hfirst (h.moves_answer _ _)
    · exact h.moves_answer _

lemma moves_currentDocument (h : HandlerRule host R) (uri : Bytes) : Moves R (currentDocument host uri) := by
  have := h.toIsPreorder
  rw [currentDocument]
  apply moves_get_bind
  intro s
  cases s.workspace.documentManager.openDocuments.lookup uri with
  | some document => exact moves_pure (some document) s
  | none => exact h.loads s uri

lemma moves_handleGetSimilarText (h : HandlerRule host R) (id params : Json) :
    Moves R (handleGetSimilarText host id params) := by
  have := h.toIsPreorder
  rw [handleGetSimilarText]
  cases stringMember? params uriKey with
  | none => exact h.moves_writeJsonMessage _
  | some uri =>
    apply (moves_ofOption (R := R) _).bind
    intro threshold
    apply (moves_ofOption (R := R) _).bind
    intro limit
    apply (h.moves_logged id).bind
    intro _
    apply (h.moves_currentDocument uri).bind
    intro document
    cases document with
    | none => exact h.moves_writeJsonMessage _
    | some document =>
      apply Moves.bind (fun s => h.searches s document threshold limit)
      intro result
      apply (h.moves_writeJsonMessage _).bind
      intro _
      exact h.moves_logged id

lemma moves_notifyCrossref (h : HandlerRule host R) (method : Bytes) (params : Json) :
    Moves R (notifyCrossref host method params) := by
  have := h.toIsPreorder
  rw [notifyCrossref]
  split_ifs
  · apply moves_get_bind
    intro s
    cases hopen : s.workspace.documentManager.openDocuments.lookup (textDocumentUriFromParams params) with
    | some document => exact h.updates s _ document hopen
    | none => exact moves_pure () s
  · exact fun s => h.refreshes s _
  · exact moves_pure ()

lemma moves_writeResponse (h : HandlerRule host R) (id : Json) (response : Option Json) :
    Moves R (writeResponse id response : StateAction (Session κ) Unit) := by
  have := h.toIsPreorder
  cases response with
  | none => exact moves_pure ()
  | some response =>
    apply (h.moves_logged id).bind
    intro _
    apply (h.moves_writeJsonMessage response).bind
    intro _
    exact h.moves_logged id

lemma moves_finishLocally (h : HandlerRule host R) {method : Bytes} (hinitialized : ∀ s, R s (s.initializedBy method))
    (params : Json) (result : RequestResult) : Moves R (finishLocally host request method params result) := by
  have := h.toIsPreorder
  rw [finishLocally]
  split_ifs
  · apply (h.moves_answer _).bind
    intro _
    exact moves_pure _
  · apply Moves.bind (moves_modify hinitialized)
    intro _
    apply (h.moves_notifyCrossref method params).bind
    intro _
    apply (h.moves_writeResponse _ _).bind
    intro _
    apply Moves.bind (moves_modify fun s => h.directs s result.directive)
    intro _
    exact moves_pure _

lemma moves_logRequest (h : HandlerRule host R) (method : Bytes) (params : Json) :
    Moves R (logRequest request method params : StateAction (Session κ) Unit) :=
  have := h.toIsPreorder
  Preserves.moves (preserves_logRequest method params)

lemma moves_handleMessage (h : HandlerRule host R)
    (hhandled : ∀ s, R s (onWorkspace (handleRequest host request) s).2)
    (hinitialized : ∀ method, stringMember? request Jsonrpc.methodKey = some method →
      isJsonrpc request = true → ∀ s, R s (s.initializedBy method)) :
    Moves R (handleMessage host request) := by
  have := h.toIsPreorder
  rw [handleMessage]
  split_ifs with hjsonrpc
  · apply (h.moves_answer _).bind
    intro _
    exact moves_pure _
  · split
    · apply (h.moves_answer _).bind
      intro _
      exact moves_pure _
    · rename_i method hmember
      intro s
      cases hname : method.getString with
      | none => exact moves_pure false s
      | some name =>
        have hstring := stringMember?_of_getString hmember hname
        rw [bind_ofOption_some]
        revert s
        change Moves R _
        apply (moves_ofOption (R := R) _).bind
        intro params
        apply (h.moves_logRequest name params).bind
        intro _
        split_ifs
        · apply (h.moves_handleSetParserRegex params).bind
          intro _
          exact moves_pure _
        · split
          · exact moves_pure _
          · apply (h.moves_handleGetSimilarText _ params).bind
            intro _
            exact moves_pure _
        · rw [handleLocally_eq]
          apply Moves.bind hhandled
          intro result
          exact h.moves_finishLocally (hinitialized name hstring (by simpa using hjsonrpc)) params result

lemma handleException_moves (h : HandlerRule host R) (s : Session κ) : R s (handleException request s).session :=
  h.moves_answer _ s

lemma handleRequestMessage_moves (h : HandlerRule host R) {s : Session κ}
    (hmessage : isUnmatchedResponse request = false → R s (handleMessage host request s).2) :
    R s (handleRequestMessage host request s).session := by
  have := h.toIsPreorder
  rw [handleRequestMessage]
  split
  · exact h.stores s _
  · split_ifs with hunmatched
    · exact Std.Refl.refl s
    · have hfirst := hmessage (by simpa using hunmatched)
      split
      · exact hfirst
      · exact IsTrans.trans _ _ _ hfirst (h.handleException_moves _)

end HandlerRule

end DltxtBridge.Protocol
