import DltxtBridge.Protocol.Session

namespace DltxtBridge.Protocol

open StateAction

structure IsReplyTo (id reply : Json) : Prop where
  valid : Jsonrpc.isValidJsonrpcResponse reply
  id : reply.member? Jsonrpc.idKey = some id

lemma isReplyTo_createResponse (id result : Json) :
    IsReplyTo id (Jsonrpc.createResponse id result) := ⟨rfl, rfl⟩

lemma isReplyTo_createError (id : Json) (code : ℤ) (message : Bytes) :
    IsReplyTo id (Jsonrpc.createError id code message) := ⟨rfl, rfl⟩

structure Answers (id : Json) (result : RequestResult) : Prop where
  isLocal : result.forwardToRemote = false
  reply : ∃ reply, result.response = some reply ∧ IsReplyTo id reply
  stays : result.directive ≠ .closeSession

structure Silent (result : RequestResult) : Prop where
  isLocal : result.forwardToRemote = false
  response : result.response = none

section Results

variable {κ : Type} (host : Host κ) (id params : Json)

lemma answers_localResponse (result : Json) {directive : SessionDirective} (h : directive ≠ .closeSession) :
    Answers id (.localResponse (Jsonrpc.createResponse id result) directive) :=
  ⟨rfl, ⟨_, rfl, isReplyTo_createResponse id result⟩, h⟩

lemma answers_errorResponse (code : ℤ) (message : Bytes) : Answers id (.errorResponse id code message) :=
  ⟨rfl, ⟨_, rfl, isReplyTo_createError id code message⟩, nofun⟩

lemma returns_handleGetDocumentContent : Returns (handleGetDocumentContent host id params) (Answers id) := by
  rw [handleGetDocumentContent]
  split
  · exact returns_pure (answers_errorResponse id _ _)
  · apply Returns.bind_any
    intro content
    cases content with
    | none => exact returns_pure (answers_errorResponse id _ _)
    | some content => exact returns_pure (answers_localResponse id _ (by decide))

lemma returns_handleGetParsedDocument : Returns (handleGetParsedDocument host id params) (Answers id) := by
  rw [handleGetParsedDocument]
  split
  · exact returns_pure (answers_errorResponse id _ _)
  · apply Returns.bind_any
    intro content
    cases content with
    | none => exact returns_pure (answers_errorResponse id _ _)
    | some content =>
      apply Returns.bind_any
      intro w
      cases host.globalTextParser w.host with
      | none => exact returns_pure (answers_errorResponse id _ _)
      | some parser =>
        apply Returns.bind_any
        intro text
        apply Returns.bind_any
        intro pairs
        apply Returns.bind_any
        intro parsedContent
        exact returns_pure (answers_localResponse id _ (by decide))

lemma returns_handleIdentified (method : Bytes) :
    Returns (handleIdentified host method id params) (Answers id) := by
  rw [handleIdentified]
  split_ifs
  · apply Returns.bind_any
    intro message
    exact returns_pure (answers_localResponse id _ (by decide))
  · exact returns_pure (answers_localResponse id _ (by decide))
  · exact returns_handleGetDocumentContent host id params
  · exact returns_handleGetParsedDocument host id params
  · apply Returns.bind_any
    intro _
    apply Returns.bind_any
    intro _
    exact returns_pure (answers_localResponse id _ (by decide))
  · apply Returns.bind_any
    intro _
    exact returns_pure (answers_localResponse id _ (by decide))
  · exact returns_pure (answers_errorResponse id _ _)

/-- The methods that are handled without regard to an id. -/
def notificationMethods : List Bytes :=
  [didOpen, didChange, didSave, didClose, didChangeWorkspaceFolders, initialized, setTrace]

lemma handleNotificationMethod_eq_none_iff (method : Bytes) :
    handleNotificationMethod host method params = none ↔
      method ∉ notificationMethods ∧ method ≠ exitMethod := by
  simp only [handleNotificationMethod, notificationMethods]
  split_ifs <;> simp_all

lemma silent_empty {method : Bytes} (h : method ≠ exitMethod) :
    Silent {} ∧ (({} : RequestResult).directive = .closeSession ↔ method = exitMethod) :=
  ⟨⟨rfl, rfl⟩, ⟨nofun, fun hexit => absurd hexit h⟩⟩

lemma returns_handleNotificationMethod {method : Bytes} {handled : StateAction (Workspace κ) RequestResult}
    (h : handleNotificationMethod host method params = some handled) :
    Returns handled fun result => Silent result ∧ (result.directive = .closeSession ↔ method = exitMethod) := by
  rw [handleNotificationMethod] at h
  have hlogged : ∀ (x : StateAction (Workspace κ) Unit), method ≠ exitMethod →
      Returns (do x; logged params; pure {}) fun result : RequestResult =>
        Silent result ∧ (result.directive = .closeSession ↔ method = exitMethod) := by
    intro x hmethod
    apply Returns.bind_any
    intro _
    apply Returns.bind_any
    intro _
    exact returns_pure (silent_empty hmethod)
  split_ifs at h with hopen hchange hsave hclose hfolders htrace hexit
  · cases h
    apply Returns.bind_any
    intro _
    exact returns_pure (silent_empty (by subst hopen; decide))
  · cases h
    exact hlogged _ (by subst hchange; decide)
  · cases h
    exact hlogged _ (by subst hsave; decide)
  · cases h
    exact hlogged _ (by subst hclose; decide)
  · cases h
    exact hlogged _ (by subst hfolders; decide)
  · cases h
    apply Returns.bind_any
    intro _
    exact returns_pure (silent_empty (by rcases htrace with rfl | rfl <;> decide))
  · cases h
    apply Returns.bind_any
    intro _
    exact returns_pure ⟨⟨rfl, rfl⟩, ⟨fun _ => hexit, fun _ => rfl⟩⟩

variable {request : Json}

lemma returns_handleRequest_silent {method : Bytes}
    (hmethod : stringMember? request Jsonrpc.methodKey = some method)
    (h : request.member? Jsonrpc.idKey = none ∨ method ∈ notificationMethods ∨ method = exitMethod) :
    Returns (handleRequest host request) fun result =>
      Silent result ∧ (result.directive = .closeSession ↔ method = exitMethod) := by
  rw [handleRequest, hmethod]
  apply Returns.bind_any
  intro params
  cases hhandled : handleNotificationMethod host method params with
  | some handled => exact returns_handleNotificationMethod host params hhandled
  | none =>
    rw [handleNotificationMethod_eq_none_iff] at hhandled
    have hid : request.member? Jsonrpc.idKey = none := by tauto
    rw [hid]
    exact returns_pure (silent_empty hhandled.2)

lemma returns_handleRequest_answers {method : Bytes}
    (hmethod : stringMember? request Jsonrpc.methodKey = some method)
    (hid : request.member? Jsonrpc.idKey = some id) (hnotification : method ∉ notificationMethods)
    (hexit : method ≠ exitMethod) : Returns (handleRequest host request) (Answers id) := by
  rw [handleRequest, hmethod]
  apply Returns.bind_any
  intro params
  have hhandled : handleNotificationMethod host method params = none :=
    (handleNotificationMethod_eq_none_iff host params method).mpr ⟨hnotification, hexit⟩
  simp only [hhandled, hid]
  exact returns_handleIdentified host id params method

end Results

section Writes

variable {κ : Type} (host : Host κ)

lemma preserves_onWorkspace {α : Type} (x : StateAction (Workspace κ) α) :
    Preserves Session.written (onWorkspace x) := fun _ => rfl

lemma returns_onWorkspace {α : Type} {x : StateAction (Workspace κ) α} {Q : α → Prop} (h : Returns x Q) :
    Returns (onWorkspace x) Q := h.zoom

lemma preserves_logged {σ γ : Type} {observe : σ → γ} (json : Json) :
    Preserves observe (logged json : StateAction σ Unit) := by
  rw [logged]
  split_ifs
  · exact preserves_pure ()
  · exact preserves_throw

lemma neverThrows_logged {σ : Type} {json : Json} (h : json.isDumpable) :
    NeverThrows (logged json : StateAction σ Unit) := by
  rw [logged, if_pos h]
  exact neverThrows_pure ()

lemma emits_writeJsonMessage {id message : Json} (h : IsReplyTo id message) :
    Emits Session.written (IsReplyTo id) (writeJsonMessage message : StateAction (Session κ) Unit) := by
  apply Emits.bind_left (preserves_logged message)
  intro _ s
  exact ⟨fun _ => ⟨message, h, rfl⟩, nofun⟩

variable {request id : Json}

lemma emits_answer (hid : request.member? Jsonrpc.idKey = some id) {reply : Json → Json}
    (hreply : IsReplyTo id (reply id)) :
    Emits Session.written (IsReplyTo id) (answer request reply : StateAction (Session κ) Unit) := by
  rw [answer, hid]
  exact emits_writeJsonMessage hreply

lemma preserves_answer (hid : request.member? Jsonrpc.idKey = none) (reply : Json → Json) :
    Preserves Session.written (answer request reply : StateAction (Session κ) Unit) := by
  rw [answer, hid]
  exact preserves_pure ()

lemma emits_handleSetParserRegex (hid : request.member? Jsonrpc.idKey = some id) (params : Json) :
    Emits Session.written (IsReplyTo id) (handleSetParserRegex host request params) := by
  rw [handleSetParserRegex]
  split
  · exact emits_answer hid (isReplyTo_createError id _ _)
  · split_ifs
    · exact emits_answer hid (isReplyTo_createResponse id .null)
    · apply Emits.bind_left preserves_get
      intro s
      apply Emits.bind_left (preserves_onWorkspace _)
      intro _
      exact emits_answer hid (isReplyTo_createResponse id .null)
    · exact emits_answer hid (isReplyTo_createError id _ _)

lemma preserves_handleSetParserRegex (hid : request.member? Jsonrpc.idKey = none) (params : Json) :
    Preserves Session.written (handleSetParserRegex host request params) := by
  rw [handleSetParserRegex]
  split
  · exact preserves_answer hid _
  · split_ifs
    · exact preserves_answer hid _
    · apply Preserves.bind preserves_get
      intro s
      apply Preserves.bind (preserves_onWorkspace _)
      intro _
      exact preserves_answer hid _
    · exact preserves_answer hid _

lemma preserves_currentDocument (uri : Bytes) : Preserves Session.written (currentDocument host uri) := by
  rw [currentDocument]
  apply Preserves.bind preserves_get
  intro s
  cases s.workspace.documentManager.openDocuments.lookup uri with
  | some document => exact preserves_pure _
  | none => exact Preserves.attempt (preserves_onWorkspace _)

lemma emits_handleGetSimilarText (hid : id.isDumpable) (params : Json) :
    Emits Session.written (IsReplyTo id) (handleGetSimilarText host id params) := by
  rw [handleGetSimilarText]
  cases stringMember? params uriKey with
  | none => exact emits_writeJsonMessage (isReplyTo_createError id _ _)
  | some uri =>
    apply Emits.bind_left (preserves_ofOption _)
    intro threshold
    apply Emits.bind_left (preserves_ofOption _)
    intro limit
    apply Emits.bind_left (preserves_logged id)
    intro _
    apply Emits.bind_left (preserves_currentDocument host uri)
    intro document
    cases document with
    | none => exact emits_writeJsonMessage (isReplyTo_createResponse id _)
    | some document =>
      apply Emits.bind_left (preserves_onWorkspace _)
      intro result
      apply Emits.bind_right (emits_writeJsonMessage (isReplyTo_createResponse id result))
      · intro _
        exact preserves_logged id
      · intro _
        exact neverThrows_logged hid

lemma preserves_notifyCrossref (method : Bytes) (params : Json) :
    Preserves Session.written (notifyCrossref host method params) := by
  rw [notifyCrossref]
  split_ifs
  · apply Preserves.bind preserves_get
    intro s
    cases s.workspace.documentManager.openDocuments.lookup (textDocumentUriFromParams params) with
    | some document => exact preserves_onWorkspace _
    | none => exact preserves_pure ()
  · exact preserves_onWorkspace _
  · exact preserves_pure ()

lemma preserves_initializedBy (method : Bytes) :
    Preserves Session.written
      (StateAction.modify (Session.initializedBy method) : StateAction (Session κ) Unit) := by
  intro s
  simp only [StateAction.modify, Session.initializedBy]
  split_ifs
  · rw [Session.markClientInitialized]
    split_ifs <;> rfl
  · rfl

lemma preserves_direct (directive : SessionDirective) :
    Preserves Session.written (StateAction.modify (Session.direct directive) : StateAction (Session κ) Unit) := by
  intro s
  simp only [StateAction.modify, Session.direct]
  split_ifs <;> rfl

lemma emits_handleLocally {method : Bytes} (hmethod : stringMember? request Jsonrpc.methodKey = some method)
    (hid : request.member? Jsonrpc.idKey = some id) (hdumpable : id.isDumpable)
    (hnotification : method ∉ notificationMethods) (hexit : method ≠ exitMethod) (params : Json) :
    Emits Session.written (IsReplyTo id) (handleLocally host request method params) := by
  have hmember : request.member Jsonrpc.idKey = id := by rw [Json.member, hid]; rfl
  rw [handleLocally, hmember]
  apply Emits.bind_returns (preserves_onWorkspace _)
    (returns_onWorkspace (returns_handleRequest_answers host id hmethod hid hnotification hexit))
  intro result hresult
  obtain ⟨reply, hreply, hisReply⟩ := hresult.reply
  simp only [hresult.isLocal, hreply]
  apply Emits.bind_left (preserves_initializedBy method)
  intro _
  apply Emits.bind_left (preserves_notifyCrossref host method params)
  intro _
  apply Emits.bind_right
  · apply Emits.bind_left (preserves_logged id)
    intro _
    apply Emits.bind_right (emits_writeJsonMessage hisReply)
    · intro _
      exact preserves_logged id
    · intro _
      exact neverThrows_logged hdumpable
  · intro _
    apply Preserves.bind (preserves_direct result.directive)
    intro _
    exact preserves_pure _
  · intro _
    apply NeverThrows.bind (neverThrows_modify _)
    intro _
    exact neverThrows_pure _

lemma preserves_handleLocally {method : Bytes} (hmethod : stringMember? request Jsonrpc.methodKey = some method)
    (h : request.member? Jsonrpc.idKey = none ∨ method ∈ notificationMethods ∨ method = exitMethod)
    (params : Json) : Preserves Session.written (handleLocally host request method params) := by
  rw [handleLocally]
  apply Preserves.bind_returns (preserves_onWorkspace _)
    (returns_onWorkspace (returns_handleRequest_silent host hmethod h))
  rintro result ⟨hresult, -⟩
  simp only [hresult.isLocal, hresult.response]
  apply Preserves.bind (preserves_initializedBy method)
  intro _
  apply Preserves.bind (preserves_notifyCrossref host method params)
  intro _
  apply Preserves.bind (preserves_pure ())
  intro _
  apply Preserves.bind (preserves_direct result.directive)
  intro _
  exact preserves_pure _

def Unanswered (request : Json) : Prop :=
  isJsonrpc request ∧ ∃ method, stringMember? request Jsonrpc.methodKey = some method ∧
    (method ∈ notificationMethods ∨ method = exitMethod)

lemma preserves_logRequest {γ : Type} {observe : Session κ → γ} (method : Bytes) (params : Json) :
    Preserves observe (logRequest request method params : StateAction (Session κ) Unit) := by
  rw [logRequest]
  split_ifs
  · apply Preserves.bind (preserves_ofOption _)
    intro _
    apply Preserves.bind (preserves_ofOption _)
    intro _
    exact preserves_pure ()
  · exact preserves_logged request

lemma stringMember?_of_getString {method : Json} {name : Bytes}
    (hmethod : request.member? Jsonrpc.methodKey = some method) (hname : method.getString = some name) :
    stringMember? request Jsonrpc.methodKey = some name := by
  rw [stringMember?, hmethod, Option.bind_some, hname]

lemma preserves_handleMessage (h : request.member? Jsonrpc.idKey = none ∨ Unanswered request) :
    Preserves Session.written (handleMessage host request) := by
  rw [handleMessage]
  split_ifs with hjsonrpc
  · have hid : request.member? Jsonrpc.idKey = none := by
      rcases h with hid | hunanswered
      · exact hid
      · simp [hunanswered.1] at hjsonrpc
    apply Preserves.bind (preserves_answer hid _)
    intro _
    exact preserves_pure _
  · split
    · rename_i hmethod
      have hid : request.member? Jsonrpc.idKey = none := by
        rcases h with hid | ⟨-, method, hstring, -⟩
        · exact hid
        · simp [stringMember?, hmethod] at hstring
      apply Preserves.bind (preserves_answer hid _)
      intro _
      exact preserves_pure _
    · rename_i method hmethod
      apply Preserves.bind_returns (preserves_ofOption _) (returns_ofOption _)
      intro name hname
      have hstring := stringMember?_of_getString hmethod hname
      apply Preserves.bind (preserves_ofOption _)
      intro params
      apply Preserves.bind (preserves_logRequest name params)
      intro _
      have hcases : request.member? Jsonrpc.idKey = none ∨ name ∈ notificationMethods ∨ name = exitMethod := by
        rcases h with hid | ⟨-, name', hstring', hname'⟩
        · exact .inl hid
        · rw [hstring] at hstring'
          cases hstring'
          exact .inr hname'
      split_ifs with hregex hsimilar
      · have hid : request.member? Jsonrpc.idKey = none := by
          rcases hcases with hid | hname' | hname'
          · exact hid
          · subst hregex
            exact absurd hname' (by decide)
          · subst hregex
            exact absurd hname' (by decide)
        apply Preserves.bind (preserves_handleSetParserRegex host hid params)
        intro _
        exact preserves_pure _
      · have hid : request.member? Jsonrpc.idKey = none := by
          rcases hcases with hid | hname' | hname'
          · exact hid
          · subst hsimilar
            exact absurd hname' (by decide)
          · subst hsimilar
            exact absurd hname' (by decide)
        rw [hid]
        exact preserves_pure _
      · exact preserves_handleLocally host hstring hcases params

lemma emits_handleMessage (hid : request.member? Jsonrpc.idKey = some id) (hdumpable : id.isDumpable)
    (h : ¬ Unanswered request) : Emits Session.written (IsReplyTo id) (handleMessage host request) := by
  have hpure : ∀ {x : StateAction (Session κ) Unit}, Emits Session.written (IsReplyTo id) x →
      Emits Session.written (IsReplyTo id) (do x; pure false) := by
    intro x hx
    apply Emits.bind_right hx
    · intro _
      exact preserves_pure _
    · intro _
      exact neverThrows_pure _
  rw [handleMessage]
  split_ifs with hjsonrpc
  · exact hpure (emits_answer hid (isReplyTo_createError id _ _))
  · split
    · exact hpure (emits_answer hid (isReplyTo_createError id _ _))
    · rename_i method hmethod
      apply Emits.bind_returns (preserves_ofOption _) (returns_ofOption _)
      intro name hname
      have hstring := stringMember?_of_getString hmethod hname
      apply Emits.bind_left (preserves_ofOption _)
      intro params
      apply Emits.bind_left (preserves_logRequest name params)
      intro _
      split_ifs with hregex hsimilar
      · exact hpure (emits_handleSetParserRegex host hid params)
      · rw [hid]
        exact hpure (emits_handleGetSimilarText host hdumpable params)
      · have hname' : ¬ (name ∈ notificationMethods ∨ name = exitMethod) := by
          intro hname'
          apply h
          exact ⟨by simpa using hjsonrpc, name, hstring, hname'⟩
        rw [not_or] at hname'
        exact emits_handleLocally host hstring hid hdumpable hname'.1 hname'.2 params

def isExit (request : Json) : Bool :=
  isJsonrpc request && !isUnmatchedResponse request &&
    stringMember? request Jsonrpc.methodKey = some exitMethod

lemma returns_handleLocally {method : Bytes} (hmethod : stringMember? request Jsonrpc.methodKey = some method)
    (params : Json) : Returns (handleLocally host request method params) fun ended =>
      ended = true ↔ method = exitMethod := by
  have hdirective : Returns (handleRequest host request) fun result =>
      result.forwardToRemote = false ∧ (result.directive = .closeSession ↔ method = exitMethod) := by
    by_cases hunanswered : request.member? Jsonrpc.idKey = none ∨ method ∈ notificationMethods ∨ method = exitMethod
    · apply (returns_handleRequest_silent host hmethod hunanswered).mono
      rintro result ⟨hsilent, hdirective⟩
      exact ⟨hsilent.isLocal, hdirective⟩
    · rw [not_or, not_or] at hunanswered
      obtain ⟨id, hid⟩ := Option.ne_none_iff_exists'.mp hunanswered.1
      apply (returns_handleRequest_answers host id hmethod hid hunanswered.2.1 hunanswered.2.2).mono
      intro result hanswers
      exact ⟨hanswers.isLocal, ⟨fun h => absurd h hanswers.stays, fun h => absurd h hunanswered.2.2⟩⟩
  rw [handleLocally]
  apply Returns.bind (returns_onWorkspace hdirective)
  rintro result ⟨hlocal, hclose⟩
  simp only [hlocal]
  apply Returns.bind_any
  intro _
  apply Returns.bind_any
  intro _
  apply Returns.bind_any
  intro _
  apply Returns.bind_any
  intro _
  apply returns_pure
  rw [← hclose, decide_eq_true_iff]

lemma returns_handleMessage : Returns (handleMessage host request) fun ended =>
    ended = true ↔ isJsonrpc request ∧ stringMember? request Jsonrpc.methodKey = some exitMethod := by
  have hstays : ∀ (x : StateAction (Session κ) Unit),
      ¬ (isJsonrpc request ∧ stringMember? request Jsonrpc.methodKey = some exitMethod) →
      Returns (do x; pure false) fun ended =>
        ended = true ↔ isJsonrpc request ∧ stringMember? request Jsonrpc.methodKey = some exitMethod := by
    intro x h
    apply Returns.bind_any
    intro _
    exact returns_pure ⟨nofun, fun hexit => absurd hexit h⟩
  rw [handleMessage]
  split_ifs with hjsonrpc
  · apply hstays
    rintro ⟨hisJsonrpc, -⟩
    simp [hisJsonrpc] at hjsonrpc
  · split
    · rename_i hmethod
      apply hstays
      rintro ⟨-, hstring⟩
      simp [stringMember?, hmethod] at hstring
    · rename_i method hmethod
      apply Returns.bind (returns_ofOption _)
      intro name hname
      have hstring := stringMember?_of_getString hmethod hname
      have hisJsonrpc : isJsonrpc request := by simpa using hjsonrpc
      apply Returns.bind_any
      intro params
      apply Returns.bind_any
      intro _
      split_ifs with hregex hsimilar
      · apply hstays
        rw [hstring, hregex]
        exact fun h => absurd h.2 (by decide)
      · have hne : ¬ (isJsonrpc request ∧ stringMember? request Jsonrpc.methodKey = some exitMethod) := by
          rw [hstring, hsimilar]
          exact fun h => absurd h.2 (by decide)
        split
        · exact returns_pure ⟨nofun, fun hexit => absurd hexit hne⟩
        · exact hstays _ hne
      · apply (returns_handleLocally host hstring params).mono
        intro ended hended
        rw [hended, hstring, Option.some.injEq]
        simp [hisJsonrpc]

lemma isDumpable_value {json found : Json} (h : json.isDumpable) {key : Bytes}
    (hfound : json.value some key .emptyObject = some found) : found.isDumpable := by
  cases json with
  | object members =>
    rw [Json.value] at hfound
    cases hlookup : members.lookup key with
    | none =>
      rw [hlookup] at hfound
      cases hfound
      rfl
    | some member =>
      rw [hlookup] at hfound
      cases hfound
      rw [Json.isDumpable] at h
      exact Json.isDumpable_of_lookup h hlookup
  | _ => cases hfound

lemma value_ne_none {json : Json} {key key' : Bytes} {found : Json} (h : json.member? key = some found) :
    json.value some key' .emptyObject ≠ none := by
  cases json with
  | object members =>
    rw [Json.value]
    split <;> exact Option.some_ne_none _
  | _ => cases h

lemma neverThrows_handleRequest_exit (hdumpable : request.isDumpable)
    (hexit : stringMember? request Jsonrpc.methodKey = some exitMethod) :
    NeverThrows (handleRequest host request) := by
  obtain ⟨method, hmethod, -⟩ := Option.bind_eq_some_iff.mp hexit
  rw [handleRequest, hexit]
  apply NeverThrows.bind_returns (neverThrows_ofOption (value_ne_none hmethod)) (returns_ofOption _)
  intro params hparams
  have hhandled : handleNotificationMethod host exitMethod params =
      some (do logged params; pure { directive := .closeSession }) := rfl
  rw [hhandled]
  apply NeverThrows.bind (neverThrows_logged (isDumpable_value hdumpable hparams))
  intro _
  exact neverThrows_pure _

lemma neverThrows_handleMessage_exit (hdumpable : request.isDumpable) (hjsonrpc : isJsonrpc request)
    (hexit : stringMember? request Jsonrpc.methodKey = some exitMethod) :
    NeverThrows (handleMessage host request) := by
  obtain ⟨method, hmethod, hname⟩ := Option.bind_eq_some_iff.mp hexit
  rw [handleMessage, hjsonrpc, hmethod]
  apply NeverThrows.bind_returns (neverThrows_ofOption (by rw [hname]; exact Option.some_ne_none _))
    (returns_ofOption _)
  intro name hname'
  rw [hname] at hname'
  cases hname'
  apply NeverThrows.bind (neverThrows_ofOption (value_ne_none hmethod))
  intro params
  apply NeverThrows.bind
  · exact neverThrows_logged hdumpable
  intro _
  rw [if_neg (by decide), if_neg (by decide), handleLocally]
  apply NeverThrows.bind_returns (NeverThrows.zoom (neverThrows_handleRequest_exit host hdumpable hexit))
    (returns_onWorkspace (returns_handleRequest_silent host hexit (.inr (.inr rfl))))
  rintro result ⟨hsilent, -⟩
  simp only [hsilent.isLocal, hsilent.response]
  apply NeverThrows.bind (neverThrows_modify _)
  intro _
  apply NeverThrows.bind (neverThrows_pure ())
  intro _
  apply NeverThrows.bind (neverThrows_pure ())
  intro _
  apply NeverThrows.bind (neverThrows_modify _)
  intro _
  exact neverThrows_pure _

lemma isDumpable_of_member? {json found : Json} {key : Bytes} (h : json.isDumpable)
    (hfound : json.member? key = some found) : found.isDumpable := by
  have hmember := Json.isDumpable_member h key
  rwa [Json.member, hfound] at hmember

lemma isDumpable_createError (h : id.isDumpable) (code : ℤ) {message : Bytes}
    (hmessage : message.all (· < 0x80)) :
    (Jsonrpc.createError id code message).isDumpable := by
  have hkeys : Json.isUtf8 Jsonrpc.errorKey ∧ Json.isUtf8 (ascii "code") ∧ Json.isUtf8 (ascii "message") ∧
      Json.isUtf8 Jsonrpc.idKey ∧ Json.isUtf8 Jsonrpc.jsonrpcKey ∧ Json.isUtf8 Jsonrpc.protocolVersion := by
    refine ⟨?_, ?_, ?_, ?_, ?_, ?_⟩ <;> exact Json.isUtf8_of_ascii (by decide)
  simp [Jsonrpc.createError, Json.isDumpable, Json.membersDumpable, h, hkeys, Json.isUtf8_of_ascii hmessage]

lemma handleException_written (hdumpable : request.isDumpable) (s : Session κ) :
    (handleException request s).isOpen ∧
      match request.member? Jsonrpc.idKey with
      | some id => ∃ reply, IsReplyTo id reply ∧
          (handleException request s).session.written = s.written ++ [reply]
      | none => (handleException request s).session.written = s.written := by
  cases hid : request.member? Jsonrpc.idKey with
  | none =>
    simp only [handleException, answerError, answer, hid]
    exact ⟨rfl, rfl⟩
  | some id =>
    have hmessage := isDumpable_createError (isDumpable_of_member? hdumpable hid) (-32603)
      (show (ascii "Internal error").all (· < 0x80) by decide)
    simp only [handleException, answerError, answer, hid, writeJsonMessage, logged, if_pos hmessage]
    exact ⟨rfl, _, isReplyTo_createError id _ _, rfl⟩

structure Answered (request : Json) (replies : List Json) : Prop where
  identified : ∀ id method, isJsonrpc request → request.member? Jsonrpc.idKey = some id →
    stringMember? request Jsonrpc.methodKey = some method → method ∉ notificationMethods →
    method ≠ exitMethod → ¬ request.contains Jsonrpc.resultKey → ¬ request.contains Jsonrpc.errorKey →
    ∃ reply, replies = [reply] ∧ IsReplyTo id reply
  unidentified : request.member? Jsonrpc.idKey = none → replies = []

lemma tryStoreJsonrpcResponse_eq_none {m : ResponseManager} {method : Bytes}
    (hmethod : stringMember? request Jsonrpc.methodKey = some method) :
    tryStoreJsonrpcResponse request m = none := by
  have hcontains : request.contains Jsonrpc.methodKey := by
    obtain ⟨found, hfound, -⟩ := Option.bind_eq_some_iff.mp hmethod
    rw [Json.contains, hfound]
    rfl
  rw [tryStoreJsonrpcResponse, if_pos]
  simp [Jsonrpc.isValidJsonrpcResponse, hcontains]

lemma answered_nil (h : request.member? Jsonrpc.idKey = none ∨ Unanswered request ∨
    request.contains Jsonrpc.resultKey ∨ request.contains Jsonrpc.errorKey ∨
    stringMember? request Jsonrpc.methodKey = none) : Answered request [] where
  identified id method hjsonrpc hid hmethod hnotification hexit hresult herror := by
    rcases h with hnone | ⟨-, method', hmethod', hcases⟩ | h | h | hnone
    · rw [hnone] at hid
      cases hid
    · rw [hmethod] at hmethod'
      cases hmethod'
      rcases hcases with h | h
      · exact absurd h hnotification
      · exact absurd h hexit
    · exact absurd h hresult
    · exact absurd h herror
    · rw [hnone] at hmethod
      cases hmethod
  unidentified _ := rfl

lemma answered_singleton {reply : Json} (hid : request.member? Jsonrpc.idKey = some id)
    (hreply : IsReplyTo id reply) : Answered request [reply] where
  identified id' method _ hid' _ _ _ _ _ := by
    rw [hid] at hid'
    cases hid'
    exact ⟨reply, rfl, hreply⟩
  unidentified hnone := by
    rw [hid] at hnone
    cases hnone

lemma handleException_answered (hdumpable : request.isDumpable) (s : Session κ) :
    (handleException request s).isOpen ∧ ∃ replies,
      (handleException request s).session.written = s.written ++ replies ∧ Answered request replies := by
  obtain ⟨hopen, hwritten⟩ := handleException_written hdumpable s
  refine ⟨hopen, ?_⟩
  cases hid : request.member? Jsonrpc.idKey with
  | none =>
    simp only [hid] at hwritten
    exact ⟨[], by simpa using hwritten, answered_nil (.inl hid)⟩
  | some id =>
    simp only [hid] at hwritten
    obtain ⟨reply, hreply, hwritten⟩ := hwritten
    exact ⟨[reply], hwritten, answered_singleton hid hreply⟩

lemma handleMessage_written (hdumpable : request.isDumpable) (s : Session κ) :
    ((handleMessage host request s).1 ≠ none → ∃ replies,
      (handleMessage host request s).2.written = s.written ++ replies ∧ Answered request replies) ∧
    ((handleMessage host request s).1 = none → (handleMessage host request s).2.written = s.written) := by
  by_cases hquiet : request.member? Jsonrpc.idKey = none ∨ Unanswered request
  · have hwritten := preserves_handleMessage host hquiet s
    exact ⟨fun _ => ⟨[], by rw [hwritten, List.append_nil], answered_nil (by tauto)⟩, fun _ => hwritten⟩
  · rw [not_or] at hquiet
    obtain ⟨id, hid⟩ := Option.ne_none_iff_exists'.mp hquiet.1
    obtain ⟨hreturns, hthrows⟩ :=
      emits_handleMessage host hid (isDumpable_of_member? hdumpable hid) hquiet.2 s
    refine ⟨?_, hthrows⟩
    intro hresult
    obtain ⟨reply, hreply, hwritten⟩ := hreturns hresult
    exact ⟨[reply], hwritten, answered_singleton hid hreply⟩

lemma handleRequestMessage_answered (hdumpable : request.isDumpable) (hexit : ¬ isExit request) (s : Session κ) :
    (handleRequestMessage host request s).isOpen ∧ ∃ replies,
      (handleRequestMessage host request s).session.written = s.written ++ replies ∧ Answered request replies := by
  rw [handleRequestMessage]
  cases hstore : tryStoreJsonrpcResponse request s.responseManager with
  | some m =>
    have hmethod : stringMember? request Jsonrpc.methodKey = none := by
      by_contra hmethod
      obtain ⟨method, hmethod⟩ := Option.ne_none_iff_exists'.mp hmethod
      rw [tryStoreJsonrpcResponse_eq_none hmethod] at hstore
      cases hstore
    exact ⟨rfl, [], (List.append_nil _).symm, answered_nil (.inr (.inr (.inr (.inr hmethod))))⟩
  | none =>
    by_cases hunmatched : isUnmatchedResponse request
    · rw [if_pos hunmatched]
      simp only [isUnmatchedResponse, Bool.and_eq_true, Bool.or_eq_true] at hunmatched
      exact ⟨rfl, [], (List.append_nil _).symm, answered_nil (.inr (.inr (by tauto)))⟩
    rw [if_neg hunmatched]
    have hmessage := handleMessage_written host hdumpable s
    cases hresult : (handleMessage host request s).1 with
    | none =>
      rw [← hmessage.2 hresult]
      exact handleException_answered hdumpable _
    | some ended =>
      have hended : ended = false := by
        rw [Bool.eq_false_iff]
        intro htrue
        apply hexit
        have hflag := ((returns_handleMessage host).of_some s ended hresult).mp htrue
        simp [isExit, hunmatched, hflag]
      rw [hended]
      exact ⟨rfl, hmessage.1 (by rw [hresult]; exact Option.some_ne_none ended)⟩

lemma handleRequestMessage_exit (hdumpable : request.isDumpable) (hexit : isExit request) (s : Session κ) :
    (handleRequestMessage host request s).isOpen = false ∧
      (handleRequestMessage host request s).session.written = s.written := by
  simp only [isExit, Bool.and_eq_true, decide_eq_true_iff, Bool.not_eq_true'] at hexit
  obtain ⟨⟨hjsonrpc, hunmatched⟩, hmethod⟩ := hexit
  have hreturns := neverThrows_handleMessage_exit host hdumpable hjsonrpc hmethod s
  obtain ⟨ended, hended⟩ := Option.ne_none_iff_exists'.mp hreturns
  have hflag := ((returns_handleMessage host).of_some s ended hended).mpr ⟨hjsonrpc, hmethod⟩
  rw [handleRequestMessage, tryStoreJsonrpcResponse_eq_none hmethod]
  simp only [hunmatched, hended, hflag]
  exact ⟨rfl, preserves_handleMessage host (.inr ⟨hjsonrpc, exitMethod, hmethod, .inr rfl⟩) s⟩

end Writes

section Runs

variable {κ : Type} (host : Host κ) (parse : Bytes → Option Json)

def endsLoop : SessionEvent → Bool
  | .message payload => (received parse payload).any isExit
  | .crossrefIndexReady => false

def EventAnswered : SessionEvent → List Json → Prop
  | .message payload, replies =>
    match received parse payload with
    | some request => Answered request replies
    | none => replies = []
  | .crossrefIndexReady, replies => replies = []

variable {parse}

lemma isDumpable_received (hparse : ∀ payload request, parse payload = some request → request.isDumpable)
    {payload : Bytes} {request : Json} (h : received parse payload = some request) : request.isDumpable := by
  rw [received] at h
  split_ifs at h
  exact hparse payload request h

lemma handleEvent_answered (hparse : ∀ payload request, parse payload = some request → request.isDumpable)
    {e : SessionEvent} (he : ¬ endsLoop parse e) (s : Session κ) :
    (handleEvent host parse s e).isOpen ∧ ∃ replies,
      (handleEvent host parse s e).session.written = s.written ++ replies ∧ EventAnswered parse e replies := by
  cases e with
  | message payload =>
    simp only [handleEvent, endsLoop, EventAnswered] at he ⊢
    cases hreceived : received parse payload with
    | none => exact ⟨rfl, [], (List.append_nil _).symm, rfl⟩
    | some request =>
      rw [hreceived, Option.any_some] at he
      exact handleRequestMessage_answered host (isDumpable_received hparse hreceived) he s
  | crossrefIndexReady =>
    refine ⟨rfl, [], ?_, rfl⟩
    simp only [handleEvent, Session.notifyCrossrefIndexReady]
    split <;> simp [Session.scheduleCrossrefIndexReadyNotification]

lemma handleEvent_ends (hparse : ∀ payload request, parse payload = some request → request.isDumpable)
    {e : SessionEvent} (he : endsLoop parse e) (s : Session κ) :
    (handleEvent host parse s e).isOpen = false ∧ (handleEvent host parse s e).session.written = s.written := by
  cases e with
  | message payload =>
    simp only [handleEvent, endsLoop] at he ⊢
    cases hreceived : received parse payload with
    | none =>
      rw [hreceived] at he
      cases he
    | some request =>
      rw [hreceived, Option.any_some] at he
      exact handleRequestMessage_exit host (isDumpable_received hparse hreceived) he s
  | crossrefIndexReady => cases he

lemma handleLocalSession_closed {l : SessionLoop κ} (hclosed : l.isOpen = false) (events : List SessionEvent) :
    handleLocalSession host parse l events = l := by
  induction events with
  | nil => rfl
  | cons e events ih =>
    rw [handleLocalSession, List.foldl_cons, stepLoop, hclosed]
    exact ih

theorem handleLocalSession_answers
    (hparse : ∀ payload request, parse payload = some request → request.isDumpable) (s : Session κ)
    (events : List SessionEvent) :
    ∃ replies, List.Forall₂ (EventAnswered parse) (events.takeWhile fun e => !endsLoop parse e) replies ∧
      (handleLocalSession host parse { session := s } events).session.written = s.written ++ replies.flatten := by
  induction events generalizing s with
  | nil => exact ⟨[], .nil, (List.append_nil _).symm⟩
  | cons e events ih =>
    by_cases he : endsLoop parse e
    · obtain ⟨hclosed, hwritten⟩ := handleEvent_ends host hparse he s
      refine ⟨[], by simp [he], ?_⟩
      change (handleLocalSession host parse (handleEvent host parse s e) events).session.written = _
      rw [handleLocalSession_closed host hclosed, hwritten, List.flatten_nil, List.append_nil]
    · obtain ⟨hopen, replies, hwritten, hanswered⟩ := handleEvent_answered host hparse he s
      obtain ⟨later, hlater, hwritten'⟩ := ih (handleEvent host parse s e).session
      refine ⟨replies :: later, ?_, ?_⟩
      · rw [List.takeWhile_cons_of_pos (by simpa using he)]
        exact .cons hanswered hlater
      · have hloop : ({ session := (handleEvent host parse s e).session } : SessionLoop κ) =
            handleEvent host parse s e := by
          rw [← hopen]
        rw [hloop] at hwritten'
        change (handleLocalSession host parse (handleEvent host parse s e) events).session.written = _
        rw [hwritten', hwritten, List.flatten_cons, List.append_assoc]

end Runs

section Examples

def idleHost : Host Unit where
  codec := Documents.asciiCodec
  disk _ _ := none
  now _ := 0
  version := ascii "0"
  globalTextParser _ := none
  loadDocumentFastFromUri _ := throw
  setParserRegex _ _ _ := pure ()
  scheduleOpenDocumentUpdate _ := pure ()
  scheduleClosedDocumentRefresh _ := pure ()
  searchJson _ _ _ := pure noMatches

def requestPayload (method : String) : Bytes :=
  ascii "\x7b\"jsonrpc\":\"2.0\",\"id\":1,\"method\":\"" ++ ascii method ++ ascii "\"\x7d"

def requestJson (method : String) : Json :=
  .object [(Jsonrpc.idKey, .unsigned 1), (Jsonrpc.jsonrpcKey, .ofString "2.0"), (Jsonrpc.methodKey, .ofString method)]

def notificationPayload (method : String) : Bytes :=
  ascii "\x7b\"jsonrpc\":\"2.0\",\"method\":\"" ++ ascii method ++ ascii "\"\x7d"

def notificationJson (method : String) : Json :=
  .object [(Jsonrpc.jsonrpcKey, .ofString "2.0"), (Jsonrpc.methodKey, .ofString method)]

def parseRequests (payload : Bytes) : Option Json :=
  if payload = requestPayload "shutdown" then some (requestJson "shutdown")
  else if payload = requestPayload "$/setTrace" then some (requestJson "$/setTrace")
  else if payload = notificationPayload "initialized" then some (notificationJson "initialized")
  else if payload = notificationPayload "exit" then some (notificationJson "exit")
  else none

lemma isDumpable_parseRequests (payload : Bytes) (request : Json) (h : parseRequests payload = some request) :
    request.isDumpable := by
  rw [parseRequests] at h
  split_ifs at h
  all_goals
    cases h
    decide

def quoted (text : Bytes) : Bytes := ascii "\"" ++ text ++ ascii "\""

def dumpMember : Bytes × Json → Bytes
  | (key, .string value) => quoted key ++ ascii ":" ++ quoted value
  | (key, _) => quoted key ++ ascii ":null"

def dumpStrings : Json → Bytes
  | .object members => ascii "\x7b" ++ (ascii ",").intercalate (members.map dumpMember) ++ ascii "\x7d"
  | _ => ascii "null"

def start : Session Unit := { workspace := { host := () } }

def sessionEvents : List SessionEvent :=
  [.message (notificationPayload "initialized"), .crossrefIndexReady, .message (requestPayload "shutdown"),
    .message (notificationPayload "exit"), .message (requestPayload "shutdown")]

theorem shutdown_answered :
    ∃ replies, List.Forall₂ (EventAnswered parseRequests) (sessionEvents.take 3) replies ∧
      replies.flatten = [Jsonrpc.createResponse (.unsigned 1) .null] := by
  obtain ⟨replies, hanswered, hwritten⟩ :=
    handleLocalSession_answers idleHost isDumpable_parseRequests start sessionEvents
  exact ⟨replies, hanswered, hwritten.symm⟩

theorem setTrace_unanswered :
    ¬ ∀ (parse : Bytes → Option Json), (∀ payload request, parse payload = some request → request.isDumpable) →
      ∀ (s : Session Unit) (payloads : List Bytes), ∃ replies : List (List Json),
        List.Forall₂ (fun payload replies => ∀ request id method, parse payload = some request →
          isJsonrpc request → request.member? Jsonrpc.idKey = some id →
          stringMember? request Jsonrpc.methodKey = some method → method ≠ exitMethod →
          ∃ reply, replies = [reply] ∧ IsReplyTo id reply) payloads replies ∧
        (handleLocalSession idleHost parse { session := s }
          (payloads.map SessionEvent.message)).session.written = s.written ++ replies.flatten := by
  intro h
  obtain ⟨replies, hanswered, hwritten⟩ :=
    h parseRequests isDumpable_parseRequests start [requestPayload "$/setTrace"]
  cases hanswered with
  | cons hreply hrest =>
    cases hrest
    obtain ⟨reply, hreply, -⟩ := hreply (requestJson "$/setTrace") (.unsigned 1) setTrace rfl rfl rfl rfl
      (by decide)
    rw [hreply] at hwritten
    cases hwritten

end Examples

end DltxtBridge.Protocol
