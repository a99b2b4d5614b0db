import DltxtBridge.Protocol.ResponseDelivery
import DltxtBridge.Protocol.Session

/-! `LocalRequestDispatcher::send_request`: an id is made, the request is written, and then its
response is waited for. -/

namespace DltxtBridge.Protocol

namespace ResponseManager

def suspends (m : ResponseManager) (id : RequestId) : Bool :=
  match m.pendingResponses.lookup id with
  | none => false
  | some k => (m.trackers k).responses.isEmpty

/-- The rest of `send_request`: unless the wait suspends it, `ResponseCleanup` cleans up. -/
def awaitResponse (m : ResponseManager) (id : RequestId) : ResponseManager :=
  if m.suspends id then m.waitForResponse id else (m.waitForResponse id).cleanup id

end ResponseManager

/-- `writing` holds the ids of the calls that are suspended in `write_framed`; those that are
suspended in their wait are waiters of the manager. -/
structure LocalRequestDispatcher where
  manager : ResponseManager := {}
  nextOriginalRequestId : UInt64 := 0
  writing : List RequestId := []

namespace LocalRequestDispatcher

open ResponseManager

def localClientId (n : UInt64) : RequestId := .string (ascii "local-client-" ++ decimal n.toNat)

/-- `send_request` up to its write. -/
def sendRequest (d : LocalRequestDispatcher) : LocalRequestDispatcher where
  manager := d.manager.createBridgeRequestId (localClientId (d.nextOriginalRequestId + 1))
  nextOriginalRequestId := d.nextOriginalRequestId + 1
  writing := d.writing ++ [bridgeId (d.manager.nextBridgeRequestId + 1)]

def afterWrite (d : LocalRequestDispatcher) (index : ℕ) (rest : ResponseManager → RequestId → ResponseManager) :
    Option LocalRequestDispatcher :=
  d.writing[index]?.map fun id =>
    { d with manager := rest d.manager id, writing := d.writing.eraseIdx index }

def resume (d : LocalRequestDispatcher) (index : ℕ) : Option LocalRequestDispatcher :=
  match d.manager.waiters[index]? with
  | some w =>
    w.completion.map fun completion =>
      { d with manager :=
          ({ d.manager with waiters := d.manager.waiters.eraseIdx index }.resume w completion).cleanup w.id }
  | none => none

inductive Event
  | sendRequest
  | written (index : ℕ)
  | writeFailed (index : ℕ)
  | message (message : Json)
  | timerExpires (index : ℕ)
  | resume (index : ℕ)
  | cancelAll
  | cleanup (id : RequestId)

def step (d : LocalRequestDispatcher) : Event → Option LocalRequestDispatcher
  | .sendRequest => some d.sendRequest
  | .written index => d.afterWrite index awaitResponse
  | .writeFailed index => d.afterWrite index cleanup
  | .message message => some { d with manager := (tryStoreJsonrpcResponse message d.manager).getD d.manager }
  | .timerExpires index => (d.manager.step (.timerExpires index)).map ({ d with manager := · })
  | .resume index => d.resume index
  | .cancelAll => some { d with manager := d.manager.cancelAll }
  | .cleanup id => some { d with manager := d.manager.cleanup id }

def suspended (d : LocalRequestDispatcher) : List RequestId := d.writing ++ d.manager.waiters.map Waiter.id

def endedIds (d : LocalRequestDispatcher) : List RequestId := d.manager.results.map Prod.fst

structure Kept (d : LocalRequestDispatcher) : Prop where
  faithful : Faithful d.manager
  nodup : (d.endedIds ++ d.suspended).Nodup
  created : ∀ id ∈ d.endedIds ++ d.suspended, ∃ k originalId, d.manager.CreatedAs k originalId id
  live : ∀ id k, d.manager.pendingResponses.lookup id = some k → id ∈ d.suspended

variable {d t : LocalRequestDispatcher} {id : RequestId} {k : ℕ}

lemma kept_empty : Kept {} where
  faithful := faithful_empty
  nodup := List.nodup_nil
  created _ h := by cases h
  live _ _ h := by cases h

lemma Kept.keep (h : Kept d) (hfaithful : Faithful t.manager) (hcreated : t.manager.created = d.manager.created)
    (hended : t.endedIds = d.endedIds) (hperm : t.suspended.Perm d.suspended)
    (hpending : ∀ id k, t.manager.pendingResponses.lookup id = some k →
      d.manager.pendingResponses.lookup id = some k) : Kept t := by
  have hids : (t.endedIds ++ t.suspended).Perm (d.endedIds ++ d.suspended) := hended ▸ hperm.append_left _
  refine ⟨hfaithful, hids.nodup_iff.mpr h.nodup, fun id hmem => ?_, fun id k hlookup => ?_⟩
  · obtain ⟨k, originalId, hk⟩ := h.created id (hids.mem_iff.mp hmem)
    exact ⟨k, originalId, by rwa [CreatedAs, hcreated]⟩
  · exact hperm.mem_iff.mpr (h.live id k (hpending id k hlookup))

lemma Kept.ending (h : Kept d) (hfaithful : Faithful t.manager) (hcreated : t.manager.created = d.manager.created)
    (ended : RequestId) (hperm : (ended :: t.suspended).Perm d.suspended)
    (hended : t.endedIds = d.endedIds ∨ t.endedIds = d.endedIds ++ [ended])
    (hpending : ∀ id k, t.manager.pendingResponses.lookup id = some k →
      d.manager.pendingResponses.lookup id = some k ∧ id ≠ ended) : Kept t := by
  have hids : (d.endedIds ++ [ended] ++ t.suspended).Perm (d.endedIds ++ d.suspended) := by
    rw [List.append_assoc]
    exact hperm.append_left _
  have hsub : (t.endedIds ++ t.suspended).Sublist (d.endedIds ++ [ended] ++ t.suspended) := by
    rcases hended with heq | heq
    · rw [heq]
      exact (List.sublist_append_left _ _).append_right _
    · rw [heq]
  refine ⟨hfaithful, (hids.nodup_iff.mpr h.nodup).sublist hsub, fun id hmem => ?_, fun id k hlookup => ?_⟩
  · obtain ⟨k, originalId, hk⟩ := h.created id (hids.mem_iff.mp (hsub.subset hmem))
    exact ⟨k, originalId, by rwa [CreatedAs, hcreated]⟩
  · obtain ⟨hlookup, hne⟩ := hpending id k hlookup
    exact List.mem_of_ne_of_mem hne (hperm.mem_iff.mpr (h.live id k hlookup))

lemma Kept.notMem_next (h : Kept d) (hcount : d.manager.created.length + 1 < 2 ^ 64) :
    nthId d.manager.created.length ∉ d.endedIds ++ d.suspended := by
  intro hmem
  obtain ⟨k, originalId, hk⟩ := h.created _ hmem
  exact h.faithful.not_createdAs_next hcount k originalId hk

lemma sendRequest_manager (d : LocalRequestDispatcher) :
    d.sendRequest.manager =
      { d.manager with
        nextBridgeRequestId := d.manager.nextBridgeRequestId + 1
        pendingResponses := d.manager.pendingResponses.insert (bridgeId (d.manager.nextBridgeRequestId + 1))
          d.manager.created.length
        trackers := Function.update d.manager.trackers d.manager.created.length
          { originalId := localClientId (d.nextOriginalRequestId + 1) }
        created := d.manager.created ++
          [(localClientId (d.nextOriginalRequestId + 1), bridgeId (d.manager.nextBridgeRequestId + 1))] } := by
  have htrackable : Jsonrpc.isTrackableRequestId (localClientId (d.nextOriginalRequestId + 1)) = true := rfl
  rw [sendRequest, createBridgeRequestId, if_pos htrackable]

lemma Kept.sendRequest (h : Kept d) (hcount : d.manager.created.length + 1 < 2 ^ 64) : Kept d.sendRequest := by
  have hnext := h.faithful.nextId_eq hcount
  have hcreated : d.sendRequest.manager.created =
      d.manager.created ++ [(localClientId (d.nextOriginalRequestId + 1), nthId d.manager.created.length)] := by
    rw [sendRequest_manager, hnext]
  have hended : d.sendRequest.endedIds = d.endedIds := by rw [endedIds, sendRequest_manager, endedIds]
  have hperm : d.sendRequest.suspended.Perm (nthId d.manager.created.length :: d.suspended) := by
    rw [suspended, sendRequest_manager, LocalRequestDispatcher.sendRequest, hnext, suspended, List.append_assoc]
    exact List.perm_middle
  have hids : (d.sendRequest.endedIds ++ d.sendRequest.suspended).Perm
      (nthId d.manager.created.length :: (d.endedIds ++ d.suspended)) := by
    rw [hended]
    exact (hperm.append_left _).trans List.perm_middle
  have hfaithful : Faithful d.sendRequest.manager :=
    h.faithful.create hcount (localClientId (d.nextOriginalRequestId + 1))
  refine ⟨hfaithful, ?_, fun id hmem => ?_, fun id k hlookup => ?_⟩
  · exact hids.nodup_iff.mpr (List.nodup_cons.mpr ⟨h.notMem_next hcount, h.nodup⟩)
  · rcases List.mem_cons.mp (hids.mem_iff.mp hmem) with rfl | hmem
    · refine ⟨d.manager.created.length, localClientId (d.nextOriginalRequestId + 1), ?_⟩
      rw [CreatedAs, hcreated, List.getElem?_concat_length]
    · obtain ⟨k, originalId, hk⟩ := h.created id hmem
      refine ⟨k, originalId, ?_⟩
      rw [CreatedAs, hcreated]
      exact (createdAs_concat d.manager.created).mpr (.inl hk)
  · rw [sendRequest_manager] at hlookup
    rw [FiniteMap.lookup_insert, hnext] at hlookup
    apply hperm.mem_iff.mpr
    split_ifs at hlookup with hsame
    · rw [hsame]
      exact List.mem_cons_self
    · exact List.mem_cons_of_mem _ (h.live id k hlookup)

section Ending

variable {m u : ResponseManager} {originalId : RequestId} {result : Option WaitResult}

structure Finishes (m : ResponseManager) (id : RequestId) (result : Option WaitResult) (u : ResponseManager) :
    Prop where
  results : u.results = m.results ++ [(id, result)]
  pending : u.pendingResponses = m.pendingResponses.erase id
  trackers : ∀ id' k originalId, id' ≠ id → m.CreatedAs k originalId id' → u.trackers k = m.trackers k
  created : u.created = m.created
  waiters : u.waiters = m.waiters

/-- A response, or the word that there is none to come. -/
def Released (result : Option WaitResult) : Prop :=
  result = some .cancelled ∨ ∃ response, result = some (.responseReady response)

lemma count_lt (h : Faithful m) : m.created.length < 2 ^ 64 := h.counter ▸ UInt64.toNat_lt _

lemma finishes_endWait (m : ResponseManager) (id : RequestId) (result : WaitResult) :
    Finishes m id (some result) ((m.endWait id result).cleanup id) :=
  ⟨rfl, rfl, fun _ _ _ _ _ => rfl, rfl, rfl⟩

lemma finishes_takeResponse (h : Faithful m) (hk : m.CreatedAs k originalId id) (otherwise : WaitResult) :
    ∃ result, Finishes m id result ((m.takeResponse id k (m.endWait id otherwise)).cleanup id) ∧
      ((m.trackers k).responses = [] → result = some otherwise) ∧
      ((m.trackers k).responses ≠ [] → ∃ response, result = some (.responseReady response)) := by
  by_cases hqueue : (m.trackers k).responses = []
  · refine ⟨some otherwise, ?_, fun _ => rfl, fun hne => absurd hqueue hne⟩
    rw [takeResponse, hqueue]
    exact finishes_endWait m id otherwise
  · obtain ⟨response, hready⟩ := h.takeResponse_ready hk hqueue (m.endWait id otherwise)
    refine ⟨some (.responseReady response), ⟨hready, ?_, ?_, ?_, ?_⟩, fun hnil => absurd hnil hqueue,
      fun _ => ⟨_, rfl⟩⟩
    all_goals
      obtain ⟨queued, responses, hresponses⟩ := List.exists_cons_of_ne_nil hqueue
      rw [cleanup, takeResponse, hresponses]
    intro id' k' originalId' hne hk'
    refine Function.update_of_ne ?_ _ _
    rintro rfl
    exact hne (by rw [(h.ids k' originalId' id' hk').1, (h.ids k' originalId id hk).1])

lemma awaitResponse_cases (h : Faithful m) (id : RequestId) :
    (∃ k, m.pendingResponses.lookup id = some k ∧ (m.trackers k).responses = [] ∧
      m.awaitResponse id = { m with waiters := m.waiters ++ [{ id := id, tracker := k }] }) ∨
    ∃ result, Finishes m id result (m.awaitResponse id) ∧ Released result := by
  cases hlookup : m.pendingResponses.lookup id with
  | none =>
    refine .inr ⟨some .cancelled, ?_, .inl rfl⟩
    rw [awaitResponse, suspends, waitForResponse, hlookup]
    exact finishes_endWait m id .cancelled
  | some k =>
    have hsuspends : m.suspends id = (m.trackers k).responses.isEmpty := by rw [suspends, hlookup]
    have hwait : m.waitForResponse id =
        m.takeResponse id k { m with waiters := m.waiters ++ [{ id := id, tracker := k }] } := by
      rw [waitForResponse, hlookup]
    rw [awaitResponse, hsuspends, hwait]
    by_cases hqueue : (m.trackers k).responses = []
    · refine .inl ⟨k, rfl, hqueue, ?_⟩
      rw [if_pos (List.isEmpty_iff.mpr hqueue), takeResponse, hqueue]
    · obtain ⟨originalId, hk⟩ := h.pending id k hlookup
      obtain ⟨result, hfinishes, -, hready⟩ := finishes_takeResponse h hk .cancelled
      obtain ⟨response, responses, hresponses⟩ := List.exists_cons_of_ne_nil hqueue
      refine .inr ⟨result, ?_, .inr (hready hqueue)⟩
      rw [if_neg (mt List.isEmpty_iff.mp hqueue)]
      rw [takeResponse, hresponses] at hfinishes ⊢
      exact hfinishes

lemma resume_eq {index : ℕ} (hresume : d.resume index = some t) :
    ∃ w completion, d.manager.waiters[index]? = some w ∧ w.completion = some completion ∧
      t = { d with manager :=
        ({ d.manager with waiters := d.manager.waiters.eraseIdx index }.resume w completion).cleanup w.id } := by
  rw [LocalRequestDispatcher.resume] at hresume
  cases hw : d.manager.waiters[index]? with
  | none =>
    rw [hw] at hresume
    cases hresume
  | some w =>
    rw [hw] at hresume
    obtain ⟨completion, hcompletion, rfl⟩ := Option.map_eq_some_iff.mp hresume
    exact ⟨w, completion, rfl, hcompletion, rfl⟩

lemma resume_cases {index : ℕ} (h : Faithful d.manager) (hresume : d.resume index = some t) :
    ∃ w completion result, d.manager.waiters[index]? = some w ∧ w.completion = some completion ∧
      t.writing = d.writing ∧
      Finishes { d.manager with waiters := d.manager.waiters.eraseIdx index } w.id result t.manager ∧
      ((d.manager.trackers w.tracker).responses = [] → result = some completion.waitResult) ∧
      ((d.manager.trackers w.tracker).responses ≠ [] → ∃ response, result = some (.responseReady response)) := by
  obtain ⟨w, completion, hw, hcompletion, rfl⟩ := resume_eq hresume
  obtain ⟨originalId, hk⟩ := h.waiting w (List.mem_of_getElem? hw)
  obtain ⟨result, hfinishes, hempty, hready⟩ := finishes_takeResponse (h.awake index) hk completion.waitResult
  exact ⟨w, completion, result, hw, hcompletion, rfl, hfinishes, hempty, hready⟩

end Ending

section Steps

variable {m u : ResponseManager}

lemma faithful_cleanup (h : Faithful m) (id : RequestId) : Faithful (m.cleanup id) := by
  have hcount := count_lt h
  exact h.step (e := .cleanup id) hcount rfl rfl

lemma faithful_waitForResponse (h : Faithful m) (id : RequestId) : Faithful (m.waitForResponse id) :=
  h.step (e := .waitForResponse id) ((waitForResponse_created m id).symm ▸ count_lt h) rfl rfl

lemma faithful_awaitResponse (h : Faithful m) (id : RequestId) : Faithful (m.awaitResponse id) := by
  rw [awaitResponse]
  split_ifs
  · exact faithful_waitForResponse h id
  · exact faithful_cleanup (faithful_waitForResponse h id) id

lemma faithful_resume {index : ℕ} (h : Faithful d.manager) (hresume : d.resume index = some t) :
    Faithful t.manager := by
  obtain ⟨w, completion, hw, hcompletion, rfl⟩ := resume_eq hresume
  have hstep : d.manager.step (.resume index) =
      some (ResponseManager.resume { d.manager with waiters := d.manager.waiters.eraseIdx index } w completion) := by
    rw [ResponseManager.step, hw]
    simp only [hcompletion, Option.map_some]
  refine faithful_cleanup (h.step ?_ rfl hstep) w.id
  rw [resume_created]
  have hcount := count_lt h
  exact hcount

lemma afterWrite_cases {index : ℕ} {rest : ResponseManager → RequestId → ResponseManager}
    (hstep : d.afterWrite index rest = some t) :
    ∃ id, t.manager = rest d.manager id ∧ (id :: t.writing).Perm d.writing := by
  obtain ⟨id, hid, rfl⟩ := Option.map_eq_some_iff.mp hstep
  exact ⟨id, rfl, Pool.perm_eraseIdx hid⟩

lemma Finishes.lookup {u : ResponseManager} {result : Option WaitResult} {ended : RequestId}
    (h : Finishes m ended result u) {id : RequestId} {k : ℕ} (hlookup : u.pendingResponses.lookup id = some k) :
    m.pendingResponses.lookup id = some k ∧ id ≠ ended := by
  rw [h.pending, FiniteMap.lookup_erase] at hlookup
  split_ifs at hlookup with hne
  exact ⟨hlookup, hne⟩

lemma Kept.written (h : Kept d) {index : ℕ} (hstep : d.afterWrite index awaitResponse = some t) : Kept t := by
  obtain ⟨id, hmanager, hwriting⟩ := afterWrite_cases hstep
  have hfaithful : Faithful t.manager := hmanager ▸ faithful_awaitResponse h.faithful id
  rcases awaitResponse_cases h.faithful id with ⟨k, -, -, hwaits⟩ | ⟨result, hfinishes, -⟩
  · rw [hwaits] at hmanager
    refine h.keep hfaithful (by rw [hmanager]) (by rw [endedIds, endedIds, hmanager]) ?_ ?_
    · rw [suspended, suspended, hmanager, List.map_append]
      have hmoved := List.perm_append_singleton id (t.writing ++ d.manager.waiters.map Waiter.id)
      rw [List.append_assoc] at hmoved
      exact hmoved.trans (hwriting.append_right _)
    · intro id k hlookup
      rwa [hmanager] at hlookup
  · rw [← hmanager] at hfinishes
    refine h.ending hfaithful hfinishes.created id ?_ (.inr ?_) fun id k hlookup => hfinishes.lookup hlookup
    · rw [suspended, suspended, hfinishes.waiters, ← List.cons_append]
      exact hwriting.append_right _
    · rw [endedIds, endedIds, hfinishes.results, List.map_append]
      rfl

lemma Kept.writeFailed (h : Kept d) {index : ℕ} (hstep : d.afterWrite index cleanup = some t) : Kept t := by
  obtain ⟨id, hmanager, hwriting⟩ := afterWrite_cases hstep
  refine h.ending (hmanager ▸ faithful_cleanup h.faithful id) (by rw [hmanager]; rfl) id ?_ (.inl ?_) ?_
  · rw [suspended, suspended, hmanager, ← List.cons_append]
    exact hwriting.append_right _
  · rw [endedIds, endedIds, hmanager]
    rfl
  · intro id' k hlookup
    rw [hmanager, cleanup, FiniteMap.lookup_erase] at hlookup
    split_ifs at hlookup with hne
    exact ⟨hlookup, hne⟩

lemma Kept.resumed (h : Kept d) {index : ℕ} (hresume : d.resume index = some t) : Kept t := by
  obtain ⟨w, completion, result, hw, -, hwriting, hfinishes, -⟩ := resume_cases h.faithful hresume
  have hfaithful := faithful_resume h.faithful hresume
  refine h.ending hfaithful hfinishes.created w.id ?_ (.inr ?_) fun id k => hfinishes.lookup
  · rw [suspended, suspended, hfinishes.waiters, hwriting]
    exact List.perm_middle.symm.trans (((Pool.perm_eraseIdx hw).map Waiter.id).append_left _)
  · rw [endedIds, endedIds, hfinishes.results, List.map_append]
    rfl

lemma Kept.waiters (h : Kept d) (hfaithful : Faithful m) (hcreated : m.created = d.manager.created)
    (hresults : m.results = d.manager.results)
    (hwaiters : m.waiters.map Waiter.id = d.manager.waiters.map Waiter.id)
    (hpending : ∀ id k, m.pendingResponses.lookup id = some k → d.manager.pendingResponses.lookup id = some k) :
    Kept { d with manager := m } := by
  refine h.keep hfaithful hcreated ?_ ?_ hpending
  · rw [endedIds, endedIds, hresults]
  · rw [suspended, suspended, hwaiters]

lemma message_cases (message : Json) (m : ResponseManager) :
    (tryStoreJsonrpcResponse message m).getD m = m ∨
      ∃ id, message.isObject ∧ (tryStoreJsonrpcResponse message m).getD m = m.storeResponse id message := by
  rw [tryStoreJsonrpcResponse]
  split_ifs with hinvalid
  · exact .inl rfl
  · rw [Bool.not_eq_true, Bool.not_eq_false'] at hinvalid
    cases Jsonrpc.requestIdFromJson (message.member Jsonrpc.idKey) with
    | none => exact .inl rfl
    | some id =>
      dsimp only
      split_ifs
      · exact .inr ⟨id, isObject_of_valid hinvalid, rfl⟩
      · exact .inl rfl

lemma storeResponse_frame (m : ResponseManager) (id : RequestId) (response : Json) :
    (m.storeResponse id response).created = m.created ∧ (m.storeResponse id response).results = m.results ∧
      (m.storeResponse id response).waiters.map Waiter.id = m.waiters.map Waiter.id ∧
      (m.storeResponse id response).pendingResponses = m.pendingResponses := by
  rw [storeResponse]
  cases m.pendingResponses.lookup id with
  | none => exact ⟨rfl, rfl, rfl, rfl⟩
  | some k => exact ⟨rfl, rfl, map_id_completeWaits _ _ _, rfl⟩

lemma Kept.message (h : Kept d) (message : Json) :
    Kept { d with manager := (tryStoreJsonrpcResponse message d.manager).getD d.manager } := by
  rcases message_cases message d.manager with heq | ⟨id, hobject, heq⟩
  · rw [heq]
    exact h
  · rw [heq]
    obtain ⟨hcreated, hresults, hwaiters, hpending⟩ := storeResponse_frame d.manager id message
    exact h.waiters (h.faithful.store (count_lt h.faithful) hobject id) hcreated hresults hwaiters
      fun _ _ hlookup => hpending ▸ hlookup

lemma Kept.timerExpires (h : Kept d) {index : ℕ} (hstep : d.manager.step (.timerExpires index) = some m) :
    Kept { d with manager := m } := by
  have hfaithful : Faithful m := by
    refine h.faithful.step ?_ rfl hstep
    obtain ⟨w, -, -, rfl⟩ := timerExpires_cases hstep
    have hcount := count_lt h.faithful
    exact hcount
  obtain ⟨w, hw, -, rfl⟩ := timerExpires_cases hstep
  refine h.waiters hfaithful rfl rfl ?_ fun _ _ hlookup => hlookup
  obtain ⟨earlier, later, hwaiters, -, hset⟩ := Pool.split hw
  rw [hset, hwaiters, List.map_append, List.map_append]
  rfl

def IdsFit (d : LocalRequestDispatcher) (event : Event) : Prop :=
  event = .sendRequest → d.manager.nextBridgeRequestId.toNat + 1 < 2 ^ 64

lemma Kept.step {event : Event} (h : Kept d) (hfits : IdsFit d event) (hstep : d.step event = some t) :
    Kept t := by
  cases event with
  | sendRequest =>
    cases hstep
    have hcount := hfits rfl
    rw [h.faithful.counter] at hcount
    exact h.sendRequest hcount
  | written index => exact h.written hstep
  | writeFailed index => exact h.writeFailed hstep
  | message message =>
    cases hstep
    exact h.message message
  | timerExpires index =>
    obtain ⟨m, hexpires, rfl⟩ := Option.map_eq_some_iff.mp hstep
    exact h.timerExpires hexpires
  | resume index => exact h.resumed hstep
  | cancelAll =>
    cases hstep
    have hcount := count_lt h.faithful
    refine h.waiters (h.faithful.step (e := .cancelAll) hcount rfl rfl) rfl rfl ?_ fun _ _ hlookup => hlookup
    exact map_id_completeWaits _ _ _
  | cleanup id =>
    cases hstep
    refine h.waiters (faithful_cleanup h.faithful id) rfl rfl rfl fun id' k hlookup => ?_
    rw [cleanup, FiniteMap.lookup_erase] at hlookup
    split_ifs at hlookup
    exact hlookup

lemma run_kept {events : List Event} (hfits : TransitionSystem.Along step IdsFit {} events)
    (hrun : TransitionSystem.run step {} events = some d) : Kept d :=
  TransitionSystem.invariant_along (fun _ _ _ hs he hstep => Kept.step hs he hstep) kept_empty hfits hrun

end Steps

end LocalRequestDispatcher

end DltxtBridge.Protocol
