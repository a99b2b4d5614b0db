import DltxtBridge.Protocol.ResponseManager

namespace DltxtBridge.Protocol.ResponseManager

def nthId (k : ℕ) : RequestId := bridgeId (UInt64.ofNat (k + 1))

lemma bridgeId_injective : Function.Injective bridgeId := by
  intro n n' h
  simp only [bridgeId, RequestId.string.injEq, List.append_cancel_left_eq] at h
  apply UInt64.toNat_inj.mp
  rw [← digitsValue_decimal n.toNat, h, digitsValue_decimal]

lemma nthId_inj {k k' : ℕ} (hk : k + 1 < 2 ^ 64) (hk' : k' + 1 < 2 ^ 64) (h : nthId k = nthId k') :
    k = k' := by
  have hsame := congrArg UInt64.toNat (bridgeId_injective h)
  rw [UInt64.toNat_ofNat', UInt64.toNat_ofNat', Nat.mod_eq_of_lt hk, Nat.mod_eq_of_lt hk'] at hsame
  omega

def storedUnder (stored : List (RequestId × Json)) (id : RequestId) : List Json :=
  stored.filterMap fun entry => if entry.1 = id then some entry.2 else none

def deliveredTo (results : List (RequestId × Option WaitResult)) (id : RequestId) : List Json :=
  results.filterMap fun entry => if entry.1 = id then entry.2.bind WaitResult.response? else none

structure Readdressed (originalId : RequestId) (response delivered : Json) : Prop where
  assigned : readdress originalId response = some delivered
  id : delivered.member? Jsonrpc.idKey = some (Jsonrpc.requestIdToJson originalId)
  others : ∀ key, key ≠ Jsonrpc.idKey → delivered.member? key = response.member? key

lemma readdressed_of_isObject {response : Json} (h : response.isObject) (originalId : RequestId) :
    ∃ delivered, Readdressed originalId response delivered := by
  obtain ⟨delivered, hdelivered⟩ :=
    Json.assign_isObject h Jsonrpc.idKey (Jsonrpc.requestIdToJson originalId)
  refine ⟨delivered, hdelivered, ?_, ?_⟩
  · rw [Json.member?_assign hdelivered, if_pos rfl]
  · intro key hkey
    rw [Json.member?_assign hdelivered, if_neg hkey]

def CreatedAs (m : ResponseManager) (k : ℕ) (originalId id : RequestId) : Prop :=
  m.created[k]? = some (originalId, id)

/-- What was stored under an id is what has been delivered to its waits, then its queue. -/
def Served (m : ResponseManager) (k : ℕ) (originalId id : RequestId) : Prop :=
  ∃ taken, storedUnder m.stored id = taken ++ (m.trackers k).responses ∧
    List.Forall₂ (Readdressed originalId) taken (deliveredTo m.results id)

structure Faithful (m : ResponseManager) : Prop where
  counter : m.nextBridgeRequestId.toNat = m.created.length
  ids : ∀ k originalId id, m.CreatedAs k originalId id → id = nthId k ∧ (m.trackers k).originalId = originalId
  pending : ∀ id k, m.pendingResponses.lookup id = some k → ∃ originalId, m.CreatedAs k originalId id
  waiting : ∀ w ∈ m.waiters, ∃ originalId, m.CreatedAs w.tracker originalId w.id
  objects : ∀ entry ∈ m.stored, entry.2.isObject
  served : ∀ k originalId id, m.CreatedAs k originalId id → m.Served k originalId id
  unknown : ∀ id, (∀ k originalId, ¬ m.CreatedAs k originalId id) →
    storedUnder m.stored id = [] ∧ deliveredTo m.results id = []

lemma not_createdAs_empty (k : ℕ) (originalId id : RequestId) :
    ¬ CreatedAs {} k originalId id := by
  simp [CreatedAs]

lemma faithful_empty : Faithful {} where
  counter := rfl
  ids k originalId id h := absurd h (not_createdAs_empty k originalId id)
  pending _ _ h := by cases h
  waiting _ h := by cases h
  objects _ h := by cases h
  served k originalId id h := absurd h (not_createdAs_empty k originalId id)
  unknown _ _ := ⟨rfl, rfl⟩

variable {m : ResponseManager} {k : ℕ} {originalId id : RequestId}

lemma CreatedAs.lt (h : m.CreatedAs k originalId id) : k < m.created.length :=
  (List.getElem?_eq_some_iff.mp h).1

lemma Faithful.index_unique (h : Faithful m) (hcount : m.created.length < 2 ^ 64) {k' : ℕ}
    {originalId' : RequestId} (hk : m.CreatedAs k originalId id) (hk' : m.CreatedAs k' originalId' id) :
    k = k' := by
  have hlt := hk.lt
  have hlt' := hk'.lt
  have hids := (h.ids k originalId id hk).1
  have hids' := (h.ids k' originalId' id hk').1
  exact nthId_inj (by omega) (by omega) (hids.symm.trans hids')

lemma Faithful.nodup (h : Faithful m) (hcount : m.created.length < 2 ^ 64) :
    (m.created.map Prod.snd).Nodup := by
  rw [List.nodup_iff_getElem?_ne_getElem?]
  intro i j hij hj heq
  rw [List.length_map] at hj
  have hlater : m.CreatedAs j m.created[j].1 m.created[j].2 := List.getElem?_eq_getElem hj
  have hearlier : m.CreatedAs i m.created[i].1 m.created[j].2 := by
    rw [List.getElem?_map, List.getElem?_map, List.getElem?_eq_getElem (hij.trans hj),
      List.getElem?_eq_getElem hj, Option.map_some, Option.map_some, Option.some.injEq] at heq
    rw [CreatedAs, List.getElem?_eq_getElem (hij.trans hj), ← heq]
  have hsame := h.index_unique hcount hearlier hlater
  omega

lemma Faithful.frame (h : Faithful m) {pendingResponses : FiniteMap RequestId ℕ} {waiters : List Waiter}
    (hpending : ∀ id k, pendingResponses.lookup id = some k → m.pendingResponses.lookup id = some k)
    (hwaiters : ∀ w ∈ waiters, ∃ originalId, m.CreatedAs w.tracker originalId w.id) :
    Faithful { m with pendingResponses := pendingResponses, waiters := waiters } where
  counter := h.counter
  ids := h.ids
  pending id k hlookup := h.pending id k (hpending id k hlookup)
  waiting := hwaiters
  objects := h.objects
  served := h.served
  unknown := h.unknown

lemma createdAs_concat (entries : List (RequestId × RequestId)) {newOriginal newId : RequestId} :
    (entries ++ [(newOriginal, newId)])[k]? = some (originalId, id) ↔
      entries[k]? = some (originalId, id) ∨ k = entries.length ∧ newOriginal = originalId ∧ newId = id := by
  rcases lt_trichotomy k entries.length with hk | rfl | hk
  · rw [List.getElem?_append_left hk]
    simp [hk.ne]
  · rw [List.getElem?_concat_length, List.getElem?_eq_none le_rfl]
    simp
  · rw [List.getElem?_eq_none (by simpa using hk), List.getElem?_eq_none hk.le]
    simp [hk.ne']

lemma Faithful.counter_succ (h : Faithful m) (hcount : m.created.length + 1 < 2 ^ 64) :
    (m.nextBridgeRequestId + 1).toNat = m.created.length + 1 := by
  rw [UInt64.toNat_add, h.counter]
  exact Nat.mod_eq_of_lt hcount

lemma Faithful.nextId_eq (h : Faithful m) (hcount : m.created.length + 1 < 2 ^ 64) :
    bridgeId (m.nextBridgeRequestId + 1) = nthId m.created.length := by
  rw [nthId, ← h.counter_succ hcount, UInt64.ofNat_toNat]

lemma Faithful.not_createdAs_next (h : Faithful m) (hcount : m.created.length + 1 < 2 ^ 64) (k : ℕ)
    (originalId : RequestId) : ¬ m.CreatedAs k originalId (nthId m.created.length) := by
  intro hk
  have hlt := hk.lt
  have hsame := nthId_inj (by omega) (by omega) (h.ids k originalId _ hk).1
  omega

lemma Faithful.create (h : Faithful m) (hcount : m.created.length + 1 < 2 ^ 64) (newOriginal : RequestId) :
    Faithful (m.createBridgeRequestId newOriginal) := by
  rw [createBridgeRequestId]
  split_ifs
  swap
  · exact h
  have hcounter := h.counter_succ hcount
  rw [h.nextId_eq hcount]
  have hfresh := h.not_createdAs_next hcount
  have hold : ∀ k originalId id, m.CreatedAs k originalId id →
      Function.update m.trackers m.created.length { originalId := newOriginal } k = m.trackers k := by
    intro k originalId id hk
    exact Function.update_of_ne (by have := hk.lt; omega) _ _
  constructor
  case counter => simpa using hcounter
  case ids =>
    intro k originalId id hk
    obtain hk | ⟨rfl, rfl, rfl⟩ := (createdAs_concat m.created).mp hk
    · simpa only [hold k originalId id hk] using h.ids k originalId id hk
    · exact ⟨rfl, by simp⟩
  case pending =>
    intro id k hlookup
    rw [FiniteMap.lookup_insert] at hlookup
    split_ifs at hlookup with hsame
    · cases hlookup
      exact ⟨newOriginal, (createdAs_concat m.created).mpr (.inr ⟨rfl, rfl, hsame.symm⟩)⟩
    · obtain ⟨originalId, hk⟩ := h.pending id k hlookup
      exact ⟨originalId, (createdAs_concat m.created).mpr (.inl hk)⟩
  case waiting =>
    intro w hw
    obtain ⟨originalId, hk⟩ := h.waiting w hw
    exact ⟨originalId, (createdAs_concat m.created).mpr (.inl hk)⟩
  case objects => exact h.objects
  case served =>
    intro k originalId id hk
    obtain hk | ⟨rfl, rfl, rfl⟩ := (createdAs_concat m.created).mp hk
    · simpa only [Served, hold k originalId id hk] using h.served k originalId id hk
    · obtain ⟨hstored, hdelivered⟩ := h.unknown _ hfresh
      refine ⟨[], ?_, ?_⟩
      · simpa using hstored
      · simp only [hdelivered]
        exact List.Forall₂.nil
  case unknown =>
    intro id hunknown
    apply h.unknown id
    intro k originalId hk
    exact hunknown k originalId ((createdAs_concat m.created).mpr (.inl hk))

lemma storedUnder_concat (stored : List (RequestId × Json)) (id' : RequestId) (response : Json)
    (id : RequestId) :
    storedUnder (stored ++ [(id', response)]) id =
      storedUnder stored id ++ if id' = id then [response] else [] := by
  rw [storedUnder, List.filterMap_append]
  split_ifs with h <;> simp [storedUnder, h]

lemma deliveredTo_concat (results : List (RequestId × Option WaitResult)) (id' : RequestId)
    (result : Option WaitResult) (id : RequestId) :
    deliveredTo (results ++ [(id', result)]) id =
      deliveredTo results id ++ if id' = id then (result.bind WaitResult.response?).toList else [] := by
  rw [deliveredTo, List.filterMap_append]
  split_ifs with h
  · cases hresult : result.bind WaitResult.response? <;> simp [deliveredTo, h, hresult]
  · simp [deliveredTo, h]

lemma completeWaits_cases {completion : TimerCompletion} {p : Waiter → Bool} {waiters : List Waiter} {w : Waiter}
    (hw : w ∈ completeWaits completion p waiters) :
    ∃ w' ∈ waiters, w.id = w'.id ∧ w.tracker = w'.tracker ∧
      (w.completion = some completion ∧ w'.completion = none ∨
        w.completion = w'.completion ∧ (w'.completion = none → p w' = false)) := by
  obtain ⟨w', hw', rfl⟩ := List.mem_map.mp hw
  refine ⟨w', hw', ?_⟩
  split_ifs with hcompleted
  · rw [Bool.and_eq_true, Option.isNone_iff_eq_none] at hcompleted
    exact ⟨rfl, rfl, .inl ⟨rfl, hcompleted.2⟩⟩
  · refine ⟨rfl, rfl, .inr ⟨rfl, fun hnone => ?_⟩⟩
    rw [hnone, Option.isNone_none, Bool.and_true, Bool.not_eq_true] at hcompleted
    exact hcompleted

lemma Faithful.completeWaits (h : Faithful m) (completion : TimerCompletion) (p : Waiter → Bool) :
    ∀ w ∈ ResponseManager.completeWaits completion p m.waiters,
      ∃ originalId, m.CreatedAs w.tracker originalId w.id := by
  intro w hw
  obtain ⟨w', hw', hid, htracker, -⟩ := completeWaits_cases hw
  rw [htracker, hid]
  exact h.waiting w' hw'

lemma Faithful.store (h : Faithful m) (hcount : m.created.length < 2 ^ 64) {response : Json}
    (hresponse : response.isObject) (id : RequestId) : Faithful (m.storeResponse id response) := by
  rw [storeResponse]
  cases hlookup : m.pendingResponses.lookup id with
  | none => exact h
  | some k =>
    obtain ⟨originalId, hk⟩ := h.pending id k hlookup
    constructor
    case counter => exact h.counter
    case ids =>
      intro k' originalId' id' hk'
      obtain ⟨hid, horiginal⟩ := h.ids k' originalId' id' hk'
      refine ⟨hid, ?_⟩
      by_cases hsame : k' = k
      · subst hsame
        simpa using horiginal
      · simpa [Function.update_of_ne hsame] using horiginal
    case pending => exact h.pending
    case waiting => exact h.completeWaits _ _
    case objects =>
      intro entry hentry
      rcases List.mem_append.mp hentry with hentry | hentry
      · exact h.objects entry hentry
      · rw [List.mem_singleton.mp hentry]
        exact hresponse
    case served =>
      intro k' originalId' id' hk'
      obtain ⟨taken, hstored, hdelivered⟩ := h.served k' originalId' id' hk'
      refine ⟨taken, ?_, hdelivered⟩
      rw [storedUnder_concat, hstored]
      by_cases hsame : k' = k
      · subst hsame
        have hid : id = id' := (h.ids k' originalId id hk).1.trans (h.ids k' originalId' id' hk').1.symm
        simp [hid]
      · have hid : id ≠ id' := by
          rintro rfl
          exact hsame (h.index_unique hcount hk' hk)
        simp [hid, Function.update_of_ne hsame]
    case unknown =>
      intro id' hunknown
      have hid : id ≠ id' := by
        rintro rfl
        exact hunknown k originalId hk
      simpa only [storedUnder_concat, if_neg hid, List.append_nil] using h.unknown id' hunknown

lemma Faithful.endWait (h : Faithful m) (id : RequestId) {result : WaitResult}
    (hresult : result.response? = none) : Faithful (m.endWait id result) := by
  have hsame : ∀ id', deliveredTo (m.results ++ [(id, some result)]) id' = deliveredTo m.results id' := by
    intro id'
    simp [deliveredTo_concat, hresult]
  constructor
  case counter => exact h.counter
  case ids => exact h.ids
  case pending => exact h.pending
  case waiting => exact h.waiting
  case objects => exact h.objects
  case served =>
    intro k originalId id' hk
    simpa only [Served, ResponseManager.endWait, hsame] using h.served k originalId id' hk
  case unknown =>
    intro id' hunknown
    simpa only [ResponseManager.endWait, hsame] using h.unknown id' hunknown

lemma Faithful.responses_isObject (h : Faithful m) (hk : m.CreatedAs k originalId id) {response : Json}
    (hmem : response ∈ (m.trackers k).responses) : response.isObject := by
  obtain ⟨taken, hstored, -⟩ := h.served k originalId id hk
  have hmem' : response ∈ storedUnder m.stored id := by
    rw [hstored]
    exact List.mem_append_right taken hmem
  obtain ⟨entry, hentry, heq⟩ := List.mem_filterMap.mp hmem'
  split_ifs at heq
  cases heq
  exact h.objects entry hentry

lemma Faithful.takeResponse (h : Faithful m) (hcount : m.created.length < 2 ^ 64)
    (hk : m.CreatedAs k originalId id) {otherwise : ResponseManager} (hotherwise : Faithful otherwise) :
    Faithful (m.takeResponse id k otherwise) := by
  rw [ResponseManager.takeResponse]
  cases hresponses : (m.trackers k).responses with
  | nil => exact hotherwise
  | cons response responses =>
    have hobject : response.isObject := by
      apply h.responses_isObject hk
      rw [hresponses]
      exact List.mem_cons_self
    have horiginal := (h.ids k originalId id hk).2
    obtain ⟨delivered, hdelivered⟩ := readdressed_of_isObject hobject originalId
    have hresult : ((readdress (m.trackers k).originalId response).map WaitResult.responseReady) =
        some (.responseReady delivered) := by
      rw [horiginal, hdelivered.assigned]
      rfl
    simp only [hresult]
    constructor
    case counter => exact h.counter
    case ids =>
      intro k' originalId' id' hk'
      obtain ⟨hid, horiginal'⟩ := h.ids k' originalId' id' hk'
      refine ⟨hid, ?_⟩
      by_cases hsame : k' = k
      · subst hsame
        simpa using horiginal'
      · simpa [Function.update_of_ne hsame] using horiginal'
    case pending => exact h.pending
    case waiting => exact h.waiting
    case objects => exact h.objects
    case served =>
      intro k' originalId' id' hk'
      obtain ⟨taken, hstored, htaken⟩ := h.served k' originalId' id' hk'
      by_cases hsame : k' = k
      · subst hsame
        have hid : id = id' := (h.ids k' originalId id hk).1.trans (h.ids k' originalId' id' hk').1.symm
        have hsame' : originalId = originalId' := horiginal.symm.trans (h.ids k' originalId' id' hk').2
        subst hid hsame'
        refine ⟨taken ++ [response], ?_, ?_⟩
        · simp [hstored, hresponses]
        · rw [deliveredTo_concat, if_pos rfl]
          exact List.rel_append htaken (.cons hdelivered .nil)
      · have hid : id ≠ id' := by
          rintro rfl
          exact hsame (h.index_unique hcount hk' hk)
        refine ⟨taken, ?_, ?_⟩
        · simpa [Function.update_of_ne hsame] using hstored
        · simpa [deliveredTo_concat, hid] using htaken
    case unknown =>
      intro id' hunknown
      have hid : id ≠ id' := by
        rintro rfl
        exact hunknown k originalId hk
      simpa only [deliveredTo_concat, if_neg hid, List.append_nil] using h.unknown id' hunknown

def Event.valid : Event → Bool
  | .storeResponse _ response => Jsonrpc.isValidJsonrpcResponse response
  | _ => true

lemma isObject_of_valid {response : Json} (h : Jsonrpc.isValidJsonrpcResponse response) :
    response.isObject := by
  simp only [Jsonrpc.isValidJsonrpcResponse, Bool.and_eq_true] at h
  exact h.1.1.1.1

lemma waitForResponse_created (m : ResponseManager) (id : RequestId) :
    (m.waitForResponse id).created = m.created := by
  rw [waitForResponse]
  split
  · rfl
  · rw [takeResponse]
    split <;> rfl

lemma resume_created (m : ResponseManager) (w : Waiter) (completion : TimerCompletion) :
    (m.resume w completion).created = m.created := by
  rw [resume, takeResponse]
  split <;> rfl

lemma timerExpires_cases {index : ℕ} {t : ResponseManager} (hstep : m.step (.timerExpires index) = some t) :
    ∃ w, m.waiters[index]? = some w ∧ w.completion = none ∧
      t = { m with waiters := m.waiters.set index { w with completion := some .expired } } := by
  rw [step] at hstep
  cases hw : m.waiters[index]? with
  | none =>
    rw [hw] at hstep
    cases hstep
  | some w =>
    rw [hw] at hstep
    dsimp only at hstep
    split_ifs at hstep with hcompleted
    cases hstep
    exact ⟨w, rfl, Option.not_isSome_iff_eq_none.mp hcompleted, rfl⟩

lemma resume_cases {index : ℕ} {t : ResponseManager} (hstep : m.step (.resume index) = some t) :
    ∃ w completion, m.waiters[index]? = some w ∧ w.completion = some completion ∧
      t = resume { m with waiters := m.waiters.eraseIdx index } w completion := by
  rw [step] at hstep
  cases hw : m.waiters[index]? with
  | none =>
    rw [hw] at hstep
    cases hstep
  | some w =>
    rw [hw] at hstep
    obtain ⟨completion, hcompletion, rfl⟩ := Option.map_eq_some_iff.mp hstep
    exact ⟨w, completion, rfl, hcompletion, rfl⟩

lemma created_length_step {e : Event} {t : ResponseManager} (hstep : m.step e = some t) :
    m.created.length ≤ t.created.length := by
  cases e with
  | createBridgeRequestId originalId =>
    cases hstep
    rw [createBridgeRequestId]
    split_ifs <;> simp
  | storeResponse id response =>
    cases hstep
    rw [storeResponse]
    split <;> exact le_rfl
  | waitForResponse id =>
    cases hstep
    rw [waitForResponse_created]
  | timerExpires index =>
    obtain ⟨w, -, -, rfl⟩ := timerExpires_cases hstep
    exact le_rfl
  | resume index =>
    obtain ⟨w, completion, -, -, rfl⟩ := resume_cases hstep
    rw [resume_created]
  | cancelAll => cases hstep; exact le_rfl
  | cleanup id => cases hstep; exact le_rfl

lemma Faithful.awake (h : Faithful m) (index : ℕ) : Faithful { m with waiters := m.waiters.eraseIdx index } :=
  h.frame (fun _ _ hpending => hpending) fun w hw => h.waiting w (List.mem_of_mem_eraseIdx hw)

lemma Faithful.step (h : Faithful m) {e : Event} {t : ResponseManager} (hcount : t.created.length < 2 ^ 64)
    (he : e.valid) (hstep : m.step e = some t) : Faithful t := by
  have hcount' := (created_length_step hstep).trans_lt hcount
  cases e with
  | createBridgeRequestId originalId =>
    cases hstep
    by_cases htrackable : Jsonrpc.isTrackableRequestId originalId
    · apply h.create
      simpa [createBridgeRequestId, htrackable] using hcount
    · rwa [createBridgeRequestId, if_neg htrackable]
  | storeResponse id response =>
    cases hstep
    exact h.store hcount' (isObject_of_valid he) id
  | waitForResponse id =>
    cases hstep
    rw [waitForResponse]
    cases hlookup : m.pendingResponses.lookup id with
    | none => exact h.endWait id rfl
    | some k =>
      obtain ⟨originalId, hk⟩ := h.pending id k hlookup
      apply h.takeResponse hcount' hk
      apply h.frame (fun _ _ hpending => hpending)
      intro w hw
      rcases List.mem_append.mp hw with hw | hw
      · exact h.waiting w hw
      · rw [List.mem_singleton.mp hw]
        exact ⟨originalId, hk⟩
  | timerExpires index =>
    obtain ⟨w, hw, -, rfl⟩ := timerExpires_cases hstep
    apply h.frame (fun _ _ hpending => hpending)
    intro w' hw'
    rcases Pool.mem_of_mem_set hw hw' with rfl | hw'
    · exact h.waiting w (List.mem_of_getElem? hw)
    · exact h.waiting w' hw'
  | resume index =>
    obtain ⟨w, completion, hw, -, rfl⟩ := resume_cases hstep
    obtain ⟨originalId, hk⟩ := h.waiting w (List.mem_of_getElem? hw)
    apply (h.awake index).takeResponse hcount' hk
    apply (h.awake index).endWait
    cases completion <;> rfl
  | cancelAll =>
    cases hstep
    exact h.frame (fun _ _ hpending => hpending) (h.completeWaits _ _)
  | cleanup id =>
    cases hstep
    refine h.frame ?_ h.waiting
    intro id' k hlookup
    rw [FiniteMap.lookup_erase] at hlookup
    split_ifs at hlookup
    exact hlookup

lemma run_faithful {events : List Event} (hvalid : ∀ e ∈ events, e.valid)
    (hrun : TransitionSystem.run step {} events = some m) (hcount : m.created.length < 2 ^ 64) :
    Faithful m :=
  TransitionSystem.invariant_along (I := fun m => m.created.length < 2 ^ 64 → Faithful m)
    (fun _ _ _ hs he hstep hcount => (hs ((created_length_step hstep).trans_lt hcount)).step hcount he hstep)
    (fun _ => faithful_empty) (TransitionSystem.along_of_forall hvalid _) hrun hcount

def Event.waitedId? : Event → Option RequestId
  | .waitForResponse id => some id
  | _ => none

def waitedIds (events : List Event) : List RequestId := events.filterMap Event.waitedId?

def waitingIds (m : ResponseManager) : List RequestId := m.results.map Prod.fst ++ m.waiters.map Waiter.id

lemma map_id_completeWaits (completion : TimerCompletion) (p : Waiter → Bool) (waiters : List Waiter) :
    (ResponseManager.completeWaits completion p waiters).map Waiter.id = waiters.map Waiter.id := by
  rw [ResponseManager.completeWaits, List.map_map]
  apply List.map_congr_left
  intro w _
  rw [Function.comp_apply]
  split_ifs <;> rfl

lemma waitingIds_waitForResponse (m : ResponseManager) (id : RequestId) :
    (m.waitForResponse id).waitingIds.Perm (m.waitingIds ++ [id]) := by
  have hended : ((m.results.map Prod.fst ++ [id]) ++ m.waiters.map Waiter.id).Perm (m.waitingIds ++ [id]) := by
    rw [waitingIds, List.append_assoc, List.append_assoc]
    exact List.perm_append_comm.append_left _
  rw [waitForResponse]
  split
  · simpa [endWait, waitingIds] using hended
  · rw [takeResponse]
    split
    · simp [waitingIds]
    · simpa [waitingIds] using hended

lemma waitingIds_resume {index : ℕ} {w : Waiter} (hw : m.waiters[index]? = some w)
    (completion : TimerCompletion) :
    (resume { m with waiters := m.waiters.eraseIdx index } w completion).waitingIds.Perm m.waitingIds := by
  obtain ⟨earlier, later, hwaiters, herase, -⟩ := Pool.split hw
  have hended : ((m.results.map Prod.fst ++ [w.id]) ++ (earlier ++ later).map Waiter.id).Perm m.waitingIds := by
    rw [waitingIds, hwaiters, List.append_assoc, List.map_append, List.map_append, List.map_cons,
      List.singleton_append]
    exact List.Perm.append_left _ List.perm_middle.symm
  rw [resume, takeResponse]
  split
  · simpa [endWait, waitingIds, herase] using hended
  · simpa [waitingIds, herase] using hended

lemma waitingIds_step {e : Event} {t : ResponseManager} (hstep : m.step e = some t) :
    t.waitingIds.Perm (m.waitingIds ++ e.waitedId?.toList) := by
  cases e with
  | createBridgeRequestId originalId =>
    cases hstep
    rw [createBridgeRequestId]
    split_ifs <;> simp [waitingIds, Event.waitedId?]
  | storeResponse id response =>
    cases hstep
    rw [storeResponse]
    split
    · simp [Event.waitedId?]
    · simp [waitingIds, map_id_completeWaits, Event.waitedId?]
  | waitForResponse id =>
    cases hstep
    exact waitingIds_waitForResponse m id
  | timerExpires index =>
    obtain ⟨w, hw, -, rfl⟩ := timerExpires_cases hstep
    obtain ⟨earlier, later, hwaiters, -, hset⟩ := Pool.split hw
    rw [waitingIds, waitingIds, hset, hwaiters]
    simp [Event.waitedId?]
  | resume index =>
    obtain ⟨w, completion, hw, -, rfl⟩ := resume_cases hstep
    simpa [Event.waitedId?] using waitingIds_resume hw completion
  | cancelAll =>
    cases hstep
    simp [cancelAll, waitingIds, map_id_completeWaits, Event.waitedId?]
  | cleanup id =>
    cases hstep
    simp [cleanup, waitingIds, Event.waitedId?]

lemma waitedIds_concat (past : List Event) (e : Event) :
    waitedIds (past ++ [e]) = waitedIds past ++ e.waitedId?.toList := by
  rw [waitedIds, List.filterMap_append]
  cases hid : e.waitedId? <;> simp [waitedIds, hid]

def Accounted (past : List Event) (m : ResponseManager) : Prop := m.waitingIds.Perm (waitedIds past)

lemma accounted_empty : Accounted [] {} := List.Perm.refl []

lemma Accounted.step {past : List Event} {e : Event} {t : ResponseManager} (h : Accounted past m)
    (hstep : m.step e = some t) : Accounted (past ++ [e]) t := by
  rw [Accounted, waitedIds_concat]
  exact (waitingIds_step hstep).trans (h.append_right _)

lemma run_accounted {events : List Event} (hrun : TransitionSystem.run step {} events = some m) :
    Accounted events m :=
  TransitionSystem.history_invariant (fun _ _ _ _ h _ hstep => Accounted.step h hstep) accounted_empty
    (TransitionSystem.along_of_forall (Q := fun _ => True) (fun _ _ => trivial) _) hrun

lemma deliveredTo_of_notMem {results : List (RequestId × Option WaitResult)}
    (h : id ∉ results.map Prod.fst) : deliveredTo results id = [] := by
  rw [deliveredTo, List.filterMap_eq_nil_iff]
  intro entry hentry
  rw [if_neg]
  rintro rfl
  exact h (List.mem_map_of_mem hentry)

lemma Faithful.takeResponse_ready (h : Faithful m) (hk : m.CreatedAs k originalId id)
    (hqueue : (m.trackers k).responses ≠ []) (otherwise : ResponseManager) :
    ∃ response,
      (m.takeResponse id k otherwise).results = m.results ++ [(id, some (.responseReady response))] := by
  obtain ⟨response, responses, hresponses⟩ := List.exists_cons_of_ne_nil hqueue
  have hobject : response.isObject := by
    apply h.responses_isObject hk
    rw [hresponses]
    exact List.mem_cons_self
  obtain ⟨delivered, hdelivered⟩ := readdressed_of_isObject hobject originalId
  refine ⟨delivered, ?_⟩
  simp [ResponseManager.takeResponse, hresponses, (h.ids k originalId id hk).2, hdelivered.assigned]

lemma Faithful.queue_ne_nil (h : Faithful m) (hk : m.CreatedAs k originalId id)
    (hresults : id ∉ m.results.map Prod.fst) (hstored : storedUnder m.stored id ≠ []) :
    (m.trackers k).responses ≠ [] := by
  obtain ⟨taken, hqueue, htaken⟩ := h.served k originalId id hk
  rw [deliveredTo_of_notMem hresults, List.forall₂_nil_right_iff] at htaken
  rwa [hqueue, htaken] at hstored

def Ends (m t : ResponseManager) (id : RequestId) (result : Option WaitResult) : Prop :=
  t.results = m.results ++ [(id, result)]

lemma not_ends_of_results_eq {t : ResponseManager} {result : Option WaitResult} (h : t.results = m.results) :
    ¬ Ends m t id result := by
  intro hends
  rw [Ends, h, List.self_eq_append_right] at hends
  cases hends

lemma Ends.unique {t : ResponseManager} {id' : RequestId} {result result' : Option WaitResult}
    (h : Ends m t id result) (h' : Ends m t id' result') : id = id' ∧ result = result' := by
  rw [Ends, h, List.append_cancel_left_eq] at h'
  cases h'
  exact ⟨rfl, rfl⟩

lemma Accounted.notMem_results {past : List Event} (h : Accounted past m) (honce : (waitedIds past).Nodup)
    {w : Waiter} (hw : w ∈ m.waiters) : w.id ∉ m.results.map Prod.fst := by
  have hnodup : m.waitingIds.Nodup := h.nodup_iff.mpr honce
  intro hresults
  exact (List.nodup_append.mp hnodup).2.2 w.id hresults w.id (List.mem_map_of_mem hw) rfl

lemma ready_of_ends {past : List Event} {e : Event} {t : ResponseManager} {result : Option WaitResult}
    (h : Faithful m) (haccounted : Accounted past m) (honce : (waitedIds (past ++ [e])).Nodup)
    (hstep : m.step e = some t) (hends : Ends m t id result) (hstored : storedUnder m.stored id ≠ [])
    (hregistered : e = .waitForResponse id → (m.pendingResponses.lookup id).isSome) :
    ∃ response, result = some (.responseReady response) := by
  cases e with
  | createBridgeRequestId originalId =>
    cases hstep
    apply absurd hends (not_ends_of_results_eq _)
    rw [createBridgeRequestId]
    split_ifs <;> rfl
  | storeResponse id' response =>
    cases hstep
    apply absurd hends (not_ends_of_results_eq _)
    rw [storeResponse]
    split <;> rfl
  | waitForResponse id' =>
    cases hstep
    rw [waitForResponse] at hends
    split at hends
    · rename_i hlookup
      have hcancelled : Ends m (m.endWait id' .cancelled) id' (some .cancelled) := rfl
      obtain ⟨rfl, -⟩ := hends.unique hcancelled
      rw [hlookup] at hregistered
      cases hregistered rfl
    · rename_i k hlookup
      obtain ⟨originalId, hk⟩ := h.pending id' k hlookup
      by_cases hqueue : (m.trackers k).responses = []
      · rw [takeResponse, hqueue] at hends
        exact absurd hends (not_ends_of_results_eq rfl)
      · obtain ⟨response, hready⟩ := h.takeResponse_ready hk hqueue _
        obtain ⟨-, rfl⟩ := hends.unique hready
        exact ⟨response, rfl⟩
  | timerExpires index =>
    obtain ⟨w, -, -, rfl⟩ := timerExpires_cases hstep
    exact absurd hends (not_ends_of_results_eq rfl)
  | resume index =>
    obtain ⟨w, completion, hw, -, rfl⟩ := resume_cases hstep
    have hmem := List.mem_of_getElem? hw
    obtain ⟨originalId, hk⟩ := h.waiting w hmem
    have hresults : w.id ∉ m.results.map Prod.fst := by
      apply haccounted.notMem_results _ hmem
      rw [waitedIds_concat] at honce
      exact honce.of_append_left
    by_cases hqueue : (m.trackers w.tracker).responses = []
    · rw [resume, takeResponse, hqueue] at hends
      have hended : Ends m (m.endWait w.id completion.waitResult) w.id (some completion.waitResult) := rfl
      obtain ⟨rfl, -⟩ := Ends.unique hends hended
      exact absurd hqueue (h.queue_ne_nil hk hresults hstored)
    · obtain ⟨response, hready⟩ := (h.awake index).takeResponse_ready hk hqueue _
      obtain ⟨-, rfl⟩ := Ends.unique hends hready
      exact ⟨response, rfl⟩
  | cancelAll => cases hstep; exact absurd hends (not_ends_of_results_eq rfl)
  | cleanup id' => cases hstep; exact absurd hends (not_ends_of_results_eq rfl)

theorem responses_delivered {events : List Event} (hvalid : ∀ e ∈ events, e.valid)
    (hrun : TransitionSystem.run step {} events = some m) (hcount : m.created.length < 2 ^ 64) :
    (m.created.map Prod.snd).Nodup ∧
      (∀ id, deliveredTo m.results id = [] ∨
        ∃ originalId n, (originalId, id) ∈ m.created ∧
          List.Forall₂ (Readdressed originalId) ((storedUnder m.stored id).take n) (deliveredTo m.results id)) ∧
      ∀ e t id result, m.step e = some t → Ends m t id result → (waitedIds (events ++ [e])).Nodup →
        storedUnder m.stored id ≠ [] →
        (e = .waitForResponse id → (m.pendingResponses.lookup id).isSome) →
        ∃ response, result = some (.responseReady response) := by
  have h := run_faithful hvalid hrun hcount
  refine ⟨h.nodup hcount, ?_, ?_⟩
  · intro id
    by_cases hknown : ∃ k originalId, m.CreatedAs k originalId id
    · obtain ⟨k, originalId, hk⟩ := hknown
      obtain ⟨taken, hstored, htaken⟩ := h.served k originalId id hk
      refine .inr ⟨originalId, taken.length, List.mem_of_getElem? hk, ?_⟩
      rwa [hstored, List.take_left]
    · simp only [not_exists] at hknown
      exact .inl (h.unknown id hknown).2
  · intro e t id result hstep hends honce hstored hregistered
    exact ready_of_ends h (run_accounted hrun) honce hstep hends hstored hregistered

section Examples

def answer (n : UInt64) : Json := Jsonrpc.createResponse (Jsonrpc.requestIdToJson (bridgeId n)) .null

def exchange : List Event :=
  [.createBridgeRequestId (.integer 7), .createBridgeRequestId (.integer 7), .waitForResponse (bridgeId 1),
    .timerExpires 0, .storeResponse (bridgeId 2) (answer 2), .storeResponse (bridgeId 1) (answer 1)]

def exchanged : ResponseManager := (TransitionSystem.run step {} exchange).getD {}

def resumed : ResponseManager := (exchanged.step (.resume 0)).getD {}

def lastResult (m : ResponseManager) : Option WaitResult := m.results.getLast?.bind Prod.snd

theorem late_response_delivered :
    (exchanged.created.map Prod.snd).Nodup ∧ ∃ response, lastResult resumed = some (.responseReady response) := by
  have hrun : TransitionSystem.run step {} exchange = some exchanged := rfl
  have hvalid : ∀ e ∈ exchange, e.valid := by
    intro e he
    fin_cases he <;> rfl
  obtain ⟨hnodup, -, hready⟩ := responses_delivered hvalid hrun (by decide)
  refine ⟨hnodup, ?_⟩
  apply hready (.resume 0) resumed (bridgeId 1) (lastResult resumed) rfl rfl (by decide) (by decide)
  intro h
  cases h

def cleanedUp : List Event :=
  [.createBridgeRequestId (.integer 7), .storeResponse (bridgeId 1) (answer 1), .cleanup (bridgeId 1)]

theorem cleanup_discards_response :
    ¬ ∀ (events : List Event) (m : ResponseManager), (∀ e ∈ events, e.valid) →
      TransitionSystem.run step {} events = some m → m.created.length < 2 ^ 64 →
      ∀ e t id result, m.step e = some t → Ends m t id result → (waitedIds (events ++ [e])).Nodup →
        storedUnder m.stored id ≠ [] → ∃ response, result = some (.responseReady response) := by
  intro h
  have hvalid : ∀ e ∈ cleanedUp, e.valid := by
    intro e he
    fin_cases he <;> rfl
  have hrun : TransitionSystem.run step {} cleanedUp =
      some ((TransitionSystem.run step {} cleanedUp).getD {}) := rfl
  obtain ⟨response, hresponse⟩ := h cleanedUp _ hvalid hrun (by decide) (.waitForResponse (bridgeId 1)) _
    (bridgeId 1) (some .cancelled) rfl rfl (by decide) (by decide)
  cases hresponse

end Examples

end DltxtBridge.Protocol.ResponseManager
