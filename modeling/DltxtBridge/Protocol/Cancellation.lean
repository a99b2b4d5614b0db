import DltxtBridge.Protocol.SendRequest

namespace DltxtBridge.Protocol.LocalRequestDispatcher

open ResponseManager TransitionSystem

/-- A request that waits may go on at once, and one that has ended was not timed out. -/
def ReleasedAt (d : LocalRequestDispatcher) (id : RequestId) : Prop :=
  (∀ index w, d.manager.waiters[index]? = some w → w.id = id → (d.step (.resume index)).isSome) ∧
    ∀ result, (id, result) ∈ d.manager.results → Released result

def Releasable (d : LocalRequestDispatcher) : Prop :=
  ∀ id k, d.manager.pendingResponses.lookup id = some k →
    (d.manager.trackers k).responses ≠ [] ∨
      ∃ w ∈ d.manager.waiters, w.tracker = k ∧ w.completion ≠ some .expired

structure Releasing (d : LocalRequestDispatcher) (id : RequestId) (k : ℕ) : Prop where
  created : ∃ originalId, d.manager.CreatedAs k originalId id
  waiting : ∀ w ∈ d.manager.waiters, w.id = id →
    w.completion ≠ none ∧ (w.completion = some .expired → (d.manager.trackers k).responses ≠ [])
  writing : id ∈ d.writing → d.manager.pendingResponses.lookup id ≠ none → (d.manager.trackers k).responses ≠ []
  results : ∀ result, (id, result) ∈ d.manager.results → Released result

variable {d t : LocalRequestDispatcher} {id : RequestId} {k : ℕ}

lemma isSome_resume {index : ℕ} {w : Waiter} (hw : d.manager.waiters[index]? = some w) :
    (d.step (.resume index)).isSome ↔ w.completion ≠ none := by
  rw [step, LocalRequestDispatcher.resume, hw]
  dsimp only
  rw [Option.isSome_map, Option.isSome_iff_ne_none]

lemma Releasing.releasedAt (h : Releasing d id k) : ReleasedAt d id := by
  refine ⟨fun index w hw hid => ?_, h.results⟩
  exact (isSome_resume hw).mpr (h.waiting w (List.mem_of_getElem? hw) hid).1

lemma Kept.tracker_eq (h : Kept d) {originalId : RequestId} (hk : d.manager.CreatedAs k originalId id)
    {w : Waiter} (hw : w ∈ d.manager.waiters) (hid : w.id = id) : w.tracker = k := by
  obtain ⟨originalId', hwaits⟩ := h.faithful.waiting w hw
  rw [hid] at hwaits
  exact h.faithful.index_unique (count_lt h.faithful) hwaits hk

lemma Kept.id_eq (h : Kept d) {originalId : RequestId} (hk : d.manager.CreatedAs k originalId id)
    {w : Waiter} (hw : w ∈ d.manager.waiters) (htracker : w.tracker = k) : w.id = id := by
  obtain ⟨originalId', hwaits⟩ := h.faithful.waiting w hw
  rw [htracker] at hwaits
  rw [(h.faithful.ids k originalId' w.id hwaits).1, (h.faithful.ids k originalId id hk).1]

lemma Kept.nodup_suspended (h : Kept d) : d.suspended.Nodup := h.nodup.of_append_right

lemma Kept.nodup_waiters (h : Kept d) : (d.manager.waiters.map Waiter.id).Nodup :=
  h.nodup_suspended.of_append_right

lemma Kept.id_ne_of_writing (h : Kept d) (hid : id ∈ d.writing) {w : Waiter} (hw : w ∈ d.manager.waiters) :
    w.id ≠ id := by
  rintro rfl
  exact List.disjoint_of_nodup_append h.nodup_suspended hid (List.mem_map_of_mem hw)

lemma Kept.notMem_results (h : Kept d) (hid : id ∈ d.suspended) (result : Option WaitResult) :
    (id, result) ∉ d.manager.results :=
  fun hmem => List.disjoint_of_nodup_append h.nodup (List.mem_map_of_mem hmem) hid

lemma Kept.releasing (h : Kept d) (hreleasable : Releasable d)
    (hlookup : d.manager.pendingResponses.lookup id = some k) :
    Releasing { d with manager := d.manager.cancelAll } id k := by
  obtain ⟨originalId, hk⟩ := h.faithful.pending id k hlookup
  refine ⟨⟨originalId, hk⟩, fun w hw hid => ?_, fun hwriting _ => ?_, fun result hmem => ?_⟩
  · obtain ⟨w', hw', hid', htracker', hcompleted⟩ := completeWaits_cases hw
    have hsame := h.tracker_eq hk hw' (hid' ▸ hid)
    rcases hcompleted with ⟨haborted, -⟩ | ⟨hkept, hmissed⟩
    · rw [haborted]
      exact ⟨Option.some_ne_none _, nofun⟩
    · rw [hkept]
      refine ⟨fun hnone => ?_, fun hexpired => ?_⟩
      · have hpending := hmissed hnone
        rw [decide_eq_false_iff_not, ← hid', hid, hsame] at hpending
        exact hpending hlookup
      · rcases hreleasable id k hlookup with hqueue | ⟨waiting, hwaiting, htracker, hunexpired⟩
        · exact hqueue
        · have hwait := List.inj_on_of_nodup_map h.nodup_waiters hwaiting hw'
            ((h.id_eq hk hwaiting htracker).trans (hid.symm.trans hid'))
          exact absurd (hwait ▸ hexpired) hunexpired
  · rcases hreleasable id k hlookup with hqueue | ⟨w, hw, htracker, -⟩
    · exact hqueue
    · exact absurd (h.id_eq hk hw htracker) (h.id_ne_of_writing hwriting hw)
  · exact absurd hmem (h.notMem_results (h.live id k hlookup) result)

section Steps

lemma Releasing.finishes (h : Releasing d id k) {ended : RequestId} {result : Option WaitResult}
    {waiters : List Waiter} (hfinishes : Finishes { d.manager with waiters := waiters } ended result t.manager)
    (hwaiters : waiters ⊆ d.manager.waiters) (hwriting : t.writing ⊆ d.writing)
    (hown : ended = id → (∀ w ∈ waiters, w.id ≠ id) ∧ Released result) : Releasing t id k := by
  obtain ⟨originalId, hk⟩ := h.created
  have hcreated : t.manager.CreatedAs k originalId id := by rwa [CreatedAs, hfinishes.created]
  have hresults : ∀ result', (id, result') ∈ t.manager.results → Released result' := by
    intro result' hmem
    rw [hfinishes.results, List.mem_append, List.mem_singleton] at hmem
    rcases hmem with hmem | heq
    · exact h.results result' hmem
    · cases heq
      exact (hown rfl).2
  by_cases hid : ended = id
  · refine ⟨⟨originalId, hcreated⟩, fun w hw hsame => ?_, fun _ hpending => ?_, hresults⟩
    · rw [hfinishes.waiters] at hw
      exact absurd hsame ((hown hid).1 w hw)
    · rw [hfinishes.pending, hid, FiniteMap.lookup_erase, if_pos rfl] at hpending
      exact absurd rfl hpending
  · have htrackers := hfinishes.trackers id k originalId (Ne.symm hid) hk
    refine ⟨⟨originalId, hcreated⟩, fun w hw hsame => ?_, fun hmem hpending => ?_, hresults⟩
    · rw [hfinishes.waiters] at hw
      rw [htrackers]
      exact h.waiting w (hwaiters hw) hsame
    · rw [hfinishes.pending, FiniteMap.lookup_erase, if_neg (Ne.symm hid)] at hpending
      rw [htrackers]
      exact h.writing (hwriting hmem) hpending

lemma Releasing.sendRequest (h : Releasing d id k) (hkept : Kept d)
    (hcount : d.manager.created.length + 1 < 2 ^ 64) : Releasing d.sendRequest id k := by
  obtain ⟨originalId, hk⟩ := h.created
  have hne : id ≠ bridgeId (d.manager.nextBridgeRequestId + 1) := by
    rw [hkept.faithful.nextId_eq hcount]
    rintro rfl
    exact hkept.faithful.not_createdAs_next hcount k originalId hk
  have htrackers : d.sendRequest.manager.trackers k = d.manager.trackers k := by
    rw [sendRequest_manager]
    exact Function.update_of_ne hk.lt.ne _ _
  refine ⟨⟨originalId, ?_⟩, fun w hw hid => ?_, fun hmem hpending => ?_, fun result hmem => ?_⟩
  · rw [CreatedAs, sendRequest_manager]
    exact (createdAs_concat d.manager.created).mpr (.inl hk)
  · rw [sendRequest_manager] at hw
    rw [htrackers]
    exact h.waiting w hw hid
  · rw [sendRequest_manager] at hpending
    rw [FiniteMap.lookup_insert, if_neg hne] at hpending
    rw [htrackers]
    refine h.writing ?_ hpending
    rcases List.mem_append.mp hmem with hmem | hmem
    · exact hmem
    · exact absurd (List.mem_singleton.mp hmem) hne
  · rw [sendRequest_manager] at hmem
    exact h.results result hmem

lemma Releasing.written (h : Releasing d id k) (hkept : Kept d) {index : ℕ}
    (hstep : d.afterWrite index awaitResponse = some t) : Releasing t id k := by
  obtain ⟨written, hmanager, hperm⟩ := afterWrite_cases hstep
  have hwritten : written ∈ d.writing := hperm.subset List.mem_cons_self
  have hwriting : t.writing ⊆ d.writing := fun id hid => hperm.subset (List.mem_cons_of_mem _ hid)
  obtain ⟨originalId, hk⟩ := h.created
  rcases awaitResponse_cases hkept.faithful written with
    ⟨k', hlookup, hqueue, hwaits⟩ | ⟨result, hfinishes, hreleased⟩
  · rw [hwaits] at hmanager
    have hne : written ≠ id := by
      rintro rfl
      obtain ⟨originalId', hk'⟩ := hkept.faithful.pending written k' hlookup
      refine h.writing hwritten (by rw [hlookup]; exact Option.some_ne_none k') ?_
      rwa [hkept.faithful.index_unique (count_lt hkept.faithful) hk hk']
    refine ⟨⟨originalId, by rwa [hmanager]⟩, fun w hw hid => ?_, fun hmem hpending => ?_, fun result hmem => ?_⟩
    · rw [hmanager] at hw ⊢
      rcases List.mem_append.mp hw with hw | hw
      · exact h.waiting w hw hid
      · cases List.mem_singleton.mp hw
        exact absurd hid hne
    · rw [hmanager] at hpending ⊢
      exact h.writing (hwriting hmem) hpending
    · rw [hmanager] at hmem
      exact h.results result hmem
  · rw [← hmanager] at hfinishes
    refine h.finishes hfinishes (List.Subset.refl _) hwriting fun hid => ⟨fun w hw => ?_, hreleased⟩
    exact hkept.id_ne_of_writing (hid ▸ hwritten) hw

lemma Releasing.resumed (h : Releasing d id k) (hkept : Kept d) {index : ℕ} (hresume : d.resume index = some t) :
    Releasing t id k := by
  obtain ⟨w, completion, result, hw, hcompletion, hwriting, hfinishes, hempty, hready⟩ :=
    resume_cases hkept.faithful hresume
  have hmem := List.mem_of_getElem? hw
  refine h.finishes hfinishes (fun w' hw' => List.mem_of_mem_eraseIdx hw') (hwriting ▸ List.Subset.refl _) ?_
  intro hid
  obtain ⟨originalId, hk⟩ := h.created
  obtain ⟨-, hexpired⟩ := h.waiting w hmem hid
  rw [← hkept.tracker_eq hk hmem hid] at hexpired
  refine ⟨fun w' hw' hid' => ?_, ?_⟩
  · have hnodup := (((Pool.perm_eraseIdx hw).map Waiter.id).nodup_iff.mpr hkept.nodup_waiters)
    rw [List.map_cons, List.nodup_cons] at hnodup
    refine hnodup.1 ?_
    rw [hid, ← hid']
    exact List.mem_map_of_mem hw'
  · by_cases hqueue : (d.manager.trackers w.tracker).responses = []
    · cases completion with
      | expired => exact absurd hqueue (hexpired hcompletion)
      | operationAborted => exact .inl (hempty hqueue)
    · exact .inr (hready hqueue)

lemma Releasing.frame (h : Releasing d id k) (hcreated : t.manager.created = d.manager.created)
    (hresults : t.manager.results = d.manager.results) (hwriting : t.writing ⊆ d.writing)
    (hpending : t.manager.pendingResponses.lookup id ≠ none → d.manager.pendingResponses.lookup id ≠ none)
    (hqueue : (d.manager.trackers k).responses ≠ [] → (t.manager.trackers k).responses ≠ [])
    (hwaiters : ∀ w ∈ t.manager.waiters, ∃ w' ∈ d.manager.waiters, w.id = w'.id ∧
      (w'.completion = none ∨ w.completion = w'.completion)) :
    Releasing t id k := by
  obtain ⟨originalId, hk⟩ := h.created
  refine ⟨⟨originalId, by rwa [CreatedAs, hcreated]⟩, fun w hw hid => ?_, fun hmem hlookup => ?_, ?_⟩
  · obtain ⟨w', hw', hid', hcompletion⟩ := hwaiters w hw
    obtain ⟨hnone, hexpired⟩ := h.waiting w' hw' (hid' ▸ hid)
    have hsame := hcompletion.resolve_left hnone
    rw [hsame]
    exact ⟨hnone, fun hcompleted => hqueue (hexpired hcompleted)⟩
  · exact hqueue (h.writing (hwriting hmem) (hpending hlookup))
  · rw [hresults]
    exact h.results

lemma Releasing.cleanup (h : Releasing d id k) {id' : RequestId} (hmanager : t.manager = d.manager.cleanup id')
    (hwriting : t.writing ⊆ d.writing) : Releasing t id k := by
  refine h.frame (by rw [hmanager]; rfl) (by rw [hmanager]; rfl) hwriting ?_ ?_ ?_
  · intro hlookup hnone
    rw [hmanager, ResponseManager.cleanup, FiniteMap.lookup_erase, hnone, ite_self] at hlookup
    exact hlookup rfl
  · rw [hmanager]
    exact fun hqueue => hqueue
  · rw [hmanager]
    exact fun w hw => ⟨w, hw, rfl, .inr rfl⟩

lemma waiters_completed (d : LocalRequestDispatcher) (p : Waiter → Bool) :
    ∀ w ∈ ResponseManager.completeWaits .operationAborted p d.manager.waiters,
      ∃ w' ∈ d.manager.waiters, w.id = w'.id ∧ (w'.completion = none ∨ w.completion = w'.completion) := by
  intro w hw
  obtain ⟨w', hw', hid, -, hcompleted⟩ := completeWaits_cases hw
  exact ⟨w', hw', hid, hcompleted.imp And.right And.left⟩

lemma Releasing.message (h : Releasing d id k) (message : Json) :
    Releasing { d with manager := (tryStoreJsonrpcResponse message d.manager).getD d.manager } id k := by
  rcases message_cases message d.manager with heq | ⟨id', -, heq⟩
  · rw [heq]
    exact h
  · rw [heq, storeResponse]
    cases d.manager.pendingResponses.lookup id' with
    | none => exact h
    | some k' =>
      have hwaiters := waiters_completed d fun w => w.tracker = k'
      refine h.frame rfl rfl (List.Subset.refl _) (fun hlookup => hlookup) (fun hqueue => ?_) hwaiters
      dsimp only
      by_cases hsame : k = k'
      · rw [← hsame, Function.update_self]
        exact List.append_ne_nil_of_left_ne_nil hqueue _
      · rwa [Function.update_of_ne hsame]

lemma Releasing.step {event : Event} (h : Releasing d id k) (hkept : Kept d) (hfits : IdsFit d event)
    (hstep : d.step event = some t) : Releasing t id k := by
  cases event with
  | sendRequest =>
    cases hstep
    have hcount := hfits rfl
    rw [hkept.faithful.counter] at hcount
    exact h.sendRequest hkept hcount
  | written index => exact h.written hkept hstep
  | writeFailed index =>
    obtain ⟨failed, hmanager, hperm⟩ := afterWrite_cases hstep
    exact h.cleanup hmanager fun id hid => hperm.subset (List.mem_cons_of_mem _ hid)
  | message message =>
    cases hstep
    exact h.message message
  | timerExpires index =>
    obtain ⟨m, hexpires, rfl⟩ := Option.map_eq_some_iff.mp hstep
    obtain ⟨w, hw, hnone, rfl⟩ := timerExpires_cases hexpires
    refine h.frame rfl rfl (List.Subset.refl _) (fun hlookup => hlookup) (fun hqueue => hqueue) fun w' hw' => ?_
    rcases Pool.mem_of_mem_set hw hw' with rfl | hmem
    · exact ⟨w, List.mem_of_getElem? hw, rfl, .inl hnone⟩
    · exact ⟨w', hmem, rfl, .inr rfl⟩
  | resume index => exact h.resumed hkept hstep
  | cancelAll =>
    cases hstep
    have hwaiters := waiters_completed d fun w => d.manager.pendingResponses.lookup w.id = some w.tracker
    exact h.frame rfl rfl (List.Subset.refl _) (fun hlookup => hlookup) (fun hqueue => hqueue) hwaiters
  | cleanup id' =>
    cases hstep
    exact h.cleanup rfl (List.Subset.refl _)

end Steps

lemma run_releasing {events : List Event} (h : Releasing d id k) (hkept : Kept d)
    (hfits : Along step IdsFit d events) (hrun : run step d events = some t) : Releasing t id k := by
  refine (invariant_along (I := fun d => Kept d ∧ Releasing d id k) ?_ ⟨hkept, h⟩ hfits hrun).2
  intro d event t hd hevent hstep
  exact ⟨hd.1.step hevent hstep, hd.2.step hd.1 hevent hstep⟩

lemma missed_cases (h : Kept d) (hlookup : d.manager.pendingResponses.lookup id = some k)
    (hexpired : ∀ w ∈ d.manager.waiters, w.tracker = k → w.completion = some .expired) :
    (∃ index : ℕ, d.writing[index]? = some id) ∨
      ∃ (index : ℕ) (w : Waiter), d.manager.waiters[index]? = some w ∧ w.id = id ∧ w.tracker = k ∧
        w.completion = some .expired := by
  obtain ⟨originalId, hk⟩ := h.faithful.pending id k hlookup
  rcases List.mem_append.mp (h.live id k hlookup) with hwriting | hwaiting
  · exact .inl (List.getElem?_of_mem hwriting)
  · obtain ⟨w, hw, hid⟩ := List.mem_map.mp hwaiting
    obtain ⟨index, hindex⟩ := List.getElem?_of_mem hw
    have htracker := h.tracker_eq hk hw hid
    exact .inr ⟨index, w, hindex, hid, htracker, hexpired w hw htracker⟩

lemma exists_unreleased_of_writing {index : ℕ} (hindex : d.writing[index]? = some id)
    (hlookup : d.manager.pendingResponses.lookup id = some k) (hqueue : (d.manager.trackers k).responses = []) :
    ∃ u, step d (.written index) = some u ∧ ¬ ReleasedAt u id := by
  have hsuspends : d.manager.suspends id = true := by
    rw [suspends, hlookup]
    exact List.isEmpty_iff.mpr hqueue
  have hwaits : (d.manager.awaitResponse id).waiters = d.manager.waiters ++ [{ id := id, tracker := k }] := by
    rw [awaitResponse, if_pos hsuspends, waitForResponse, hlookup]
    dsimp only
    rw [takeResponse, hqueue]
  refine ⟨{ d with manager := d.manager.awaitResponse id, writing := d.writing.eraseIdx index }, ?_, ?_⟩
  · rw [step, afterWrite, hindex, Option.map_some]
  · intro hreleased
    have hlast : (d.manager.awaitResponse id).waiters[d.manager.waiters.length]? =
        some { id := id, tracker := k } := by
      rw [hwaits, List.getElem?_concat_length]
    have hresumes := hreleased.1 d.manager.waiters.length _ hlast rfl
    exact (isSome_resume hlast).mp hresumes rfl

lemma exists_unreleased_of_expired {index : ℕ} {w : Waiter} (hw : d.manager.waiters[index]? = some w)
    (hexpired : w.completion = some .expired) (hqueue : (d.manager.trackers w.tracker).responses = []) :
    ∃ u, step d (.resume index) = some u ∧ ¬ ReleasedAt u w.id := by
  obtain ⟨u, hu⟩ := Option.isSome_iff_exists.mp ((isSome_resume hw).mpr (hexpired ▸ Option.some_ne_none _))
  refine ⟨u, hu, fun hreleased => ?_⟩
  have hresults : u.manager.results = d.manager.results ++ [(w.id, some .timedOut)] := by
    rw [step, LocalRequestDispatcher.resume, hw] at hu
    dsimp only at hu
    rw [hexpired, Option.map_some, ResponseManager.resume, takeResponse] at hu
    cases hu
    dsimp only
    rw [hqueue]
    rfl
  have htimedOut := hreleased.2 (some .timedOut) (hresults ▸ List.mem_concat_self)
  rcases htimedOut with hcancelled | ⟨response, hready⟩
  · cases hcancelled
  · cases hready

lemma releasable_of_releases (h : Kept d)
    (hreleases : ∀ event u, event ≠ .sendRequest → step { d with manager := d.manager.cancelAll } event = some u →
      ∀ id k, d.manager.pendingResponses.lookup id = some k → ReleasedAt u id) : Releasable d := by
  intro id k hlookup
  by_contra hmissed
  rw [not_or, not_ne_iff] at hmissed
  obtain ⟨hqueue, hwaits⟩ := hmissed
  have hexpired : ∀ w ∈ d.manager.waiters, w.tracker = k → w.completion = some .expired := by
    intro w hw htracker
    by_contra hcompletion
    exact hwaits ⟨w, hw, htracker, hcompletion⟩
  rcases missed_cases h hlookup hexpired with ⟨index, hindex⟩ | ⟨index, w, hw, hid, htracker, hcompletion⟩
  · obtain ⟨u, hu, hunreleased⟩ :=
      exists_unreleased_of_writing (d := { d with manager := d.manager.cancelAll }) hindex hlookup hqueue
    exact hunreleased (hreleases (.written index) u (by simp) hu id k hlookup)
  · have hcancelled : d.manager.cancelAll.waiters[index]? = some w := by
      rw [cancelAll, completeWaits, List.getElem?_map, hw, Option.map_some, hcompletion, Option.isNone_some,
        Bool.and_false]
      rfl
    obtain ⟨u, hu, hunreleased⟩ := exists_unreleased_of_expired
      (d := { d with manager := d.manager.cancelAll }) hcancelled hcompletion (htracker ▸ hqueue)
    rw [hid] at hunreleased
    exact hunreleased (hreleases (.resume index) u (by simp) hu id k hlookup)

theorem cancel_all_releases_iff {before : List Event} (hfits : Along step IdsFit {} before)
    (hrun : run step {} before = some d) :
    (∀ after u, Along step IdsFit d (.cancelAll :: after) → run step d (.cancelAll :: after) = some u →
      ∀ id k, d.manager.pendingResponses.lookup id = some k → ReleasedAt u id) ↔ Releasable d := by
  have hkept := run_kept hfits hrun
  constructor
  · intro hreleases
    refine releasable_of_releases hkept fun event u hevent hstep => ?_
    refine hreleases [event] u ⟨nofun, fun t ht => ⟨fun hsend => absurd hsend hevent, fun _ _ => trivial⟩⟩ ?_
    rw [run_cons, step, Option.bind_some, run_cons, hstep]
    rfl
  · intro hreleasable after u hafter hcancelled id k hlookup
    have hreleasing := hkept.releasing hreleasable hlookup
    rw [run_cons, step, Option.bind_some] at hcancelled
    have hcancel : step d .cancelAll = some { d with manager := d.manager.cancelAll } := rfl
    exact (run_releasing hreleasing (hkept.step hafter.1 hcancel) (hafter.2 _ hcancel) hcancelled).releasedAt

section Examples

def waiting : LocalRequestDispatcher := (run step {} [.sendRequest, .written 0]).getD {}

def cancelled : LocalRequestDispatcher := (run step waiting [.cancelAll, .resume 0]).getD {}

theorem cancel_all_releases_wait :
    cancelled.manager.results.map Prod.fst = [bridgeId 1] ∧ ReleasedAt cancelled (bridgeId 1) := by
  have hfits : Along step IdsFit {} [.sendRequest, .written 0] :=
    ⟨fun _ => by decide, fun _ _ => ⟨nofun, fun _ _ => trivial⟩⟩
  have hrun : run step {} [.sendRequest, .written 0] = some waiting := rfl
  have hreleasable : Releasable waiting := by
    intro id k hlookup
    have hpending : waiting.manager.pendingResponses = (∅ : FiniteMap RequestId ℕ).insert (bridgeId 1) 0 := rfl
    rw [hpending, FiniteMap.lookup_insert, Finmap.lookup_empty] at hlookup
    split_ifs at hlookup
    cases hlookup
    exact .inr ⟨{ id := bridgeId 1, tracker := 0 }, List.mem_singleton_self _, rfl, nofun⟩
  have hafter : Along step IdsFit waiting [.cancelAll, .resume 0] :=
    ⟨nofun, fun _ _ => ⟨nofun, fun _ _ => trivial⟩⟩
  refine ⟨rfl, ?_⟩
  exact (cancel_all_releases_iff hfits hrun).mpr hreleasable [.resume 0] cancelled hafter rfl (bridgeId 1) 0 rfl

def sent : LocalRequestDispatcher := (run step {} [.sendRequest]).getD {}

def missed : LocalRequestDispatcher := (run step sent [.cancelAll, .written 0]).getD {}

theorem cancel_all_misses_write :
    ¬ ∀ (before : List Event) (d : LocalRequestDispatcher), Along step IdsFit {} before →
      run step {} before = some d → ∀ after u, Along step IdsFit d (.cancelAll :: after) →
        run step d (.cancelAll :: after) = some u →
          ∀ id k, d.manager.pendingResponses.lookup id = some k → ReleasedAt u id := by
  intro h
  have hsent : Along step IdsFit {} [.sendRequest] := ⟨fun _ => by decide, fun _ _ => trivial⟩
  have hafter : Along step IdsFit sent [.cancelAll, .written 0] :=
    ⟨nofun, fun _ _ => ⟨nofun, fun _ _ => trivial⟩⟩
  obtain ⟨hwaits, -⟩ := h [.sendRequest] sent hsent rfl [.written 0] missed hafter rfl (bridgeId 1) 0 rfl
  have hresumes := hwaits 0 { id := bridgeId 1, tracker := 0 } rfl rfl
  cases hresumes

end Examples

end DltxtBridge.Protocol.LocalRequestDispatcher
