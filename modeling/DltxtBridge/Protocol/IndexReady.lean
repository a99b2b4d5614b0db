import DltxtBridge.Protocol.EndToEnd
import DltxtBridge.Protocol.HandlerRules

namespace DltxtBridge.Protocol

open StateAction TransitionSystem

variable {κ E : Type}

def crossrefIndexReadyMessage : Json :=
  Jsonrpc.createNotification (ascii "dltxt/crossref_index_ready") .emptyObject

/-- The state under `state_mutex_`, and what has been scheduled. -/
def Session.readiness (s : Session κ) : Bool × Bool × List Json :=
  (s.clientInitialized, s.pendingCrossrefIndexReady, s.scheduled)

def isInitialized (request : Json) : Bool :=
  isJsonrpc request && !isUnmatchedResponse request &&
    decide (stringMember? request Jsonrpc.methodKey = some initialized)

def initializes (parse : Bytes → Option Json) (payload : Bytes) : Bool := (received parse payload).any isInitialized

section Readiness

variable (host : Host κ) {request : Json}

lemma readinessRule : HandlerRule host fun s t => t.readiness = s.readiness where
  refl _ := rfl
  trans _ _ _ hst htu := htu.trans hst
  writes _ _ := rfl
  stores _ _ := rfl
  directs s directive := by
    rw [Session.direct]
    split_ifs <;> rfl
  setParserRegex _ _ := rfl
  loads _ _ := rfl
  searches _ _ _ _ := rfl
  updates _ _ _ _ := rfl
  refreshes _ _ := rfl

lemma readiness_handleRequestMessage (hrequest : ¬ isInitialized request) (s : Session κ) :
    (handleRequestMessage host request s).session.readiness = s.readiness := by
  apply (readinessRule host).handleRequestMessage_moves
  intro hunmatched
  apply (readinessRule host).moves_handleMessage
  · intro s
    rfl
  · rintro method hmethod hjsonrpc s
    rw [Session.initializedBy, if_neg]
    rintro rfl
    exact hrequest (by simp [isInitialized, hjsonrpc, hunmatched, hmethod])

lemma handleMessage_initialized (hdumpable : request.isDumpable) (hjsonrpc : isJsonrpc request)
    (hinitialized : stringMember? request Jsonrpc.methodKey = some initialized) (s : Session κ) :
    handleMessage host request s = (some false, s.markClientInitialized) := by
  obtain ⟨method, hmethod, hname⟩ := Option.bind_eq_some_iff.mp hinitialized
  obtain ⟨params, hparams⟩ := Option.ne_none_iff_exists'.mp
    (value_ne_none hmethod : request.value some Jsonrpc.paramsKey .emptyObject ≠ none)
  have hlogged : (logged request : StateAction (Session κ) Unit) = pure () := if_pos hdumpable
  have hhandled : handleRequest host request = pure {} := by
    rw [handleRequest, hinitialized]
    simp only [hparams, bind_ofOption_some]
    have hnotification : handleNotificationMethod host initialized params = some (do logged params; pure {}) := rfl
    rw [hnotification, logged, if_pos (isDumpable_value hdumpable hparams)]
    rfl
  rw [handleMessage, hjsonrpc, hmethod]
  simp only [hname, hparams, bind_ofOption_some, Bool.not_true, Bool.false_eq_true, if_false]
  rw [logRequest, if_neg (by decide), hlogged, if_neg (by decide), if_neg (by decide), handleLocally, hhandled]
  rfl

lemma handleEvent_initialized {parse : Bytes → Option Json}
    (hparse : ∀ payload request, parse payload = some request → request.isDumpable) {payload : Bytes}
    (hpayload : initializes parse payload) (s : Session κ) :
    handleEvent host parse s (.message payload) = { session := s.markClientInitialized } := by
  rw [initializes] at hpayload
  rw [handleEvent]
  cases hreceived : received parse payload with
  | none =>
    rw [hreceived] at hpayload
    cases hpayload
  | some request =>
    rw [hreceived, Option.any_some] at hpayload
    simp only [isInitialized, Bool.and_eq_true, decide_eq_true_iff, Bool.not_eq_true'] at hpayload
    obtain ⟨⟨hjsonrpc, hunmatched⟩, hmethod⟩ := hpayload
    have hmessage := handleMessage_initialized host (isDumpable_received hparse hreceived) hjsonrpc hmethod s
    simp only [handleRequestMessage, tryStoreJsonrpcResponse_eq_none hmethod, hunmatched, hmessage]
    rfl

lemma readiness_handleEvent {parse : Bytes → Option Json} {payload : Bytes} (hpayload : ¬ initializes parse payload)
    (s : Session κ) : (handleEvent host parse s (.message payload)).session.readiness = s.readiness := by
  rw [initializes] at hpayload
  rw [handleEvent]
  cases hreceived : received parse payload with
  | none => rfl
  | some request =>
    rw [hreceived, Option.any_some] at hpayload
    exact readiness_handleRequestMessage host hpayload s

end Readiness

section Marks

variable {s : Session κ} {scheduled : List Json}

lemma readiness_markClientInitialized {initialized pending : Bool}
    (h : s.readiness = (initialized, pending, scheduled)) :
    s.markClientInitialized.readiness =
      (true, false, scheduled ++ if pending then [crossrefIndexReadyMessage] else []) := by
  simp only [Session.readiness, Prod.mk.injEq] at h
  obtain ⟨-, rfl, rfl⟩ := h
  rw [Session.markClientInitialized]
  cases s.pendingCrossrefIndexReady with
  | true => rfl
  | false => simp [Session.readiness]

lemma readiness_notify_early {pending : Bool} (h : s.readiness = (false, pending, scheduled)) :
    s.notifyCrossrefIndexReady.readiness = (false, true, scheduled) := by
  simp only [Session.readiness, Prod.mk.injEq] at h
  obtain ⟨hearly, -, rfl⟩ := h
  simp [Session.notifyCrossrefIndexReady, Session.readiness, hearly]

lemma readiness_notify_initialized {pending : Bool} (h : s.readiness = (true, pending, scheduled)) :
    s.notifyCrossrefIndexReady.readiness = (true, pending, scheduled ++ [crossrefIndexReadyMessage]) := by
  simp only [Session.readiness, Prod.mk.injEq] at h
  obtain ⟨hinitialized, rfl, rfl⟩ := h
  rw [Session.notifyCrossrefIndexReady, hinitialized]
  exact Prod.ext hinitialized rfl

end Marks

namespace Bridge

variable {host : Host κ} {parse : Bytes → Option Json} {dump : Json → Bytes} {b c : Bridge κ E}

def Event.isIndexReady : Event κ → Bool
  | .indexReady => true
  | _ => false

inductive Announces (parse : Bytes → Option Json) (event : Event κ) (b c : Bridge κ E) : Prop
  | nothing (hevent : event.isIndexReady = false) {taken : List Bytes}
      (hpopped : c.intake.popped = b.intake.popped ++ taken)
      (htaken : ∀ payload ∈ taken, ¬ initializes parse payload)
      (hsame : c.loop.session.readiness = b.loop.session.readiness)
  | indexReady (hevent : event.isIndexReady = true) (hpopped : c.intake.popped = b.intake.popped)
      (hready : c.loop.session.readiness = b.loop.session.notifyCrossrefIndexReady.readiness)
  | initialized (hevent : event.isIndexReady = false) {payload : Bytes}
      (hpopped : c.intake.popped = b.intake.popped ++ [payload]) (hpayload : initializes parse payload)
      (hmarked : c.loop.session.readiness = b.loop.session.markClientInitialized.readiness)

def Announced (b : Bridge κ E) : Prop :=
  b.sentBy .indexReady ++ b.spawned = b.loop.session.scheduled

lemma scheduled_of_readiness {s t : Session κ} (h : s.readiness = t.readiness) : s.scheduled = t.scheduled :=
  congrArg (fun readiness => readiness.2.2) h

lemma Announced.advance (h : b.Announced) (hopen : b.loop.isOpen = true) {event : SessionEvent} {added : List Json}
    (hadded : (handleEvent host parse b.loop.session event).session.scheduled = b.loop.session.scheduled ++ added) :
    (b.advance host parse event).Announced := by
  have hspawned : (b.advance host parse event).spawned = b.spawned ++ added := by
    rw [Bridge.advance, stepLoop, if_pos hopen]
    change b.spawned ++ _ = _
    rw [hadded, List.drop_left]
  rw [Announced, loop_advance event hopen, hadded, hspawned, ← h, List.append_assoc]
  rfl

lemma Announced.writeOther (h : b.Announced) {sender : Sender} (hsender : sender ≠ .indexReady) (message : Json) :
    (b.writeJsonMessage dump sender message).Announced := by
  have hsent := sentBy_append .indexReady b (sender, message)
  rw [if_neg hsender, List.append_nil] at hsent
  exact (congrArg (· ++ b.spawned) hsent).trans h

lemma announced_message (hparse : ∀ payload request, parse payload = some request → request.isDumpable)
    (h : b.Announced) (hopen : b.loop.isOpen = true) {intake : Intake E} {payload : Bytes}
    (hpopped : intake.popped = b.intake.popped ++ [payload]) {event : Event κ} (hevent : event.isIndexReady = false) :
    ({ b with intake := intake }.advance host parse (.message payload)).Announced ∧
      Announces parse event b ({ b with intake := intake }.advance host parse (.message payload)) := by
  have hannounced : Announced { b with intake := intake } := h
  have hloop : ({ b with intake := intake }.advance host parse (.message payload)).loop.session =
      (handleEvent host parse b.loop.session (.message payload)).session :=
    congrArg SessionLoop.session (loop_advance _ hopen)
  by_cases hpayload : initializes parse payload
  · have hevent' := congrArg SessionLoop.session (handleEvent_initialized host hparse hpayload b.loop.session)
    have hmarked := @readiness_markClientInitialized _ b.loop.session _ _ _ rfl
    have hscheduled := (congrArg Session.scheduled hevent').trans (congrArg (fun readiness => readiness.2.2) hmarked)
    refine ⟨hannounced.advance hopen hscheduled, .initialized hevent hpopped hpayload ?_⟩
    rw [hloop, hevent']
  · have hsame := readiness_handleEvent host hpayload b.loop.session
    have hscheduled := (scheduled_of_readiness hsame).trans (List.append_nil _).symm
    refine ⟨hannounced.advance hopen hscheduled, .nothing hevent hpopped ?_ ?_⟩
    · rw [List.forall_mem_singleton]
      exact hpayload
    · rw [hloop, hsame]

lemma isOpen_of_advance {event : SessionEvent} (hopen : (b.advance host parse event).loop.isOpen = true) :
    b.loop.isOpen = true := by
  by_contra hclosed
  rw [Bool.not_eq_true] at hclosed
  rw [advance_of_closed event hclosed, hclosed] at hopen
  cases hopen

lemma announces_quiet {event : Event κ} (hevent : event.isIndexReady = false)
    (hpopped : c.intake.popped = b.intake.popped) (hloop : c.loop.session.readiness = b.loop.session.readiness) :
    Announces parse event b c :=
  .nothing hevent (hpopped.trans (List.append_nil _).symm) (by simp) hloop

lemma announces_step (hparse : ∀ payload request, parse payload = some request → request.isDumpable)
    (h : b.loop.isOpen = true → b.Announced) {event : Event κ} (hstep : b.step host parse dump event = some c)
    (hopen : c.loop.isOpen = true) : b.loop.isOpen = true ∧ c.Announced ∧ Announces parse event b c := by
  cases event with
  | input event =>
    obtain ⟨intake, hintake, ⟨hpops, rfl⟩ | ⟨-, hpop, rfl, rfl⟩⟩ := step_input_cases hstep
    · have hpopped : intake.popped = b.intake.popped :=
        congrArg LocalInputQueue.poppedMessages (inbox_of_not_pops hpops hintake)
      exact ⟨hopen, h hopen, announces_quiet rfl hpopped rfl⟩
    · rw [canPop, Bool.and_eq_true] at hpop
      have hpopped := popped_popRound b.intake
      cases hresult : b.intake.inbox.queue.popRound.1 with
      | none =>
        rw [hresult] at hpopped
        exact ⟨hpop.1, h hpop.1, announces_quiet rfl (hpopped.trans (List.append_nil _)) rfl⟩
      | some result =>
        rw [hresult] at hpopped hopen
        cases result with
        | failed error | endOfInput => cases hopen
        | message payload => exact ⟨hpop.1, announced_message hparse (h hpop.1) hpop.1 hpopped rfl⟩
  | write =>
    rw [step] at hstep
    cases houtbox : b.outbox with
    | nil =>
      rw [houtbox] at hstep
      cases hstep
    | cons message rest =>
      rw [houtbox] at hstep
      cases hstep
      exact ⟨hopen, Announced.writeOther (show Announced { b with outbox := rest } from h hopen) (by decide) message,
        announces_quiet rfl rfl rfl⟩
  | notify =>
    rw [step] at hstep
    cases hspawned : b.spawned with
    | nil =>
      rw [hspawned] at hstep
      cases hstep
    | cons message rest =>
      rw [hspawned] at hstep
      cases hstep
      have hrunning : b.loop.isOpen = true := by
        split_ifs at hopen <;> exact hopen
      rw [if_pos (show b.isOpen = true by rw [isOpen, hrunning, Bool.true_or])]
      refine ⟨hrunning, ?_, announces_quiet rfl rfl rfl⟩
      have hsent := sentBy_append .indexReady b (.indexReady, message)
      rw [if_pos rfl] at hsent
      have hannounced := h hrunning
      rw [Announced, hspawned, List.append_cons] at hannounced
      exact (congrArg (· ++ rest) hsent).trans hannounced
  | heartbeat =>
    rw [step, Option.ite_none_right_eq_some] at hstep
    obtain ⟨-, heq⟩ := hstep
    cases heq
    exact ⟨hopen, (h hopen).writeOther (by decide) heartbeatMessage, announces_quiet rfl rfl rfl⟩
  | indexReady =>
    cases hstep
    have hrunning := isOpen_of_advance hopen
    have hloop := congrArg SessionLoop.session (@loop_advance _ _ host parse b .crossrefIndexReady hrunning)
    refine ⟨hrunning, ?_, .indexReady rfl rfl (congrArg Session.readiness hloop)⟩
    cases hinitialized : b.loop.session.clientInitialized with
    | true =>
      have hready := @readiness_notify_initialized _ b.loop.session _ _ (Prod.ext hinitialized rfl)
      exact (h hrunning).advance hrunning (congrArg (fun readiness => readiness.2.2) hready)
    | false =>
      have hready := @readiness_notify_early _ b.loop.session _ _ (Prod.ext hinitialized rfl)
      have hscheduled := congrArg (fun readiness => readiness.2.2) hready
      exact (h hrunning).advance hrunning (hscheduled.trans (List.append_nil _).symm)
  | background change =>
    cases hstep
    exact ⟨hopen, h hopen, announces_quiet rfl rfl rfl⟩

section Runs

variable {workspace : Workspace κ} {input : Reader E} {before after : List (Event κ)} {u v : Bridge κ E}

structure Early (parse : Bytes → Option Json) (past : List (Event κ)) (b : Bridge κ E) : Prop where
  announced : b.Announced
  readiness : (∀ payload ∈ b.intake.popped, ¬ initializes parse payload) →
    b.loop.session.readiness = (false, past.any Event.isIndexReady, [])

structure Late (due : ℕ) (past : List (Event κ)) (b : Bridge κ E) : Prop where
  announced : b.Announced
  readiness : b.loop.session.readiness =
    (true, false, List.replicate (due + past.countP Event.isIndexReady) crossrefIndexReadyMessage)

lemma closed_of_step (hparse : ∀ payload request, parse payload = some request → request.isDumpable)
    (hclosed : b.loop.isOpen = false) {event : Event κ} (hstep : b.step host parse dump event = some c) :
    c.loop.isOpen = false := by
  rw [← Bool.not_eq_true] at hclosed ⊢
  exact fun hopen => hclosed (announces_step hparse (fun hrunning => absurd hrunning hclosed) hstep hopen).1

lemma early_start (input : Reader E) (workspace : Workspace κ) : Early parse [] (start input workspace) where
  announced := rfl
  readiness _ := rfl

lemma early_step (hparse : ∀ payload request, parse payload = some request → request.isDumpable)
    {past : List (Event κ)} (h : b.loop.isOpen = true → Early parse past b) {event : Event κ}
    (hstep : b.step host parse dump event = some c) (hopen : c.loop.isOpen = true) :
    Early parse (past ++ [event]) c := by
  obtain ⟨hrunning, hannounced, hannounces⟩ := announces_step hparse (fun hb => (h hb).announced) hstep hopen
  have hreadiness := (h hrunning).readiness
  refine ⟨hannounced, fun hearly => ?_⟩
  rw [List.any_append, List.any_cons, List.any_nil, Bool.or_false]
  cases hannounces with
  | nothing hevent hpopped htaken hsame =>
    rw [hpopped, List.forall_mem_append] at hearly
    rw [hsame, hreadiness hearly.1, hevent, Bool.or_false]
  | indexReady hevent hpopped hready =>
    rw [hpopped] at hearly
    rw [hready, readiness_notify_early (hreadiness hearly), hevent, Bool.or_true]
  | initialized hevent hpopped hpayload hmarked =>
    rw [hpopped, List.forall_mem_append, List.forall_mem_singleton] at hearly
    exact absurd hpayload hearly.2

lemma late_step (hparse : ∀ payload request, parse payload = some request → request.isDumpable) {due : ℕ}
    {past : List (Event κ)} (h : b.loop.isOpen = true → Late due past b) {event : Event κ}
    (hstep : b.step host parse dump event = some c) (hopen : c.loop.isOpen = true) :
    Late due (past ++ [event]) c := by
  obtain ⟨hrunning, hannounced, hannounces⟩ := announces_step hparse (fun hb => (h hb).announced) hstep hopen
  have hreadiness := (h hrunning).readiness
  refine ⟨hannounced, ?_⟩
  rw [List.countP_append, List.countP_singleton]
  cases hannounces with
  | nothing hevent hpopped htaken hsame => rw [hsame, hreadiness, hevent, if_neg Bool.false_ne_true, Nat.add_zero]
  | indexReady hevent hpopped hready =>
    rw [hready, readiness_notify_initialized hreadiness, hevent, if_pos rfl, ← Nat.add_assoc, List.replicate_succ']
  | initialized hevent hpopped hpayload hmarked =>
    rw [hmarked, readiness_markClientInitialized hreadiness, hevent]
    simp

lemma late_initialized (h : Early parse before u)
    (hearly : ∀ payload ∈ u.intake.popped, ¬ initializes parse payload)
    {event : Event κ} (hannounced : v.Announced) (hannounces : Announces parse event u v)
    (hinitialized : ∃ payload ∈ v.intake.popped, initializes parse payload) :
    Late (if before.any Event.isIndexReady then 1 else 0) [] v := by
  refine ⟨hannounced, ?_⟩
  obtain ⟨payload, hmem, hpayload⟩ := hinitialized
  cases hannounces with
  | nothing hevent hpopped htaken hsame =>
    rw [hpopped, List.mem_append] at hmem
    exact absurd hpayload (hmem.elim (hearly payload) (htaken payload))
  | indexReady hevent hpopped hready =>
    rw [hpopped] at hmem
    exact absurd hpayload (hearly payload hmem)
  | initialized hevent hpopped hpayload hmarked =>
    rw [hmarked, readiness_markClientInitialized (h.readiness hearly)]
    split_ifs <;> rfl

structure Unannounced (b : Bridge κ E) : Prop where
  uninitialized : b.loop.session.clientInitialized = false
  scheduled : b.loop.session.scheduled = []
  spawned : b.spawned = []
  sent : b.sentBy .indexReady = []

lemma Unannounced.congr (h : b.Unannounced) (hready : c.loop.session.readiness = b.loop.session.readiness)
    (hspawned : c.spawned = b.spawned) (hsent : c.sentBy .indexReady = b.sentBy .indexReady) : c.Unannounced where
  uninitialized := (congrArg Prod.fst hready).trans h.uninitialized
  scheduled := (scheduled_of_readiness hready).trans h.scheduled
  spawned := hspawned.trans h.spawned
  sent := hsent.trans h.sent

lemma Unannounced.advance (h : b.Unannounced) {event : SessionEvent}
    (huninitialized : (handleEvent host parse b.loop.session event).session.clientInitialized = false)
    (hscheduled : (handleEvent host parse b.loop.session event).session.scheduled = []) :
    (b.advance host parse event).Unannounced := by
  cases hopen : b.loop.isOpen with
  | true =>
    have hspawned : (b.advance host parse event).spawned = b.spawned ++ [] := by
      rw [Bridge.advance, stepLoop, if_pos hopen]
      change b.spawned ++ _ = _
      rw [hscheduled, List.drop_nil]
    rw [List.append_nil, h.spawned] at hspawned
    have hloop := @loop_advance _ _ host parse b event hopen
    exact ⟨hloop ▸ huninitialized, hloop ▸ hscheduled, hspawned, h.sent⟩
  | false =>
    rw [advance_of_closed event hopen]
    exact h

lemma Unannounced.writeOther (h : b.Unannounced) {sender : Sender} (hsender : sender ≠ .indexReady) (message : Json) :
    (b.writeJsonMessage dump sender message).Unannounced := by
  have hsent := sentBy_append .indexReady b (sender, message)
  rw [if_neg hsender, List.append_nil] at hsent
  exact ⟨h.uninitialized, h.scheduled, h.spawned, hsent.trans h.sent⟩

lemma unannounced_start (input : Reader E) (workspace : Workspace κ) : (start input workspace).Unannounced :=
  ⟨rfl, rfl, rfl, rfl⟩

lemma unannounced_step (h : (∀ payload ∈ b.intake.popped, ¬ initializes parse payload) → b.Unannounced)
    {event : Event κ} (hstep : b.step host parse dump event = some c)
    (hearly : ∀ payload ∈ c.intake.popped, ¬ initializes parse payload) : c.Unannounced := by
  cases event with
  | input event =>
    obtain ⟨intake, hintake, ⟨hpops, rfl⟩ | ⟨-, hpop, rfl, rfl⟩⟩ := step_input_cases hstep
    · have hpopped : intake.popped = b.intake.popped :=
        congrArg LocalInputQueue.poppedMessages (inbox_of_not_pops hpops hintake)
      exact (h (hpopped ▸ hearly)).congr rfl rfl rfl
    · have hpopped := popped_popRound b.intake
      cases hresult : b.intake.inbox.queue.popRound.1 with
      | none =>
        rw [hresult] at hpopped hearly
        exact (h (hpopped.trans (List.append_nil _) ▸ hearly)).congr rfl rfl rfl
      | some result =>
        rw [hresult] at hpopped hearly
        cases result with
        | failed error | endOfInput =>
          exact (h (hpopped.trans (List.append_nil _) ▸ hearly)).congr rfl rfl rfl
        | message payload =>
          change ∀ payload ∈ Intake.popped { b.intake with inbox := b.intake.inbox.popRound }, _ at hearly
          rw [hpopped, List.forall_mem_append] at hearly
          have hb := h hearly.1
          have hready := readiness_handleEvent host (hearly.2 payload (List.mem_singleton_self _)) b.loop.session
          have hinput : Unannounced { b with intake := { b.intake with inbox := b.intake.inbox.popRound } } :=
            hb.congr rfl rfl rfl
          exact hinput.advance ((congrArg Prod.fst hready).trans hb.uninitialized)
            ((scheduled_of_readiness hready).trans hb.scheduled)
  | write =>
    rw [step] at hstep
    cases houtbox : b.outbox with
    | nil =>
      rw [houtbox] at hstep
      cases hstep
    | cons message rest =>
      rw [houtbox] at hstep
      cases hstep
      have hwritten : Unannounced { b with outbox := rest } := (h hearly).congr rfl rfl rfl
      exact hwritten.writeOther (by decide) message
  | notify =>
    rw [step] at hstep
    cases hspawned : b.spawned with
    | nil =>
      rw [hspawned] at hstep
      cases hstep
    | cons message rest =>
      rw [hspawned] at hstep
      cases hstep
      have hpopped : ∀ payload ∈ b.intake.popped, ¬ initializes parse payload := by
        split_ifs at hearly <;> exact hearly
      exact absurd (hspawned.symm.trans (h hpopped).spawned) (List.cons_ne_nil _ _)
  | heartbeat =>
    rw [step, Option.ite_none_right_eq_some] at hstep
    obtain ⟨-, heq⟩ := hstep
    cases heq
    exact (h hearly).writeOther (by decide) heartbeatMessage
  | indexReady =>
    cases hstep
    have hb := h hearly
    have hready := @readiness_notify_early _ b.loop.session _ _ (Prod.ext hb.uninitialized rfl)
    exact hb.advance (congrArg Prod.fst hready) ((congrArg (fun readiness => readiness.2.2) hready).trans hb.scheduled)
  | background change =>
    cases hstep
    exact (h hearly).congr rfl rfl rfl

/-- As long as no write fails. The rebuilds before the client is initialized are announced once, together. -/
theorem indexReady_announced (hparse : ∀ payload request, parse payload = some request → request.isDumpable)
    (hbefore : run (step host parse dump) (start input workspace) before = some u)
    (hearly : ∀ payload ∈ u.intake.popped, ¬ initializes parse payload) :
    (u.sentBy .indexReady = [] ∧ u.spawned = []) ∧
    ∀ event v after b, u.step host parse dump event = some v →
      (∃ payload ∈ v.intake.popped, initializes parse payload) →
      run (step host parse dump) v after = some b → b.loop.isOpen = true →
      b.sentBy .indexReady ++ b.spawned =
        List.replicate ((if before.any Event.isIndexReady then 1 else 0) + after.countP Event.isIndexReady)
          crossrefIndexReadyMessage := by
  have hsilent := invariant (I := fun b : Bridge κ E =>
    (∀ payload ∈ b.intake.popped, ¬ initializes parse payload) → b.Unannounced)
    (fun _ _ _ h hstep => unannounced_step h hstep) (fun _ => unannounced_start input workspace) hbefore hearly
  refine ⟨⟨hsilent.sent, hsilent.spawned⟩, fun event v after b hstep hinitialized hafter hopen => ?_⟩
  have hrunning : v.loop.isOpen = true := by
    by_contra hclosed
    rw [Bool.not_eq_true] at hclosed
    have hended := invariant (I := fun b : Bridge κ E => b.loop.isOpen = false)
      (fun _ _ _ hb hstep => closed_of_step hparse hb hstep) hclosed hafter
    exact absurd (hended.symm.trans hopen) Bool.false_ne_true
  have huEarly : u.loop.isOpen = true → Early parse before u :=
    history_invariant (J := fun past b => b.loop.isOpen = true → Early parse past b) (P := fun _ _ => True)
      (fun _ _ _ _ h _ hstep => early_step hparse h hstep) (fun _ => early_start input workspace)
      (along_of_forall (Q := fun _ => True) (fun _ _ => trivial) _) hbefore
  obtain ⟨hopened, hannounced, hannounces⟩ :=
    announces_step hparse (fun hu => (huEarly hu).announced) hstep hrunning
  have hvLate := late_initialized (huEarly hopened) hearly hannounced hannounces hinitialized
  have hbLate : b.loop.isOpen = true → Late _ ([] ++ after) b :=
    history_invariant (J := fun past b => b.loop.isOpen = true → Late _ past b) (P := fun _ _ => True)
      (fun _ _ _ _ h _ hstep => late_step hparse h hstep) (fun _ => hvLate)
      (along_of_forall (Q := fun _ => True) (fun _ _ => trivial) _) hafter
  exact (hbLate hopen).announced.trans (congrArg (fun readiness => readiness.2.2) (hbLate hopen).readiness)

end Runs

section Examples

def messagePosted (payload : Bytes) (input : Reader Unit) : Bridge Unit Unit where
  intake := { input := input, posted := [.message payload] }
  loop := { session := Protocol.start }

lemma step_read_oneFrame {payload : Bytes} (hsize : payload.length ≤ maxContentLength)
    (hchunks : Chunking (frameMessage payload) [frameMessage payload]) :
    ∃ input, stepSession (start (Intake.oneFrame payload) { host := () }) (.input .read) =
      some (messagePosted payload input) := by
  obtain ⟨input, hread⟩ := Intake.read_oneFrame hsize hchunks
  refine ⟨input, step_input_of_not_pops rfl ?_⟩
  change Intake.step { input := Intake.oneFrame payload } .read = _
  rw [Intake.step, hread]
  rfl

def rebuiltTwice : List (Event Unit) := [.indexReady, .indexReady, .input .deliver]

def rebuiltAgain : List (Event Unit) := [.notify, .indexReady]

lemma run_rebuilt (input : Reader Unit) :
    (run stepSession (messagePosted (notificationPayload "initialized") input) rebuiltTwice).map (fun u =>
      (u.intake.popped, (stepSession u (.input .waitAndPop)).map fun v =>
        (v.intake.popped, (run stepSession v rebuiltAgain).map fun b => b.loop.isOpen))) =
      some ([], some ([notificationPayload "initialized"], some true)) := rfl

theorem indexReady_announced_twice :
    ∃ u b, run stepSession (start (Intake.oneFrame (notificationPayload "initialized")) { host := () })
        (.input .read :: rebuiltTwice) = some u ∧ u.sentBy .indexReady = [] ∧
      run stepSession u (.input .waitAndPop :: rebuiltAgain) = some b ∧
      b.sentBy .indexReady ++ b.spawned = List.replicate 2 crossrefIndexReadyMessage := by
  have hchunks : Chunking (frameMessage (notificationPayload "initialized"))
      [frameMessage (notificationPayload "initialized")] := ⟨List.append_nil _, by decide⟩
  obtain ⟨input, hstep⟩ := step_read_oneFrame (by decide) hchunks
  obtain ⟨u, hu, hpopped⟩ := Option.map_eq_some_iff.mp (run_rebuilt input)
  rw [Prod.mk.injEq, Option.map_eq_some_iff] at hpopped
  obtain ⟨hpopped, v, hv, hlater⟩ := hpopped
  rw [Prod.mk.injEq, Option.map_eq_some_iff] at hlater
  obtain ⟨hpopped', b, hb, hopen⟩ := hlater
  have hbefore : run stepSession (start (Intake.oneFrame (notificationPayload "initialized")) { host := () })
      (.input .read :: rebuiltTwice) = some u := by
    rw [run_cons, hstep]
    exact hu
  have hearly : ∀ payload ∈ u.intake.popped, ¬ initializes parseRequests payload := by
    rw [hpopped]
    exact nofun
  have hinitialized : ∃ payload ∈ v.intake.popped, initializes parseRequests payload := by
    rw [hpopped']
    exact ⟨_, List.mem_singleton_self _, by decide⟩
  have hafter : run stepSession u (.input .waitAndPop :: rebuiltAgain) = some b := by
    rw [run_cons, hv, Option.bind_some, hb]
  obtain ⟨hsilent, hannounced⟩ := indexReady_announced isDumpable_parseRequests hbefore hearly
  exact ⟨u, b, hbefore, hsilent.1, hafter, hannounced _ v _ b hv hinitialized hb hopen⟩

end Examples

end Bridge

end DltxtBridge.Protocol
