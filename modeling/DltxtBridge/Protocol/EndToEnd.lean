import DltxtBridge.Protocol.Bridge

namespace DltxtBridge.Protocol

open TransitionSystem

variable {κ E : Type}

def exits (parse : Bytes → Option Json) (payload : Bytes) : Bool := endsLoop parse (.message payload)

def untilExit (parse : Bytes → Option Json) : List Bytes → List Bytes
  | [] => []
  | payload :: payloads => if exits parse payload then [payload] else payload :: untilExit parse payloads

section UntilExit

variable {parse : Bytes → Option Json} {earlier : List Bytes}

lemma untilExit_append (h : ∀ payload ∈ earlier, ¬ exits parse payload) (later : List Bytes) :
    untilExit parse (earlier ++ later) = earlier ++ untilExit parse later := by
  induction earlier with
  | nil => rfl
  | cons payload earlier ih =>
    rw [List.forall_mem_cons] at h
    rw [List.cons_append, untilExit, if_neg h.1, ih h.2, List.cons_append]

lemma untilExit_of_none (h : ∀ payload ∈ earlier, ¬ exits parse payload) : untilExit parse earlier = earlier := by
  have happend := untilExit_append h []
  rwa [List.append_nil, untilExit, List.append_nil] at happend

end UntilExit

inductive Intake.Ended (parse : Bytes → Option Json) (s : Intake E) : Prop
  | exit {earlier : List Bytes} {payload : Bytes} (hpopped : s.popped = earlier ++ [payload])
      (hexit : exits parse payload) (hearlier : ∀ other ∈ earlier, ¬ exits parse other)
  | endOfInput {result : PopResult E} (hpopped : ∀ payload ∈ s.popped, ¬ exits parse payload)
      (hresult : result ∈ s.inbox.results) (hnone : result.message? = none)

namespace Bridge

variable {host : Host κ} {parse : Bytes → Option Json} {dump : Json → Bytes} {b c : Bridge κ E}

lemma handleEvent_spec (host : Host κ) (hparse : ∀ payload request, parse payload = some request → request.isDumpable)
    (e : SessionEvent) (s : Session κ) :
    (handleEvent host parse s e).isOpen = !endsLoop parse e ∧ ∃ replies,
      (handleEvent host parse s e).session.written = s.written ++ replies ∧ EventAnswered parse e replies := by
  by_cases he : endsLoop parse e
  · obtain ⟨hclosed, hwritten⟩ := handleEvent_ends host hparse he s
    refine ⟨by rw [hclosed, he]; rfl, [], by rw [hwritten, List.append_nil], ?_⟩
    cases e with
    | crossrefIndexReady => rfl
    | message payload =>
      rw [endsLoop] at he
      rw [EventAnswered]
      cases hreceived : received parse payload with
      | none => rfl
      | some request =>
        rw [hreceived, Option.any_some] at he
        simp only [isExit, Bool.and_eq_true, decide_eq_true_iff] at he
        exact answered_nil (.inr (.inl ⟨he.1.1, exitMethod, he.2, .inr rfl⟩))
  · obtain ⟨hopen, hreplies⟩ := handleEvent_answered host hparse he s
    exact ⟨by rw [hopen, Bool.eq_false_iff.mpr he]; rfl, hreplies⟩

structure Answering (parse : Bytes → Option Json) (dump : Json → Bytes) (b : Bridge κ E) : Prop where
  wire : b.wire = b.sent.flatMap fun entry => frameMessage (dump entry.2)
  replies : ∃ replies, List.Forall₂ (fun payload => EventAnswered parse (.message payload)) b.intake.popped replies ∧
    b.sentBy .sessionLoop ++ b.outbox = replies.flatten
  opened : b.loop.isOpen = true → ∀ payload ∈ b.intake.popped, ¬ exits parse payload
  ended : b.loop.isOpen = false → b.intake.Ended parse

lemma answering_start (input : Reader E) (workspace : Workspace κ) :
    Answering parse dump (start input workspace) where
  wire := rfl
  replies := ⟨[], .nil, rfl⟩
  opened _ := nofun
  ended := nofun

lemma sentBy_append (sender : Sender) (b : Bridge κ E) (entry : Sender × Json) :
    { b with sent := b.sent ++ [entry] }.sentBy sender =
      b.sentBy sender ++ (if entry.1 = sender then [entry.2] else []) := by
  simp only [sentBy, List.filterMap_append]
  split_ifs with hsender <;> simp [hsender]

lemma wire_writeJsonMessage (h : Answering parse dump b) (sender : Sender) (message : Json) :
    (b.writeJsonMessage dump sender message).wire =
      (b.writeJsonMessage dump sender message).sent.flatMap fun entry => frameMessage (dump entry.2) := by
  simp [writeJsonMessage, h.wire]

lemma Answering.write (h : Answering parse dump b) {message : Json} {rest : List Json}
    (houtbox : b.outbox = message :: rest) :
    Answering parse dump ({ b with outbox := rest }.writeJsonMessage dump .sessionLoop message) := by
  obtain ⟨replies, hanswered, hreplies⟩ := h.replies
  refine ⟨wire_writeJsonMessage h .sessionLoop message, ⟨replies, hanswered, ?_⟩, h.opened, h.ended⟩
  rw [← hreplies, houtbox]
  have hsent := sentBy_append .sessionLoop b (.sessionLoop, message)
  rw [if_pos rfl] at hsent
  exact (congrArg (· ++ rest) hsent).trans (List.append_assoc _ _ _)

lemma Answering.writeOther (h : Answering parse dump b) {sender : Sender} (hsender : sender ≠ .sessionLoop)
    (message : Json) : Answering parse dump (b.writeJsonMessage dump sender message) := by
  obtain ⟨replies, hanswered, hreplies⟩ := h.replies
  refine ⟨wire_writeJsonMessage h sender message, ⟨replies, hanswered, ?_⟩, h.opened, h.ended⟩
  have hsent := sentBy_append .sessionLoop b (sender, message)
  rw [if_neg hsender, List.append_nil] at hsent
  exact (congrArg (· ++ b.outbox) hsent).trans hreplies

lemma Answering.input (h : Answering parse dump b) {intake : Intake E}
    (hresults : intake.inbox.results = b.intake.inbox.results) :
    Answering parse dump { b with intake := intake } := by
  have hpopped : intake.popped = b.intake.popped := congrArg LocalInputQueue.poppedMessages hresults
  obtain ⟨replies, hanswered, hreplies⟩ := h.replies
  refine ⟨h.wire, ⟨replies, hpopped.symm ▸ hanswered, hreplies⟩, fun hopen => hpopped.symm ▸ h.opened hopen,
    fun hclosed => ?_⟩
  cases h.ended hclosed with
  | exit hlast hexit hearlier => exact .exit (hpopped.trans hlast) hexit hearlier
  | endOfInput hnone hresult hreport => exact .endOfInput (hpopped.symm ▸ hnone) (hresults.symm ▸ hresult) hreport

lemma popped_popRound (s : Intake E) :
    Intake.popped { s with inbox := s.inbox.popRound } =
      s.popped ++ (s.inbox.queue.popRound.1.bind PopResult.message?).toList :=
  Intake.poppedMessages_popRound s.inbox

lemma outbox_advance (event : SessionEvent) (hopen : b.loop.isOpen = true) {replies : List Json}
    (hwritten : (handleEvent host parse b.loop.session event).session.written = b.loop.session.written ++ replies) :
    (b.advance host parse event).outbox = b.outbox ++ replies := by
  rw [advance, stepLoop, if_pos hopen]
  change b.outbox ++ _ = _
  rw [hwritten, List.drop_left]

lemma loop_advance (event : SessionEvent) (hopen : b.loop.isOpen = true) :
    (b.advance host parse event).loop = handleEvent host parse b.loop.session event :=
  if_pos hopen

lemma advance_of_closed (event : SessionEvent) (hclosed : b.loop.isOpen = false) :
    b.advance host parse event = b := by
  have hloop : stepLoop host parse b.loop event = b.loop := by rw [stepLoop, hclosed]; rfl
  rw [advance, hloop]
  simp

lemma Answering.message (hparse : ∀ payload request, parse payload = some request → request.isDumpable)
    (h : Answering parse dump b) (hopen : b.loop.isOpen = true) {intake : Intake E} {payload : Bytes}
    (hpopped : intake.popped = b.intake.popped ++ [payload]) :
    Answering parse dump ({ b with intake := intake }.advance host parse (.message payload)) := by
  obtain ⟨replies, hanswered, hreplies⟩ := h.replies
  obtain ⟨hended, reply, hwritten, hreply⟩ := handleEvent_spec host hparse (.message payload) b.loop.session
  have hexits : ({ b with intake := intake }.advance host parse (.message payload)).loop.isOpen =
      !exits parse payload :=
    (congrArg SessionLoop.isOpen (loop_advance _ hopen)).trans hended
  have houtbox : ({ b with intake := intake }.advance host parse (.message payload)).outbox = b.outbox ++ reply :=
    outbox_advance _ hopen hwritten
  have hnone := h.opened hopen
  refine ⟨h.wire, ⟨replies ++ [reply], ?_, ?_⟩, fun hopened => ?_, fun hclosed => ?_⟩
  · exact hpopped.symm ▸ List.rel_append hanswered (.cons hreply .nil)
  · rw [houtbox, List.flatten_append, List.flatten_singleton, ← hreplies, List.append_assoc]
    rfl
  · rw [hexits, Bool.not_eq_true'] at hopened
    have hlast : ∀ other ∈ [payload], ¬ exits parse other := by
      rw [List.forall_mem_singleton]
      exact Bool.eq_false_iff.mp hopened
    exact hpopped.symm ▸ List.forall_mem_append.mpr ⟨hnone, hlast⟩
  · rw [hexits, Bool.not_eq_false'] at hclosed
    exact .exit hpopped hclosed hnone

lemma Answering.popRound (hparse : ∀ payload request, parse payload = some request → request.isDumpable)
    (h : Answering parse dump b) (hopen : b.loop.isOpen = true) :
    Answering parse dump ({ b with intake := { b.intake with inbox := b.intake.inbox.popRound } }.receive host parse
      b.intake.inbox.queue.popRound.1) := by
  have hnone := h.opened hopen
  have hpopped := popped_popRound b.intake
  have hresults : b.intake.inbox.popRound.results =
      b.intake.inbox.results ++ b.intake.inbox.queue.popRound.1.toList := rfl
  cases hresult : b.intake.inbox.queue.popRound.1 with
  | none =>
    rw [hresult, Option.toList_none, List.append_nil] at hresults
    exact h.input hresults
  | some result =>
    rw [hresult, Option.toList_some] at hresults
    rw [hresult] at hpopped
    cases result with
    | failed error | endOfInput =>
      replace hpopped := hpopped.trans (List.append_nil _)
      obtain ⟨replies, hanswered, hreplies⟩ := h.replies
      refine ⟨h.wire, ⟨replies, hpopped.symm ▸ hanswered, hreplies⟩, nofun, fun _ => ?_⟩
      refine .endOfInput ?_ (hresults ▸ List.mem_append_right _ (List.mem_singleton_self _)) rfl
      exact hpopped.symm ▸ hnone
    | message payload => exact h.message hparse hopen hpopped

lemma step_input_cases {event : Intake.Event}
    (hstep : b.step host parse dump (.input event) = some c) :
    ∃ intake, b.intake.step event = some intake ∧
      (event.pops = false ∧ c = { b with intake := intake } ∨
        event.pops = true ∧ b.canPop = true ∧ intake = { b.intake with inbox := b.intake.inbox.popRound } ∧
          c = { b with intake := intake }.receive host parse b.intake.inbox.queue.popRound.1) := by
  rw [step] at hstep
  split_ifs at hstep with hrefused
  obtain ⟨intake, hintake, rfl⟩ := Option.map_eq_some_iff.mp hstep
  refine ⟨intake, hintake, ?_⟩
  cases event with
  | read | deliver => exact .inl ⟨rfl, rfl⟩
  | waitAndPop | resume =>
    refine .inr ⟨rfl, by simpa [Intake.Event.pops] using hrefused, ?_, rfl⟩
    obtain ⟨inbox, hinbox, rfl⟩ := Option.map_eq_some_iff.mp hintake
    rw [LocalInputQueue.Run.step, Option.ite_none_right_eq_some] at hinbox
    cases hinbox.2
    rfl

lemma step_input_of_not_pops {event : Intake.Event} (hpops : event.pops = false) {intake : Intake E}
    (hstep : b.intake.step event = some intake) :
    b.step host parse dump (.input event) = some { b with intake := intake } := by
  rw [step, hpops, hstep, popResult, hpops]
  rfl

lemma inbox_of_not_pops {event : Intake.Event} {s t : Intake E} (hpops : event.pops = false)
    (hstep : s.step event = some t) : t.inbox.results = s.inbox.results := by
  cases event with
  | waitAndPop | resume => cases hpops
  | read =>
    rw [Intake.step] at hstep
    split_ifs at hstep
    cases hstep
    rfl
  | deliver =>
    rw [Intake.step] at hstep
    cases hposted : s.posted with
    | nil =>
      rw [hposted] at hstep
      cases hstep
    | cons result rest =>
      rw [hposted] at hstep
      obtain ⟨inbox, hinbox, rfl⟩ := Option.map_eq_some_iff.mp hstep
      cases result <;> cases hinbox <;> rfl

lemma Answering.indexReady (h : Answering parse dump b) :
    Answering parse dump (b.advance host parse .crossrefIndexReady) := by
  cases hopen : b.loop.isOpen with
  | false => rwa [advance_of_closed _ hopen]
  | true =>
    have hwritten : (handleEvent host parse b.loop.session .crossrefIndexReady).session.written =
        b.loop.session.written ++ [] := by
      rw [List.append_nil, handleEvent, Session.notifyCrossrefIndexReady]
      split <;> rfl
    have houtbox := outbox_advance _ hopen hwritten
    rw [List.append_nil] at houtbox
    obtain ⟨replies, hanswered, hreplies⟩ := h.replies
    refine ⟨h.wire, ⟨replies, hanswered, ?_⟩, fun _ => h.opened hopen, fun hclosed => ?_⟩
    · exact (congrArg (b.sentBy .sessionLoop ++ ·) houtbox).trans hreplies
    · rw [loop_advance _ hopen] at hclosed
      cases hclosed

lemma Answering.step (hparse : ∀ payload request, parse payload = some request → request.isDumpable)
    (h : Answering parse dump b) {event : Event κ} (hstep : b.step host parse dump event = some c) :
    Answering parse dump c := by
  cases event with
  | input event =>
    obtain ⟨intake, hintake, ⟨hpops, rfl⟩ | ⟨-, hpop, rfl, rfl⟩⟩ := step_input_cases hstep
    · exact h.input (inbox_of_not_pops hpops hintake)
    · rw [canPop, Bool.and_eq_true] at hpop
      exact h.popRound hparse hpop.1
  | write =>
    rw [Bridge.step] at hstep
    cases houtbox : b.outbox with
    | nil =>
      rw [houtbox] at hstep
      cases hstep
    | cons message rest =>
      rw [houtbox] at hstep
      cases hstep
      exact h.write houtbox
  | notify =>
    rw [Bridge.step] at hstep
    cases hspawned : b.spawned with
    | nil =>
      rw [hspawned] at hstep
      cases hstep
    | cons message rest =>
      rw [hspawned] at hstep
      cases hstep
      have hresumed : Answering parse dump { b with spawned := rest } := ⟨h.wire, h.replies, h.opened, h.ended⟩
      split_ifs
      · exact hresumed.writeOther (by decide) message
      · exact hresumed
  | heartbeat =>
    rw [Bridge.step, Option.ite_none_right_eq_some] at hstep
    obtain ⟨-, heq⟩ := hstep
    cases heq
    exact h.writeOther (by decide) heartbeatMessage
  | indexReady =>
    cases hstep
    exact h.indexReady
  | background change =>
    cases hstep
    exact ⟨h.wire, h.replies, h.opened, h.ended⟩

lemma intake_receive (result : Option (PopResult E)) (b : Bridge κ E) :
    (b.receive host parse result).intake = b.intake := by
  cases result with
  | none => rfl
  | some result => cases result <;> rfl

lemma step_intake {event : Event κ} (hstep : b.step host parse dump event = some c) :
    (∃ taken, event = .input taken ∧ b.intake.step taken = some c.intake) ∨ c.intake = b.intake := by
  cases event with
  | input event =>
    obtain ⟨intake, hintake, ⟨-, rfl⟩ | ⟨-, -, -, rfl⟩⟩ := step_input_cases hstep
    · exact .inl ⟨event, rfl, hintake⟩
    · exact .inl ⟨event, rfl, by rw [intake_receive, hintake]⟩
  | write =>
    rw [step] at hstep
    split at hstep <;> cases hstep
    exact .inr rfl
  | notify =>
    rw [step] at hstep
    split at hstep
    · cases hstep
    · cases hstep
      split_ifs <;> exact .inr rfl
  | heartbeat =>
    rw [step, Option.ite_none_right_eq_some] at hstep
    obtain ⟨-, heq⟩ := hstep
    cases heq
    exact .inr rfl
  | indexReady | background change =>
    cases hstep
    exact .inr rfl

lemma arriving_step {payloads : List Bytes} {final : ReadResult E} (hfinal : ∀ payload, final ≠ .message payload)
    (h : Intake.Arriving payloads final b.intake) {event : Event κ}
    (hstep : b.step host parse dump event = some c) : Intake.Arriving payloads final c.intake := by
  rcases step_intake hstep with ⟨taken, -, hintake⟩ | hsame
  · exact h.step hfinal hintake
  · exact hsame ▸ h

section Runs

variable {stream : Bytes} {chunks : List Bytes} {atEnd : StreamEnd E} {workspace : Workspace κ}
  {events : List (Event κ)}

lemma run_arriving (hchunks : Chunking stream chunks)
    (hrun : run (step host parse dump) (start (readerOf atEnd chunks) workspace) events = some b) :
    Intake.Arriving (streamMessages stream).1 ((streamMessages stream).2.result atEnd) b.intake :=
  invariant (I := fun b : Bridge κ E => Intake.Arriving _ _ b.intake)
    (fun _ _ _ h hstep => arriving_step (Intake.result_ne atEnd _) h hstep)
    (Intake.arriving_start hchunks atEnd) hrun

lemma run_answering (hparse : ∀ payload request, parse payload = some request → request.isDumpable)
    {input : Reader E} (hrun : run (step host parse dump) (start input workspace) events = some b) :
    Answering parse dump b :=
  invariant (fun _ _ _ h hstep => h.step hparse hstep) (answering_start input workspace) hrun

lemma popped_untilExit {payloads : List Bytes} {final : ReadResult E}
    (harriving : Intake.Arriving payloads final b.intake) (hanswering : Answering parse dump b) :
    b.intake.popped <+: untilExit parse payloads ∧
      (b.loop.isOpen = false → b.intake.popped = untilExit parse payloads) := by
  obtain ⟨rest, hpayloads, -⟩ := harriving.split
  rw [List.append_assoc] at hpayloads
  cases hopen : b.loop.isOpen with
  | true =>
    refine ⟨?_, nofun⟩
    rw [← hpayloads, untilExit_append (hanswering.opened hopen)]
    exact List.prefix_append _ _
  | false =>
    have hpopped : b.intake.popped = untilExit parse payloads := by
      cases hanswering.ended hopen with
      | exit hlast hexit hearlier =>
        rw [← hpayloads, hlast, List.append_assoc, untilExit_append hearlier, List.singleton_append, untilExit,
          if_pos hexit]
      | endOfInput hnone hresult hreport =>
        obtain ⟨earlier, later, hresults⟩ := List.append_of_mem hresult
        have hall := (harriving.of_report hresults hreport).2
        rw [← hall, untilExit_of_none hnone]
    exact ⟨hpopped ▸ List.prefix_rfl, fun _ => hpopped⟩

/-- As long as no write fails. -/
theorem replies_on_wire (hparse : ∀ payload request, parse payload = some request → request.isDumpable)
    (hchunks : Chunking stream chunks)
    (hrun : run (step host parse dump) (start (readerOf atEnd chunks) workspace) events = some b) :
    b.wire = b.sent.flatMap (fun entry => frameMessage (dump entry.2)) ∧
      ((∀ entry ∈ b.sent, (dump entry.2).length ≤ maxContentLength) →
        streamMessages b.wire = (b.sent.map fun entry => dump entry.2, .stream)) ∧
      b.intake.popped <+: untilExit parse (streamMessages stream).1 ∧
      (∃ replies, List.Forall₂ (fun payload => EventAnswered parse (.message payload)) b.intake.popped replies ∧
        b.sentBy .sessionLoop ++ b.outbox = replies.flatten) ∧
      (b.isOpen = false → b.outbox = [] ∧ b.intake.popped = untilExit parse (streamMessages stream).1) := by
  have harriving := run_arriving hchunks hrun
  have hanswering := run_answering hparse hrun
  obtain ⟨hbegins, hended⟩ := popped_untilExit harriving hanswering
  refine ⟨hanswering.wire, fun hsizes => ?_, hbegins, hanswering.replies, fun hclosed => ?_⟩
  · rw [hanswering.wire, ← List.flatMap_map]
    apply Intake.streamMessages_frames
    rw [List.forall_mem_map]
    exact hsizes
  · rw [isOpen, Bool.or_eq_false_iff, Bool.not_eq_false', List.isEmpty_iff] at hclosed
    exact ⟨hclosed.2, hended hclosed.1⟩

end Runs

section Reading

lemma run_reads {results : List (ReadResult E)} {r : Reader E} (h : Reads Reader.readMessageBlocking r results)
    (hinput : b.intake.input = r) (hreading : b.intake.reading = true) :
    ∃ input, run (fun b event => step host parse dump b (.input event)) b (List.replicate results.length .read) =
      some { b with intake := { b.intake with
        input := input, reading := false, posted := b.intake.posted ++ results } } := by
  induction h generalizing b with
  | @message r r' payload results hread hrest ih =>
    have hstep : b.intake.step .read = some { b.intake with
        input := r', reading := true, posted := b.intake.posted ++ [.message payload] } := by
      rw [Intake.step, if_pos hreading, hinput, hread]
      rfl
    obtain ⟨input, hrun⟩ := @ih { b with intake := { b.intake with
      input := r', reading := true, posted := b.intake.posted ++ [.message payload] } } rfl rfl
    refine ⟨input, ?_⟩
    rw [List.length_cons, List.replicate_succ, run_cons, step_input_of_not_pops rfl hstep, Option.bind_some, hrun]
    simp only [List.append_assoc, List.singleton_append]
  | @stop r r' result hread hstop =>
    have hmessage : result.isMessage = false := by
      cases result with
      | message payload => exact absurd rfl (hstop payload)
      | nullopt | thrown => rfl
    have hstep : b.intake.step .read = some { b.intake with
        input := r', reading := false, posted := b.intake.posted ++ [result] } := by
      rw [Intake.step, if_pos hreading, hinput, hread, hmessage]
    refine ⟨r', ?_⟩
    rw [List.length_singleton, List.replicate_succ, run_cons, step_input_of_not_pops rfl hstep]
    rfl

lemma run_reads_frames {payloads : List Bytes} (hsizes : ∀ payload ∈ payloads, payload.length ≤ maxContentLength)
    {chunks : List Bytes} (hchunks : Chunking (payloads.flatMap frameMessage) chunks) (workspace : Workspace κ) :
    ∃ input, run (fun b event => step host parse dump b (.input event))
        (start (readerOf (E := E) .zeroBytes chunks) workspace) (List.replicate (payloads.length + 1) .read) =
      some { start (readerOf (E := E) .zeroBytes chunks) workspace with
        intake := { input := input, reading := false, posted := payloads.map .message ++ [.nullopt] } } := by
  have hreads := reads_blocking (E := E) hchunks
  rw [Intake.streamMessages_frames hsizes] at hreads
  obtain ⟨input, hrun⟩ :=
    @run_reads κ E host parse dump (start (readerOf .zeroBytes chunks) workspace) _ _ hreads rfl rfl
  rw [List.length_append, List.length_map, List.length_singleton] at hrun
  exact ⟨input, hrun⟩

end Reading

section Examples

def sessionPayloads : List Bytes :=
  [notificationPayload "initialized", requestPayload "shutdown", notificationPayload "exit"]

def sessionChunks : List Bytes :=
  [(sessionPayloads.flatMap frameMessage).take 80, (sessionPayloads.flatMap frameMessage).drop 80]

lemma chunking_session : Chunking (sessionPayloads.flatMap frameMessage) sessionChunks where
  flatten := by
    rw [sessionChunks, List.flatten_cons, List.flatten_singleton, List.take_append_drop]
  bounds := by decide +kernel

abbrev stepSession : Bridge Unit Unit → Event Unit → Option (Bridge Unit Unit) :=
  step idleHost parseRequests dumpStrings

abbrev startSession : Bridge Unit Unit := start (readerOf .zeroBytes sessionChunks) { host := () }

def sessionPosted (input : Reader Unit) : Bridge Unit Unit :=
  { startSession with
    intake := { input := input, reading := false, posted := sessionPayloads.map .message ++ [.nullopt] } }

def readSession : List (Event Unit) := (List.replicate 4 .read).map .input

lemma run_readSession : ∃ input, run stepSession startSession readSession = some (sessionPosted input) := by
  rw [readSession, run_events_map]
  exact run_reads_frames (by decide +kernel) chunking_session _

def answerSession : List (Event Unit) :=
  [.input .deliver, .input .waitAndPop, .indexReady, .notify, .input .deliver, .input .waitAndPop, .heartbeat, .write,
    .input .deliver, .input .waitAndPop, .input .deliver]

def sessionSent : List (Sender × Json) :=
  [(.indexReady, Jsonrpc.createNotification (ascii "dltxt/crossref_index_ready") .emptyObject),
    (.heartbeat, heartbeatMessage), (.sessionLoop, Jsonrpc.createResponse (.unsigned 1) .null)]

structure SessionEnded (b : Bridge Unit Unit) : Prop where
  closed : b.isOpen = false
  sent : b.sent = sessionSent
  popped : b.intake.popped = sessionPayloads
  outbox : b.outbox = []
  spawned : b.spawned = []
  posted : b.intake.posted = []
  read : b.intake.reading = false

set_option maxRecDepth 4000 in
lemma run_answerSession (input : Reader Unit) :
    (run stepSession (sessionPosted input) answerSession).map (fun b => (b.isOpen, b.sent, b.intake.popped, b.outbox,
      b.spawned, b.intake.posted, b.intake.reading)) = some (false, sessionSent, sessionPayloads, [], [], [], false) :=
  rfl

lemma run_session : ∃ b, run stepSession startSession (readSession ++ answerSession) = some b ∧ SessionEnded b := by
  obtain ⟨input, hread⟩ := run_readSession
  obtain ⟨b, hb, hended⟩ := Option.map_eq_some_iff.mp (run_answerSession input)
  simp only [Prod.mk.injEq] at hended
  obtain ⟨hclosed, hsent, hpopped, houtbox, hspawned, hposted, hreading⟩ := hended
  refine ⟨b, ?_, hclosed, hsent, hpopped, houtbox, hspawned, hposted, hreading⟩
  rw [run_append, hread]
  exact hb

theorem replies_on_wire_shutdown :
    ∃ b replies, run stepSession startSession (readSession ++ answerSession) = some b ∧
      streamMessages b.wire = (sessionSent.map fun entry => dumpStrings entry.2, .stream) ∧
      List.Forall₂ (fun payload => EventAnswered parseRequests (.message payload)) sessionPayloads replies ∧
      replies.flatten = [Jsonrpc.createResponse (.unsigned 1) .null] ∧
      untilExit parseRequests (streamMessages (sessionPayloads.flatMap frameMessage)).1 = sessionPayloads := by
  obtain ⟨b, hrun, hended⟩ := run_session
  obtain ⟨-, hdecoded, -, ⟨replies, hanswered, hreplies⟩, hclosed⟩ :=
    replies_on_wire isDumpable_parseRequests chunking_session hrun
  rw [hended.sent] at hdecoded
  rw [hended.popped] at hanswered hclosed
  refine ⟨b, replies, hrun, hdecoded (by decide +kernel), hanswered, ?_, (hclosed hended.closed).2.symm⟩
  rw [← hreplies, hended.outbox, List.append_nil, sentBy, hended.sent]
  rfl

end Examples

end Bridge

end DltxtBridge.Protocol
