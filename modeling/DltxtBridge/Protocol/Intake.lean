import DltxtBridge.Protocol.Chunking
import DltxtBridge.Protocol.LocalInputQueue

/-! `start_stdio_reader_thread`: a thread of its own reads messages and posts each of them to the
executor, which runs the handlers in the order they are posted in; they feed the queue that the
session loop takes its messages from. -/

namespace DltxtBridge.Protocol

open LocalInputQueue TransitionSystem

variable {E : Type}

def ReadResult.handler : ReadResult E → LocalInputQueue.Event E
  | .message payload => .push payload
  | .nullopt => .close
  | .thrown code => .fail code

def ReadResult.isMessage : ReadResult E → Bool
  | .message _ => true
  | _ => false

/-- How `wait_and_pop` reports the end of the input. -/
def ReadResult.report : ReadResult E → PopResult E
  | .message payload => .message payload
  | .nullopt => .endOfInput
  | .thrown code => .failed code

structure Intake (E : Type) where
  input : Reader E
  reading : Bool := true
  posted : List (ReadResult E) := []
  inbox : LocalInputQueue.Run E := {}

lemma Reads.first {read : Reader E → ReadResult E × Reader E} {r : Reader E} {payload : Bytes}
    {results : List (ReadResult E)} (h : Reads read r (.message payload :: results)) :
    ∃ r', read r = (.message payload, r') := by
  cases h with
  | message hread hrest => exact ⟨_, hread⟩
  | stop hread hstop => exact absurd rfl (hstop payload)

namespace Intake

/-- A turn of the reader thread's loop, the next posted handler, or the session loop in
`wait_and_pop`. -/
inductive Event
  | read
  | deliver
  | waitAndPop
  | resume
deriving DecidableEq

def step (s : Intake E) : Event → Option (Intake E)
  | .read =>
    if s.reading then
      some { s with
        input := s.input.readMessageBlocking.2
        reading := s.input.readMessageBlocking.1.isMessage
        posted := s.posted ++ [s.input.readMessageBlocking.1] }
    else none
  | .deliver =>
    match s.posted with
    | [] => none
    | result :: posted => (s.inbox.step result.handler).map fun inbox => { s with posted := posted, inbox := inbox }
  | .waitAndPop => (s.inbox.step .waitAndPop).map fun inbox => { s with inbox := inbox }
  | .resume => (s.inbox.step .resume).map fun inbox => { s with inbox := inbox }

def popped (s : Intake E) : List Bytes := poppedMessages s.inbox.results

section Invariant

variable {payloads : List Bytes} {final : ReadResult E} {s t : Intake E}

/-- The results that have not reached the queue, posted or yet to be read. -/
def Pending (s : Intake E) (results : List (ReadResult E)) : Prop :=
  if s.reading then ∃ unread, Reads Reader.readMessageBlocking s.input unread ∧ results = s.posted ++ unread
  else results = s.posted

structure Arriving (payloads : List Bytes) (final : ReadResult E) (s : Intake E) : Prop where
  kept : ∃ past, Kept past s.inbox
  opened : s.inbox.queue.closed = false → s.inbox.queue.error = none ∧ ∃ rest,
    s.Pending (rest.map .message ++ [final]) ∧ s.popped ++ s.inbox.queue.messages ++ rest = payloads
  closed : s.inbox.queue.closed = true → s.Pending [] ∧ s.popped ++ s.inbox.queue.messages = payloads ∧
    s.inbox.queue.error.elim .endOfInput .failed = final.report
  reported : ∀ result ∈ s.inbox.results, result.message? = none → result = final.report

lemma pending_of_reading (hreading : s.reading = true) {results : List (ReadResult E)} :
    s.Pending results ↔ ∃ unread, Reads Reader.readMessageBlocking s.input unread ∧ results = s.posted ++ unread :=
  iff_of_eq (if_pos hreading)

lemma pending_of_done (hdone : ¬ s.reading) {results : List (ReadResult E)} :
    s.Pending results ↔ results = s.posted :=
  iff_of_eq (if_neg hdone)

lemma isMessage_of_ne {result : ReadResult E} (h : ∀ payload, result ≠ .message payload) :
    ¬ result.isMessage := by
  cases result with
  | message payload => exact absurd rfl (h payload)
  | nullopt | thrown code => exact Bool.false_ne_true

lemma pending_read {results : List (ReadResult E)} (h : s.Pending results) (hstep : s.step .read = some t) :
    t.Pending results := by
  rw [step] at hstep
  split_ifs at hstep with hreading
  cases hstep
  rw [pending_of_reading hreading] at h
  obtain ⟨unread, hreads, rfl⟩ := h
  cases hreads with
  | @message _ r' payload unread hread hrest =>
    refine (pending_of_reading ?_).mpr ⟨unread, ?_, ?_⟩
    · rw [hread]
      rfl
    · rw [hread]
      exact hrest
    · rw [hread, List.append_assoc]
      rfl
  | @stop _ r' result hread hstop =>
    refine (pending_of_done ?_).mpr ?_
    · rw [hread]
      exact isMessage_of_ne hstop
    · rw [hread]

lemma pending_deliver {results rest : List (ReadResult E)} {result : ReadResult E} (h : s.Pending results)
    (hposted : s.posted = result :: rest) (inbox : LocalInputQueue.Run E) :
    ∃ later, results = result :: later ∧ Pending { s with posted := rest, inbox := inbox } later := by
  by_cases hreading : s.reading = true
  · rw [pending_of_reading hreading] at h
    obtain ⟨unread, hreads, rfl⟩ := h
    refine ⟨rest ++ unread, by rw [hposted, List.cons_append], ?_⟩
    exact (pending_of_reading (s := { s with posted := rest, inbox := inbox }) hreading).mpr ⟨unread, hreads, rfl⟩
  · rw [pending_of_done hreading] at h
    subst h
    exact ⟨rest, hposted, (pending_of_done (s := { s with posted := rest, inbox := inbox }) hreading).mpr rfl⟩

lemma kept_next {past : List (LocalInputQueue.Event E)} {inbox : LocalInputQueue.Run E}
    {event : LocalInputQueue.Event E} (h : Kept past s.inbox) (hstep : s.inbox.step event = some inbox) :
    ∃ past, Kept past inbox :=
  ⟨_, kept_step past s.inbox event inbox h hstep⟩

lemma popRound_queue (queue : LocalInputQueue E) :
    queue.popRound.2.closed = queue.closed ∧ queue.popRound.2.error = queue.error ∧
      (queue.popRound.1.bind PopResult.message?).toList ++ queue.popRound.2.messages = queue.messages := by
  obtain ⟨signal, messages, error, closed⟩ := queue
  cases messages with
  | cons message messages => exact ⟨rfl, rfl, rfl⟩
  | nil => cases error <;> cases closed <;> exact ⟨rfl, rfl, rfl⟩

lemma popRound_report {queue : LocalInputQueue E} {result : PopResult E}
    (hresult : queue.popRound.1 = some result) (hnone : result.message? = none) :
    (queue.error ≠ none ∨ queue.closed = true) ∧ result = queue.error.elim .endOfInput .failed := by
  obtain ⟨signal, messages, error, closed⟩ := queue
  cases messages with
  | cons message messages =>
    cases hresult
    cases hnone
  | nil =>
    cases error with
    | some error =>
      cases hresult
      exact ⟨.inl (Option.some_ne_none error), rfl⟩
    | none =>
      cases closed with
      | true =>
        cases hresult
        exact ⟨.inr rfl, rfl⟩
      | false => cases hresult

lemma poppedMessages_popRound (run : LocalInputQueue.Run E) :
    poppedMessages run.popRound.results = poppedMessages run.results ++
      (run.queue.popRound.1.bind PopResult.message?).toList := by
  rw [LocalInputQueue.Run.popRound, poppedMessages, List.filterMap_append]
  cases run.queue.popRound.1 with
  | none => rfl
  | some result => cases result <;> rfl

lemma Arriving.popRound (h : Arriving payloads final s) (hkept : ∃ past, Kept past s.inbox.popRound) :
    Arriving payloads final { s with inbox := s.inbox.popRound } := by
  obtain ⟨hclosed, herror, hmessages⟩ := popRound_queue s.inbox.queue
  have htaken : poppedMessages s.inbox.popRound.results ++ s.inbox.popRound.queue.messages =
      s.popped ++ s.inbox.queue.messages := by
    rw [poppedMessages_popRound, List.append_assoc, ← hmessages]
    rfl
  refine ⟨hkept, fun hopen => ?_, fun hended => ?_, fun result hmem hnone => ?_⟩
  · obtain ⟨hnone, rest, hpending, hpayloads⟩ := h.opened (hclosed.symm.trans hopen)
    exact ⟨herror.trans hnone, rest, hpending, (congrArg (· ++ rest) htaken).trans hpayloads⟩
  · obtain ⟨hpending, hpayloads, hreport⟩ := h.closed (hclosed.symm.trans hended)
    refine ⟨hpending, htaken.trans hpayloads, ?_⟩
    change s.inbox.queue.popRound.2.error.elim _ _ = _
    rw [herror, hreport]
  · rcases List.mem_append.mp hmem with hearlier | hresult
    · exact h.reported result hearlier hnone
    · rw [Option.mem_toList] at hresult
      obtain ⟨hreason, rfl⟩ := popRound_report hresult hnone
      obtain ⟨past, hpast⟩ := h.kept
      have hended : s.inbox.queue.closed = true := hreason.elim hpast.error_closed id
      exact (h.closed hended).2.2

lemma Arriving.deliver (h : Arriving payloads final s) (hfinal : ∀ payload, final ≠ .message payload)
    {result : ReadResult E} {rest : List (ReadResult E)} (hposted : s.posted = result :: rest)
    {inbox : LocalInputQueue.Run E} (hstep : s.inbox.step result.handler = some inbox) :
    Arriving payloads final { s with posted := rest, inbox := inbox } := by
  obtain ⟨past, hpast⟩ := h.kept
  have hkept := kept_next hpast hstep
  cases hclosed : s.inbox.queue.closed with
  | true =>
    obtain ⟨later, hlater, -⟩ := pending_deliver (h.closed hclosed).1 hposted inbox
    cases hlater
  | false =>
    obtain ⟨herror, unpopped, hpending, hpayloads⟩ := h.opened hclosed
    obtain ⟨later, hlater, hpending⟩ := pending_deliver hpending hposted inbox
    cases unpopped with
    | nil =>
      obtain ⟨rfl, rfl⟩ := List.cons.inj hlater
      rw [List.append_nil] at hpayloads
      cases final with
      | message payload => exact absurd rfl (hfinal payload)
      | nullopt =>
        cases hstep
        refine ⟨hkept, fun hopen => ?_, fun _ => ⟨hpending, ?_, ?_⟩, h.reported⟩
        · simp [LocalInputQueue.close, hclosed] at hopen
        · simpa [LocalInputQueue.close, hclosed, popped] using hpayloads
        · simp [LocalInputQueue.close, hclosed, herror, ReadResult.report]
      | thrown code =>
        cases hstep
        exact ⟨hkept, fun hopen => Bool.noConfusion hopen, fun _ => ⟨hpending, hpayloads, rfl⟩, h.reported⟩
    | cons payload unpopped =>
      obtain ⟨rfl, rfl⟩ := List.cons.inj hlater
      cases hstep
      refine ⟨hkept, fun _ => ⟨?_, unpopped, hpending, ?_⟩, fun hended => ?_, h.reported⟩
      · simpa [LocalInputQueue.push, hclosed] using herror
      · simpa [LocalInputQueue.push, hclosed, popped] using hpayloads
      · simp [LocalInputQueue.push, hclosed] at hended

lemma Arriving.step (h : Arriving payloads final s) (hfinal : ∀ payload, final ≠ .message payload)
    {event : Event} (hstep : s.step event = some t) : Arriving payloads final t := by
  cases event with
  | read =>
    have hpending := fun {results} (h : s.Pending results) => pending_read h hstep
    rw [Intake.step] at hstep
    split_ifs at hstep with hreading
    cases hstep
    refine ⟨h.kept, fun hopen => ?_, fun hended => ?_, h.reported⟩
    · obtain ⟨herror, rest, hrest, hpayloads⟩ := h.opened hopen
      exact ⟨herror, rest, hpending hrest, hpayloads⟩
    · exact (h.closed hended).imp hpending id
  | deliver =>
    rw [Intake.step] at hstep
    cases hposted : s.posted with
    | nil =>
      rw [hposted] at hstep
      cases hstep
    | cons result rest =>
      rw [hposted] at hstep
      obtain ⟨inbox, hinbox, rfl⟩ := Option.map_eq_some_iff.mp hstep
      exact h.deliver hfinal hposted hinbox
  | waitAndPop | resume =>
    obtain ⟨past, hpast⟩ := h.kept
    obtain ⟨inbox, hinbox, rfl⟩ := Option.map_eq_some_iff.mp hstep
    have hkept := kept_next hpast hinbox
    rw [LocalInputQueue.Run.step, Option.ite_none_right_eq_some] at hinbox
    obtain ⟨-, heq⟩ := hinbox
    cases heq
    exact h.popRound hkept

lemma Arriving.split (h : Arriving payloads final s) :
    ∃ rest, s.popped ++ s.inbox.queue.messages ++ rest = payloads ∧
      s.Pending (rest.map .message ++ if s.inbox.queue.closed then [] else [final]) := by
  cases hclosed : s.inbox.queue.closed with
  | true => exact ⟨[], by rw [List.append_nil, (h.closed hclosed).2.1], (h.closed hclosed).1⟩
  | false =>
    obtain ⟨-, rest, hpending, hpayloads⟩ := h.opened hclosed
    exact ⟨rest, hpayloads, hpending⟩

lemma Arriving.of_report (h : Arriving payloads final s) {earlier later : List (PopResult E)}
    {result : PopResult E} (hresults : s.inbox.results = earlier ++ result :: later)
    (hnone : result.message? = none) :
    poppedMessages earlier = payloads ∧ s.popped = payloads := by
  obtain ⟨past, hpast⟩ := h.kept
  obtain ⟨hended, haccepted⟩ := hpast.reported earlier result later hresults hnone
  have hpayloads := (h.closed hended).2.1
  have hall : poppedMessages earlier = payloads :=
    haccepted.trans (hpast.order.symm.trans hpayloads)
  have hearlier : poppedMessages earlier <+: s.popped := by
    rw [popped, hresults, poppedMessages, poppedMessages, List.filterMap_append]
    exact List.prefix_append _ _
  have hpopped : s.popped <+: payloads := ⟨_, hpayloads⟩
  exact ⟨hall, hpopped.eq_of_length_le (hall ▸ hearlier.length_le)⟩

lemma arriving_start {stream : Bytes} {chunks : List Bytes} (hchunks : Chunking stream chunks)
    (atEnd : StreamEnd E) :
    Arriving (streamMessages stream).1 ((streamMessages stream).2.result atEnd)
      { input := readerOf atEnd chunks } where
  kept := ⟨[], kept_start⟩
  opened _ := ⟨rfl, _, (pending_of_reading rfl).mpr ⟨_, reads_stream atEnd stream (hchunks.arrives atEnd), rfl⟩, rfl⟩
  closed := nofun
  reported := nofun

lemma result_ne (atEnd : StreamEnd E) (stop : Stop) (payload : Bytes) : stop.result atEnd ≠ .message payload := by
  cases stop with
  | header => exact nofun
  | stream => exact result_ne_message payload

lemma run_arriving {stream : Bytes} {chunks : List Bytes} (hchunks : Chunking stream chunks) {atEnd : StreamEnd E}
    {events : List Event} (hrun : run step { input := readerOf atEnd chunks } events = some s) :
    Arriving (streamMessages stream).1 ((streamMessages stream).2.result atEnd) s :=
  invariant (fun _ _ _ h hstep => h.step (result_ne atEnd _) hstep) (arriving_start hchunks atEnd) hrun

lemma Arriving.not_stuck (h : Arriving payloads final s) (hwaits : s.inbox.queue.signal = .outstanding) :
    s.reading = true ∨ s.posted ≠ [] := by
  obtain ⟨past, hpast⟩ := h.kept
  obtain ⟨-, rest, hpending, -⟩ := h.opened (hpast.idle hwaits).2
  by_contra hstuck
  rw [not_or, not_not] at hstuck
  rw [pending_of_done hstuck.1, hstuck.2] at hpending
  simp at hpending

lemma step_read_ne_none (hreading : s.reading = true) : s.step .read ≠ none := by
  rw [step, if_pos hreading]
  exact Option.some_ne_none _

lemma step_deliver_ne_none (hposted : s.posted ≠ []) : s.step .deliver ≠ none := by
  obtain ⟨result, rest, hposted⟩ := List.exists_cons_of_ne_nil hposted
  rw [step, hposted]
  cases result <;> exact Option.some_ne_none _

end Invariant

section Frames

lemma streamMessages_frame {payload : Bytes} (hsize : payload.length ≤ maxContentLength) (rest : Bytes) :
    streamMessages (frameMessage payload ++ rest) =
      (payload :: (streamMessages rest).1, (streamMessages rest).2) := by
  have hstream : frameMessage payload ++ rest =
      (lengthLine payload.length ++ (crlf ++ crlf)) ++ (payload ++ rest) := by
    simp only [Reader.frameMessage_eq, List.append_assoc]
  have hlength : headerBlockLength ((lengthLine payload.length ++ (crlf ++ crlf)) ++ (payload ++ rest)) =
      some (lengthLine payload.length ++ (crlf ++ crlf)).length := by
    rw [List.append_assoc, headerBlockLength, show crlf ++ crlf = 13 :: [10, 13, 10] from rfl, find_lengthLine]
    simp
  have hkey : ¬ isIgnorableHeaderBlock (lengthLine payload.length ++ (crlf ++ crlf)) :=
    Bool.eq_false_iff.mp (Reader.isIgnorable_lengthLine [] _ _)
  rw [hstream, streamMessages_of_header hlength, List.take_left, List.drop_left, if_neg hkey,
    parseContentLength_lengthLine hsize crlf]
  simp

lemma streamMessages_frames {payloads : List Bytes}
    (hsizes : ∀ payload ∈ payloads, payload.length ≤ maxContentLength) :
    streamMessages (payloads.flatMap frameMessage) = (payloads, .stream) := by
  induction payloads with
  | nil =>
    rw [List.flatMap_nil, streamMessages]
    rfl
  | cons payload payloads ih =>
    rw [List.forall_mem_cons] at hsizes
    rw [List.flatMap_cons, streamMessages_frame hsizes.1, ih hsizes.2]

end Frames

/-- The messages of the stream are popped, queued, and posted or yet to be read, in this order. -/
theorem stdin_delivered {stream : Bytes} {chunks : List Bytes} (hchunks : Chunking stream chunks)
    {atEnd : StreamEnd E} {events : List Event} {s : Intake E}
    (hrun : run step { input := readerOf atEnd chunks } events = some s) :
    (∃ rest, s.popped ++ s.inbox.queue.messages ++ rest = (streamMessages stream).1 ∧
      s.Pending (rest.map .message ++
        if s.inbox.queue.closed then [] else [(streamMessages stream).2.result atEnd])) ∧
      (∀ earlier result later, s.inbox.results = earlier ++ result :: later → result.message? = none →
        poppedMessages earlier = (streamMessages stream).1 ∧
          result = ((streamMessages stream).2.result atEnd).report) ∧
      (s.inbox.queue.signal = .outstanding → s.step .read ≠ none ∨ s.step .deliver ≠ none) := by
  have h := run_arriving hchunks hrun
  refine ⟨h.split, fun earlier result later hresults hnone => ?_, fun hwaits => ?_⟩
  · refine ⟨(h.of_report hresults hnone).1, h.reported result ?_ hnone⟩
    rw [hresults]
    exact List.mem_append_right earlier List.mem_cons_self
  · rcases h.not_stuck hwaits with hreading | hposted
    · exact .inl (step_read_ne_none hreading)
    · exact .inr (step_deliver_ne_none hposted)

def oneFrame (payload : Bytes) : Reader Unit := readerOf .zeroBytes [frameMessage payload]

lemma read_oneFrame {payload : Bytes} (hsize : payload.length ≤ maxContentLength)
    (hchunks : Chunking (frameMessage payload) [frameMessage payload]) :
    ∃ input, (oneFrame payload).readMessageBlocking = (.message payload, input) := by
  have hreads := reads_blocking (E := Unit) hchunks
  have hstream := streamMessages_frame hsize []
  rw [List.append_nil] at hstream
  rw [hstream, List.map_cons, List.cons_append] at hreads
  exact hreads.first

def waiting : LocalInputQueue.Run Unit := { queue := { signal := .outstanding } }

theorem stdin_delivered_while_waiting :
    ∃ s, run step { input := oneFrame (ascii "\x7b\x7d") } [.waitAndPop, .read, .deliver, .resume] = some s ∧
      s.popped = [ascii "\x7b\x7d"] ∧ ∃ rest,
        s.popped ++ s.inbox.queue.messages ++ rest = (streamMessages (frameMessage (ascii "\x7b\x7d"))).1 ∧
        s.Pending (rest.map .message ++ [(streamMessages (frameMessage (ascii "\x7b\x7d"))).2.result .zeroBytes]) := by
  have hchunks : Chunking (frameMessage (ascii "\x7b\x7d")) [frameMessage (ascii "\x7b\x7d")] := by
    exact ⟨List.append_nil _, by decide⟩
  obtain ⟨input, hread⟩ := read_oneFrame (by decide) hchunks
  have hwait : step { input := oneFrame (ascii "\x7b\x7d") } .waitAndPop =
      some { input := oneFrame (ascii "\x7b\x7d"), inbox := waiting } := rfl
  have hstep : step { input := oneFrame (ascii "\x7b\x7d"), inbox := waiting } .read =
      some { input := input, posted := [.message (ascii "\x7b\x7d")], inbox := waiting } := by
    rw [step, hread]
    rfl
  have hrun : run step { input := oneFrame (ascii "\x7b\x7d") } [.waitAndPop, .read, .deliver, .resume] =
      some { input := input, inbox := { results := [.message (ascii "\x7b\x7d")] } } := by
    rw [run_cons, hwait, Option.bind_some, run_cons, hstep]
    rfl
  exact ⟨_, hrun, rfl, (stdin_delivered hchunks hrun).1⟩

end Intake

end DltxtBridge.Protocol
