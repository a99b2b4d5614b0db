import DltxtBridge.Protocol.EndToEnd

namespace DltxtBridge.Protocol

open TransitionSystem

variable {κ E : Type}

namespace Intake

variable {s t : Intake E} {work : ℕ}

def Unread (s : Intake E) (unread : ℕ) : Prop :=
  if s.reading then ∃ results, Reads Reader.readMessageBlocking s.input results ∧ unread = results.length
  else unread = 0

/-- The results yet to be read weigh most, the popped messages nothing. -/
def Weighs (s : Intake E) (work : ℕ) : Prop :=
  ∃ unread, s.Unread unread ∧ work = 3 * unread + 2 * s.posted.length + s.inbox.queue.messages.length

lemma unread_of_reading (hreading : s.reading = true) {unread : ℕ} :
    s.Unread unread ↔ ∃ results, Reads Reader.readMessageBlocking s.input results ∧ unread = results.length :=
  iff_of_eq (if_pos hreading)

lemma unread_of_done (hdone : ¬ s.reading) {unread : ℕ} : s.Unread unread ↔ unread = 0 :=
  iff_of_eq (if_neg hdone)

lemma unread_read {unread : ℕ} (h : s.Unread unread) (hstep : s.step .read = some t) :
    ∃ fewer < unread, t.Unread fewer ∧ t.posted.length = s.posted.length + 1 ∧ t.inbox = s.inbox := by
  rw [step] at hstep
  split_ifs at hstep with hreading
  cases hstep
  obtain ⟨results, hreads, rfl⟩ := (unread_of_reading hreading).mp h
  cases hreads with
  | @message _ r' payload results hread hrest =>
    refine ⟨results.length, Nat.lt_succ_self _, (unread_of_reading ?_).mpr ⟨results, ?_, rfl⟩,
      List.length_append, rfl⟩
    · rw [hread]
      rfl
    · rw [hread]
      exact hrest
  | @stop _ r' result hread hstop =>
    refine ⟨0, Nat.zero_lt_one, (unread_of_done ?_).mpr rfl, List.length_append, rfl⟩
    rw [hread]
    exact isMessage_of_ne hstop

lemma weighs_read (h : s.Weighs work) (hstep : s.step .read = some t) : ∃ less < work, t.Weighs less := by
  obtain ⟨unread, hunread, rfl⟩ := h
  obtain ⟨fewer, hfewer, hunread, hposted, hinbox⟩ := unread_read hunread hstep
  refine ⟨_, ?_, fewer, hunread, rfl⟩
  rw [hposted, hinbox]
  omega

lemma length_messages_handler {inbox : LocalInputQueue.Run E} {result : ReadResult E}
    (hstep : s.inbox.step result.handler = some inbox) :
    inbox.queue.messages.length ≤ s.inbox.queue.messages.length + 1 := by
  cases result with
  | message payload =>
    cases hstep
    rw [LocalInputQueue.push]
    split_ifs
    · exact Nat.le_succ _
    · simp
  | nullopt =>
    cases hstep
    rw [LocalInputQueue.close]
    split_ifs <;> exact Nat.le_succ _
  | thrown code =>
    cases hstep
    exact Nat.le_succ _

lemma weighs_deliver (h : s.Weighs work) (hstep : s.step .deliver = some t) : ∃ less < work, t.Weighs less := by
  rw [step] at hstep
  cases hposted : s.posted with
  | nil =>
    rw [hposted] at hstep
    cases hstep
  | cons result rest =>
    rw [hposted] at hstep
    obtain ⟨inbox, hinbox, rfl⟩ := Option.map_eq_some_iff.mp hstep
    obtain ⟨unread, hunread, rfl⟩ := h
    have hmessages := length_messages_handler hinbox
    refine ⟨_, ?_, unread, hunread, rfl⟩
    rw [hposted, List.length_cons]
    dsimp only
    omega

lemma Arriving.weighs {payloads : List Bytes} {final : ReadResult E} (h : Arriving payloads final s) :
    ∃ work, s.Weighs work := by
  obtain ⟨results, hpending⟩ : ∃ results, s.Pending results := by
    cases hclosed : s.inbox.queue.closed with
    | true => exact ⟨[], (h.closed hclosed).1⟩
    | false =>
      obtain ⟨-, rest, hpending, -⟩ := h.opened hclosed
      exact ⟨_, hpending⟩
  by_cases hreading : s.reading = true
  · obtain ⟨unread, hreads, -⟩ := (pending_of_reading hreading).mp hpending
    exact ⟨_, unread.length, (unread_of_reading hreading).mpr ⟨unread, hreads, rfl⟩, rfl⟩
  · exact ⟨_, 0, (unread_of_done hreading).mpr rfl, rfl⟩

lemma popRound_cases (queue : LocalInputQueue E) :
    (∃ payload messages, queue.messages = payload :: messages ∧
      queue.popRound = (some (.message payload), { queue with messages := messages, signal := .none })) ∨
    (∃ result, result.message? = none ∧ queue.popRound = (some result, { queue with signal := .none })) ∨
    queue.popRound = (none, { queue with signal := .outstanding }) := by
  obtain ⟨signal, messages, error, closed⟩ := queue
  cases messages with
  | cons payload messages => exact .inl ⟨payload, messages, rfl, rfl⟩
  | nil =>
    cases error with
    | some error => exact .inr (.inl ⟨.failed error, rfl, rfl⟩)
    | none =>
      cases closed with
      | true => exact .inr (.inl ⟨.endOfInput, rfl, rfl⟩)
      | false => exact .inr (.inr rfl)

end Intake

namespace Bridge

variable {host : Host κ} {parse : Bytes → Option Json} {dump : Json → Bytes} {b c : Bridge κ E}

def Event.internal : Event κ → Bool
  | .input _ => true
  | .write => true
  | .notify => true
  | .heartbeat => false
  | .indexReady => false
  | .background _ => false

def remainder (b : Bridge κ E) : ℕ :=
  (if b.loop.isOpen then 1 else 0) + (if b.intake.inbox.queue.signal = .outstanding then 0 else 1) +
    (b.outbox.length + b.spawned.length)

def Ranked (rank : ℕ × ℕ) (b : Bridge κ E) : Prop := b.intake.Weighs rank.1 ∧ b.remainder = rank.2

abbrev Lower : ℕ × ℕ → ℕ × ℕ → Prop := Prod.Lex (· < ·) (· < ·)

lemma wellFounded_lower : WellFounded Lower := (Prod.lex ⟨_, Nat.lt_wfRel.wf⟩ ⟨_, Nat.lt_wfRel.wf⟩).wf

lemma lower_of_work {rank : ℕ × ℕ} {less : ℕ} (hless : less < rank.1) (h : b.intake.Weighs less) :
    ∃ rank', Lower rank' rank ∧ b.Ranked rank' :=
  ⟨(less, b.remainder), .left _ _ hless, h, rfl⟩

lemma lower_of_remainder {rank : ℕ × ℕ} (hwork : c.intake.Weighs rank.1) (hb : b.remainder = rank.2)
    (hless : c.remainder < b.remainder) : ∃ rank', Lower rank' rank ∧ c.Ranked rank' :=
  ⟨(rank.1, c.remainder), .right _ (hb ▸ hless), hwork, rfl⟩

lemma lower_popRound {rank : ℕ × ℕ} (h : b.Ranked rank) (hpop : b.canPop = true)
    (hsignal : b.intake.inbox.queue.signal ≠ .outstanding) :
    ∃ rank', Lower rank' rank ∧
      Ranked rank' ({ b with intake := { b.intake with inbox := b.intake.inbox.popRound } }.receive
        host parse b.intake.inbox.queue.popRound.1) := by
  obtain ⟨⟨unread, hunread, hwork⟩, hremainder⟩ := h
  rw [canPop, Bool.and_eq_true] at hpop
  rcases Intake.popRound_cases b.intake.inbox.queue with ⟨payload, messages, hmessages, hround⟩ |
    ⟨result, hnone, hround⟩ | hround
  · have hqueue : b.intake.inbox.popRound.queue.messages = messages := by
      rw [LocalInputQueue.Run.popRound, hround]
    refine lower_of_work (?_ : 3 * unread + 2 * b.intake.posted.length + messages.length < rank.1) ?_
    · rw [hwork, hmessages, List.length_cons]
      omega
    · rw [intake_receive]
      exact ⟨unread, hunread, by rw [hqueue]⟩
  · have hqueue : b.intake.inbox.popRound.queue = { b.intake.inbox.queue with signal := .none } := by
      rw [LocalInputQueue.Run.popRound, hround]
    rw [hround]
    apply lower_of_remainder _ hremainder
    · cases result with
      | message payload => cases hnone
      | failed error | endOfInput => simp [receive, endLoop, remainder, hpop.1, hqueue, hsignal]
    · rw [intake_receive]
      exact ⟨unread, hunread, by rw [hwork, hqueue]⟩
  · have hqueue : b.intake.inbox.popRound.queue = { b.intake.inbox.queue with signal := .outstanding } := by
      rw [LocalInputQueue.Run.popRound, hround]
    rw [hround]
    apply lower_of_remainder _ hremainder
    · simp [receive, remainder, hpop.1, hqueue, hsignal]
    · rw [intake_receive]
      exact ⟨unread, hunread, by rw [hwork, hqueue]⟩

lemma signal_of_pops {event : Intake.Event} {s t : Intake E} (hpops : event.pops = true)
    (hstep : s.step event = some t) : s.inbox.queue.signal ≠ .outstanding := by
  cases event with
  | read | deliver => cases hpops
  | waitAndPop | resume =>
    obtain ⟨inbox, hinbox, -⟩ := Option.map_eq_some_iff.mp hstep
    rw [LocalInputQueue.Run.step, Option.ite_none_right_eq_some] at hinbox
    rw [hinbox.1]
    intro hsignal
    cases hsignal

lemma lower_step {rank : ℕ × ℕ} (h : b.Ranked rank) {event : Event κ} (hinternal : event.internal = true)
    (hstep : b.step host parse dump event = some c) : ∃ rank', Lower rank' rank ∧ c.Ranked rank' := by
  cases event with
  | input event =>
    obtain ⟨intake, hintake, ⟨hpops, rfl⟩ | ⟨hpops, hpop, rfl, rfl⟩⟩ := step_input_cases hstep
    · cases event with
      | waitAndPop | resume => cases hpops
      | read =>
        obtain ⟨less, hless, hwork⟩ := Intake.weighs_read h.1 hintake
        exact lower_of_work hless hwork
      | deliver =>
        obtain ⟨less, hless, hwork⟩ := Intake.weighs_deliver h.1 hintake
        exact lower_of_work hless hwork
    · exact lower_popRound h hpop (signal_of_pops hpops hintake)
  | write =>
    rw [step] at hstep
    cases houtbox : b.outbox with
    | nil =>
      rw [houtbox] at hstep
      cases hstep
    | cons message rest =>
      rw [houtbox] at hstep
      cases hstep
      refine lower_of_remainder h.1 h.2 (Nat.add_lt_add_left ?_ _)
      simp [writeJsonMessage, houtbox]
  | notify =>
    rw [step] at hstep
    cases hspawned : b.spawned with
    | nil =>
      rw [hspawned] at hstep
      cases hstep
    | cons message rest =>
      rw [hspawned] at hstep
      cases hstep
      split_ifs
      all_goals
        refine lower_of_remainder h.1 h.2 (Nat.add_lt_add_left ?_ _)
        simp [writeJsonMessage, hspawned]
  | heartbeat | indexReady | background change => cases hinternal

lemma isOpen_of_stuck {payloads : List Bytes} {final : ReadResult E} (h : Intake.Arriving payloads final b.intake)
    (hstuck : ∀ event : Event κ, event.internal → b.step host parse dump event = none) : b.isOpen = false := by
  have houtbox : b.outbox = [] := by
    by_contra hne
    obtain ⟨message, rest, houtbox⟩ := List.exists_cons_of_ne_nil hne
    have hwrite := hstuck .write rfl
    rw [step, houtbox] at hwrite
    cases hwrite
  rw [isOpen, houtbox, List.isEmpty_nil, Bool.not_true, Bool.or_false, Bool.eq_false_iff]
  intro hopen
  have hpop : b.canPop = true := by rw [canPop, hopen, houtbox]; rfl
  have hinput : ∀ event : Intake.Event, b.intake.step event = none := by
    intro event
    have hrefused := hstuck (.input event) rfl
    rw [step, hpop, Bool.not_true, Bool.and_false, if_neg Bool.false_ne_true] at hrefused
    exact Option.map_eq_none_iff.mp hrefused
  cases hsignal : b.intake.inbox.queue.signal with
  | none =>
    have hrefused := hinput .waitAndPop
    rw [Intake.step, LocalInputQueue.Run.step, if_pos hsignal] at hrefused
    cases hrefused
  | completed =>
    have hrefused := hinput .resume
    rw [Intake.step, LocalInputQueue.Run.step, if_pos hsignal] at hrefused
    cases hrefused
  | outstanding =>
    rcases h.not_stuck hsignal with hreading | hposted
    · exact Intake.step_read_ne_none hreading (hinput .read)
    · exact Intake.step_deliver_ne_none hposted (hinput .deliver)

section Runs

variable {stream : Bytes} {chunks : List Bytes} {atEnd : StreamEnd E} {workspace : Workspace κ}
  {events : List (Event κ)}

/-- As long as no write fails. -/
theorem halts_closed (hchunks : Chunking stream chunks)
    (hrun : run (step host parse dump) (start (readerOf atEnd chunks) workspace) events = some b) :
    (∀ schedule : ℕ → Event κ, (∀ n, (schedule n).internal) →
      ∃ n, run (step host parse dump) b ((List.range n).map schedule) = none) ∧
    ((∀ event : Event κ, event.internal → b.step host parse dump event = none) → b.isOpen = false) := by
  have harriving := run_arriving hchunks hrun
  refine ⟨fun schedule hschedule => ?_, isOpen_of_stuck harriving⟩
  obtain ⟨work, hwork⟩ := harriving.weighs
  exact refused_of_rank wellFounded_lower (fun rank b event c h hinternal hstep => lower_step h hinternal hstep)
    (⟨hwork, rfl⟩ : b.Ranked (work, b.remainder)) hschedule

lemma SessionEnded.stuck {b : Bridge Unit Unit} (h : SessionEnded b) {event : Event Unit}
    (hinternal : event.internal = true) : stepSession b event = none := by
  have hpop : b.canPop = false := by
    rw [canPop, (Bool.or_eq_false_iff.mp h.closed).1, Bool.false_and]
  cases event with
  | input event =>
    cases event with
    | read =>
      rw [stepSession, step, if_neg (by simp [Intake.Event.pops]), Intake.step, h.read]
      rfl
    | deliver =>
      rw [stepSession, step, if_neg (by simp [Intake.Event.pops]), Intake.step, h.posted]
      rfl
    | waitAndPop | resume =>
      rw [stepSession, step, hpop]
      rfl
  | write => rw [stepSession, step, h.outbox]
  | notify => rw [stepSession, step, h.spawned]
  | heartbeat | indexReady | background change => cases hinternal

theorem halts_closed_shutdown :
    ∃ input b, run stepSession startSession readSession = some (sessionPosted input) ∧
      (∃ n, run stepSession (sessionPosted input) ((List.range n).map fun _ => .input .deliver) = none) ∧
      run stepSession startSession (readSession ++ answerSession) = some b ∧ b.isOpen = false := by
  obtain ⟨input, hread⟩ := run_readSession
  obtain ⟨b, hrun, hended⟩ := run_session
  exact ⟨input, b, hread, (halts_closed chunking_session hread).1 (fun _ => .input .deliver) fun _ => rfl, hrun,
    (halts_closed chunking_session hrun).2 fun _ => hended.stuck⟩

end Runs

end Bridge

end DltxtBridge.Protocol
