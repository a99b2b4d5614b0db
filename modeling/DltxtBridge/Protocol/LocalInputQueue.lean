import DltxtBridge.Library.TransitionSystem
import DltxtBridge.Strings
import Mathlib.Data.List.TakeWhile

/-! `LocalInputQueue`: messages for one consumer, which is woken by cancelling the timer it waits
on. A cancellation without a wait is lost. -/

namespace DltxtBridge.Protocol

/-- The wait of the consumer on the timer: not begun, begun, or completed with its handler posted. -/
inductive SignalWait
  | none
  | outstanding
  | completed
deriving DecidableEq

/-- `cancel` and, with one consumer, `cancel_one`. -/
def SignalWait.cancel : SignalWait → SignalWait
  | outstanding => completed
  | wait => wait

inductive PopResult (E : Type)
  | message (message : Bytes)
  | failed (error : E)
  | endOfInput

def PopResult.message? {E : Type} : PopResult E → Option Bytes
  | .message text => some text
  | _ => none

def PopResult.ofError {E : Type} : Option E → PopResult E
  | some error => .failed error
  | none => .endOfInput

structure LocalInputQueue (E : Type) where
  signal : SignalWait := .none
  messages : List Bytes := []
  error : Option E := none
  closed : Bool := false

namespace LocalInputQueue

variable {E : Type}

def push (queue : LocalInputQueue E) (message : Bytes) : LocalInputQueue E :=
  if queue.closed then queue
  else { queue with messages := queue.messages ++ [message], signal := queue.signal.cancel }

def close (queue : LocalInputQueue E) : LocalInputQueue E :=
  if queue.closed then queue else { queue with closed := true, signal := queue.signal.cancel }

def fail (queue : LocalInputQueue E) (error : E) : LocalInputQueue E :=
  { queue with error := some error, closed := true, signal := queue.signal.cancel }

/-- A round of the loop in `wait_and_pop`; without a result the consumer waits. -/
def popRound (queue : LocalInputQueue E) : Option (PopResult E) × LocalInputQueue E :=
  match queue.messages with
  | message :: messages => (some (.message message), { queue with messages := messages, signal := .none })
  | [] =>
    match queue.error with
    | some error => (some (.failed error), { queue with signal := .none })
    | none =>
      if queue.closed then (some .endOfInput, { queue with signal := .none })
      else (none, { queue with signal := .outstanding })

inductive Event (E : Type)
  | push (message : Bytes)
  | close
  | fail (error : E)
  | waitAndPop
  | resume
  | expire

structure Run (E : Type) where
  queue : LocalInputQueue E := {}
  results : List (PopResult E) := []

namespace Run

def popRound (run : Run E) : Run E where
  queue := run.queue.popRound.2
  results := run.results ++ run.queue.popRound.1.toList

def step (run : Run E) : Event E → Option (Run E)
  | .push message => some { run with queue := run.queue.push message }
  | .close => some { run with queue := run.queue.close }
  | .fail error => some { run with queue := run.queue.fail error }
  | .waitAndPop => if run.queue.signal = .none then some run.popRound else none
  | .resume => if run.queue.signal = .completed then some run.popRound else none
  | .expire =>
    if run.queue.signal = .outstanding then some { run with queue := { run.queue with signal := .completed } }
    else none

end Run

def Event.endsInput : Event E → Bool
  | .close => true
  | .fail _ => true
  | _ => false

def Event.pushed : Event E → Option Bytes
  | .push message => some message
  | _ => none

def Event.failure : Event E → Option E
  | .fail error => some error
  | _ => none

def acceptedMessages (events : List (Event E)) : List Bytes :=
  (events.takeWhile fun event => !event.endsInput).filterMap Event.pushed

def poppedMessages (results : List (PopResult E)) : List Bytes := results.filterMap PopResult.message?

def lastFailure (events : List (Event E)) : Option E := (events.filterMap Event.failure).getLast?

section Invariant

variable {past : List (Event E)} {run next : Run E} {queue : LocalInputQueue E}

structure Kept (past : List (Event E)) (run : Run E) : Prop where
  order : poppedMessages run.results ++ run.queue.messages = acceptedMessages past
  closed_iff : run.queue.closed ↔ ∃ event ∈ past, event.endsInput
  error_eq : run.queue.error = lastFailure past
  error_closed : run.queue.error ≠ none → run.queue.closed
  reported : ∀ earlier result later, run.results = earlier ++ result :: later → result.message? = none →
    run.queue.closed ∧ poppedMessages earlier = acceptedMessages past
  idle : run.queue.signal = .outstanding → run.queue.messages = [] ∧ run.queue.closed = false

lemma acceptedMessages_concat_of_ended (h : ∃ event ∈ past, event.endsInput) (later : Event E) :
    acceptedMessages (past ++ [later]) = acceptedMessages past := by
  induction past with
  | nil =>
    obtain ⟨event, hmem, -⟩ := h
    cases hmem
  | cons event past ih =>
    simp only [acceptedMessages, List.cons_append, List.takeWhile_cons] at ih ⊢
    cases hends : event.endsInput with
    | true => rfl
    | false =>
      obtain ⟨ending, hmem, hending⟩ := h
      rcases List.mem_cons.mp hmem with rfl | hmem
      · rw [hends] at hending
        cases hending
      · simp only [Bool.not_false, if_true, List.filterMap_cons, ih ⟨ending, hmem, hending⟩]

lemma acceptedMessages_concat_of_open (h : ¬ ∃ event ∈ past, event.endsInput) (later : Event E) :
    acceptedMessages (past ++ [later]) = acceptedMessages past ++ later.pushed.toList := by
  have hopen : ∀ event ∈ past, (!event.endsInput) = true := by
    intro event hmem
    rw [Bool.not_eq_true']
    by_contra hends
    exact h ⟨event, hmem, by rwa [Bool.not_eq_false] at hends⟩
  have hself : past.takeWhile (fun event => !event.endsInput) = past := List.takeWhile_eq_self_iff.mpr hopen
  rw [acceptedMessages, acceptedMessages, List.takeWhile_append_of_pos hopen, List.filterMap_append, hself]
  cases later <;> rfl

lemma acceptedMessages_concat_of_pushed {later : Event E} (hpushed : later.pushed = none) :
    acceptedMessages (past ++ [later]) = acceptedMessages past := by
  by_cases hended : ∃ event ∈ past, event.endsInput
  · exact acceptedMessages_concat_of_ended hended later
  · rw [acceptedMessages_concat_of_open hended, hpushed]
    exact List.append_nil _

lemma lastFailure_concat_of_failure {later : Event E} (hfailure : later.failure = none) :
    lastFailure (past ++ [later]) = lastFailure past := by
  rw [lastFailure, List.filterMap_append, List.filterMap_cons_none hfailure, List.filterMap_nil, List.append_nil]
  rfl

lemma lastFailure_concat_fail (error : E) : lastFailure (past ++ [.fail error]) = some error := by
  rw [lastFailure, List.filterMap_append]
  exact List.getLast?_concat

lemma failure_of_not_ends {event : Event E} (hends : event.endsInput = false) : event.failure = none := by
  cases event with
  | fail error => cases hends
  | push message | close | waitAndPop | resume | expire => rfl

lemma exists_ends_concat_iff (later : Event E) :
    (∃ event ∈ past ++ [later], event.endsInput) ↔ (∃ event ∈ past, event.endsInput) ∨ later.endsInput := by
  simp only [List.mem_append, List.mem_singleton, or_and_right, exists_or, exists_eq_left]

lemma kept_start : Kept [] ({} : Run E) where
  order := rfl
  closed_iff := by simp
  error_eq := rfl
  error_closed := fun h => absurd rfl h
  reported earlier result later h := by
    rw [List.nil_eq, List.append_eq_nil_iff] at h
    cases h.2
  idle := nofun

lemma cancel_ne_outstanding (wait : SignalWait) : wait.cancel ≠ .outstanding := by
  cases wait <;> exact nofun

lemma Kept.quiet (h : Kept past run) {event : Event E} (hpushed : event.pushed = none)
    (hends : event.endsInput = false) : Kept (past ++ [event]) run := by
  have haccepted := @acceptedMessages_concat_of_pushed _ past event hpushed
  have hfailure := @lastFailure_concat_of_failure _ past event (failure_of_not_ends hends)
  refine ⟨haccepted ▸ h.order, ?_, h.error_eq.trans hfailure.symm, h.error_closed, haccepted ▸ h.reported, h.idle⟩
  rw [exists_ends_concat_iff, hends, h.closed_iff]
  simp

lemma Kept.of_closed (h : Kept past run) (hclosed : run.queue.closed = true) {event : Event E}
    (hfailure : event.failure = none) : Kept (past ++ [event]) run := by
  have hended := h.closed_iff.mp hclosed
  have haccepted := acceptedMessages_concat_of_ended hended event
  have herror := h.error_eq.trans (lastFailure_concat_of_failure hfailure).symm
  refine ⟨haccepted ▸ h.order, ?_, herror, h.error_closed, haccepted ▸ h.reported, h.idle⟩
  exact iff_of_true hclosed ((exists_ends_concat_iff event).mpr (.inl hended))

lemma Kept.push (h : Kept past run) (message : Bytes) :
    Kept (past ++ [.push message]) { run with queue := run.queue.push message } := by
  rw [LocalInputQueue.push]
  split_ifs with hclosed
  · exact h.of_closed hclosed rfl
  · have hopen := mt h.closed_iff.mpr hclosed
    have haccepted := acceptedMessages_concat_of_open hopen (.push message)
    have herror := h.error_eq.trans (@lastFailure_concat_of_failure _ past (.push message) rfl).symm
    refine ⟨?_, ?_, herror, h.error_closed, ?_, fun hsignal => absurd hsignal (cancel_ne_outstanding _)⟩
    · rw [haccepted, ← h.order]
      exact (List.append_assoc _ _ _).symm
    · rw [exists_ends_concat_iff, h.closed_iff]
      simp [Event.endsInput]
    · intro earlier result later hresults hreport
      exact absurd (h.reported earlier result later hresults hreport).1 hclosed

lemma Kept.ending (h : Kept past run) {event : Event E} (hpushed : event.pushed = none)
    (hends : event.endsInput = true) {error : Option E} (herror : error = lastFailure (past ++ [event])) :
    Kept (past ++ [event])
      { run with queue := { run.queue with error := error, closed := true, signal := run.queue.signal.cancel } } := by
  have haccepted := @acceptedMessages_concat_of_pushed _ past event hpushed
  refine ⟨haccepted ▸ h.order, ?_, herror, fun _ => rfl, ?_, fun hsignal => absurd hsignal (cancel_ne_outstanding _)⟩
  · exact iff_of_true rfl ((exists_ends_concat_iff event).mpr (.inr hends))
  · intro earlier result later hresults hreport
    exact ⟨rfl, haccepted ▸ (h.reported earlier result later hresults hreport).2⟩

lemma Kept.expire (h : Kept past run) :
    Kept past { run with queue := { run.queue with signal := .completed } } :=
  ⟨h.order, h.closed_iff, h.error_eq, h.error_closed, h.reported, nofun⟩

lemma concat_eq_append_cons {α : Type} {xs earlier later : List α} {x y : α}
    (h : xs ++ [x] = earlier ++ y :: later) :
    (xs = earlier ∧ x = y) ∨ ∃ rest, xs = earlier ++ y :: rest := by
  rcases List.eq_nil_or_concat' later with rfl | ⟨rest, last, rfl⟩
  · obtain ⟨hxs, hx⟩ := List.append_inj' h rfl
    exact .inl ⟨hxs, List.singleton_injective hx⟩
  · rw [← List.cons_append, ← List.append_assoc] at h
    exact .inr ⟨rest, (List.append_inj' h rfl).1⟩

lemma poppedMessages_concat (results : List (PopResult E)) (result : PopResult E) :
    poppedMessages (results ++ [result]) = poppedMessages results ++ result.message?.toList := by
  rw [poppedMessages, List.filterMap_append]
  cases result <;> rfl

lemma Kept.pop (h : Kept past run) {message : Bytes} {messages : List Bytes}
    (hmessages : run.queue.messages = message :: messages) :
    Kept past
      { queue := { run.queue with messages := messages, signal := .none }
        results := run.results ++ [.message message] } := by
  refine ⟨?_, h.closed_iff, h.error_eq, h.error_closed, ?_, nofun⟩
  · rw [← h.order, hmessages, poppedMessages_concat, List.append_assoc]
    rfl
  · intro earlier result later hresults hreport
    rcases concat_eq_append_cons hresults with ⟨-, rfl⟩ | ⟨rest, hrest⟩
    · cases hreport
    · exact h.reported earlier result rest hrest hreport

lemma Kept.report (h : Kept past run) (hmessages : run.queue.messages = []) (hclosed : run.queue.closed = true)
    {result : PopResult E} (hresult : result.message? = none) :
    Kept past { queue := { run.queue with signal := .none }, results := run.results ++ [result] } := by
  have horder := h.order
  rw [hmessages, List.append_nil] at horder
  refine ⟨?_, h.closed_iff, h.error_eq, h.error_closed, ?_, nofun⟩
  · rw [poppedMessages_concat, hresult, ← h.order]
    simp
  · intro earlier reported later hresults hreport
    rcases concat_eq_append_cons hresults with ⟨rfl, -⟩ | ⟨rest, hrest⟩
    · exact ⟨hclosed, horder⟩
    · exact h.reported earlier reported rest hrest hreport

lemma Kept.wait (h : Kept past run) (hmessages : run.queue.messages = []) (hclosed : run.queue.closed = false) :
    Kept past { run with queue := { run.queue with signal := .outstanding } } :=
  ⟨h.order, h.closed_iff, h.error_eq, h.error_closed, h.reported, fun _ => ⟨hmessages, hclosed⟩⟩

lemma Kept.popRound (h : Kept past run) : Kept past run.popRound := by
  obtain ⟨⟨signal, messages, error, closed⟩, results⟩ := run
  cases messages with
  | cons message messages => exact h.pop rfl
  | nil =>
    cases error with
    | some error =>
      obtain rfl : closed = true := h.error_closed (Option.some_ne_none error)
      exact @Kept.report _ _ _ h rfl rfl (.failed error) rfl
    | none =>
      cases closed with
      | true => exact @Kept.report _ _ _ h rfl rfl .endOfInput rfl
      | false =>
        have hwait := h.wait rfl rfl
        rwa [← List.append_nil results] at hwait

lemma kept_step (past : List (Event E)) (run : Run E) (event : Event E) (next : Run E) (h : Kept past run)
    (hstep : run.step event = some next) : Kept (past ++ [event]) next := by
  cases event with
  | push message =>
    cases hstep
    exact h.push message
  | close =>
    cases hstep
    rw [LocalInputQueue.close]
    split_ifs with hclosed
    · exact h.of_closed hclosed rfl
    · exact h.ending rfl rfl (h.error_eq.trans (lastFailure_concat_of_failure rfl).symm)
  | fail error =>
    cases hstep
    exact h.ending rfl rfl (lastFailure_concat_fail error).symm
  | waitAndPop =>
    rw [Run.step, Option.ite_none_right_eq_some] at hstep
    obtain ⟨-, heq⟩ := hstep
    cases heq
    exact h.popRound.quiet rfl rfl
  | resume =>
    rw [Run.step, Option.ite_none_right_eq_some] at hstep
    obtain ⟨-, heq⟩ := hstep
    cases heq
    exact h.popRound.quiet rfl rfl
  | expire =>
    rw [Run.step, Option.ite_none_right_eq_some] at hstep
    obtain ⟨-, heq⟩ := hstep
    cases heq
    exact h.expire.quiet rfl rfl

lemma kept_run {events : List (Event E)} (hrun : TransitionSystem.run Run.step {} events = some run) :
    Kept events run :=
  TransitionSystem.history_invariant (P := fun _ _ => True)
    (fun past s e t h _ => kept_step past s e t h) kept_start
    (TransitionSystem.along_of_forall (Q := fun _ => True) (fun _ _ => trivial) _) hrun

end Invariant

lemma results_popRound (run : Run E) :
    (∃ result, run.popRound.results = run.results ++ [result] ∧ run.popRound.queue.signal = .none ∧
      (result.message? = none → result = .ofError run.queue.error)) ∨
      run.popRound.results = run.results ∧ run.popRound.queue.signal = .outstanding := by
  obtain ⟨⟨signal, messages, error, closed⟩, results⟩ := run
  cases messages with
  | cons message messages => exact .inl ⟨.message message, rfl, rfl, nofun⟩
  | nil =>
    cases error with
    | some error => exact .inl ⟨.failed error, rfl, rfl, fun _ => rfl⟩
    | none =>
      cases closed with
      | true => exact .inl ⟨.endOfInput, rfl, rfl, fun _ => rfl⟩
      | false => exact .inr ⟨List.append_nil results, rfl⟩

theorem wait_and_pop_loses_nothing {E : Type} {events : List (Event E)} {run : Run E}
    (hrun : TransitionSystem.run Run.step {} events = some run) :
    poppedMessages run.results ++ run.queue.messages = acceptedMessages events ∧
    (∀ earlier result later, run.results = earlier ++ result :: later → result.message? = none →
      poppedMessages earlier = acceptedMessages events) ∧
    (run.queue.signal = .outstanding →
      run.queue.messages = [] ∧ run.queue.closed = false ∧ run.queue.error = none) ∧
    (∀ event, event = .waitAndPop ∨ event = .resume → ∀ next, run.step event = some next →
      (∃ result, next.results = run.results ++ [result] ∧ next.queue.signal = .none ∧
        (result.message? = none → result = .ofError (lastFailure events))) ∨
        next.results = run.results ∧ next.queue.signal = .outstanding) := by
  have h := kept_run hrun
  refine ⟨h.order, fun earlier result later hresults hreport => (h.reported _ _ _ hresults hreport).2, ?_, ?_⟩
  · intro hsignal
    obtain ⟨hmessages, hopen⟩ := h.idle hsignal
    refine ⟨hmessages, hopen, ?_⟩
    by_contra herror
    rw [h.error_closed herror] at hopen
    cases hopen
  · rintro event (rfl | rfl) next hstep
    all_goals
      rw [Run.step, Option.ite_none_right_eq_some] at hstep
      obtain ⟨-, heq⟩ := hstep
      cases heq
      exact h.error_eq ▸ results_popRound run

def closedWhileWaiting : List (Event Unit) :=
  [.push [65], .waitAndPop, .waitAndPop, .push [66], .close, .resume, .push [67], .waitAndPop]

theorem wait_and_pop_loses_nothing_closed_while_waiting :
    ∃ run, TransitionSystem.run Run.step {} closedWhileWaiting = some run ∧
      run.results = [.message [65], .message [66], .endOfInput] ∧
      poppedMessages run.results ++ run.queue.messages = [[65], [66]] ∧
      acceptedMessages closedWhileWaiting = [[65], [66]] := by
  have hrun : (TransitionSystem.run Run.step {} closedWhileWaiting).map Run.results =
      some [.message [65], .message [66], .endOfInput] := rfl
  obtain ⟨run, hrun, hresults⟩ := Option.map_eq_some_iff.mp hrun
  exact ⟨run, hrun, hresults, (wait_and_pop_loses_nothing hrun).1, rfl⟩

end LocalInputQueue

end DltxtBridge.Protocol
