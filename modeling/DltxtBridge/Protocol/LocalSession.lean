import DltxtBridge.Strings
import DltxtBridge.Library.Pool
import DltxtBridge.Library.TransitionSystem

/-! `LocalSession::write_framed`: any number of overlapping calls share one queue, and
one of them writes. An event runs one call up to its next suspension. -/

namespace DltxtBridge.Protocol

inductive WriteTarget
  | socket
  | stdioHandle
deriving DecidableEq

/-- Where a call stands: before `net::dispatch` is done, or with `rest` yet to be written. -/
inductive WriteCall
  | dispatching (framedMessage : Bytes)
  | writing (rest : Bytes)
deriving DecidableEq

def WriteCall.rest? : WriteCall → Option Bytes
  | dispatching _ => none
  | writing rest => some rest

/-- `enqueued` records every frame pushed on the queue. -/
structure LocalSession where
  writeTarget : WriteTarget
  isOpen : Bool := true
  writeQueue : List Bytes := []
  writeInProgress : Bool := false
  calls : List WriteCall := []
  wire : Bytes := []
  enqueued : List Bytes := []

namespace LocalSession

inductive Event
  | writeFramed (framedMessage : Bytes)
  | resume (index : ℕ)
  | transfer (index count : ℕ)
  | writeError (index : ℕ)
  | close

def unwritten (session : LocalSession) : List Bytes := session.calls.filterMap WriteCall.rest?

/-- `write_all` on a stdio handle keeps the thread. -/
def blocked (session : LocalSession) : Bool :=
  session.writeTarget = .stdioHandle && !session.unwritten.isEmpty

def writeNext (session : LocalSession) (index : ℕ) : LocalSession :=
  match session.writeQueue with
  | [] => { session with writeInProgress := false, calls := session.calls.eraseIdx index }
  | next :: queue => { session with writeQueue := queue, calls := session.calls.set index (.writing next) }

def enqueue (session : LocalSession) (index : ℕ) (framedMessage : Bytes) : LocalSession :=
  if !session.isOpen then { session with calls := session.calls.eraseIdx index }
  else
    let queued := { session with
      writeQueue := session.writeQueue ++ [framedMessage]
      enqueued := session.enqueued ++ [framedMessage] }
    if queued.writeInProgress then { queued with calls := queued.calls.eraseIdx index }
    else { queued with writeInProgress := true }.writeNext index

def step (session : LocalSession) : Event → Option LocalSession
  | .writeFramed framedMessage =>
    if session.blocked then none
    else some { session with calls := session.calls ++ [.dispatching framedMessage] }
  | .resume index =>
    match session.calls[index]? with
    | some (.dispatching framedMessage) =>
      if session.blocked then none else some (session.enqueue index framedMessage)
    | some (.writing []) => some (session.writeNext index)
    | _ => none
  | .transfer index count =>
    match session.calls[index]? with
    | some (.writing rest) =>
      if 0 < count ∧ count ≤ rest.length then
        some { session with
          wire := session.wire ++ rest.take count
          calls := session.calls.set index (.writing (rest.drop count)) }
      else none
    | _ => none
  | .writeError index =>
    match session.calls[index]? with
    | some (.writing _) =>
      some { session with writeInProgress := false, calls := session.calls.eraseIdx index }
    | _ => none
  | .close => if session.blocked then none else some { session with isOpen := false }

structure Orderly (session : LocalSession) : Prop where
  opened : session.isOpen
  frames : session.wire ++ session.unwritten.flatten ++ session.writeQueue.flatten =
    session.enqueued.flatten
  writer : session.unwritten.length = if session.writeInProgress then 1 else 0
  idle : ¬ session.writeInProgress → session.writeQueue = []

variable {session : LocalSession} {index : ℕ} {rest : Bytes}

lemma unwritten_split {call : WriteCall} (hcall : session.calls[index]? = some call) :
    ∃ earlier later, session.unwritten = earlier ++ call.rest?.toList ++ later ∧
      (session.calls.eraseIdx index).filterMap WriteCall.rest? = earlier ++ later ∧
      ∀ call', (session.calls.set index call').filterMap WriteCall.rest? =
        earlier ++ call'.rest?.toList ++ later := by
  obtain ⟨earlier, later, hcalls, herase, hset⟩ := Pool.split hcall
  have hfilter : ∀ call' : WriteCall, (earlier ++ call' :: later).filterMap WriteCall.rest? =
      earlier.filterMap WriteCall.rest? ++ call'.rest?.toList ++ later.filterMap WriteCall.rest? := by
    intro call'
    cases hrest : call'.rest? <;> simp [hrest]
  refine ⟨earlier.filterMap WriteCall.rest?, later.filterMap WriteCall.rest?, ?_, ?_, fun call' => ?_⟩
  · rw [unwritten, hcalls, hfilter]
  · rw [herase, List.filterMap_append]
  · rw [hset, hfilter]

lemma unwritten_of_writing (hwriter : session.unwritten.length ≤ 1)
    (hcall : session.calls[index]? = some (.writing rest)) :
    session.unwritten = [rest] ∧ (session.calls.eraseIdx index).filterMap WriteCall.rest? = [] ∧
      ∀ rest', (session.calls.set index (.writing rest')).filterMap WriteCall.rest? = [rest'] := by
  obtain ⟨earlier, later, hunwritten, herase, hset⟩ := unwritten_split hcall
  have hrest : (WriteCall.writing rest).rest?.toList = [rest] := rfl
  rw [hunwritten, hrest, List.length_append, List.length_append, List.length_singleton] at hwriter
  have hearlier : earlier = [] := List.eq_nil_of_length_eq_zero (by omega)
  have hlater : later = [] := List.eq_nil_of_length_eq_zero (by omega)
  subst hearlier hlater
  exact ⟨hunwritten, herase, fun rest' => hset (.writing rest')⟩

lemma Orderly.unwritten_eq (h : Orderly session) (hcall : session.calls[index]? = some (.writing rest)) :
    session.writeInProgress ∧ session.unwritten = [rest] ∧
      (session.calls.eraseIdx index).filterMap WriteCall.rest? = [] ∧
      ∀ rest', (session.calls.set index (.writing rest')).filterMap WriteCall.rest? = [rest'] := by
  have hwriter := h.writer
  have hone : session.unwritten.length ≤ 1 := by
    rw [hwriter]
    split_ifs <;> omega
  have hall := unwritten_of_writing hone hcall
  refine ⟨?_, hall⟩
  by_contra hidle
  rw [hall.1, if_neg hidle] at hwriter
  cases hwriter

lemma Orderly.transfer (h : Orderly session) (hcall : session.calls[index]? = some (.writing rest))
    (count : ℕ) :
    Orderly { session with
      wire := session.wire ++ rest.take count
      calls := session.calls.set index (.writing (rest.drop count)) } := by
  obtain ⟨hprogress, hunwritten, -, hset⟩ := h.unwritten_eq hcall
  have hframes := h.frames
  rw [hunwritten] at hframes
  refine ⟨h.opened, ?_, ?_, h.idle⟩
  · simp only [unwritten, hset]
    rw [← hframes]
    simp
  · simp only [unwritten, hset, hprogress]
    rfl

lemma Orderly.writeNext (h : Orderly session) (hcall : session.calls[index]? = some (.writing [])) :
    Orderly (session.writeNext index) := by
  obtain ⟨hprogress, hunwritten, herase, hset⟩ := h.unwritten_eq hcall
  have hframes := h.frames
  rw [hunwritten] at hframes
  simp only [LocalSession.writeNext]
  cases hqueue : session.writeQueue with
  | nil =>
    refine ⟨h.opened, ?_, ?_, fun _ => rfl⟩
    · simpa [unwritten, herase, hqueue] using hframes
    · simp [unwritten, herase]
  | cons next queue =>
    refine ⟨h.opened, ?_, ?_, fun hidle => absurd hprogress hidle⟩
    · simpa [unwritten, hset, hqueue] using hframes
    · simp [unwritten, hset, hprogress]

lemma enqueue_of_closed (hopen : ¬ session.isOpen) (framedMessage : Bytes) :
    session.enqueue index framedMessage = { session with calls := session.calls.eraseIdx index } := by
  simp [enqueue, hopen]

lemma enqueue_of_busy (hopen : session.isOpen) (hprogress : session.writeInProgress) (framedMessage : Bytes) :
    session.enqueue index framedMessage = { session with
      writeQueue := session.writeQueue ++ [framedMessage]
      enqueued := session.enqueued ++ [framedMessage]
      calls := session.calls.eraseIdx index } := by
  simp [enqueue, hopen, hprogress]

lemma enqueue_of_idle (hopen : session.isOpen) (hprogress : ¬ session.writeInProgress) (framedMessage : Bytes) :
    session.enqueue index framedMessage = { session with
      writeQueue := session.writeQueue ++ [framedMessage]
      writeInProgress := true
      enqueued := session.enqueued ++ [framedMessage] }.writeNext index := by
  simp [enqueue, hopen, hprogress]

lemma Orderly.enqueue (h : Orderly session) {framedMessage : Bytes}
    (hcall : session.calls[index]? = some (.dispatching framedMessage)) :
    Orderly (session.enqueue index framedMessage) := by
  obtain ⟨earlier, later, hunwritten, herase, hset⟩ := unwritten_split hcall
  have hskip : (WriteCall.dispatching framedMessage).rest?.toList = [] := rfl
  rw [hskip, List.append_nil] at hunwritten
  have hframes := h.frames
  have hwriter := h.writer
  by_cases hprogress : session.writeInProgress
  · have hsame : (session.calls.eraseIdx index).filterMap WriteCall.rest? = session.unwritten := by
      rw [herase, hunwritten]
    rw [enqueue_of_busy h.opened hprogress]
    refine ⟨h.opened, ?_, ?_, fun hidle => absurd hprogress hidle⟩
    · simp only [unwritten] at hsame ⊢
      simp only [hsame, List.flatten_concat, ← hframes, unwritten, List.append_assoc]
    · simp only [unwritten] at hsame hwriter ⊢
      rw [hsame, hwriter]
  · have hqueue := h.idle hprogress
    have henqueue : session.enqueue index framedMessage = { session with
        writeQueue := []
        writeInProgress := true
        enqueued := session.enqueued ++ [framedMessage]
        calls := session.calls.set index (.writing framedMessage) } := by
      rw [enqueue_of_idle h.opened hprogress, LocalSession.writeNext, hqueue]
      rfl
    rw [if_neg hprogress, List.length_eq_zero_iff] at hwriter
    rw [hwriter, hqueue] at hframes
    rw [hwriter] at hunwritten
    obtain ⟨hearlier, hlater⟩ := List.append_eq_nil_iff.mp hunwritten.symm
    have hone : (session.calls.set index (.writing framedMessage)).filterMap WriteCall.rest? =
        [framedMessage] := by
      rw [hset, hearlier, hlater]
      rfl
    rw [henqueue]
    refine ⟨h.opened, ?_, ?_, fun hidle => absurd rfl hidle⟩
    · simpa [unwritten, hone] using hframes
    · simp [unwritten, hone]

section Cases

variable {next : LocalSession} {framedMessage : Bytes} {count : ℕ}

lemma writeFramed_cases (hstep : session.step (.writeFramed framedMessage) = some next) :
    next = { session with calls := session.calls ++ [.dispatching framedMessage] } := by
  rw [LocalSession.step] at hstep
  split_ifs at hstep
  cases hstep
  rfl

lemma resume_cases (hstep : session.step (.resume index) = some next) :
    (∃ framedMessage, session.calls[index]? = some (.dispatching framedMessage) ∧
        next = session.enqueue index framedMessage) ∨
      session.calls[index]? = some (.writing []) ∧ next = session.writeNext index := by
  simp only [LocalSession.step] at hstep
  split at hstep
  · rename_i framedMessage hcall
    split_ifs at hstep
    cases hstep
    exact .inl ⟨framedMessage, hcall, rfl⟩
  · rename_i hcall
    cases hstep
    exact .inr ⟨hcall, rfl⟩
  · cases hstep

lemma transfer_cases (hstep : session.step (.transfer index count) = some next) :
    ∃ rest, session.calls[index]? = some (.writing rest) ∧
      next = { session with
        wire := session.wire ++ rest.take count
        calls := session.calls.set index (.writing (rest.drop count)) } := by
  simp only [LocalSession.step] at hstep
  split at hstep
  · rename_i rest hcall
    split_ifs at hstep
    cases hstep
    exact ⟨rest, hcall, rfl⟩
  · cases hstep

lemma writeError_cases (hstep : session.step (.writeError index) = some next) :
    ∃ rest, session.calls[index]? = some (.writing rest) ∧
      next = { session with writeInProgress := false, calls := session.calls.eraseIdx index } := by
  simp only [LocalSession.step] at hstep
  split at hstep
  · rename_i rest hcall
    cases hstep
    exact ⟨rest, hcall, rfl⟩
  · cases hstep

lemma unwritten_concat (calls : List WriteCall) (framedMessage : Bytes) :
    (calls ++ [WriteCall.dispatching framedMessage]).filterMap WriteCall.rest? =
      calls.filterMap WriteCall.rest? := by
  simp [WriteCall.rest?]

end Cases

def Event.undisturbed : Event → Bool
  | .writeError _ => false
  | .close => false
  | _ => true

lemma Orderly.step (h : Orderly session) {e : Event} {next : LocalSession} (he : e.undisturbed)
    (hstep : session.step e = some next) : Orderly next := by
  cases e with
  | writeFramed framedMessage =>
    rw [writeFramed_cases hstep]
    have hsame := unwritten_concat session.calls framedMessage
    exact ⟨h.opened, by simpa only [unwritten, hsame] using h.frames,
      by simpa only [unwritten, hsame] using h.writer, h.idle⟩
  | resume index =>
    rcases resume_cases hstep with ⟨framedMessage, hcall, rfl⟩ | ⟨hcall, rfl⟩
    · exact h.enqueue hcall
    · exact h.writeNext hcall
  | transfer index count =>
    obtain ⟨rest, hcall, rfl⟩ := transfer_cases hstep
    exact h.transfer hcall count
  | writeError index => cases he
  | close => cases he

def drained : LocalSession := { writeTarget := .socket, wire := [1, 2, 3], enqueued := [[1, 2], [3]] }

end LocalSession

end DltxtBridge.Protocol
