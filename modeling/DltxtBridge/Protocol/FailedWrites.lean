import DltxtBridge.Protocol.LocalSession

namespace DltxtBridge.Protocol.LocalSession

open TransitionSystem

def taken (session : LocalSession) : List Bytes :=
  session.enqueued.take (session.enqueued.length - session.writeQueue.length)

def failsMidway (session : LocalSession) : Event → Bool
  | .writeError index =>
    match session.calls[index]? with
    | some (.writing rest) => !rest.isEmpty && session.taken.getLast? != some rest
    | _ => false
  | _ => false

/-- `torn` once a write has failed midway. -/
structure WriteRun where
  session : LocalSession
  torn : Bool := false

def WriteRun.step (r : WriteRun) (e : Event) : Option WriteRun :=
  (r.session.step e).map fun next => { session := next, torn := r.torn || r.session.failsMidway e }

def WriteRun.start (target : WriteTarget) : WriteRun := { session := { writeTarget := target } }

def Framed (session : LocalSession) : Prop :=
  ∃ frames part, session.wire = List.flatten frames ++ part ∧
    (part = [] ∧ frames.Sublist session.enqueued ∨
      ∃ frame, part <+: frame ∧ (frames ++ [frame]).Sublist session.enqueued)

/-- After a write has failed midway, no call goes on to an open session. -/
def Withheld (r : WriteRun) (e : Event) : Prop :=
  r.torn → r.session.isOpen → ∀ index framedMessage, e = .resume index →
    r.session.calls[index]? ≠ some (.dispatching framedMessage)

inductive Wired (taken : List Bytes) (wire : Bytes) : Bool → List Bytes → Prop
  | idle (frames : List Bytes) (hframes : frames.Sublist taken) (hwire : wire = frames.flatten) :
      Wired taken wire false []
  | writing (earlier frames : List Bytes) (part rest : Bytes) (htaken : taken = earlier ++ [part ++ rest])
      (hframes : frames.Sublist earlier) (hwire : wire = frames.flatten ++ part) : Wired taken wire false [rest]
  | torn (frames : List Bytes) (part frame : Bytes) (hpart : part <+: frame)
      (hframes : (frames ++ [frame]).Sublist taken) (hwire : wire = frames.flatten ++ part) :
      Wired taken wire true []

structure Tracked (r : WriteRun) : Prop where
  frames : r.session.taken ++ r.session.writeQueue = r.session.enqueued
  writer : r.session.writeInProgress = !r.session.unwritten.isEmpty
  wired : Wired r.session.taken r.session.wire r.torn r.session.unwritten

variable {r next : WriteRun} {session : LocalSession} {index : ℕ} {rest wire : Bytes} {frames : List Bytes}
  {torn : Bool}

lemma taken_eq (h : frames ++ session.writeQueue = session.enqueued) : session.taken = frames := by
  rw [taken, ← h, List.length_append, Nat.add_sub_cancel, List.take_left]

lemma tracked_of (hframes : frames ++ session.writeQueue = session.enqueued)
    (hwriter : session.writeInProgress = !session.unwritten.isEmpty)
    (hwired : Wired frames session.wire torn session.unwritten) :
    Tracked { session := session, torn := torn } := by
  have htaken := taken_eq hframes
  refine ⟨?_, hwriter, ?_⟩
  · rw [htaken]
    exact hframes
  · rw [htaken]
    exact hwired

lemma tracked_start (target : WriteTarget) : Tracked (.start target) :=
  tracked_of (List.nil_append []) rfl (.idle [] (List.Sublist.refl _) rfl)

lemma Wired.ended {taken : List Bytes} (h : Wired taken wire torn [[]]) : Wired taken wire torn [] := by
  cases h with
  | writing earlier frames part rest htaken hframes hwire =>
    refine .idle (frames ++ [part]) ?_ ?_
    · rw [htaken, List.append_nil]
      exact hframes.append_right [part]
    · rw [List.flatten_concat, hwire]

lemma Wired.began {taken : List Bytes} (h : Wired taken wire false []) (frame : Bytes) :
    Wired (taken ++ [frame]) wire false [frame] := by
  cases h with
  | idle frames hframes hwire =>
    refine .writing taken frames [] frame rfl hframes ?_
    rw [List.append_nil, hwire]

lemma Wired.transferred {taken : List Bytes} (h : Wired taken wire torn [rest]) (count : ℕ) :
    Wired taken (wire ++ rest.take count) torn [rest.drop count] := by
  cases h with
  | writing earlier frames part rest htaken hframes hwire =>
    refine .writing earlier frames (part ++ rest.take count) (rest.drop count) ?_ hframes ?_
    · rw [List.append_assoc, List.take_append_drop, htaken]
    · rw [hwire, List.append_assoc]

lemma Wired.failed {taken : List Bytes} (h : Wired taken wire torn [rest]) :
    Wired taken wire (torn || (!rest.isEmpty && taken.getLast? != some rest)) [] := by
  cases h with
  | writing earlier frames part rest htaken hframes hwire =>
    rw [Bool.false_or, htaken, List.getLast?_concat]
    by_cases hrest : rest = []
    · subst hrest
      rw [List.isEmpty_nil, Bool.not_true, Bool.false_and]
      exact Wired.ended (.writing earlier frames part [] rfl hframes hwire)
    · by_cases hpart : part = []
      · subst hpart
        rw [List.nil_append, bne_self_eq_false, Bool.and_false]
        refine .idle frames (hframes.trans (List.sublist_append_left _ _)) ?_
        rw [hwire, List.append_nil]
      · have hne : (!rest.isEmpty && some (part ++ rest) != some rest) = true := by
          rw [Bool.and_eq_true]
          refine ⟨?_, ?_⟩
          · simpa using hrest
          · simpa using hpart
        rw [hne]
        exact .torn frames part (part ++ rest) (List.prefix_append _ _) (hframes.append_right _) hwire

lemma Wired.framed {taken : List Bytes} {unwritten : List Bytes} (h : Wired taken session.wire torn unwritten)
    (htaken : taken <+: session.enqueued) : Framed session := by
  cases h with
  | idle frames hframes hwire =>
    refine ⟨frames, [], ?_, .inl ⟨rfl, hframes.trans htaken.sublist⟩⟩
    rw [hwire, List.append_nil]
  | writing earlier frames part rest htaken' hframes hwire =>
    refine ⟨frames, part, hwire, .inr ⟨part ++ rest, List.prefix_append _ _, ?_⟩⟩
    rw [htaken'] at htaken
    exact (hframes.append_right _).trans htaken.sublist
  | torn frames part frame hpart hframes hwire =>
    exact ⟨frames, part, hwire, .inr ⟨frame, hpart, hframes.trans htaken.sublist⟩⟩

lemma Tracked.framed (h : Tracked r) : Framed r.session :=
  h.wired.framed ⟨r.session.writeQueue, h.frames⟩

lemma Wired.length_le {taken unwritten : List Bytes} (h : Wired taken wire torn unwritten) :
    unwritten.length ≤ 1 := by
  cases h with
  | idle => exact Nat.zero_le 1
  | writing => exact le_rfl
  | torn => exact Nat.zero_le 1

lemma Wired.not_torn {taken : List Bytes} (h : Wired taken wire torn [rest]) : torn = false := by
  cases h
  rfl

lemma tracked_writeNext (hframes : frames ++ session.writeQueue = session.enqueued)
    (hwired : Wired frames session.wire false [])
    (herase : (session.calls.eraseIdx index).filterMap WriteCall.rest? = [])
    (hset : ∀ rest, (session.calls.set index (.writing rest)).filterMap WriteCall.rest? = [rest])
    (hprogress : session.writeInProgress = true) :
    Tracked { session := session.writeNext index, torn := false } := by
  rw [LocalSession.writeNext]
  cases hqueue : session.writeQueue with
  | nil =>
    rw [hqueue] at hframes
    refine @tracked_of _ frames _ ?_ ?_ ?_
    · rw [← hframes]
    · rw [unwritten, herase]
      rfl
    · rw [unwritten, herase]
      exact hwired
  | cons next queue =>
    rw [hqueue] at hframes
    refine @tracked_of _ (frames ++ [next]) _ ?_ ?_ ?_
    · rw [← hframes, List.append_assoc, List.singleton_append]
    · rw [unwritten, hset, hprogress]
      rfl
    · rw [unwritten, hset]
      exact hwired.began next

lemma Tracked.enqueue (h : Tracked r) (hopen : r.session.isOpen → r.torn = false) {framedMessage : Bytes}
    (hcall : r.session.calls[index]? = some (.dispatching framedMessage)) :
    Tracked { r with session := r.session.enqueue index framedMessage } := by
  obtain ⟨earlier, later, hunwritten, herase, hset⟩ := unwritten_split hcall
  have hskip : (WriteCall.dispatching framedMessage).rest?.toList = [] := rfl
  rw [hskip, List.append_nil] at hunwritten
  rw [← hunwritten] at herase
  by_cases hopened : r.session.isOpen
  swap
  · rw [enqueue_of_closed hopened]
    refine tracked_of h.frames ?_ ?_
    · rw [unwritten, herase]
      exact h.writer
    · rw [unwritten, herase]
      exact h.wired
  have hframes : r.session.taken ++ (r.session.writeQueue ++ [framedMessage]) =
      r.session.enqueued ++ [framedMessage] := by
    rw [← List.append_assoc, h.frames]
  by_cases hprogress : r.session.writeInProgress
  · rw [enqueue_of_busy hopened hprogress]
    refine tracked_of hframes ?_ ?_
    · rw [unwritten, herase]
      exact h.writer
    · rw [unwritten, herase]
      exact h.wired
  · have hidle : r.session.unwritten = [] := by
      have hwriter := h.writer
      rw [Bool.not_eq_true] at hprogress
      rw [hprogress, Eq.comm, Bool.not_eq_false', List.isEmpty_iff] at hwriter
      exact hwriter
    have hwired := h.wired
    rw [hidle, hopen hopened] at hwired
    obtain ⟨rfl, rfl⟩ := List.append_eq_nil_iff.mp (hunwritten.symm.trans hidle)
    rw [enqueue_of_idle hopened hprogress, hopen hopened]
    exact tracked_writeNext hframes hwired (herase.trans hidle) (fun rest => hset (.writing rest)) rfl

lemma torn_of_no_error {e : Event} (he : ∀ index, e ≠ .writeError index) :
    (r.torn || r.session.failsMidway e) = r.torn := by
  cases e with
  | writeError index => exact absurd rfl (he index)
  | writeFramed => exact Bool.or_false _
  | resume => exact Bool.or_false _
  | transfer => exact Bool.or_false _
  | close => exact Bool.or_false _

lemma Tracked.writing (h : Tracked r) (hcall : r.session.calls[index]? = some (.writing rest)) :
    r.torn = false ∧ r.session.writeInProgress = true ∧ Wired r.session.taken r.session.wire r.torn [rest] ∧
      (r.session.calls.eraseIdx index).filterMap WriteCall.rest? = [] ∧
      ∀ rest', (r.session.calls.set index (.writing rest')).filterMap WriteCall.rest? = [rest'] := by
  obtain ⟨hunwritten, herase, hset⟩ := unwritten_of_writing h.wired.length_le hcall
  have hwired := h.wired
  have hwriter := h.writer
  rw [hunwritten] at hwired hwriter
  exact ⟨hwired.not_torn, hwriter, hwired, herase, hset⟩

lemma Tracked.step {e : Event} (h : Tracked r) (hwithheld : Withheld r e) (hstep : r.step e = some next) :
    Tracked next := by
  obtain ⟨session, hsession, rfl⟩ := Option.map_eq_some_iff.mp hstep
  cases e with
  | writeFramed framedMessage =>
    rw [writeFramed_cases hsession, torn_of_no_error (e := .writeFramed framedMessage) (by simp)]
    refine tracked_of h.frames ?_ ?_
    · rw [unwritten, unwritten_concat]
      exact h.writer
    · rw [unwritten, unwritten_concat]
      exact h.wired
  | resume index =>
    rw [torn_of_no_error (e := .resume index) (by simp)]
    rcases resume_cases hsession with ⟨framedMessage, hcall, rfl⟩ | ⟨hcall, rfl⟩
    · refine h.enqueue (fun hopen => ?_) hcall
      by_contra htorn
      rw [Bool.not_eq_false] at htorn
      exact hwithheld htorn hopen index framedMessage rfl hcall
    · obtain ⟨htorn, hprogress, hwired, herase, hset⟩ := h.writing hcall
      rw [htorn] at hwired ⊢
      exact tracked_writeNext h.frames hwired.ended herase hset hprogress
  | transfer index count =>
    obtain ⟨rest, hcall, rfl⟩ := transfer_cases hsession
    obtain ⟨-, hprogress, hwired, -, hset⟩ := h.writing hcall
    rw [torn_of_no_error (e := .transfer index count) (by simp)]
    refine tracked_of h.frames ?_ ?_
    · rw [unwritten, hset]
      exact hprogress
    · rw [unwritten, hset]
      exact hwired.transferred count
  | writeError index =>
    obtain ⟨rest, hcall, rfl⟩ := writeError_cases hsession
    obtain ⟨-, -, hwired, herase, -⟩ := h.writing hcall
    have hfails : r.session.failsMidway (.writeError index) =
        (!rest.isEmpty && r.session.taken.getLast? != some rest) := by
      rw [failsMidway, hcall]
    rw [hfails]
    refine tracked_of h.frames ?_ ?_
    · rw [unwritten, herase]
      rfl
    · rw [unwritten, herase]
      exact hwired.failed
  | close =>
    rw [LocalSession.step] at hsession
    split_ifs at hsession
    cases hsession
    rw [torn_of_no_error (e := .close) (by simp)]
    exact tracked_of h.frames h.writer h.wired

lemma wire_writeNext (session : LocalSession) (index : ℕ) : (session.writeNext index).wire = session.wire := by
  rw [LocalSession.writeNext]
  cases session.writeQueue with
  | nil => rfl
  | cons => rfl

lemma wire_enqueue (session : LocalSession) (index : ℕ) (framedMessage : Bytes) :
    (session.enqueue index framedMessage).wire = session.wire := by
  by_cases hopen : session.isOpen
  swap
  · rw [enqueue_of_closed hopen]
  by_cases hprogress : session.writeInProgress
  · rw [enqueue_of_busy hopen hprogress]
  · rw [enqueue_of_idle hopen hprogress, wire_writeNext]

lemma Tracked.wire_of_torn {e : Event} (h : Tracked r) (htorn : r.torn) (hstep : r.step e = some next) :
    next.torn ∧ next.session.wire = r.session.wire := by
  obtain ⟨session, hsession, rfl⟩ := Option.map_eq_some_iff.mp hstep
  refine ⟨by rw [htorn, Bool.true_or], ?_⟩
  cases e with
  | writeFramed framedMessage => rw [writeFramed_cases hsession]
  | resume index =>
    rcases resume_cases hsession with ⟨framedMessage, -, rfl⟩ | ⟨-, rfl⟩
    · exact wire_enqueue r.session index framedMessage
    · exact wire_writeNext r.session index
  | transfer index count =>
    obtain ⟨rest, hcall, -⟩ := transfer_cases hsession
    have hwhole := (h.writing hcall).1
    rw [htorn] at hwhole
    cases hwhole
  | writeError index =>
    obtain ⟨rest, -, rfl⟩ := writeError_cases hsession
    rfl
  | close =>
    rw [LocalSession.step] at hsession
    split_ifs at hsession
    cases hsession
    rfl

lemma run_tracked {events : List Event} (h : Tracked r) (hwithheld : Along WriteRun.step Withheld r events)
    (hrun : run WriteRun.step r events = some next) : Tracked next :=
  invariant_along (fun _ _ _ hr he hstep => Tracked.step hr he hstep) h hwithheld hrun

lemma run_wire {events : List Event} (h : Tracked r) (htorn : r.torn)
    (hwithheld : Along WriteRun.step Withheld r events) (hrun : run WriteRun.step r events = some next) :
    next.session.wire = r.session.wire := by
  refine (invariant_along (I := fun s => Tracked s ∧ s.torn ∧ s.session.wire = r.session.wire) ?_
    ⟨h, htorn, rfl⟩ hwithheld hrun).2.2
  intro s e t hs he hstep
  obtain ⟨htracked, hs, hwire⟩ := hs
  obtain ⟨ht, hsame⟩ := htracked.wire_of_torn hs hstep
  exact ⟨htracked.step he hstep, ht, hsame.trans hwire⟩

theorem failed_write_keeps_framing {target : WriteTarget} {events : List Event}
    (hwithheld : Along WriteRun.step Withheld (.start target) events)
    (hrun : run WriteRun.step (.start target) events = some r) :
    Framed r.session ∧ ∀ after u, r.torn → Along WriteRun.step Withheld r after →
      run WriteRun.step r after = some u → u.session.wire = r.session.wire := by
  have h := run_tracked (tracked_start target) hwithheld hrun
  exact ⟨h.framed, fun after u htorn hafter hlater => run_wire h htorn hafter hlater⟩

section Examples

def failing : List Event :=
  [.writeFramed [1, 2], .writeFramed [3], .resume 0, .resume 1, .transfer 0 1, .writeError 0]

def failed : WriteRun :=
  { session := { writeTarget := .socket, writeQueue := [[3]], wire := [1], enqueued := [[1, 2], [3]] }
    torn := true }

theorem failed_write_ends_wire :
    Framed failed.session ∧ ∀ after u, Along WriteRun.step Withheld failed after →
      run WriteRun.step failed after = some u → u.session.wire = [1] := by
  have hwithheld : Along WriteRun.step Withheld (.start .socket) failing := by
    repeat' first
      | exact trivial
      | refine ⟨nofun, fun t ht => ?_⟩
        cases ht
  have hrun : run WriteRun.step (.start .socket) failing = some failed := rfl
  obtain ⟨hframed, hwire⟩ := failed_write_keeps_framing hwithheld hrun
  exact ⟨hframed, fun after u hafter hlater => hwire after u rfl hafter hlater⟩

def replying : List Event := failing ++ [.writeFramed [4], .resume 0, .transfer 0 1]

def replied : WriteRun := (run WriteRun.step (.start .socket) replying).getD (.start .socket)

theorem reply_follows_torn_frame :
    ¬ ∀ (target : WriteTarget) (events : List Event) (r : WriteRun),
      run WriteRun.step (.start target) events = some r → r.session.isOpen → Framed r.session := by
  intro h
  obtain ⟨frames, part, hwire, hparts⟩ := h .socket replying replied rfl rfl
  have henqueued : replied.session.enqueued = [[1, 2], [3], [4]] := rfl
  have hreplied : replied.session.wire = [1, 3] := rfl
  have hwhole : ∀ frames ∈ List.sublists [[1, 2], [3], [4]], ([1, 3] : Bytes) ≠ List.flatten frames ++ [] := by
    decide
  have htorn : ∀ frames ∈ List.sublists [[1, 2], [3], [4]], ∀ frame ∈ frames.getLast?, ∀ part ∈ frame.inits,
      ([1, 3] : Bytes) ≠ frames.dropLast.flatten ++ part := by
    decide
  rw [hreplied] at hwire
  rw [henqueued] at hparts
  rcases hparts with ⟨rfl, hsublist⟩ | ⟨frame, hpart, hsublist⟩
  · exact hwhole frames (List.mem_sublists.mpr hsublist) hwire
  · refine htorn (frames ++ [frame]) (List.mem_sublists.mpr hsublist) frame List.getLast?_concat part
      ((List.mem_inits part frame).mpr hpart) ?_
    rwa [List.dropLast_concat]

end Examples

end DltxtBridge.Protocol.LocalSession
