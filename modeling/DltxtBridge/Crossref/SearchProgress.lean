import DltxtBridge.Crossref.SearchRun

namespace DltxtBridge.Crossref.SearchRun

open TransitionSystem

def Event.own : Event → Bool
  | .other .deadline => true
  | .other _ => false
  | _ => true

section Model

variable {K : Type}

def Ended : SearchPhase K → Prop
  | .returned _ => True
  | .thrown => True
  | _ => False

instance decidableEnded : ∀ phase : SearchPhase K, Decidable (Ended phase)
  | .returned _ => isTrue trivial
  | .thrown => isTrue trivial
  | .entering => isFalse id
  | .waiting => isFalse id
  | .searching _ _ _ => isFalse id
  | .retrieved _ _ _ _ => isFalse id

def PastWait (phase : SearchPhase K) : Prop := phase ≠ .entering ∧ phase ≠ .waiting

inductive InPhase : SearchPhase K → WaitSection → Prop
  | entering : InPhase .entering .outside
  | waiting (target : ℕ) (notified : Bool) : InPhase .waiting (.waiting target notified)
  | read (result : WaitEnd) : InPhase .waiting (.ended result)
  | past {phase : SearchPhase K} {waitSection : WaitSection} (hphase : PastWait phase)
      (hsection : ∀ target notified, waitSection ≠ .waiting target notified) : InPhase phase waitSection

def Placed (r : SearchRun K) : Prop := InPhase r.phase r.searched.waitSection

def linesLeft : SearchPhase K → ℕ
  | .searching _ rest _ => 2 * rest.length + 2
  | .retrieved _ _ rest _ => 2 * rest.length + 1
  | _ => 0

def sectionsLeft (r : SearchRun K) : ℕ × ℕ :=
  match r.phase with
  | .entering => (3, 0)
  | .waiting =>
    match r.searched.waitSection with
    | .ended _ => (1, 0)
    | _ => (2, 0)
  | phase => (0, linesLeft phase)

abbrev Fewer : ℕ × ℕ → ℕ × ℕ → Prop := Prod.Lex (· < ·) (· < ·)

lemma wellFounded_fewer : WellFounded Fewer := WellFounded.prod_lex wellFounded_lt wellFounded_lt

inductive Waited : WaitSection → WaitSection → Prop
  | same (waitSection : WaitSection) : Waited waitSection waitSection
  | waiting (target : ℕ) (before after : Bool) : Waited (.waiting target before) (.waiting target after)
  | read (target : ℕ) (notified : Bool) (result : WaitEnd) : Waited (.waiting target notified) (.ended result)

variable {phase : SearchPhase K} {before after : WaitSection} {r : SearchRun K}

lemma InPhase.waited (h : InPhase phase before) (hwaited : Waited before after) : InPhase phase after := by
  cases hwaited with
  | same => exact h
  | waiting target earlier later =>
    cases h with
    | waiting => exact .waiting target later
    | past hphase hsection => exact absurd rfl (hsection target earlier)
  | read target notified result =>
    cases h with
    | waiting => exact .read result
    | past hphase hsection => exact absurd rfl (hsection target notified)

lemma InPhase.outside (h : InPhase (.entering : SearchPhase K) before) : before = .outside := by
  generalize hphase : (.entering : SearchPhase K) = phase at h
  cases h with
  | entering => rfl
  | waiting | read => cases hphase
  | past hpast => exact absurd hphase.symm hpast.1

lemma InPhase.phase_of_waiting {target : ℕ} {notified : Bool} (h : InPhase phase (.waiting target notified)) :
    phase = .waiting := by
  cases h with
  | waiting => rfl
  | past hphase hsection => exact absurd rfl (hsection target notified)

lemma InPhase.not_waiting (h : InPhase phase before) (hphase : PastWait phase) (target : ℕ) (notified : Bool) :
    before ≠ .waiting target notified := by
  cases h with
  | entering => exact absurd rfl hphase.1
  | waiting | read => exact absurd rfl hphase.2
  | past _ hsection => exact hsection target notified

lemma placed_start {s : SearchedService} (h : s.waitSection = .outside) : Placed ({ searched := s } : SearchRun K) := by
  rw [Placed, h]
  exact .entering

lemma Placed.pastWait {result : WaitEnd} (h : r.searched.waitSection = .ended result) (hphase : PastWait r.phase) :
    Placed r := by
  apply InPhase.past hphase
  intro target notified
  simp [h]

lemma pastWait_resume (found : List LineMatch) (rest : List ParsedPair) :
    PastWait (resume found rest : SearchPhase K) := by
  cases rest <;> simp [resume, PastWait]

lemma pastWait_parsed (env : Environment) (request : SearchRequest) (parserState : Option ParserState) :
    PastWait (parsed env request parserState : SearchPhase K) := by
  rw [parsed_eq]
  split
  · simp [PastWait]
  · exact pastWait_resume _ _

lemma pastWait_reported (env : Environment) (found : List LineMatch) (rest : List ParsedPair)
    (lineMatch : Option LineMatch) : PastWait (reported env found rest lineMatch : SearchPhase K) := by
  cases lineMatch with
  | none => exact pastWait_resume found rest
  | some lineMatch =>
    rw [reported]
    split_ifs
    · exact pastWait_resume _ rest
    · simp [PastWait]

lemma linesLeft_resume (found : List LineMatch) (rest : List ParsedPair) :
    linesLeft (resume found rest : SearchPhase K) = 2 * rest.length := by
  cases rest <;> rfl

lemma linesLeft_reported (env : Environment) (found : List LineMatch) (rest : List ParsedPair)
    (lineMatch : Option LineMatch) :
    linesLeft (reported env found rest lineMatch : SearchPhase K) ≤ 2 * rest.length := by
  cases lineMatch with
  | none => exact (linesLeft_resume found rest).le
  | some lineMatch =>
    rw [reported]
    split_ifs
    · exact (linesLeft_resume _ rest).le
    · exact Nat.zero_le _

lemma sectionsLeft_of_pastWait (h : PastWait r.phase) : sectionsLeft r = (0, linesLeft r.phase) := by
  obtain ⟨searched, phase⟩ := r
  cases phase with
  | entering => exact absurd rfl h.1
  | waiting => exact absurd rfl h.2
  | searching | retrieved | returned | thrown => rfl

lemma sectionsLeft_waited {s t : SearchedService} (hwaited : Waited s.waitSection t.waitSection) :
    sectionsLeft { searched := t, phase := phase } = sectionsLeft { searched := s, phase := phase } ∨
      Fewer (sectionsLeft { searched := t, phase := phase }) (sectionsLeft { searched := s, phase := phase }) := by
  cases phase with
  | waiting =>
    simp only [sectionsLeft]
    generalize s.waitSection = before at hwaited ⊢
    generalize t.waitSection = after at hwaited ⊢
    cases hwaited with
    | same | waiting => exact .inl rfl
    | read => exact .inr (.left 0 0 (by decide))
  | entering | searching | retrieved | returned | thrown => exact .inl rfl

end Model

section Steps

variable {K : Type} [Field K] [LinearOrder K] {A : ScoreArithmetic K} {P : Platform K} {env : Environment}
  {request : SearchRequest} {start r t : SearchRun K} {event : Event} {events : List Event} {s : SearchedService}

lemma waited_reconsider {target : ℕ} {notified : Bool} (hsection : s.waitSection = .waiting target notified) :
    Waited s.waitSection (s.reconsider target).waitSection := by
  rw [hsection, SearchedService.reconsider]
  split_ifs
  · exact .read target notified _
  · exact .waiting target notified false

lemma waited_of_step {t : SearchedService} {change : SearchedService.Event} (henter : change ≠ .enter)
    (hstep : s.step env change = some t) : Waited s.waitSection t.waitSection := by
  cases change with
  | service event =>
    obtain ⟨pool, -, rfl⟩ := Option.map_eq_some_iff.mp hstep
    exact .same _
  | notifyAll =>
    rw [SearchedService.step] at hstep
    split_ifs at hstep
    simp only at hstep
    split at hstep
    · rename_i target notified hsection
      cases hstep
      rw [hsection]
      exact .waiting target notified true
    · cases hstep
      exact .same _
  | enter => exact absurd rfl henter
  | wake | spuriousWake =>
    rw [SearchedService.step] at hstep
    split at hstep
    · rename_i hsection
      cases hstep
      exact waited_reconsider hsection
    · cases hstep
  | deadline =>
    rw [SearchedService.step] at hstep
    split at hstep
    · rename_i target notified hsection
      cases hstep
      rw [hsection]
      exact .read target notified _
    · cases hstep

lemma read_of_deadline {t : SearchedService} (hstep : s.step env .deadline = some t) :
    ∃ target notified, s.waitSection = .waiting target notified ∧ ∃ result, t.waitSection = .ended result := by
  rw [SearchedService.step] at hstep
  split at hstep
  · rename_i target notified hsection
    cases hstep
    exact ⟨target, notified, hsection, _, rfl⟩
  · cases hstep

omit [Field K] [LinearOrder K] in
lemma inPhase_enter (s : SearchedService) : InPhase (.waiting : SearchPhase K) s.enter.waitSection := by
  rw [SearchedService.enter]
  split_ifs
  · exact .waiting _ false
  · exact .read _

lemma step_enter {t : SearchedService} (hstep : s.step env .enter = some t) : t = s.enter := by
  rw [SearchedService.step] at hstep
  split at hstep <;> cases hstep
  rfl

lemma other_ne_enter {change : SearchedService.Event} (hstep : r.step A P env request (.other change) = some t) :
    change ≠ .enter := by
  rintro rfl
  cases hstep

lemma placed_step (h : Placed r) (hstep : r.step A P env request event = some t) : Placed t := by
  cases stepped_of_step hstep with
  | other change searched hsearched => exact h.waited (waited_of_step (other_ne_enter hstep) hsearched)
  | unsearchable hphase hrequest =>
    rw [Placed, hphase] at h
    have hsection := h.outside
    exact .past (by simp [PastWait]) (by simp [hsection])
  | entered searched hphase hrequest hsearched =>
    rw [step_enter hsearched]
    exact inPhase_enter r.searched
  | parsed result hphase hend => exact Placed.pastWait hend (pastWait_parsed env request _)
  | retrieved pair rest found hphase =>
    have hpast : PastWait r.phase := by simp [hphase, PastWait]
    exact .past (by simp [PastWait]) (h.not_waiting hpast)
  | scored rawCandidates pair rest found hphase =>
    have hpast : PastWait r.phase := by simp [hphase, PastWait]
    exact .past (pastWait_reported env found rest _) (h.not_waiting hpast)

lemma fewer_of_own (h : Placed r) (hown : event.own = true) (hstep : r.step A P env request event = some t) :
    Fewer (sectionsLeft t) (sectionsLeft r) := by
  cases stepped_of_step hstep with
  | other change searched hsearched =>
    cases change with
    | deadline =>
      obtain ⟨target, notified, hbefore, result, hafter⟩ := read_of_deadline hsearched
      rw [Placed, hbefore] at h
      have hphase := h.phase_of_waiting
      simp only [sectionsLeft, hphase, hbefore, hafter]
      exact .left _ _ Nat.one_lt_two
    | service | notifyAll | enter | wake | spuriousWake => cases hown
  | unsearchable hphase hrequest =>
    simp only [sectionsLeft, hphase]
    exact .left _ _ (by decide)
  | entered searched hphase hrequest hsearched =>
    simp only [sectionsLeft, hphase]
    split <;> exact .left _ _ (by decide)
  | parsed result hphase hend =>
    rw [sectionsLeft_of_pastWait (pastWait_parsed env request _)]
    simp only [sectionsLeft, hphase, hend]
    exact .left _ _ Nat.zero_lt_one
  | retrieved pair rest found hphase =>
    simp only [sectionsLeft, hphase, linesLeft]
    exact .right _ (Nat.lt_succ_self _)
  | scored rawCandidates pair rest found hphase =>
    rw [sectionsLeft_of_pastWait (pastWait_reported env found rest _)]
    simp only [sectionsLeft, hphase]
    exact .right _ (Nat.lt_succ_of_le (linesLeft_reported env found rest _))

lemma sectionsLeft_step (h : Placed r) (hstep : r.step A P env request event = some t) :
    sectionsLeft t = sectionsLeft r ∨ Fewer (sectionsLeft t) (sectionsLeft r) := by
  cases hown : event.own with
  | true => exact .inr (fewer_of_own h hown hstep)
  | false =>
    cases stepped_of_step hstep with
    | other change searched hsearched => exact sectionsLeft_waited (waited_of_step (other_ne_enter hstep) hsearched)
    | unsearchable | entered | parsed | retrieved | scored => cases hown

lemma exists_own_step (h : Placed r) (hended : ¬ Ended r.phase) :
    ∃ event, event.own = true ∧ (r.step A P env request event).isSome := by
  obtain ⟨searched, phase⟩ := r
  cases phase with
  | entering =>
    have hsection : searched.waitSection = .outside := h.outside
    refine ⟨.enter, rfl, ?_⟩
    simp only [step]
    split_ifs
    · rfl
    · simp [SearchedService.step, hsection]
  | waiting =>
    rw [Placed] at h
    generalize hsection : searched.waitSection = waitSection at h
    cases h with
    | waiting target notified => exact ⟨.other .deadline, rfl, by simp [step, SearchedService.step, hsection]⟩
    | read result => exact ⟨.parse, rfl, by simp [step, hsection]⟩
    | past hpast => exact absurd rfl hpast.2
  | searching pair rest found => exact ⟨.retrieve, rfl, rfl⟩
  | retrieved rawCandidates pair rest found => exact ⟨.score, rfl, rfl⟩
  | returned | thrown => exact absurd trivial hended

theorem search_ends (houtside : s.waitSection = .outside)
    (hrun : run (step A P env request) { searched := s } events = some r) :
    (∀ schedule : ℕ → Event, (∀ n, ∃ k, n ≤ k ∧ (schedule k).own = true) →
      ∃ n, run (step A P env request) r ((List.range n).map schedule) = none) ∧
    (¬ Ended r.phase → ∃ event, event.own = true ∧ (r.step A P env request event).isSome) := by
  have hplaced := invariant (fun _ _ _ => placed_step) (placed_start houtside) hrun
  refine ⟨fun schedule hrecurs => ?_, exists_own_step hplaced⟩
  exact refused_of_recurring wellFounded_fewer (fun _ _ _ => placed_step) (fun _ _ _ => fewer_of_own)
    (fun _ _ _ => sectionsLeft_step) hplaced hrecurs

lemma quiet_of_own (h : event.own = true) : event.quiet = true := by
  cases event with
  | other change =>
    cases change with
    | deadline => rfl
    | service | notifyAll | enter | wake | spuriousWake => cases h
  | enter | parse | retrieve | score => rfl

lemma exists_quiet_end (houtside : s.waitSection = .outside) :
    ∃ events r, (∀ event ∈ events, event.quiet = true) ∧
      run (step A P env request) { searched := s } events = some r ∧ Ended r.phase := by
  have hgo : ∀ r : SearchRun K, Placed r → ¬ Ended r.phase →
      ∃ event, event.own = true ∧ (r.step A P env request event).isSome := fun _ h hended => exists_own_step h hended
  obtain ⟨events, r, hown, hrun, hended⟩ := reached_of_rank wellFounded_fewer (fun _ _ _ => placed_step)
    (fun _ _ _ => fewer_of_own) hgo (placed_start houtside)
  exact ⟨events, r, fun event hevent => quiet_of_own (hown event hevent), hrun, hended⟩

end Steps

section Examples

def unbuilt : SearchedService := { pool := ({} : PooledService).updateParserConfig ⟨{}, ascii "one"⟩ [] [] }

theorem search_ends_unbuilt :
    ∃ r : SearchRun ℚ, run (step flatScores (Platform.ascending 1) asciiEnvironment otherRequest)
        { searched := unbuilt } [.enter] = some r ∧ r.searched.waitSection = .waiting 1 false ∧
      ∃ event, event.own = true ∧
        (r.step flatScores (Platform.ascending 1) asciiEnvironment otherRequest event).isSome := by
  have hrun : run (step flatScores (Platform.ascending 1) asciiEnvironment otherRequest)
      { searched := unbuilt } [.enter] = some { searched := unbuilt.enter, phase := .waiting } := by rfl
  exact ⟨_, hrun, rfl, (search_ends rfl hrun).2 (by decide)⟩

end Examples

end DltxtBridge.Crossref.SearchRun
