import Mathlib.Tactic

namespace TransitionSystem

variable {σ ε : Type} (step : σ → ε → Option σ)

def run (s : σ) (events : List ε) : Option σ := events.foldlM step s

/-- Every step of the run meets `P` in the state it is taken from. -/
def Along (P : σ → ε → Prop) : σ → List ε → Prop
  | _, [] => True
  | s, e :: events => P s e ∧ ∀ t ∈ step s e, Along P t events

variable {step} {I : σ → Prop} {P : σ → ε → Prop}

instance decidableAlong [∀ s e, Decidable (P s e)] :
    ∀ (s : σ) (events : List ε), Decidable (Along step P s events)
  | _, [] => isTrue trivial
  | s, e :: events =>
    have : DecidablePred fun t => Along step P t events := fun t => decidableAlong t events
    inferInstanceAs (Decidable (P s e ∧ ∀ t ∈ step s e, Along step P t events))

lemma run_cons (s : σ) (e : ε) (events : List ε) :
    run step s (e :: events) = (step s e).bind fun t => run step t events := rfl

lemma run_append (s : σ) (events later : List ε) :
    run step s (events ++ later) = (run step s events).bind fun t => run step t later :=
  List.foldlM_append

lemma run_events_map {δ : Type} (f : δ → ε) (s : σ) (events : List δ) :
    run step s (events.map f) = run (fun s e => step s (f e)) s events :=
  List.foldlM_map

lemma run_map_of_invariant {τ : Type} {step' : τ → ε → Option τ} {f : σ → τ}
    (hkeep : ∀ s e t, I s → step s e = some t → I t)
    (hstep : ∀ s e, I s → (step s e).map f = step' (f s) e) {s : σ} (hs : I s) (events : List ε) :
    (run step s events).map f = run step' (f s) events := by
  induction events generalizing s with
  | nil => rfl
  | cons e events ih =>
    rw [run_cons, run_cons, ← hstep s e hs]
    cases htaken : step s e with
    | none => rfl
    | some t => exact ih (hkeep s e t hs htaken)

lemma run_map {τ : Type} {step' : τ → ε → Option τ} {f : σ → τ}
    (hstep : ∀ s e, (step s e).map f = step' (f s) e) (s : σ) (events : List ε) :
    (run step s events).map f = run step' (f s) events :=
  run_map_of_invariant (I := fun _ => True) (fun _ _ _ _ _ => trivial) (fun s e _ => hstep s e) trivial events

lemma along_of_forall {Q : ε → Prop} {events : List ε} (h : ∀ e ∈ events, Q e) (s : σ) :
    Along step (fun _ e => Q e) s events := by
  induction events generalizing s with
  | nil => trivial
  | cons e events ih =>
    exact ⟨h e List.mem_cons_self, fun t _ => ih (fun e' he' => h e' (List.mem_cons_of_mem e he')) t⟩

lemma Along.and {Q : σ → ε → Prop} {s : σ} {events : List ε} (hP : Along step P s events)
    (hQ : Along step Q s events) : Along step (fun s e => P s e ∧ Q s e) s events := by
  induction events generalizing s with
  | nil => trivial
  | cons e events ih => exact ⟨⟨hP.1, hQ.1⟩, fun t ht => ih (hP.2 t ht) (hQ.2 t ht)⟩

lemma along_congr_of_along {Q C : σ → ε → Prop}
    (hkeep : ∀ s e t, I s → C s e → step s e = some t → I t)
    (hiff : ∀ s e, I s → C s e → (P s e ↔ Q s e)) {s : σ} (hs : I s) {events : List ε}
    (hmeets : Along step C s events) : Along step P s events ↔ Along step Q s events := by
  induction events generalizing s with
  | nil => exact Iff.rfl
  | cons e events ih =>
    refine and_congr (hiff s e hs hmeets.1) (forall₂_congr fun t ht => ?_)
    exact ih (hkeep s e t hs hmeets.1 ht) (hmeets.2 t ht)

lemma along_congr {Q : σ → ε → Prop} {C : ε → Prop}
    (hkeep : ∀ s e t, I s → C e → step s e = some t → I t)
    (hiff : ∀ s e, I s → C e → (P s e ↔ Q s e)) {s : σ} (hs : I s) {events : List ε}
    (hevents : ∀ e ∈ events, C e) : Along step P s events ↔ Along step Q s events :=
  along_congr_of_along (C := fun _ e => C e) hkeep hiff hs (along_of_forall hevents s)

lemma history_invariant {J : List ε → σ → Prop}
    (hstep : ∀ past s e t, J past s → P s e → step s e = some t → J (past ++ [e]) t)
    {past events : List ε} {s t : σ} (hs : J past s) (hmeets : Along step P s events)
    (hrun : run step s events = some t) : J (past ++ events) t := by
  induction events generalizing past s with
  | nil =>
    cases hrun
    rwa [List.append_nil]
  | cons e events ih =>
    rw [run_cons, Option.bind_eq_some_iff] at hrun
    obtain ⟨u, hu, hrun⟩ := hrun
    rw [List.append_cons]
    exact ih (hstep past s e u hs hmeets.1 hu) (hmeets.2 u hu) hrun

lemma invariant_along (hstep : ∀ s e t, I s → P s e → step s e = some t → I t) {s t : σ}
    {events : List ε} (hs : I s) (hmeets : Along step P s events)
    (hrun : run step s events = some t) : I t :=
  @history_invariant σ ε step P (fun _ => I) (fun _ => hstep) [] events s t hs hmeets hrun

lemma invariant (hstep : ∀ s e t, I s → step s e = some t → I t) {s t : σ} {events : List ε}
    (hs : I s) (hrun : run step s events = some t) : I t :=
  invariant_along (fun s e t hs _ => hstep s e t hs) hs
    (along_of_forall (Q := fun _ => True) (fun _ _ => trivial) s) hrun

lemma run_schedule_succ (s : σ) (schedule : ℕ → ε) (n : ℕ) :
    run step s ((List.range (n + 1)).map schedule) =
      (step s (schedule 0)).bind fun t => run step t ((List.range n).map fun i => schedule (i + 1)) := by
  rw [List.range_succ_eq_map, List.map_cons, List.map_map, run_cons]
  rfl

lemma refused_of_rank {ρ : Type} {lt : ρ → ρ → Prop} (hlt : WellFounded lt) {Ranked : ρ → σ → Prop} {Q : ε → Prop}
    (hstep : ∀ r s e t, Ranked r s → Q e → step s e = some t → ∃ r', lt r' r ∧ Ranked r' t) {r : ρ} {s : σ}
    (hs : Ranked r s) {schedule : ℕ → ε} (hschedule : ∀ n, Q (schedule n)) :
    ∃ n, run step s ((List.range n).map schedule) = none := by
  induction r using hlt.induction generalizing s schedule with
  | _ r ih =>
    cases htaken : step s (schedule 0) with
    | none => exact ⟨1, congrArg (Option.bind · _) htaken⟩
    | some t =>
      obtain ⟨r', hlower, ht⟩ := hstep r s (schedule 0) t hs (hschedule 0) htaken
      obtain ⟨n, hn⟩ := ih r' hlower ht fun n => hschedule (n + 1)
      refine ⟨n + 1, ?_⟩
      rw [run_schedule_succ, htaken]
      exact hn

section Progress

lemma recurs_succ {P : ε → Prop} {schedule : ℕ → ε} (h : ∀ n, ∃ k, n ≤ k ∧ P (schedule k)) (n : ℕ) :
    ∃ k, n ≤ k ∧ P (schedule (k + 1)) := by
  obtain ⟨k, hk, hP⟩ := h (n + 1)
  obtain ⟨k, rfl⟩ := Nat.exists_eq_add_of_lt hk
  exact ⟨n + k, Nat.le_add_right n k, hP⟩

variable {ρ : Type} {lt : ρ → ρ → Prop} {rank : σ → ρ} {Q : ε → Prop}

lemma refused_of_recurring (hlt : WellFounded lt) (hkeep : ∀ s e t, I s → step s e = some t → I t)
    (hlower : ∀ s e t, I s → Q e → step s e = some t → lt (rank t) (rank s))
    (hraise : ∀ s e t, I s → step s e = some t → rank t = rank s ∨ lt (rank t) (rank s)) {s : σ} (hs : I s)
    {schedule : ℕ → ε} (hrecurs : ∀ n, ∃ k, n ≤ k ∧ Q (schedule k)) :
    ∃ n, run step s ((List.range n).map schedule) = none := by
  induction hrank : rank s using hlt.induction generalizing s schedule with
  | _ r ih =>
    have hlater : ∀ {t : σ} {schedule : ℕ → ε}, lt (rank t) r → I t → (∀ n, ∃ k, n ≤ k ∧ Q (schedule k)) →
        ∃ n, run step t ((List.range n).map schedule) = none :=
      fun hlower ht hrecurs => ih _ hlower ht hrecurs rfl
    obtain ⟨k, -, hk⟩ := hrecurs 0
    -- the next lowering step comes `k` steps later
    induction k generalizing s schedule with
    | zero =>
      cases htaken : step s (schedule 0) with
      | none => exact ⟨1, congrArg (Option.bind · _) htaken⟩
      | some t =>
        obtain ⟨n, hn⟩ := hlater (hrank ▸ hlower s _ t hs hk htaken) (hkeep s _ t hs htaken)
          (recurs_succ hrecurs)
        refine ⟨n + 1, ?_⟩
        rw [run_schedule_succ, htaken]
        exact hn
    | succ k ihk =>
      cases htaken : step s (schedule 0) with
      | none => exact ⟨1, congrArg (Option.bind · _) htaken⟩
      | some t =>
        have ht := hkeep s _ t hs htaken
        have hrefused : ∃ n, run step t ((List.range n).map fun i => schedule (i + 1)) = none := by
          rcases hraise s _ t hs htaken with hsame | hlow
          · exact ihk ht (recurs_succ hrecurs) (hsame.trans hrank) hk
          · exact hlater (hrank ▸ hlow) ht (recurs_succ hrecurs)
        obtain ⟨n, hn⟩ := hrefused
        refine ⟨n + 1, ?_⟩
        rw [run_schedule_succ, htaken]
        exact hn

lemma reached_of_rank (hlt : WellFounded lt) {Goal : σ → Prop} (hkeep : ∀ s e t, I s → step s e = some t → I t)
    (hlower : ∀ s e t, I s → Q e → step s e = some t → lt (rank t) (rank s))
    (hgo : ∀ s, I s → ¬ Goal s → ∃ e, Q e ∧ (step s e).isSome) {s : σ} (hs : I s) :
    ∃ events t, (∀ e ∈ events, Q e) ∧ run step s events = some t ∧ Goal t := by
  induction hrank : rank s using hlt.induction generalizing s with
  | _ r ih =>
    by_cases hgoal : Goal s
    · exact ⟨[], s, by simp, rfl, hgoal⟩
    · obtain ⟨e, he, hsome⟩ := hgo s hs hgoal
      obtain ⟨t, ht⟩ := Option.isSome_iff_exists.mp hsome
      obtain ⟨events, u, hevents, hrun, hu⟩ := ih _ (hrank ▸ hlower s e t hs he ht) (hkeep s e t hs ht) rfl
      refine ⟨e :: events, u, List.forall_mem_cons.mpr ⟨he, hevents⟩, ?_, hu⟩
      rw [run_cons, ht]
      exact hrun

end Progress

section Passes

variable (step)

/-- The run passes through `u` and then, or at once, through `v`. -/
def Passes (s : σ) (events : List ε) (u v : σ) : Prop :=
  ∃ earlier middle later, events = earlier ++ middle ++ later ∧
    run step s earlier = some u ∧ run step u middle = some v

variable {step} {s t u v : σ} {events : List ε} {e : ε}

lemma passes_end (hrun : run step s events = some t) : Passes step s events t t :=
  ⟨events, [], [], by simp, hrun, rfl⟩

lemma Passes.append (h : Passes step s events u v) (more : List ε) : Passes step s (events ++ more) u v := by
  obtain ⟨earlier, middle, later, rfl, hearlier, hmiddle⟩ := h
  exact ⟨earlier, middle, later ++ more, by simp, hearlier, hmiddle⟩

lemma run_append_singleton (hrun : run step s events = some t) (hstep : step t e = some u) :
    run step s (events ++ [e]) = some u := by
  rw [run_append, hrun, Option.bind_some, run_cons, hstep]
  rfl

lemma Passes.next (hrun : run step s events = some t) (h : Passes step s events u t) (hstep : step t e = some v) :
    Passes step s (events ++ [e]) u v := by
  obtain ⟨earlier, middle, later, rfl, hearlier, hmiddle⟩ := h
  refine ⟨earlier, middle ++ later ++ [e], [], by simp, hearlier, run_append_singleton ?_ hstep⟩
  rw [List.append_assoc, run_append, hearlier] at hrun
  exact hrun

lemma Passes.invariant {Q : ε → Prop} (hkeep : ∀ s e t, I s → Q e → step s e = some t → I t) (hs : I s)
    (hevents : ∀ e ∈ events, Q e) (h : Passes step s events u v) : I u ∧ I v := by
  obtain ⟨earlier, middle, later, rfl, hearlier, hmiddle⟩ := h
  simp only [List.forall_mem_append] at hevents
  have hu := invariant_along hkeep hs (along_of_forall hevents.1.1 s) hearlier
  exact ⟨hu, invariant_along hkeep hu (along_of_forall hevents.1.2 u) hmiddle⟩

end Passes

section LeadsTo

variable (step)

def LeadsTo (s t : σ) : Prop := ∃ events, run step s events = some t

variable {step} {s t u : σ} {e : ε}

lemma leadsTo_refl (s : σ) : LeadsTo step s s := ⟨[], rfl⟩

lemma LeadsTo.next (h : LeadsTo step s t) (hstep : step t e = some u) : LeadsTo step s u := by
  obtain ⟨events, hrun⟩ := h
  exact ⟨events ++ [e], run_append_singleton hrun hstep⟩

lemma LeadsTo.trans (hst : LeadsTo step s t) (htu : LeadsTo step t u) : LeadsTo step s u := by
  obtain ⟨events, hrun⟩ := hst
  obtain ⟨later, hlater⟩ := htu
  refine ⟨events ++ later, ?_⟩
  rw [run_append, hrun]
  exact hlater

end LeadsTo

section Advance

variable (step)

/-- Takes the events up to the first that is refused. -/
def advance (s : σ) : List ε → σ
  | [] => s
  | e :: events =>
    match step s e with
    | some t => advance t events
    | none => s

def taken (s : σ) : List ε → List ε
  | [] => []
  | e :: events =>
    match step s e with
    | some t => e :: taken t events
    | none => []

variable {step}

lemma advance_cons_of_some {s t : σ} {e : ε} (h : step s e = some t) (events : List ε) :
    advance step s (e :: events) = advance step t events := by
  rw [advance, h]

lemma taken_cons_of_some {s t : σ} {e : ε} (h : step s e = some t) (events : List ε) :
    taken step s (e :: events) = e :: taken step t events := by
  rw [taken, h]

lemma advance_of_refused {s : σ} {e : ε} (h : step s e = none) (events : List ε) :
    advance step s (e :: events) = s := by
  rw [advance, h]

lemma taken_of_refused {s : σ} {e : ε} (h : step s e = none) (events : List ε) :
    taken step s (e :: events) = [] := by
  rw [taken, h]

lemma advance_append {s t : σ} {events : List ε} (hrun : run step s events = some t) (later : List ε) :
    advance step s (events ++ later) = advance step t later := by
  induction events generalizing s with
  | nil =>
    cases hrun
    rfl
  | cons e events ih =>
    rw [run_cons, Option.bind_eq_some_iff] at hrun
    obtain ⟨u, hu, hrun⟩ := hrun
    rw [List.cons_append, advance_cons_of_some hu, ih hrun]

lemma taken_append {s t : σ} {events : List ε} (hrun : run step s events = some t) (later : List ε) :
    taken step s (events ++ later) = events ++ taken step t later := by
  induction events generalizing s with
  | nil =>
    cases hrun
    rfl
  | cons e events ih =>
    rw [run_cons, Option.bind_eq_some_iff] at hrun
    obtain ⟨u, hu, hrun⟩ := hrun
    rw [List.cons_append, taken_cons_of_some hu, ih hrun, List.cons_append]

lemma advance_of_run {s t : σ} {events : List ε} (hrun : run step s events = some t) :
    advance step s events = t := by
  have h := advance_append hrun []
  rwa [List.append_nil] at h

lemma advance_events_map {δ : Type} (f : δ → ε) (s : σ) (events : List δ) :
    advance step s (events.map f) = advance (fun s e => step s (f e)) s events := by
  induction events generalizing s with
  | nil => rfl
  | cons e events ih =>
    rw [List.map_cons, advance, advance]
    cases step s (f e) with
    | none => rfl
    | some t => exact ih t

lemma run_taken (s : σ) (events : List ε) :
    run step s (taken step s events) = some (advance step s events) := by
  induction events generalizing s with
  | nil => rfl
  | cons e events ih =>
    cases htaken : step s e with
    | none => rw [taken_of_refused htaken, advance_of_refused htaken]; rfl
    | some t =>
      rw [taken_cons_of_some htaken, advance_cons_of_some htaken, run_cons, htaken]
      exact ih t

lemma forall_mem_taken_iff {Q : ε → Prop} {s : σ} {events : List ε} :
    (∀ e ∈ taken step s events, Q e) ↔ ∀ earlier e later t u, events = earlier ++ e :: later →
      run step s earlier = some t → step t e = some u → Q e := by
  constructor
  · rintro h earlier e later t u rfl hearlier hstep
    apply h e
    rw [taken_append hearlier, taken_cons_of_some hstep]
    exact List.mem_append_right earlier List.mem_cons_self
  · intro h
    induction events generalizing s with
    | nil => simp [taken]
    | cons e events ih =>
      cases hstep : step s e with
      | none => simp [taken_of_refused hstep]
      | some u =>
        rw [taken_cons_of_some hstep, List.forall_mem_cons]
        refine ⟨h [] e events s u rfl rfl hstep, ih ?_⟩
        intro earlier e' later t v hevents hearlier hstep'
        apply h (e :: earlier) e' later t v (by rw [hevents, List.cons_append]) _ hstep'
        rw [run_cons, hstep]
        exact hearlier

lemma run_eq_none_iff {s : σ} {events : List ε} :
    run step s events = none ↔ ∃ earlier refused later t,
      events = earlier ++ refused :: later ∧ run step s earlier = some t ∧ step t refused = none := by
  constructor
  · intro hrun
    induction events generalizing s with
    | nil => cases hrun
    | cons e events ih =>
      cases htaken : step s e with
      | none => exact ⟨[], e, events, s, rfl, rfl, htaken⟩
      | some t =>
        rw [run_cons, htaken] at hrun
        obtain ⟨earlier, refused, later, u, rfl, hearlier, hrefused⟩ := ih hrun
        refine ⟨e :: earlier, refused, later, u, rfl, ?_, hrefused⟩
        rw [run_cons, htaken]
        exact hearlier
  · rintro ⟨earlier, refused, later, t, rfl, hearlier, hrefused⟩
    rw [run_append, hearlier, Option.bind_some, run_cons, hrefused]
    rfl

end Advance

end TransitionSystem
