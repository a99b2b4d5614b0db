import DltxtBridge.Library.Pool
import DltxtBridge.Library.TransitionSystem

/-! Work on a list that is shared among tasks. Each task has a range and an output of its
own, and a latch counts the tasks that have not finished. -/

namespace ForkJoin

variable {α β : Type}

structure Task (β : Type) where
  next : ℕ
  stop : ℕ
  output : List β := []
  finished : Bool := false

structure State (β : Type) where
  tasks : List (Task β)
  latch : ℕ

def slice (items : List α) (range : ℕ × ℕ) : List α := (items.drop range.1).take (range.2 - range.1)

def start (ranges : List (ℕ × ℕ)) : State β where
  tasks := ranges.map fun range => { next := range.1, stop := range.2 }
  latch := ranges.length

section Steps

variable (work : α → Option β) (items : List α)

/-- One item, or the end of the task. An item outside the list has no step. -/
def Task.advance (task : Task β) : Option (Task β) :=
  if task.finished then none
  else if task.next < task.stop then
    items[task.next]?.map fun item =>
      { task with next := task.next + 1, output := task.output ++ (work item).toList }
  else some { task with finished := true }

def step (state : State β) (index : ℕ) : Option (State β) :=
  state.tasks[index]?.bind fun task =>
    (task.advance work items).map fun advanced =>
      { tasks := state.tasks.set index advanced
        latch := if advanced.finished then state.latch - 1 else state.latch }

def Fits (range : ℕ × ℕ) : Prop := range.1 ≤ range.2 ∧ range.2 ≤ items.length

structure Follows (range : ℕ × ℕ) (task : Task β) : Prop where
  fits : Fits items range
  stop_eq : task.stop = range.2
  begin_le : range.1 ≤ task.next
  next_le : task.next ≤ range.2
  output_eq : task.output = (slice items (range.1, task.next)).filterMap work
  of_finished : task.finished → task.next = range.2

def pending (tasks : List (Task β)) : ℕ := tasks.countP fun task => !task.finished

structure Invariant (ranges : List (ℕ × ℕ)) (state : State β) : Prop where
  follows : List.Forall₂ (Follows work items) ranges state.tasks
  latch_eq : state.latch = pending state.tasks

end Steps

variable {work : α → Option β} {items : List α} {ranges : List (ℕ × ℕ)}

lemma slice_succ {start next : ℕ} {item : α} (hle : start ≤ next) (hitem : items[next]? = some item) :
    slice items (start, next + 1) = slice items (start, next) ++ [item] := by
  have hget : (items.drop start)[next - start]? = some item := by
    rw [List.getElem?_drop, Nat.add_sub_cancel' hle, hitem]
  rw [slice, slice, Nat.succ_sub hle, List.take_add_one, hget]
  rfl

section OneStep

variable {range : ℕ × ℕ} {task advanced : Task β}

lemma Follows.advance (h : Follows work items range task) (hstep : task.advance work items = some advanced) :
    Follows work items range advanced := by
  rw [Task.advance] at hstep
  split_ifs at hstep with hfinished hnext
  · obtain ⟨item, hitem, rfl⟩ := Option.map_eq_some_iff.mp hstep
    refine ⟨h.fits, h.stop_eq, h.begin_le.trans (Nat.le_succ _), h.stop_eq ▸ hnext, ?_, ?_⟩
    · change task.output ++ _ = _
      rw [slice_succ h.begin_le hitem, List.filterMap_append, ← h.output_eq]
      cases hwork : work item with
      | none => simp [hwork]
      | some found => simp [hwork]
    · exact fun hdone => absurd hdone hfinished
  · cases hstep
    exact ⟨h.fits, h.stop_eq, h.begin_le, h.next_le, h.output_eq,
      fun _ => le_antisymm h.next_le (h.stop_eq ▸ not_lt.mp hnext)⟩

lemma Follows.advance_isSome (h : Follows work items range task) (hfinished : task.finished = false) :
    ∃ advanced, task.advance work items = some advanced := by
  rw [Task.advance, if_neg (by simp [hfinished])]
  split_ifs with hnext
  · have hlt : task.next < items.length := hnext.trans_le (h.stop_eq ▸ h.fits.2)
    exact ⟨_, by rw [List.getElem?_eq_getElem hlt]; rfl⟩
  · exact ⟨_, rfl⟩

def Task.remaining (task : Task β) : ℕ := task.stop - task.next + if task.finished then 0 else 1

lemma remaining_advance (hstep : task.advance work items = some advanced) :
    advanced.remaining + 1 = task.remaining ∧ task.finished = false := by
  rw [Task.advance] at hstep
  split_ifs at hstep with hfinished hnext
  · obtain ⟨item, -, rfl⟩ := Option.map_eq_some_iff.mp hstep
    refine ⟨?_, Bool.eq_false_iff.mpr hfinished⟩
    simp only [Task.remaining, hfinished, Bool.false_eq_true, if_false]
    omega
  · cases hstep
    refine ⟨?_, Bool.eq_false_iff.mpr hfinished⟩
    simp only [Task.remaining, hfinished, Bool.false_eq_true, if_false, if_true]

end OneStep

section Runs

variable {state later : State β} {index : ℕ} {events : List ℕ}

lemma step_cases (hstep : step work items state index = some later) :
    ∃ task advanced, state.tasks[index]? = some task ∧ task.advance work items = some advanced ∧
      later.tasks = state.tasks.set index advanced ∧
      later.latch = if advanced.finished then state.latch - 1 else state.latch := by
  obtain ⟨task, htask, hstep⟩ := Option.bind_eq_some_iff.mp hstep
  obtain ⟨advanced, hadvanced, rfl⟩ := Option.map_eq_some_iff.mp hstep
  exact ⟨task, advanced, htask, hadvanced, rfl, rfl⟩

lemma forall₂_set {γ δ : Type} {R : γ → δ → Prop} {xs : List γ} {ys : List δ} {y z : δ}
    (h : List.Forall₂ R xs ys) {index : ℕ} (hy : ys[index]? = some y) (hz : ∀ x, R x y → R x z) :
    List.Forall₂ R xs (ys.set index z) := by
  induction h generalizing index with
  | nil => exact .nil
  | cons hfirst hrest ih =>
    cases index with
    | zero =>
      cases hy
      exact .cons (hz _ hfirst) hrest
    | succ index => exact .cons hfirst (ih hy)

lemma invariant_start (hfits : ∀ range ∈ ranges, Fits items range) :
    Invariant work items ranges (start ranges) := by
  constructor
  · rw [start, List.forall₂_map_right_iff, List.forall₂_same]
    intro range hrange
    exact ⟨hfits range hrange, rfl, le_rfl, (hfits range hrange).1, by simp [slice], by simp⟩
  · simp [start, pending, List.countP_map, Function.comp_def]

lemma invariant_step (h : Invariant work items ranges state)
    (hstep : step work items state index = some later) :
    Invariant work items ranges later := by
  obtain ⟨task, advanced, htask, hadvance, htasks, hlatch⟩ := step_cases hstep
  constructor
  · rw [htasks]
    exact forall₂_set h.follows htask fun range hrange => hrange.advance hadvance
  · obtain ⟨before, after, hsplit, -, hset⟩ := Pool.split htask
    have hpending := (remaining_advance hadvance).2
    rw [htasks, hset, hlatch, h.latch_eq, hsplit]
    simp only [pending, List.countP_append, List.countP_cons, hpending]
    cases advanced.finished <;> simp

lemma invariant_run (h : Invariant work items ranges state)
    (hrun : TransitionSystem.run (step work items) state events = some later) :
    Invariant work items ranges later :=
  TransitionSystem.invariant (fun _ _ _ hs hstep => invariant_step hs hstep) h hrun

lemma outputs_of_finished {tasks : List (Task β)} (hfollows : List.Forall₂ (Follows work items) ranges tasks)
    (hdone : ∀ task ∈ tasks, task.finished = true) :
    tasks.flatMap Task.output = ranges.flatMap fun range => (slice items range).filterMap work := by
  induction hfollows with
  | nil => rfl
  | @cons range task ranges tasks hfirst _ ih =>
    obtain ⟨htask, htasks⟩ := List.forall_mem_cons.mp hdone
    rw [List.flatMap_cons, List.flatMap_cons, ih htasks, hfirst.output_eq, hfirst.of_finished htask]

lemma Invariant.outputs (h : Invariant work items ranges state) (hlatch : state.latch = 0) :
    state.tasks.flatMap Task.output = ranges.flatMap fun range => (slice items range).filterMap work := by
  apply outputs_of_finished h.follows
  have hcount := h.latch_eq.symm.trans hlatch
  simpa [pending, List.countP_eq_zero] using hcount

def remaining (tasks : List (Task β)) : ℕ := (tasks.map Task.remaining).sum

lemma remaining_step (hstep : step work items state index = some later) :
    remaining later.tasks < remaining state.tasks := by
  obtain ⟨task, advanced, htask, hadvance, htasks, -⟩ := step_cases hstep
  obtain ⟨before, after, hsplit, -, hset⟩ := Pool.split htask
  have hless := (remaining_advance hadvance).1
  rw [htasks, hset, hsplit]
  simp only [remaining, List.map_append, List.map_cons, List.sum_append, List.sum_cons]
  omega

lemma Invariant.exists_step (h : Invariant work items ranges state) (hlatch : state.latch ≠ 0) :
    ∃ index later, step work items state index = some later := by
  have hpending : 0 < pending state.tasks := h.latch_eq ▸ Nat.pos_of_ne_zero hlatch
  obtain ⟨task, hmem, hunfinished⟩ := List.countP_pos_iff.mp hpending
  obtain ⟨index, htask⟩ := List.mem_iff_getElem?.mp hmem
  obtain ⟨range, -, hrange⟩ : ∃ range ∈ ranges, Follows work items range task := by
    have hindex := (List.getElem?_eq_some_iff.mp htask).1
    have hlength := h.follows.length_eq
    have hget := h.follows.get (hlength ▸ hindex) hindex
    rw [List.get_eq_getElem, List.get_eq_getElem, (List.getElem?_eq_some_iff.mp htask).2] at hget
    exact ⟨_, List.getElem_mem _, hget⟩
  obtain ⟨advanced, hadvance⟩ := hrange.advance_isSome (by simpa using hunfinished)
  exact ⟨index, _, by rw [step, htask, Option.bind_some, hadvance]; rfl⟩

lemma Invariant.exists_run (h : Invariant work items ranges state) :
    ∃ events later, TransitionSystem.run (step work items) state events = some later ∧ later.latch = 0 := by
  induction hn : remaining state.tasks using Nat.strong_induction_on generalizing state with
  | _ n ih =>
    by_cases hlatch : state.latch = 0
    · exact ⟨[], state, rfl, hlatch⟩
    · obtain ⟨index, next, hstep⟩ := h.exists_step hlatch
      obtain ⟨events, later, hrun, hdone⟩ :=
        ih _ (hn ▸ remaining_step hstep) (invariant_step h hstep) rfl
      exact ⟨index :: events, later, by rw [TransitionSystem.run_cons, hstep]; exact hrun, hdone⟩

end Runs

end ForkJoin
