import DltxtBridge.Crossref.Reachable

namespace DltxtBridge.Crossref

open Documents TransitionSystem

structure ParserCall where
  parserState : ParserState
  workspaceFolders : List Bytes
  openDocuments : List TextDocument
  fs : FileSystem

namespace ParserCall

def stamp (call : ParserCall) : Bytes := call.parserState.stamp

def snapshot (env : Environment) (call : ParserCall) : Option BuildState :=
  buildStateFromSnapshot env call.fs call.workspaceFolders call.openDocuments call.parserState

/-- The call whose arguments were taken last: one with the stamp already set is skipped. -/
def inForce (calls : List ParserCall) : Option ParserCall :=
  calls.foldl (fun kept call => if kept.map stamp = some call.stamp then kept else some call) none

def finish (env : Environment) (s : PooledService) (call : ParserCall) : Option PooledService :=
  let posted := s.updateParserConfig call.parserState call.workspaceFolders call.openDocuments
  if posted.tasks.isEmpty then some posted
  else (call.snapshot env).bind fun _ => posted.step env (.runTask 0 call.fs)

variable {env : Environment} {earlier calls : List ParserCall} {call last kept : ParserCall}
  {s t : PooledService}

lemma inForce_concat (calls : List ParserCall) (call : ParserCall) :
    inForce (calls ++ [call]) =
      if (inForce calls).map stamp = some call.stamp then inForce calls else some call := by
  rw [inForce, List.foldl_concat, inForce]

structure Settled (env : Environment) (calls : List ParserCall) (s : PooledService) : Prop where
  idle : s.tasks = []
  configured : s.service.parserState = (inForce calls).map parserState
  built : ∀ kept, inForce calls = some kept → kept.snapshot env = some s.service.toBuildState

lemma settled_empty : Settled env [] {} := ⟨rfl, rfl, fun _ h => nomatch h⟩

namespace Settled

lemma hasStamp_iff (h : Settled env calls s) (stamp : Bytes) :
    s.service.hasStamp stamp ↔ (inForce calls).map ParserCall.stamp = some stamp := by
  rw [CrossrefService.hasStamp, h.configured, Option.map_map]
  rfl

lemma skip (h : Settled env calls s) (hstamp : s.service.hasStamp call.stamp) :
    Settled env (calls ++ [call]) s := by
  have hkept : inForce (calls ++ [call]) = inForce calls := by
    rw [inForce_concat, if_pos ((h.hasStamp_iff call.stamp).mp hstamp)]
  exact ⟨h.idle, hkept ▸ h.configured, hkept ▸ h.built⟩

lemma apply (h : Settled env calls s) (hstamp : ¬ s.service.hasStamp call.stamp) {state : BuildState}
    (hstate : call.snapshot env = some state) :
    Settled env (calls ++ [call])
      { service := (s.service.configure call.parserState).writeRebuild state (s.service.rebuildGeneration + 1)
        tasks := [] } := by
  have hcall : inForce (calls ++ [call]) = some call := by
    rw [inForce_concat, if_neg (mt (h.hasStamp_iff call.stamp).mpr hstamp)]
  refine ⟨rfl, ?_, ?_⟩
  · rw [hcall]
    rfl
  · intro kept hkept
    rw [hcall] at hkept
    cases hkept
    exact hstate

lemma step (h : Settled env calls s) (hstep : finish env s call = some t) :
    Settled env (calls ++ [call]) t := by
  rw [finish, PooledService.updateParserConfig] at hstep
  by_cases hstamp : s.service.hasStamp call.parserState.stamp
  · simp only [hstamp, if_true, h.idle, List.isEmpty_nil] at hstep
    cases hstep
    exact h.skip hstamp
  · simp only [hstamp, if_false, h.idle, List.nil_append, List.isEmpty_cons, Bool.false_eq_true,
      Option.bind_eq_some_iff] at hstep
    obtain ⟨state, hstate, hrun⟩ := hstep
    have hset : (s.service.configure call.parserState).hasStamp call.parserState.stamp := rfl
    have hbuilt : buildStateFromSnapshot env call.fs call.workspaceFolders call.openDocuments
      call.parserState = some state := hstate
    simp only [PooledService.step, List.getElem?_cons_zero, Option.bind_some, Task.run,
      CrossrefService.runRebuild, hbuilt, hset, true_and, Option.map_some, List.eraseIdx_cons_zero] at hrun
    cases hrun
    rw [if_pos (show s.service.rebuildGeneration + 1 = (s.service.configure call.parserState).rebuildGeneration
      from rfl)]
    exact h.apply hstamp hstate

end Settled

lemma run_settled (hrun : run (finish env) {} calls = some s) : Settled env calls s := by
  have hall : Along (finish env) (fun _ _ => True) {} calls := along_of_forall (fun _ _ => trivial) _
  rw [← List.nil_append calls]
  exact history_invariant (fun _ _ _ _ h _ hstep => h.step hstep) settled_empty hall hrun

structure Agree (state built : BuildState) : Prop where
  roots : state.workspaceRootPaths = built.workspaceRootPaths
  rules : state.workspaceGitignoreRules = built.workspaceGitignoreRules
  lines : state.lineInfos = built.lineInfos

def ShowsCall (env : Environment) (call : ParserCall) (state : BuildState) : Prop :=
  ∃ built, call.snapshot env = some built ∧ Agree state built

theorem shows_last_call_iff (hrun : run (finish env) {} (earlier ++ [last]) = some s) :
    ShowsCall env last s.service.toBuildState ↔
      ∀ kept, inForce earlier = some kept → kept.stamp = last.stamp →
        ∃ state, kept.snapshot env = some state ∧ ShowsCall env last state := by
  have hsettled := run_settled hrun
  have hforce := inForce_concat earlier last
  by_cases hstamp : (inForce earlier).map stamp = some last.stamp
  · rw [if_pos hstamp] at hforce
    obtain ⟨kept, hkept, hsame⟩ := Option.map_eq_some_iff.mp hstamp
    have hbuilt := hsettled.built kept (hforce.trans hkept)
    constructor
    · intro hlast other hother _
      rw [hkept, Option.some.injEq] at hother
      subst hother
      exact ⟨_, hbuilt, hlast⟩
    · intro h
      obtain ⟨state, hstate, hlast⟩ := h kept hkept hsame
      rw [hbuilt, Option.some.injEq] at hstate
      exact hstate ▸ hlast
  · rw [if_neg hstamp] at hforce
    constructor
    · intro _ kept hkept hsame
      exact absurd (by rw [hkept, Option.map_some, hsame]) hstamp
    · intro _
      exact ⟨_, hsettled.built last hforce, rfl, rfl, rfl⟩

section Examples

def configureFolder (stamp folder : Bytes) : ParserCall where
  parserState := ⟨{}, stamp⟩
  workspaceFolders := [folder]
  openDocuments := []
  fs := oneFile (ascii "x")

theorem new_stamp_shows_last_call :
    ∃ s, run (finish asciiEnvironment) {} ([configureFolder (ascii "one") (ascii "file:///w")] ++
        [configureFolder (ascii "two") (ascii "file:///v")]) = some s ∧
      ShowsCall asciiEnvironment (configureFolder (ascii "two") (ascii "file:///v")) s.service.toBuildState := by
  obtain ⟨s, hs⟩ : ∃ s, run (finish asciiEnvironment) {}
      ([configureFolder (ascii "one") (ascii "file:///w")] ++
        [configureFolder (ascii "two") (ascii "file:///v")]) = some s :=
    Option.isSome_iff_exists.mp (by decide)
  refine ⟨s, hs, (shows_last_call_iff hs).mpr ?_⟩
  intro kept hkept hsame
  cases hkept
  exact absurd hsame (by decide)

theorem same_stamp_keeps_folders :
    ¬ ∀ (env : Environment) (earlier : List ParserCall) (last : ParserCall) (s : PooledService),
      run (finish env) {} (earlier ++ [last]) = some s → ShowsCall env last s.service.toBuildState := by
  intro h
  let first := configureFolder (ascii "one") (ascii "file:///w")
  let second := configureFolder (ascii "one") (ascii "file:///v")
  obtain ⟨s, hs, hroots⟩ := Option.map_eq_some_iff.mp
    (show (run (finish asciiEnvironment) {} ([first] ++ [second])).map
      (fun s => s.service.workspaceRootPaths) = some [FsPath.ofBytes (ascii "/w")] by decide)
  obtain ⟨built, hbuilt, hagree⟩ := h asciiEnvironment [first] second s hs
  have hlast : (second.snapshot asciiEnvironment).map BuildState.workspaceRootPaths =
      some [FsPath.ofBytes (ascii "/v")] := by decide
  rw [hbuilt, Option.map_some, ← hagree.roots, hroots] at hlast
  exact absurd hlast (by decide)

end Examples

end ParserCall

end DltxtBridge.Crossref
