import DltxtBridge.Crossref.Reachable

namespace DltxtBridge.Crossref

open Documents TransitionSystem

def isCall : Event → Bool
  | .runTask _ _ => false
  | .failRebuild _ => false
  | _ => true

def lastCall (events : List Event) : Option Event := (events.filter isCall).getLast?

def lastDisk (events : List Event) : Option FileSystem :=
  (events.filterMap fun event =>
    match event with
    | .runTask _ fs => some fs
    | _ => none).getLast?

section History

lemma lastCall_call {event : Event} (h : isCall event) (events : List Event) :
    lastCall (events ++ [event]) = some event := by
  simp [lastCall, h]

lemma lastCall_runTask (position : ℕ) (fs : FileSystem) (events : List Event) :
    lastCall (events ++ [.runTask position fs]) = lastCall events := by
  simp [lastCall, isCall]

lemma lastDisk_runTask (position : ℕ) (fs : FileSystem) (events : List Event) :
    lastDisk (events ++ [.runTask position fs]) = some fs := by
  simp [lastDisk]

end History

def Concerns (path : FsPath) : Event → Prop
  | .scheduleOpenDocumentUpdate document => document.filePath = path
  | .scheduleClosedDocumentRefresh uri => isSupportedUri uri ∧ filePathFromUri uri = path
  | .runTask _ _ => True
  | _ => False

def Increasing : Option ℤ → List Event → Prop
  | _, [] => True
  | last, .scheduleOpenDocumentUpdate document :: events =>
    (∀ version ∈ last, version < document.version) ∧ Increasing (some document.version) events
  | _, .scheduleClosedDocumentRefresh _ :: events => Increasing none events
  | last, _ :: events => Increasing last events

def Readable (env : Environment) (path : FsPath) : Event → Prop
  | .runTask _ fs => fs.present path ∧ (loadFromFile env.codec fs.read path).isSome
  | _ => True

structure Ready (path : FsPath) (parserState : ParserState) (s : PooledService) : Prop where
  configured : s.service.parserState = some parserState
  applied : s.service.appliedGeneration = s.service.rebuildGeneration
  supported : isTextFile path
  inWorkspace : s.service.isInWorkspaceUnlocked path
  idle : s.tasks = []

section Parsed

variable (env : Environment) (parserState : ParserState)

def parsedText (document : TextDocument) : List ParsedPair :=
  ((env.makeTextParser parserState.config).bind fun parser => parser document.getContent).getD []

def parsedFile (fs : FileSystem) (path : FsPath) : List ParsedPair :=
  ((if fs.present path then loadFromFile env.codec fs.read path else none).map
    (parsedText env parserState)).getD []

end Parsed

def Holds (path : FsPath) (pairs : List ParsedPair) (s : CrossrefService) : Prop :=
  s.stored path.genericString = pairs.map (BuildState.lineOf path.genericString path.filename)

/-- The index has the lines of the last scheduled document and its version, or those of the
file on disk when the last call was a close. -/
def Reflects (env : Environment) (path : FsPath) (parserState : ParserState) (events : List Event)
    (s : CrossrefService) : Prop :=
  match lastCall events with
  | some (.scheduleOpenDocumentUpdate document) =>
    Holds path (parsedText env parserState document) s ∧
      s.openDocumentVersions.lookup path.genericString = some document.version
  | some (.scheduleClosedDocumentRefresh _) =>
    ∃ fs, lastDisk events = some fs ∧ Holds path (parsedFile env parserState fs path) s
  | _ => True

/-- The newest task does not overtake another one, and a document with the recorded version
is scheduled only when its lines are in the index and no task waits. -/
def Timely (env : Environment) (path : FsPath) (parserState : ParserState) (s : PooledService) :
    Event → Prop
  | .runTask position _ => position + 1 < s.tasks.length ∨ s.tasks.length = 1
  | .scheduleOpenDocumentUpdate document =>
    s.service.openDocumentVersions.lookup path.genericString = some document.version →
      s.tasks = [] ∧ Holds path (parsedText env parserState document) s.service
  | _ => True

def postedTask (path : FsPath) (parserState : ParserState) : Event → Option Task
  | .scheduleOpenDocumentUpdate document => some (.update document parserState)
  | .scheduleClosedDocumentRefresh _ => some (.refresh path parserState)
  | _ => none

structure Serving (path : FsPath) (parserState : ParserState) (s : CrossrefService) : Prop where
  consistent : BuildState.Consistent s.toBuildState
  configured : s.parserState = some parserState
  inWorkspace : s.isInWorkspaceUnlocked path

namespace Serving

variable {env : Environment} {path : FsPath} {p : ParserState} {s t : CrossrefService}

lemma hasStamp (h : Serving path p s) : s.hasStamp p.stamp := by
  rw [CrossrefService.hasStamp, h.configured, Option.map_some]

lemma of_frame (h : Serving path p s) (hconsistent : BuildState.Consistent t.toBuildState)
    (hconfigured : t.parserState = s.parserState) (hframe : t.frame = s.frame) : Serving path p t where
  consistent := hconsistent
  configured := hconfigured.trans h.configured
  inWorkspace := (BuildState.isInWorkspace_of_frame hframe path).trans h.inWorkspace

lemma writeUpdate (h : Serving path p s) {document : TextDocument} (hpath : document.filePath = path)
    (pairs : List ParsedPair) :
    Serving path p (s.writeUpdate document pairs) ∧ Holds path pairs (s.writeUpdate document pairs) ∧
      (s.writeUpdate document pairs).openDocumentVersions.lookup path.genericString =
        some document.version := by
  subst hpath
  refine ⟨h.of_frame ?_ rfl ?_, ?_, ?_⟩
  · have hreplaced :=
      h.consistent.replaceDocument document.filePath.genericString document.filePath.filename pairs
    exact { hreplaced with }
  · exact (BuildState.replaceDocument_frame _ _ _ pairs).1
  · exact (h.consistent.stored_replaceDocument _ _ pairs _).trans (if_pos rfl)
  · exact (FiniteMap.lookup_insert _ _ _ _).trans (if_pos rfl)

lemma writeUnparsed (h : Serving path p s) {document : TextDocument} (hpath : document.filePath = path) :
    Serving path p (s.writeUnparsed document) ∧ Holds path [] (s.writeUnparsed document) ∧
      (s.writeUnparsed document).openDocumentVersions.lookup path.genericString =
        some document.version := by
  subst hpath
  have herased := h.consistent.eraseFile document.filePath.genericString
  refine ⟨h.of_frame ?_ rfl ?_, ?_, ?_⟩
  · exact { herased with
      indexed := fun g ids hids => Finset.mem_insert_of_mem (herased.indexed g ids hids) }
  · exact (BuildState.eraseFile_frame _ _).1
  · exact (h.consistent.stored_eraseFile _ _).trans (if_pos rfl)
  · exact (FiniteMap.lookup_insert _ _ _ _).trans (if_pos rfl)

lemma runUpdate (h : Serving path p s) {document : TextDocument} (hpath : document.filePath = path)
    (hrun : s.runUpdate env document p = some t) :
    Serving path p t ∧ Holds path (parsedText env p document) t ∧
      t.openDocumentVersions.lookup path.genericString = some document.version := by
  obtain ⟨parser, hparser, rfl⟩ := Option.map_eq_some_iff.mp hrun
  have hguard : s.hasStamp p.stamp ∧ s.isInWorkspaceUnlocked document.filePath :=
    ⟨h.hasStamp, hpath ▸ h.inWorkspace⟩
  rw [if_pos hguard, parsedText, hparser, Option.bind_some]
  cases parser document.getContent with
  | none => exact h.writeUnparsed hpath
  | some pairs => exact h.writeUpdate hpath pairs

lemma writeRefresh (h : Serving path p s) (pairs : List ParsedPair) (timestamp : Option ℤ) :
    Serving path p (s.writeRefresh path pairs timestamp) ∧
      Holds path pairs (s.writeRefresh path pairs timestamp) := by
  refine ⟨h.of_frame ?_ rfl ?_, ?_⟩
  · exact { h.consistent.replaceDocument path.genericString path.filename pairs with }
  · exact (BuildState.replaceDocument_frame _ _ _ pairs).1
  · exact (h.consistent.stored_replaceDocument _ _ pairs _).trans (if_pos rfl)

lemma eraseFile (h : Serving path p s) :
    Serving path p (s.eraseFileUnlocked path.genericString) ∧
      Holds path [] (s.eraseFileUnlocked path.genericString) :=
  ⟨h.of_frame (h.consistent.eraseFile _) rfl (BuildState.eraseFile_frame _ _).1,
    (h.consistent.stored_eraseFile _ _).trans (if_pos rfl)⟩

lemma getD_refreshedPairs (fs : FileSystem) :
    (if fs.present path then CrossrefService.refreshedPairs env fs path p else none).getD [] =
      parsedFile env p fs path := by
  rw [parsedFile]
  split_ifs
  · cases hload : loadFromFile env.codec fs.read path with
    | none => simp [CrossrefService.refreshedPairs, hload]
    | some document =>
      cases hparser : env.makeTextParser p.config <;>
        simp [CrossrefService.refreshedPairs, parsedText, hload, hparser]
  · rfl

lemma runRefresh (h : Serving path p s) (env : Environment) (fs : FileSystem) :
    Serving path p (s.runRefresh env fs path p) ∧
      Holds path (parsedFile env p fs path) (s.runRefresh env fs path p) := by
  rw [CrossrefService.runRefresh, if_pos h.hasStamp, ← getD_refreshedPairs]
  cases (if fs.present path then CrossrefService.refreshedPairs env fs path p else none) with
  | none => exact h.eraseFile
  | some pairs =>
    simp only [h.inWorkspace, if_true]
    exact h.writeRefresh pairs _

end Serving

structure Pending (env : Environment) (path : FsPath) (parserState : ParserState)
    (events : List Event) (s : PooledService) : Prop where
  serving : Serving path parserState s.service
  posted : ∀ task ∈ s.tasks,
    ∃ event, Concerns path event ∧ postedTask path parserState event = some task
  newest : ∀ task, s.tasks.getLast? = some task →
    ∃ event, lastCall events = some event ∧ Concerns path event ∧
      postedTask path parserState event = some task
  reflects : s.tasks = [] → Reflects env path parserState events s.service

lemma eraseIdx_cases {α : Type} {l : List α} {i : ℕ} {a : α} (ha : l[i]? = some a)
    (h : i + 1 < l.length ∨ l.length = 1) :
    (l.eraseIdx i ≠ [] ∧ (l.eraseIdx i).getLast? = l.getLast?) ∨ (l = [a] ∧ l.eraseIdx i = []) := by
  rcases h with hearlier | halone
  · left
    have hlast : (l.eraseIdx i).getLast? = l.getLast? := by
      rw [List.eraseIdx_eq_take_drop_succ, List.getLast?_append, List.getLast?_drop,
        if_neg (not_le.mpr hearlier)]
      cases hl : l.getLast? with
      | none =>
        rw [List.getLast?_eq_none_iff] at hl
        simp [hl] at hearlier
      | some b => rfl
    refine ⟨?_, hlast⟩
    intro hnil
    rw [hnil, List.getLast?_nil, eq_comm, List.getLast?_eq_none_iff] at hlast
    simp [hlast] at hearlier
  · right
    obtain ⟨b, rfl⟩ := List.length_eq_one_iff.mp halone
    cases i with
    | zero =>
      cases ha
      exact ⟨rfl, rfl⟩
    | succ i => cases ha

namespace Pending

variable {env : Environment} {path : FsPath} {p : ParserState} {past : List Event}
  {s t : PooledService} {event : Event}

lemma post (h : Pending env path p past s) {task : Task} (hcall : isCall event)
    (hconcerns : Concerns path event) (htask : postedTask path p event = some task) :
    Pending env path p (past ++ [event]) { s with tasks := s.tasks ++ [task] } where
  serving := h.serving
  posted other hother := by
    rw [List.mem_append, List.mem_singleton] at hother
    rcases hother with hother | rfl
    · exact h.posted other hother
    · exact ⟨event, hconcerns, htask⟩
  newest last hlast := by
    rw [List.getLast?_concat, Option.some.injEq] at hlast
    subst hlast
    exact ⟨event, lastCall_call hcall past, hconcerns, htask⟩
  reflects hidle := absurd hidle (List.append_ne_nil_of_right_ne_nil _ (List.cons_ne_nil _ _))

lemma update (h : Pending env path p past s) (hsupported : isTextFile path) {document : TextDocument}
    (hpath : document.filePath = path)
    (htimely : Timely env path p s (.scheduleOpenDocumentUpdate document)) :
    Pending env path p (past ++ [.scheduleOpenDocumentUpdate document])
      (s.scheduleOpenDocumentUpdate document) := by
  subst hpath
  rw [PooledService.scheduleOpenDocumentUpdate, h.serving.configured]
  simp only [hsupported, h.serving.inWorkspace, true_and]
  by_cases hversion :
      s.service.openDocumentVersions.lookup document.filePath.genericString = some document.version
  · obtain ⟨hidle, hholds⟩ := htimely hversion
    rw [if_neg (not_not.mpr hversion)]
    refine ⟨h.serving, h.posted, ?_, ?_⟩
    · intro task htask
      simp [hidle] at htask
    · intro _
      rw [Reflects, lastCall_call rfl]
      exact ⟨hholds, hversion⟩
  · rw [if_pos hversion]
    exact h.post rfl rfl rfl

lemma close (h : Pending env path p past s) {uri : Bytes} (hsupported : isSupportedUri uri)
    (hpath : filePathFromUri uri = path) :
    Pending env path p (past ++ [.scheduleClosedDocumentRefresh uri])
      (s.scheduleClosedDocumentRefresh uri) := by
  simp only [PooledService.scheduleClosedDocumentRefresh, h.serving.configured, hpath, hsupported,
    h.serving.inWorkspace, not_true_eq_false, if_false, if_true]
  exact h.post rfl ⟨hsupported, hpath⟩ rfl

lemma runPosted (past : List Event) {service later : CrossrefService} (h : Serving path p service)
    (hconcerns : Concerns path event) {task : Task} (htask : postedTask path p event = some task)
    {fs : FileSystem} (hrun : task.run env fs service = some later) (position : ℕ) :
    Serving path p later ∧
      (lastCall past = some event → Reflects env path p (past ++ [.runTask position fs]) later) := by
  cases event with
  | scheduleOpenDocumentUpdate document =>
    cases htask
    obtain ⟨hserving, hholds, hversion⟩ := h.runUpdate hconcerns hrun
    refine ⟨hserving, fun hlast => ?_⟩
    rw [Reflects, lastCall_runTask, hlast]
    exact ⟨hholds, hversion⟩
  | scheduleClosedDocumentRefresh uri =>
    cases htask
    cases hrun
    obtain ⟨hserving, hholds⟩ := h.runRefresh env fs
    refine ⟨hserving, fun hlast => ?_⟩
    rw [Reflects, lastCall_runTask, hlast]
    exact ⟨fs, lastDisk_runTask position fs past, hholds⟩
  | updateParserConfig | clearParserConfig | runTask | failRebuild => cases htask

lemma runTask (h : Pending env path p past s) {position : ℕ} {fs : FileSystem}
    (htimely : Timely env path p s (.runTask position fs))
    (hstep : PooledService.step env s (.runTask position fs) = some t) :
    Pending env path p (past ++ [.runTask position fs]) t := by
  rw [PooledService.step, Option.bind_eq_some_iff] at hstep
  obtain ⟨task, htask, hstep⟩ := hstep
  obtain ⟨service, hrun, rfl⟩ := Option.map_eq_some_iff.mp hstep
  obtain ⟨event, hconcerns, hposted⟩ := h.posted task (List.mem_of_getElem? htask)
  refine ⟨(runPosted past h.serving hconcerns hposted hrun position).1,
    fun other hother => h.posted other (List.mem_of_mem_eraseIdx hother), ?_, ?_⟩
  · intro last hlast
    rw [lastCall_runTask]
    rcases eraseIdx_cases htask htimely with ⟨-, hsame⟩ | ⟨-, hnil⟩
    · exact h.newest last (hsame ▸ hlast)
    · simp [hnil] at hlast
  · intro hidle
    rcases eraseIdx_cases htask htimely with ⟨hmore, -⟩ | ⟨halone, -⟩
    · exact absurd hidle hmore
    · obtain ⟨call, hlast, hcall, htask⟩ := h.newest task (by rw [halone]; rfl)
      exact (runPosted past h.serving hcall htask hrun position).2 hlast

lemma step (h : Pending env path p past s) (hsupported : isTextFile path)
    (hmeets : Concerns path event ∧ Timely env path p s event)
    (hstep : PooledService.step env s event = some t) : Pending env path p (past ++ [event]) t := by
  obtain ⟨hconcerns, htimely⟩ := hmeets
  cases event with
  | scheduleOpenDocumentUpdate document =>
    cases hstep
    exact h.update hsupported hconcerns htimely
  | scheduleClosedDocumentRefresh uri =>
    cases hstep
    exact h.close hconcerns.1 hconcerns.2
  | runTask position fs => exact h.runTask htimely hstep
  | updateParserConfig | clearParserConfig | failRebuild => exact hconcerns.elim

end Pending

section Sessions

variable {env : Environment} {path : FsPath} {p : ParserState} {s t : PooledService}
  {before events : List Event}

lemma pending_of_ready (hbefore : run (PooledService.step env) {} before = some s)
    (hready : Ready path p s) : Pending env path p [] s where
  serving := ⟨(PooledService.run_wellFormed hbefore).consistent, hready.configured, hready.inWorkspace⟩
  posted task htask := by simp [hready.idle] at htask
  newest task htask := by simp [hready.idle] at htask
  reflects _ := trivial

theorem reflects_of_idle (hbefore : run (PooledService.step env) {} before = some s)
    (hready : Ready path p s) (hconcerns : ∀ event ∈ events, Concerns path event)
    (htimely : Along (PooledService.step env) (Timely env path p) s events)
    (hrun : run (PooledService.step env) s events = some t) (hidle : t.tasks = []) :
    Reflects env path p events t.service := by
  have hmeets := (along_of_forall hconcerns s).and htimely
  exact (history_invariant (fun _ _ _ _ h hm hs => h.step hready.supported hm hs)
    (pending_of_ready hbefore hready) hmeets hrun).reflects hidle

end Sessions

section Examples

instance (path : FsPath) : DecidablePred (Concerns path)
  | .scheduleOpenDocumentUpdate document => inferInstanceAs (Decidable (document.filePath = path))
  | .scheduleClosedDocumentRefresh uri =>
    inferInstanceAs (Decidable (isSupportedUri uri ∧ filePathFromUri uri = path))
  | .runTask _ _ => isTrue trivial
  | .updateParserConfig _ _ _ | .clearParserConfig | .failRebuild _ => isFalse id

instance (env : Environment) (path : FsPath) : DecidablePred (Readable env path)
  | .runTask _ fs =>
    inferInstanceAs (Decidable (fs.present path ∧ (loadFromFile env.codec fs.read path).isSome))
  | .scheduleOpenDocumentUpdate _ | .scheduleClosedDocumentRefresh _ | .updateParserConfig _ _ _
  | .clearParserConfig | .failRebuild _ => isTrue trivial

instance (path : FsPath) (pairs : List ParsedPair) (s : CrossrefService) :
    Decidable (Holds path pairs s) :=
  inferInstanceAs (Decidable (_ = _))

instance (env : Environment) (path : FsPath) (p : ParserState) (s : PooledService) :
    DecidablePred (Timely env path p s)
  | .runTask position _ =>
    inferInstanceAs (Decidable (position + 1 < s.tasks.length ∨ s.tasks.length = 1))
  | .scheduleOpenDocumentUpdate document =>
    decidable_of_iff
      (s.service.openDocumentVersions.lookup path.genericString = some document.version →
        s.tasks.length = 0 ∧ Holds path (parsedText env p document) s.service)
      (by rw [Timely, List.length_eq_zero_iff])
  | .scheduleClosedDocumentRefresh _ | .updateParserConfig _ _ _ | .clearParserConfig
  | .failRebuild _ => isTrue trivial

def examplePath : FsPath := FsPath.ofBytes (ascii "/w/a.txt")

def exampleParser : ParserState := ⟨{}, ascii "one"⟩

def indexing : List Event :=
  [.updateParserConfig exampleParser [ascii "file:///w"] [], .runTask 0 (oneFile (ascii "x"))]

def indexed : PooledService := (run (PooledService.step asciiEnvironment) {} indexing).getD {}

lemma run_indexing : run (PooledService.step asciiEnvironment) {} indexing = some indexed := by
  obtain ⟨s, hs⟩ : ∃ s, run (PooledService.step asciiEnvironment) {} indexing = some s :=
    Option.isSome_iff_exists.mp (by decide)
  rw [indexed, hs, Option.getD_some]

lemma ready_indexed : Ready examplePath exampleParser indexed where
  configured := rfl
  applied := by decide
  supported := by decide
  inWorkspace := by decide
  idle := rfl

def reopenedSession : List Event :=
  [.scheduleOpenDocumentUpdate (editedFile 1 [97]), .scheduleOpenDocumentUpdate (editedFile 2 [98]),
    .runTask 0 (oneFile (ascii "x")), .runTask 0 (oneFile (ascii "x")),
    .scheduleClosedDocumentRefresh (ascii "file:///w/a.txt"),
    .scheduleOpenDocumentUpdate (editedFile 1 [99]),
    .runTask 0 (oneFile (ascii "y")), .runTask 0 (oneFile (ascii "y"))]

theorem reflects_of_idle_reopenedSession :
    ∃ t, run (PooledService.step asciiEnvironment) indexed reopenedSession = some t ∧
      Reflects asciiEnvironment examplePath exampleParser reopenedSession t.service := by
  obtain ⟨t, ht⟩ : ∃ t, run (PooledService.step asciiEnvironment) indexed reopenedSession = some t :=
    Option.isSome_iff_exists.mp (by decide)
  have hidle : (run (PooledService.step asciiEnvironment) indexed reopenedSession).map
      (fun t => t.tasks.length) = some 0 := by decide
  rw [ht, Option.map_some, Option.some.injEq, List.length_eq_zero_iff] at hidle
  exact ⟨t, ht, reflects_of_idle run_indexing ready_indexed (by decide) (by decide) ht hidle⟩

def overtakenEdit : List Event :=
  [.scheduleOpenDocumentUpdate (editedFile 1 [97]), .scheduleOpenDocumentUpdate (editedFile 2 [98]),
    .runTask 1 (oneFile (ascii "x")), .runTask 0 (oneFile (ascii "x"))]

theorem exists_not_reflects :
    ¬ ∀ (env : Environment) (path : FsPath) (p : ParserState) (before events : List Event)
      (s t : PooledService), run (PooledService.step env) {} before = some s → Ready path p s →
      (∀ event ∈ events, Concerns path event) → (∀ event ∈ events, Readable env path event) →
      Increasing none events → run (PooledService.step env) s events = some t → t.tasks = [] →
      Reflects env path p events t.service := by
  intro h
  obtain ⟨t, ht⟩ : ∃ t, run (PooledService.step asciiEnvironment) indexed overtakenEdit = some t :=
    Option.isSome_iff_exists.mp (by decide)
  have hfinal : (run (PooledService.step asciiEnvironment) indexed overtakenEdit).map
      (fun t => (t.tasks.length, t.service.openDocumentVersions.lookup examplePath.genericString)) =
      some (0, some 1) := by decide
  rw [ht, Option.map_some, Option.some.injEq, Prod.mk.injEq, List.length_eq_zero_iff] at hfinal
  have hincreasing : Increasing none overtakenEdit := by
    refine ⟨?_, ?_, trivial⟩
    · intro version hversion
      cases hversion
    · intro version hversion
      cases hversion
      decide
  obtain ⟨-, hversion⟩ : Reflects asciiEnvironment examplePath exampleParser overtakenEdit t.service :=
    h _ _ _ _ _ _ _ run_indexing ready_indexed (by decide) (by decide) hincreasing ht hfinal.1
  rw [hfinal.2] at hversion
  exact absurd hversion (by decide)

end Examples

end DltxtBridge.Crossref
