import DltxtBridge.Crossref.SearchJson
import DltxtBridge.Crossref.SearchWait
import DltxtBridge.Protocol.Requests

namespace DltxtBridge.Crossref

open Documents Protocol TransitionSystem

def lineSearchResultToJson (codec : Codec) (result : LineSearchResult) : Option Json := do
  let jpLine ← utf16ToUtf8 codec result.lineInfo.jpLine
  let trLine ← utf16ToUtf8 codec result.lineInfo.trLine
  return .object
    [(ascii "lineInfo", .object
      [(ascii "fileName", .string result.lineInfo.fileName), (ascii "jpLine", .string jpLine),
        (ascii "lineNumber", .unsigned (.ofNat result.lineInfo.lineNumber)), (ascii "trLine", .string trLine)]),
      (ascii "score", .integer (Int64.ofInt result.score))]

def lineMatchToJson (codec : Codec) (found : LineMatch) : Option Json := do
  let refs ← found.refs.mapM (lineSearchResultToJson codec)
  return .object
    [(ascii "exactCount", .unsigned (.ofNat found.exactCount)),
      (ascii "lineNumber", .unsigned (.ofNat found.lineNumber)), (ascii "refs", .array refs)]

/-- What the second locked section makes of the candidates that the first one has found. -/
def LineQuery.scoreLines {K : Type} (q : LineQuery) (s : BuildState) (rawCandidates : List (SearchResult K)) :
    List LineSearchResult × ℕ :=
  let results := q.rankLines (rawCandidates.filterMap fun candidate => q.lineResult s.lineInfos candidate.lineId)
  (results, results.countP fun result => result.score = 100)

def LineQuery.reportLines (q : LineQuery) : List LineSearchResult × ℕ → Option LineMatch
  | (refs, exactCount) =>
    if refs.isEmpty then none
    else if q.limit ≤ exactCount then none
    else some ⟨q.currentLineNumber, exactCount, refs⟩

lemma LineQuery.reportLines_eq_some {q : LineQuery} {scored : List LineSearchResult × ℕ} {lineMatch : LineMatch} :
    q.reportLines scored = some lineMatch ↔
      scored.1 ≠ [] ∧ scored.2 < q.limit ∧ lineMatch = ⟨q.currentLineNumber, scored.2, scored.1⟩ := by
  obtain ⟨refs, exactCount⟩ := scored
  simp only [reportLines, List.isEmpty_iff, ne_eq, ← not_le]
  split_ifs with hempty hexact
  · simp [hempty]
  · simp [hexact]
  · simp [hempty, hexact, eq_comm]

structure SearchRequest where
  currentDocument : TextDocument
  threshold : ℤ
  limit : ℕ

def SearchRequest.query (request : SearchRequest) (pair : ParsedPair) : LineQuery :=
  lineQuery request.currentDocument request.threshold request.limit pair

def SearchRequest.Unsearchable (request : SearchRequest) : Prop :=
  request.limit = 0 ∨ ¬ isTextFile request.currentDocument.filePath

instance (request : SearchRequest) : Decidable request.Unsearchable := inferInstanceAs (Decidable (_ ∨ _))

inductive SearchPhase (K : Type)
  | entering
  | waiting
  | searching (pair : ParsedPair) (rest : List ParsedPair) (found : List LineMatch)
  | retrieved (rawCandidates : List (SearchResult K)) (pair : ParsedPair) (rest : List ParsedPair)
    (found : List LineMatch)
  | returned (found : List LineMatch)
  | thrown

structure SearchRun (K : Type) where
  searched : SearchedService := {}
  phase : SearchPhase K := .entering

namespace SearchRun

inductive Event
  | other (event : SearchedService.Event)
  | enter
  | parse
  | retrieve
  | score

section Model

variable {K : Type} [Field K] [LinearOrder K] (A : ScoreArithmetic K) (P : Platform K) (env : Environment)
  (request : SearchRequest)

def service (r : SearchRun K) : BuildState := r.searched.pool.service.toBuildState

def resume (found : List LineMatch) : List ParsedPair → SearchPhase K
  | [] => .returned found
  | pair :: rest => .searching pair rest found

/-- A parser that cannot be made throws, and a document that does not parse has no matches. -/
def parsed (parserState : Option ParserState) : SearchPhase K :=
  match parserState with
  | none => .returned []
  | some parserState =>
    match env.makeTextParser parserState.config with
    | none => .thrown
    | some parser =>
      match parser request.currentDocument.getContent with
      | none => .returned []
      | some pairs => resume [] pairs

def reported (found : List LineMatch) (rest : List ParsedPair) : Option LineMatch → SearchPhase K
  | none => resume found rest
  | some lineMatch =>
    if (lineMatchToJson env.codec lineMatch).isSome then resume (found ++ [lineMatch]) rest else .thrown

def step (r : SearchRun K) : Event → Option (SearchRun K)
  | .other .enter => none
  | .other event => (r.searched.step env event).map fun searched => { r with searched := searched }
  | .enter =>
    match r.phase with
    | .entering =>
      if request.Unsearchable then
        some { r with phase := .returned [] }
      else (r.searched.step env .enter).map fun searched => { searched := searched, phase := .waiting }
    | _ => none
  | .parse =>
    match r.phase, r.searched.waitSection with
    | .waiting, .ended result => some { r with phase := parsed env request result.parserState }
    | _, _ => none
  | .retrieve =>
    match r.phase with
    | .searching pair rest found =>
      let q := request.query pair
      let rawCandidates := SimilarityIndex.search A P r.service.index q.query 0 q.rawLimit
      some { r with phase := .retrieved rawCandidates pair rest found }
    | _ => none
  | .score =>
    match r.phase with
    | .retrieved rawCandidates pair rest found =>
      let q := request.query pair
      some { r with phase := reported env found rest (q.reportLines (q.scoreLines r.service rawCandidates)) }
    | _ => none

def lineMatchAcross (earlier later : BuildState) (pair : ParsedPair) : Option LineMatch :=
  let q := request.query pair
  q.reportLines (q.scoreLines later (SimilarityIndex.search A P earlier.index q.query 0 q.rawLimit))

def documentPairs (parserState : Option ParserState) : Option (List ParsedPair) :=
  match parserState with
  | none => some []
  | some parserState =>
    (env.makeTextParser parserState.config).map fun parser =>
      (parser request.currentDocument.getContent).getD []

/-- Each line has found what two states of the run, one after the other, make of it. -/
def Searched (start : SearchRun K) (events : List Event) (pairs : List ParsedPair) (found : List LineMatch) : Prop :=
  ∃ results : List (Option LineMatch), found = results.reduceOption ∧
    List.Forall₂ (fun pair result => ∃ u v, Passes (step A P env request) start events u v ∧
      result = lineMatchAcross A P request u.service v.service pair) pairs results

def ParsedAs (start : SearchRun K) (events : List Event) (pairs : List ParsedPair) : Prop :=
  ¬ request.Unsearchable ∧ ∃ u, Passes (step A P env request) start events u u ∧
    documentPairs env request u.searched.pool.service.parserState = some pairs

def Explained (start : SearchRun K) (events : List Event) (r : SearchRun K) : SearchPhase K → Prop
  | .entering => True
  | .waiting => ¬ request.Unsearchable ∧ ∀ result, r.searched.waitSection = .ended result →
      ∃ u, Passes (step A P env request) start events u u ∧
        u.searched.pool.service.parserState = result.parserState
  | .searching pair rest found => ∃ done,
      ParsedAs A P env request start events (done ++ pair :: rest) ∧ Searched A P env request start events done found
  | .retrieved rawCandidates pair rest found => ∃ done,
      ParsedAs A P env request start events (done ++ pair :: rest) ∧
      Searched A P env request start events done found ∧
      ∃ u, Passes (step A P env request) start events u r ∧ rawCandidates =
        SimilarityIndex.search A P u.service.index (request.query pair).query 0 (request.query pair).rawLimit
  | .returned found => request.Unsearchable ∧ found = [] ∨ ∃ pairs,
      ParsedAs A P env request start events pairs ∧ Searched A P env request start events pairs found
  | .thrown => True

end Model

section Steps

variable {K : Type} [Field K] [LinearOrder K] {A : ScoreArithmetic K} {P : Platform K} {env : Environment}
  {request : SearchRequest} {r t : SearchRun K} {event : Event}

inductive Stepped (A : ScoreArithmetic K) (P : Platform K) (env : Environment) (request : SearchRequest)
    (r : SearchRun K) : Event → SearchRun K → Prop
  | other (event : SearchedService.Event) (searched : SearchedService)
    (hstep : r.searched.step env event = some searched) :
    Stepped A P env request r (.other event) { r with searched := searched }
  | unsearchable (hphase : r.phase = .entering) (hrequest : request.Unsearchable) :
    Stepped A P env request r .enter { r with phase := .returned [] }
  | entered (searched : SearchedService) (hphase : r.phase = .entering) (hrequest : ¬ request.Unsearchable)
    (hstep : r.searched.step env .enter = some searched) :
    Stepped A P env request r .enter { searched := searched, phase := .waiting }
  | parsed (result : WaitEnd) (hphase : r.phase = .waiting) (hend : r.searched.waitSection = .ended result) :
    Stepped A P env request r .parse { r with phase := parsed env request result.parserState }
  | retrieved (pair : ParsedPair) (rest : List ParsedPair) (found : List LineMatch)
    (hphase : r.phase = .searching pair rest found) :
    Stepped A P env request r .retrieve
      { r with
        phase := .retrieved (SimilarityIndex.search A P r.service.index (request.query pair).query 0
          (request.query pair).rawLimit) pair rest found }
  | scored (rawCandidates : List (SearchResult K)) (pair : ParsedPair) (rest : List ParsedPair)
    (found : List LineMatch) (hphase : r.phase = .retrieved rawCandidates pair rest found) :
    Stepped A P env request r .score
      { r with
        phase := reported env found rest
          ((request.query pair).reportLines ((request.query pair).scoreLines r.service rawCandidates)) }

lemma stepped_of_step (hstep : r.step A P env request event = some t) :
    Stepped A P env request r event t := by
  cases event with
  | other event =>
    have hother : (r.searched.step env event).map (fun searched => { r with searched := searched }) = some t := by
      cases event with
      | enter => cases hstep
      | _ => exact hstep
    obtain ⟨searched, hsearched, rfl⟩ := Option.map_eq_some_iff.mp hother
    exact .other event searched hsearched
  | enter =>
    simp only [step] at hstep
    split at hstep
    · rename_i hphase
      split_ifs at hstep with hrequest
      · cases hstep
        exact .unsearchable hphase hrequest
      · obtain ⟨searched, hsearched, rfl⟩ := Option.map_eq_some_iff.mp hstep
        exact .entered searched hphase hrequest hsearched
    · cases hstep
  | parse =>
    simp only [step] at hstep
    split at hstep
    · rename_i hphase hend
      cases hstep
      exact .parsed _ hphase hend
    · cases hstep
  | retrieve =>
    simp only [step] at hstep
    split at hstep
    · rename_i hphase
      cases hstep
      exact .retrieved _ _ _ hphase
    · cases hstep
  | score =>
    simp only [step] at hstep
    split at hstep
    · rename_i hphase
      cases hstep
      exact .scored _ _ _ _ hphase
    · cases hstep

lemma read_of_enter {s t : SearchedService} (hstep : s.step env .enter = some t) {result : WaitEnd}
    (hend : t.waitSection = .ended result) : t.pool.service.parserState = result.parserState := by
  rw [SearchedService.step] at hstep
  split at hstep
  · cases hstep
  · cases hstep
    rw [SearchedService.enter] at hend ⊢
    split_ifs at hend ⊢
    cases hend
    rfl

lemma ended_of_step {s t : SearchedService} {event : SearchedService.Event} (hstep : s.step env event = some t)
    {result : WaitEnd} (hend : t.waitSection = .ended result) :
    s.waitSection = .ended result ∨ t.pool.service.parserState = result.parserState := by
  have hreconsider : ∀ target, (s.reconsider target).waitSection = .ended result →
      (s.reconsider target).pool.service.parserState = result.parserState := by
    intro target h
    rw [SearchedService.reconsider] at h ⊢
    split_ifs at h ⊢
    cases h
    rfl
  cases event with
  | service event =>
    obtain ⟨pool, -, rfl⟩ := Option.map_eq_some_iff.mp hstep
    exact .inl hend
  | notifyAll =>
    rw [SearchedService.step] at hstep
    split_ifs at hstep
    simp only at hstep
    split at hstep
    · cases hstep
      cases hend
    · cases hstep
      exact .inl hend
  | enter => exact .inr (read_of_enter hstep hend)
  | wake | spuriousWake =>
    rw [SearchedService.step] at hstep
    split at hstep
    · cases hstep
      exact .inr (hreconsider _ hend)
    · cases hstep
  | deadline =>
    rw [SearchedService.step] at hstep
    split at hstep
    · cases hstep
      cases hend
      exact .inr rfl
    · cases hstep

omit [Field K] [LinearOrder K] in
lemma parsed_eq (env : Environment) (request : SearchRequest) (parserState : Option ParserState) :
    (parsed env request parserState : SearchPhase K) =
      match documentPairs env request parserState with
      | none => .thrown
      | some pairs => resume [] pairs := by
  cases parserState with
  | none => rfl
  | some parserState =>
    simp only [parsed, documentPairs]
    cases env.makeTextParser parserState.config with
    | none => rfl
    | some parser =>
      simp only [Option.map_some]
      cases parser request.currentDocument.getContent <;> rfl

end Steps

section Runs

variable {K : Type} [Field K] [LinearOrder K] {A : ScoreArithmetic K} {P : Platform K} {env : Environment}
  {request : SearchRequest} {start r t : SearchRun K} {events : List Event} {event : Event}
  {pairs rest : List ParsedPair} {pair : ParsedPair} {found : List LineMatch}

lemma Searched.append (h : Searched A P env request start events pairs found) (more : List Event) :
    Searched A P env request start (events ++ more) pairs found := by
  obtain ⟨results, hfound, hresults⟩ := h
  refine ⟨results, hfound, hresults.imp ?_⟩
  rintro pair result ⟨u, v, hpasses, hresult⟩
  exact ⟨u, v, hpasses.append more, hresult⟩

lemma ParsedAs.append (h : ParsedAs A P env request start events pairs) (more : List Event) :
    ParsedAs A P env request start (events ++ more) pairs := by
  obtain ⟨hrequest, u, hpasses, hpairs⟩ := h
  exact ⟨hrequest, u, hpasses.append more, hpairs⟩

lemma searched_nil : Searched A P env request start events [] [] := ⟨[], rfl, .nil⟩

lemma Searched.concat (h : Searched A P env request start events pairs found) (pair : ParsedPair) {u v : SearchRun K}
    (hpasses : Passes (step A P env request) start events u v) :
    Searched A P env request start events (pairs ++ [pair])
      (found ++ (lineMatchAcross A P request u.service v.service pair).toList) := by
  obtain ⟨results, rfl, hresults⟩ := h
  refine ⟨results ++ [lineMatchAcross A P request u.service v.service pair], ?_, ?_⟩
  · cases lineMatchAcross A P request u.service v.service pair <;> simp [List.reduceOption]
  · exact List.rel_append hresults (.cons ⟨u, v, hpasses, rfl⟩ .nil)

lemma Searched.exists_across (h : Searched A P env request start events pairs found) {lineMatch : LineMatch}
    (hmem : lineMatch ∈ found) : ∃ u v pair, Passes (step A P env request) start events u v ∧
      lineMatchAcross A P request u.service v.service pair = some lineMatch := by
  obtain ⟨results, rfl, hresults⟩ := h
  rw [List.reduceOption_mem_iff] at hmem
  obtain ⟨index, hindex, hresult⟩ := List.mem_iff_getElem.mp hmem
  obtain ⟨u, v, hpasses, hacross⟩ := hresults.get (hresults.length_eq ▸ hindex) hindex
  exact ⟨u, v, _, hpasses, hacross.symm.trans hresult⟩

lemma explained_resume (done : List ParsedPair)
    (hparsed : ParsedAs A P env request start events (done ++ rest))
    (hsearched : Searched A P env request start events done found) :
    Explained A P env request start events r (resume found rest) := by
  cases rest with
  | nil =>
    rw [List.append_nil] at hparsed
    exact .inr ⟨done, hparsed, hsearched⟩
  | cons pair rest => exact ⟨done, hparsed, hsearched⟩

lemma explained_other (hrun : run (step A P env request) start events = some r)
    (h : Explained A P env request start events r r.phase) {searched : SearchedService}
    {change : SearchedService.Event} (hsearched : r.searched.step env change = some searched)
    (hstep : r.step A P env request event = some { r with searched := searched }) :
    Explained A P env request start (events ++ [event]) { r with searched := searched } r.phase := by
  obtain ⟨before, phase⟩ := r
  cases phase with
  | entering | thrown => trivial
  | waiting =>
    refine ⟨h.1, fun result hend => ?_⟩
    rcases ended_of_step hsearched hend with hbefore | hread
    · obtain ⟨u, hpasses, hu⟩ := h.2 result hbefore
      exact ⟨u, hpasses.append _, hu⟩
    · exact ⟨_, passes_end (run_append_singleton hrun hstep), hread⟩
  | searching pair rest found =>
    obtain ⟨done, hparsed, hdone⟩ := h
    exact ⟨done, hparsed.append _, hdone.append _⟩
  | retrieved rawCandidates pair rest found =>
    obtain ⟨done, hparsed, hdone, u, hpasses, hraw⟩ := h
    exact ⟨done, hparsed.append _, hdone.append _, u, hpasses.next hrun hstep, hraw⟩
  | returned found =>
    rcases h with hnone | ⟨pairs, hparsed, hdone⟩
    · exact .inl hnone
    · exact .inr ⟨pairs, hparsed.append _, hdone.append _⟩

lemma explained_step (hrun : run (step A P env request) start events = some r)
    (h : Explained A P env request start events r r.phase) (hstep : r.step A P env request event = some t) :
    Explained A P env request start (events ++ [event]) t t.phase := by
  cases stepped_of_step hstep with
  | other change searched hsearched => exact explained_other hrun h hsearched hstep
  | unsearchable hphase hrequest => exact .inl ⟨hrequest, rfl⟩
  | entered searched hphase hrequest hsearched =>
    refine ⟨hrequest, fun result hend => ?_⟩
    exact ⟨_, passes_end (run_append_singleton hrun hstep), read_of_enter hsearched hend⟩
  | parsed result hphase hend =>
    rw [hphase] at h
    obtain ⟨hrequest, hread⟩ := h
    obtain ⟨u, hpasses, hu⟩ := hread result hend
    simp only [parsed_eq]
    cases hpairs : documentPairs env request result.parserState with
    | none => trivial
    | some pairs =>
      exact explained_resume [] ⟨hrequest, u, hpasses.append _, by rw [hu, hpairs]; rfl⟩ searched_nil
  | retrieved pair rest found hphase =>
    rw [hphase] at h
    obtain ⟨done, hparsed, hdone⟩ := h
    exact ⟨done, hparsed.append _, hdone.append _, r, (passes_end hrun).next hrun hstep, rfl⟩
  | scored rawCandidates pair rest found hphase =>
    rw [hphase] at h
    obtain ⟨done, hparsed, hdone, u, hpasses, rfl⟩ := h
    rw [List.append_cons] at hparsed
    have hsearched := (hdone.concat pair hpasses).append [.score]
    rw [lineMatchAcross] at hsearched
    simp only
    cases hreported : (request.query pair).reportLines ((request.query pair).scoreLines r.service
        (SimilarityIndex.search A P u.service.index (request.query pair).query 0 (request.query pair).rawLimit)) with
    | none =>
      rw [hreported, Option.toList_none, List.append_nil] at hsearched
      exact explained_resume _ (hparsed.append _) hsearched
    | some lineMatch =>
      rw [hreported, Option.toList_some] at hsearched
      rw [reported]
      split_ifs
      · exact explained_resume _ (hparsed.append _) hsearched
      · trivial

theorem run_explained (hentering : start.phase = .entering)
    (hrun : run (step A P env request) start events = some r) :
    Explained A P env request start events r r.phase := by
  have hstart : run (step A P env request) start [] = some start ∧
      Explained A P env request start [] start start.phase := by
    rw [hentering]
    exact ⟨rfl, trivial⟩
  exact (history_invariant (P := fun _ _ => True)
    (J := fun past c => run (step A P env request) start past = some c ∧
      Explained A P env request start past c c.phase)
    (fun past c event d h _ hstep => ⟨run_append_singleton h.1 hstep, explained_step h.1 h.2 hstep⟩)
    hstart (along_of_forall (Q := fun _ => True) (fun _ _ => trivial) start) hrun).2

lemma valid_step (h : SearchedService.Valid r.searched) (hstep : r.step A P env request event = some t) :
    SearchedService.Valid t.searched := by
  cases stepped_of_step hstep with
  | other change searched hsearched => exact h.step hsearched
  | entered searched hphase hrequest hsearched => exact h.step hsearched
  | unsearchable | parsed | retrieved | scored => exact h

end Runs

section Matches

variable {K : Type} [Field K] [LinearOrder K] {A : ScoreArithmetic K} {P : Platform K} {request : SearchRequest}
  {earlier later : BuildState} {pair : ParsedPair} {lineMatch : LineMatch}

structure Sound (request : SearchRequest) (service : BuildState) (pair : ParsedPair) (lineMatch : LineMatch) :
    Prop where
  line : lineMatch.lineNumber = pair.originalLineIndex
  found : lineMatch.refs ≠ []
  limited : lineMatch.refs.length ≤ request.limit
  counted : lineMatch.exactCount = lineMatch.refs.countP fun result => result.score = 100
  few : lineMatch.exactCount < request.limit
  ranked : lineMatch.refs.Pairwise fun left right => ¬ right.Before left
  stored : ∀ result ∈ lineMatch.refs, result.lineInfo ∈ service.stored result.lineInfo.fileName
  scored : ∀ result ∈ lineMatch.refs, request.threshold ≤ result.score ∧
    result.score = computeScore pair.original.text result.lineInfo.jpLine
  elsewhere : ∀ result ∈ lineMatch.refs, (request.query pair).excludes result.lineInfo = false

omit [Field K] [LinearOrder K] in
lemma mem_scoreLines {q : LineQuery} {rawCandidates : List (SearchResult K)} {result : LineSearchResult}
    (h : result ∈ (q.scoreLines later rawCandidates).1) :
    ∃ id info, later.lineInfos.lookup id = some info ∧ q.threshold ≤ computeScore q.query info.jpLine ∧
      q.excludes info = false ∧ result = ⟨info, computeScore q.query info.jpLine⟩ := by
  have hfiltered := (List.perm_insertionSort _ _).mem_iff.mp (List.mem_of_mem_take h)
  obtain ⟨candidate, -, hline⟩ := List.mem_filterMap.mp hfiltered
  exact ⟨candidate.lineId, LineQuery.lineResult_eq_some.mp hline⟩

lemma sound_of_lineMatchAcross (hlater : later.Consistent)
    (h : lineMatchAcross A P request earlier later pair = some lineMatch) :
    Sound request later pair lineMatch := by
  rw [lineMatchAcross, LineQuery.reportLines_eq_some] at h
  obtain ⟨hfound, hfew, rfl⟩ := h
  constructor
  · rfl
  · exact hfound
  · exact List.length_take_le _ _
  · rfl
  · exact hfew
  · exact (List.pairwise_insertionSort _ _).sublist (List.take_sublist _ _)
  · intro result hresult
    obtain ⟨id, info, hinfo, -, -, rfl⟩ := mem_scoreLines hresult
    exact hlater.mem_stored hinfo
  · intro result hresult
    obtain ⟨id, info, -, hscore, -, rfl⟩ := mem_scoreLines hresult
    exact ⟨hscore, rfl⟩
  · intro result hresult
    obtain ⟨id, info, -, -, hexcludes, rfl⟩ := mem_scoreLines hresult
    exact hexcludes

end Matches

section Results

variable {K : Type} [Field K] [LinearOrder K] {A : ScoreArithmetic K} {P : Platform K} {env : Environment}
  {request : SearchRequest} {s : SearchedService} {r : SearchRun K} {events : List Event} {found : List LineMatch}

theorem search_interleaved {before : List SearchedService.Event}
    (hbefore : run (SearchedService.step env) {} before = some s)
    (hrun : run (step A P env request) { searched := s } events = some r) (hreturned : r.phase = .returned found) :
    (request.Unsearchable ∧ found = [] ∨ ∃ pairs, ParsedAs A P env request { searched := s } events pairs ∧
      Searched A P env request { searched := s } events pairs found) ∧
    ∀ lineMatch ∈ found, ∃ u v pair, Passes (step A P env request) { searched := s } events u v ∧
      lineMatchAcross A P request u.service v.service pair = some lineMatch ∧
      Sound request v.service pair lineMatch := by
  have hexplained := run_explained rfl hrun
  rw [hreturned] at hexplained
  refine ⟨hexplained, fun lineMatch hmem => ?_⟩
  rcases hexplained with ⟨-, rfl⟩ | ⟨pairs, -, hsearched⟩
  · cases hmem
  · obtain ⟨u, v, pair, hpasses, hacross⟩ := hsearched.exists_across hmem
    have hvalid : SearchedService.Valid v.searched :=
      (hpasses.invariant (I := fun r => SearchedService.Valid r.searched) (Q := fun _ => True)
        (fun _ _ _ h _ hstep => valid_step h hstep) (SearchedService.run_valid hbefore) fun _ _ => trivial).2
    exact ⟨u, v, pair, hpasses, hacross, sound_of_lineMatchAcross hvalid.pool.consistent hacross⟩

def Event.quiet : Event → Bool
  | .other (.service _) => false
  | _ => true

lemma pool_reconsider (s : SearchedService) (target : ℕ) : (s.reconsider target).pool = s.pool := by
  rw [SearchedService.reconsider]
  split_ifs <;> rfl

lemma pool_of_waiting {t : SearchedService} {event : SearchedService.Event} (hquiet : (Event.other event).quiet = true)
    (hstep : s.step env event = some t) : t.pool = s.pool := by
  cases event with
  | service event => cases hquiet
  | notifyAll =>
    rw [SearchedService.step] at hstep
    split_ifs at hstep
    simp only at hstep
    split at hstep <;> cases hstep <;> rfl
  | enter =>
    rw [SearchedService.step] at hstep
    split at hstep
    · cases hstep
    · cases hstep
      rw [SearchedService.enter]
      split_ifs <;> rfl
  | wake | spuriousWake =>
    rw [SearchedService.step] at hstep
    split at hstep
    · cases hstep
      exact pool_reconsider s _
    · cases hstep
  | deadline =>
    rw [SearchedService.step] at hstep
    split at hstep <;> cases hstep
    rfl

lemma pool_of_quiet {t : SearchRun K} {event : Event} (hquiet : event.quiet = true)
    (hstep : r.step A P env request event = some t) : t.searched.pool = r.searched.pool := by
  cases stepped_of_step hstep with
  | other change searched hsearched => exact pool_of_waiting hquiet hsearched
  | entered searched hphase hrequest hsearched => exact pool_of_waiting rfl hsearched
  | unsearchable | parsed | retrieved | scored => rfl

theorem search_undisturbed (hrun : run (step A P env request) { searched := s } events = some r)
    (hquiet : ∀ event ∈ events, event.quiet = true) (hreturned : r.phase = .returned found) :
    found = match s.pool.service.parserState.bind fun parserState => env.makeTextParser parserState.config with
      | none => []
      | some parser => searchJson A P parser (fun _ => s.pool.service.toBuildState) request.currentDocument
          request.threshold request.limit := by
  have hpool : ∀ u v, Passes (step A P env request) { searched := s } events u v →
      u.searched.pool = s.pool ∧ v.searched.pool = s.pool := fun u v hpasses =>
    hpasses.invariant (I := fun r => r.searched.pool = s.pool) (Q := fun event => event.quiet = true)
      (fun _ _ _ h hevent hstep => (pool_of_quiet hevent hstep).trans h) rfl hquiet
  have hexplained := run_explained rfl hrun
  rw [hreturned] at hexplained
  rcases hexplained with ⟨hrequest, rfl⟩ | ⟨pairs, ⟨hrequest, u, hpasses, hpairs⟩, results, rfl, hresults⟩
  · rw [SearchRequest.Unsearchable] at hrequest
    split
    · rfl
    · rw [searchJson, if_pos hrequest]
  · have hsame : results = pairs.map fun pair =>
        lineMatch A P s.pool.service.toBuildState (request.query pair) := by
      rw [eq_comm, ← List.forall₂_eq_eq_eq, List.forall₂_map_left_iff]
      refine hresults.imp ?_
      rintro pair result ⟨u, v, hpasses, rfl⟩
      rw [service, service, (hpool u v hpasses).1, (hpool u v hpasses).2]
      rfl
    rw [(hpool u u hpasses).1] at hpairs
    subst hsame
    rw [SearchRequest.Unsearchable] at hrequest
    cases hstate : s.pool.service.parserState with
    | none =>
      rw [hstate] at hpairs
      cases hpairs
      rfl
    | some parserState =>
      rw [hstate] at hpairs
      obtain ⟨parser, hparser, rfl⟩ := Option.map_eq_some_iff.mp hpairs
      simp only [Option.bind_some, hparser]
      rw [searchJson, if_neg hrequest]
      cases parser request.currentDocument.getContent with
      | none => rfl
      | some pairs =>
        congr 1
        exact (List.mapIdx_eq_iff.mpr fun i => by rw [List.getElem?_map]; rfl).symm

end Results

section Examples

def flatScores : ScoreArithmetic ℚ where
  log _ := 1
  sqrt _ := 1

def otherDocument : TextDocument :=
  TextDocument.create (ascii "file:///w/b.txt") (ascii "client-decoded") (FsPath.ofBytes (ascii "/w/b.txt")) 1
    [97, 98, 99, 100, 101]

def otherRequest : SearchRequest := ⟨otherDocument, 60, 3⟩

def indexOneLine : List SearchedService.Event :=
  [SearchedService.configureWorkspace (ascii "one"), .service (.runTask 0 (oneFile (ascii "abcde")))]

def overtakenLine : List Event :=
  [.enter, .parse, .retrieve, .other (SearchedService.configureWorkspace (ascii "two")),
    .other (.service (.runTask 0 (oneFile (ascii "abcdX")))), .score]

def quietSearch : List Event := [.enter, .parse, .retrieve, .score]

def foundLines (r : SearchRun ℚ) : Option (List Text) :=
  match r.phase with
  | .returned found => some (found.flatMap fun lineMatch => lineMatch.refs.map fun result => result.lineInfo.jpLine)
  | _ => none

def searchOther (events : List Event) : Option (List Text) :=
  ((run (SearchedService.step asciiEnvironment) {} indexOneLine).bind fun s =>
    run (step flatScores (Platform.ascending 1) asciiEnvironment otherRequest) { searched := s } events).bind foundLines

lemma exists_searchOther {events : List Event} {lines : List Text} (h : searchOther events = some lines) :
    ∃ s r found, run (SearchedService.step asciiEnvironment) {} indexOneLine = some s ∧
      run (step flatScores (Platform.ascending 1) asciiEnvironment otherRequest) { searched := s } events = some r ∧
      r.phase = .returned found ∧
      lines = found.flatMap fun lineMatch => lineMatch.refs.map fun result => result.lineInfo.jpLine := by
  obtain ⟨r, hr, hfound⟩ := Option.bind_eq_some_iff.mp h
  obtain ⟨s, hs, hr⟩ := Option.bind_eq_some_iff.mp hr
  rw [foundLines] at hfound
  split at hfound
  · rename_i found hphase
    exact ⟨s, r, found, hs, hr, hphase, (Option.some.inj hfound).symm⟩
  · cases hfound

theorem search_interleaved_overtaken :
    ∃ (v : SearchRun ℚ) (pair : ParsedPair) (lineMatch : LineMatch), Sound otherRequest v.service pair lineMatch ∧
      [97, 98, 99, 100, 88] ∈ lineMatch.refs.map fun result => result.lineInfo.jpLine := by
  obtain ⟨s, r, found, hs, hr, hphase, hlines⟩ :=
    exists_searchOther (show searchOther overtakenLine = some [[97, 98, 99, 100, 88]] by decide +kernel)
  have hmem : [97, 98, 99, 100, 88] ∈
      found.flatMap fun lineMatch => lineMatch.refs.map fun result => result.lineInfo.jpLine := by
    rw [← hlines]
    exact List.mem_singleton_self _
  obtain ⟨lineMatch, hmatch, hline⟩ := List.mem_flatMap.mp hmem
  obtain ⟨u, v, pair, -, -, hsound⟩ := (search_interleaved hs hr hphase).2 lineMatch hmatch
  exact ⟨v, pair, lineMatch, hsound, hline⟩

theorem search_undisturbed_oneLine :
    ∃ (s : SearchedService) (found : List LineMatch),
      run (SearchedService.step asciiEnvironment) {} indexOneLine = some s ∧
      found = searchJson flatScores (Platform.ascending 1) wholeText (fun _ => s.pool.service.toBuildState)
        otherDocument 60 3 ∧
      [[97, 98, 99, 100, 101]] =
        found.flatMap fun lineMatch => lineMatch.refs.map fun result => result.lineInfo.jpLine := by
  obtain ⟨s, r, found, hs, hr, hphase, hlines⟩ :=
    exists_searchOther (show searchOther quietSearch = some [[97, 98, 99, 100, 101]] by decide +kernel)
  have hstate : (run (SearchedService.step asciiEnvironment) {} indexOneLine).map
      (fun s => s.pool.service.parserState) = some (some ⟨{}, ascii "one"⟩) := by decide
  rw [hs, Option.map_some, Option.some.injEq] at hstate
  have hfound := search_undisturbed hr (by decide) hphase
  rw [hstate] at hfound
  exact ⟨s, found, hs, hfound, hlines⟩

end Examples

end SearchRun

end DltxtBridge.Crossref
