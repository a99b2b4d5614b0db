import DltxtBridge.Crossref.SearchProgress
import DltxtBridge.Protocol.Process

namespace DltxtBridge.Protocol

open Crossref Documents StateAction TransitionSystem

def Machine.Event.call (m : Machine) : Machine.Event → Option Crossref.Event
  | .runTask position => some (.runTask position m.fs)
  | .failRebuild position => some (.failRebuild position)
  | .writeDisk _ => none
  | .tick _ => none

structure SearchThread (K : Type) where
  machine : Machine
  search : SearchRun K

namespace SearchThread

inductive Event
  | machine (event : Machine.Event)
  | search (event : SearchRun.Event)

section Model

variable {K : Type} [Field K] [LinearOrder K] (A : ScoreArithmetic K) (P : Platform K) (env : Environment)
  (request : SearchRequest)

def start (m : Machine) : SearchThread K where
  machine := m
  search := { searched := { pool := m.pooled } }

/-- A step of the machine is one that the search sees when it calls the service. -/
def step (t : SearchThread K) : Event → Option (SearchThread K)
  | .machine event =>
    (t.machine.step env event).bind fun machine =>
      match event.call t.machine with
      | some call =>
        (t.search.step A P env request (.other (.service call))).map fun search =>
          { machine := machine, search := search }
      | none => some { t with machine := machine }
  | .search event =>
    if event.quiet then (t.search.step A P env request event).map fun search => { t with search := search } else none

end Model

end SearchThread

def matchesToJson (lineMatches : List Json) : Json := .object [(matchesKey, .array lineMatches)]

/-- What a search that has ended returns; a thrown exception is `none`. -/
def searchResult {K : Type} (codec : Codec) : SearchPhase K → Option Json
  | .returned found => (found.mapM (lineMatchToJson codec)).map matchesToJson
  | _ => none

section Model

variable {K : Type} [Field K] [LinearOrder K] (A : ScoreArithmetic K) (P : Platform K) (env : Environment)

structure SearchSchedule where
  moves : SearchRequest → Machine → List SearchThread.Event
  ends : ∀ request m, ∃ t, run (SearchThread.step A P env request) (.start m) (moves request m) = some t ∧
    SearchRun.Ended t.search.phase

def SearchSchedule.thread {A : ScoreArithmetic K} {P : Platform K} {env : Environment}
    (schedule : SearchSchedule A P env) (request : SearchRequest) (m : Machine) : SearchThread K :=
  advance (SearchThread.step A P env request) (.start m) (schedule.moves request m)

def Machine.currentDocument? (m : Machine) (documents : DocumentManager) (uri : Bytes) : Option TextDocument :=
  match documents.openDocuments.lookup uri with
  | some document => some document
  | none => loadFromFile env.codec m.fs.read (filePathFromUri uri)

inductive SimilarText (env : Environment) (search : SearchTask env) (params : Json) (documents : DocumentManager)
    (m n : Machine) : Json → Prop
  | unavailable (uri : Bytes) (huri : stringMember? params uriKey = some uri)
      (hdocument : m.currentDocument? env documents uri = none) (hsame : n = m) :
      SimilarText env search params documents m n noMatches
  | searched (uri : Bytes) (document : TextDocument) (threshold : ℤ) (limit : ℕ) (result : Json)
      (huri : stringMember? params uriKey = some uri) (hdocument : m.currentDocument? env documents uri = some document)
      (hthreshold : params.value Json.getInt (ascii "threshold") 80 = some threshold)
      (hlimit : params.value Json.getSize (ascii "limit") 10 = some limit)
      (hsearch : search.searchJson document threshold limit m = (some result, n)) :
      SimilarText env search params documents m n result

end Model

section Threads

variable {K : Type} [Field K] [LinearOrder K] {A : ScoreArithmetic K} {P : Platform K} {env : Environment}
  {request : SearchRequest} {start t next : SearchThread K} {taken : List SearchRun.Event} {m n o : Machine}

inductive SearchThread.Stepped (A : ScoreArithmetic K) (P : Platform K) (env : Environment) (request : SearchRequest)
    (t : SearchThread K) : SearchThread K → Prop
  | search (event : SearchRun.Event) (search : SearchRun K) (hquiet : event.quiet = true)
      (hstep : t.search.step A P env request event = some search) :
      Stepped A P env request t { t with search := search }
  | machine (event : Machine.Event) (machine : Machine) (hstep : t.machine.step env event = some machine)
      (hpooled : machine.pooled = t.machine.pooled) : Stepped A P env request t { t with machine := machine }
  | both (event : Machine.Event) (call : Crossref.Event) (machine : Machine) (search : SearchRun K)
      (hmachine : t.machine.step env event = some machine)
      (hpooled : t.machine.pooled.step env call = some machine.pooled)
      (hsearch : t.search.step A P env request (.other (.service call)) = some search) :
      Stepped A P env request t ⟨machine, search⟩

lemma pooled_of_call {event : Machine.Event} (hstep : m.step env event = some n) :
    match event.call m with
    | some call => m.pooled.step env call = some n.pooled
    | none => n.pooled = m.pooled := by
  cases event with
  | runTask | failRebuild =>
    obtain ⟨pooled, hpooled, rfl⟩ := Option.map_eq_some_iff.mp hstep
    exact hpooled
  | writeDisk | tick =>
    cases hstep
    rfl

lemma SearchThread.stepped_of_step {event : SearchThread.Event} (hstep : t.step A P env request event = some next) :
    SearchThread.Stepped A P env request t next := by
  cases event with
  | search event =>
    rw [SearchThread.step, Option.ite_none_right_eq_some] at hstep
    obtain ⟨hquiet, hstep⟩ := hstep
    obtain ⟨search, hsearch, rfl⟩ := Option.map_eq_some_iff.mp hstep
    exact .search event search hquiet hsearch
  | machine event =>
    rw [SearchThread.step, Option.bind_eq_some_iff] at hstep
    obtain ⟨machine, hmachine, hstep⟩ := hstep
    have hpooled := pooled_of_call hmachine
    cases hcall : event.call t.machine with
    | none =>
      rw [hcall] at hpooled hstep
      cases hstep
      exact .machine event machine hmachine hpooled
    | some call =>
      rw [hcall] at hpooled hstep
      obtain ⟨search, hsearch, rfl⟩ := Option.map_eq_some_iff.mp hstep
      exact .both event call machine search hmachine hpooled hsearch

structure Shadowed (A : ScoreArithmetic K) (P : Platform K) (env : Environment) (request : SearchRequest) (m : Machine)
    (taken : List SearchRun.Event) (t : SearchThread K) : Prop where
  run : run (SearchRun.step A P env request) { searched := { pool := m.pooled } } taken = some t.search
  shared : t.search.searched.pool = t.machine.pooled
  reached : LeadsTo (Machine.step env) m t.machine
  passed : ∀ earlier v, earlier <+: taken →
    TransitionSystem.run (SearchRun.step A P env request) { searched := { pool := m.pooled } } earlier = some v →
    ∃ n, LeadsTo (Machine.step env) m n ∧ LeadsTo (Machine.step env) n t.machine ∧ v.searched.pool = n.pooled

lemma shadowed_start (m : Machine) : Shadowed A P env request m [] (.start m : SearchThread K) where
  run := rfl
  shared := rfl
  reached := leadsTo_refl m
  passed earlier v hearlier hrun := by
    rw [List.prefix_nil.mp hearlier] at hrun
    cases hrun
    exact ⟨m, leadsTo_refl m, leadsTo_refl m, rfl⟩

lemma Shadowed.machine (h : Shadowed A P env request m taken t) {event : Machine.Event}
    (hstep : t.machine.step env event = some n) (hpooled : n.pooled = t.machine.pooled) :
    Shadowed A P env request m taken { t with machine := n } where
  run := h.run
  shared := h.shared.trans hpooled.symm
  reached := h.reached.next hstep
  passed earlier v hearlier hrun := by
    obtain ⟨o, hbefore, hafter, hpool⟩ := h.passed earlier v hearlier hrun
    exact ⟨o, hbefore, hafter.next hstep, hpool⟩

lemma Shadowed.search (h : Shadowed A P env request m taken t) {event : SearchRun.Event} {search : SearchRun K}
    (hstep : t.search.step A P env request event = some search) (hmachine : LeadsTo (Machine.step env) t.machine n)
    (hshared : search.searched.pool = n.pooled) :
    Shadowed A P env request m (taken ++ [event]) ⟨n, search⟩ where
  run := run_append_singleton h.run hstep
  shared := hshared
  reached := h.reached.trans hmachine
  passed earlier v hearlier hrun := by
    rcases List.prefix_concat_iff.mp hearlier with rfl | hbefore
    · rw [run_append_singleton h.run hstep] at hrun
      cases hrun
      exact ⟨n, h.reached.trans hmachine, leadsTo_refl n, hshared⟩
    · obtain ⟨o, ho, hafter, hpool⟩ := h.passed earlier v hbefore hrun
      exact ⟨o, ho, hafter.trans hmachine, hpool⟩

lemma Shadowed.step (h : Shadowed A P env request m taken t) {event : SearchThread.Event}
    (hstep : t.step A P env request event = some next) : ∃ taken, Shadowed A P env request m taken next := by
  cases SearchThread.stepped_of_step hstep with
  | search event search hquiet hsearch =>
    have hpool := (SearchRun.pool_of_quiet hquiet hsearch).trans h.shared
    exact ⟨taken ++ [event], h.search hsearch (leadsTo_refl _) hpool⟩
  | machine event machine hmachine hpooled => exact ⟨taken, h.machine hmachine hpooled⟩
  | both event call machine search hmachine hpooled hsearch =>
    refine ⟨taken ++ [.other (.service call)], h.search hsearch ((leadsTo_refl _).next hmachine) ?_⟩
    obtain ⟨searched, hsearched, rfl⟩ := Option.map_eq_some_iff.mp hsearch
    obtain ⟨pool, hpool, rfl⟩ := Option.map_eq_some_iff.mp hsearched
    rw [h.shared, hpooled] at hpool
    exact (Option.some.inj hpool).symm

lemma shadowed_run {moves : List SearchThread.Event}
    (hrun : TransitionSystem.run (SearchThread.step A P env request) (.start m) moves = some t) :
    ∃ taken, Shadowed A P env request m taken t :=
  invariant (I := fun t => ∃ taken, Shadowed A P env request m taken t) (fun _ _ _ ⟨_, h⟩ hstep => h.step hstep)
    ⟨[], shadowed_start m⟩ hrun

lemma Shadowed.sound (h : Shadowed A P env request m taken t) {found : List LineMatch}
    (hreturned : t.search.phase = .returned found)
    (hconsistent : ∀ n, LeadsTo (Machine.step env) m n → n.pooled.service.toBuildState.Consistent)
    {lineMatch : LineMatch} (hmem : lineMatch ∈ found) :
    ∃ n pair, LeadsTo (Machine.step env) m n ∧ LeadsTo (Machine.step env) n t.machine ∧
      SearchRun.Sound request n.pooled.service.toBuildState pair lineMatch := by
  have hexplained := SearchRun.run_explained rfl h.run
  rw [hreturned] at hexplained
  rcases hexplained with ⟨-, rfl⟩ | ⟨pairs, -, hsearched⟩
  · cases hmem
  · obtain ⟨u, v, pair, ⟨earlier, middle, later, rfl, hearlier, hmiddle⟩, hacross⟩ := hsearched.exists_across hmem
    have hv : TransitionSystem.run (SearchRun.step A P env request) { searched := { pool := m.pooled } }
        (earlier ++ middle) = some v := by
      rw [run_append, hearlier]
      exact hmiddle
    obtain ⟨n, hbefore, hafter, hpool⟩ := h.passed _ v (List.prefix_append _ later) hv
    have hfound : SearchRun.lineMatchAcross A P request u.service n.pooled.service.toBuildState pair =
        some lineMatch := by
      rw [← hpool]
      exact hacross
    exact ⟨n, pair, hbefore, hafter, SearchRun.sound_of_lineMatchAcross (hconsistent n hbefore) hfound⟩

lemma run_search {events : List SearchRun.Event} {search : SearchRun K} (hquiet : ∀ event ∈ events, event.quiet = true)
    (hrun : TransitionSystem.run (SearchRun.step A P env request) t.search events = some search) :
    TransitionSystem.run (SearchThread.step A P env request) t (events.map .search) =
      some { t with search := search } := by
  induction events generalizing t with
  | nil =>
    cases hrun
    rfl
  | cons event events ih =>
    rw [List.forall_mem_cons] at hquiet
    rw [run_cons, Option.bind_eq_some_iff] at hrun
    obtain ⟨first, hfirst, hrun⟩ := hrun
    rw [List.map_cons, run_cons, SearchThread.step, if_pos hquiet.1, hfirst]
    exact ih (t := { t with search := first }) hquiet.2 hrun

lemma exists_moves (A : ScoreArithmetic K) (P : Platform K) (env : Environment) (request : SearchRequest)
    (m : Machine) :
    ∃ moves t, TransitionSystem.run (SearchThread.step A P env request) (.start m) moves = some t ∧
      SearchRun.Ended t.search.phase := by
  obtain ⟨events, search, hquiet, hrun, hended⟩ :=
    @SearchRun.exists_quiet_end K _ _ A P env request { pool := m.pooled } rfl
  exact ⟨_, _, run_search hquiet hrun, hended⟩

lemma SearchSchedule.run_thread (schedule : SearchSchedule A P env) (request : SearchRequest) (m : Machine) :
    TransitionSystem.run (SearchThread.step A P env request) (.start m) (schedule.moves request m) =
        some (schedule.thread request m) ∧ SearchRun.Ended (schedule.thread request m).search.phase := by
  obtain ⟨t, hrun, hended⟩ := schedule.ends request m
  rw [SearchSchedule.thread, advance_of_run hrun]
  exact ⟨hrun, hended⟩

def searchTask (schedule : SearchSchedule A P env) : SearchTask env where
  searchJson document threshold limit := fun m =>
    let t := schedule.thread ⟨document, threshold, limit⟩ m
    (searchResult env.codec t.search.phase, t.machine)
  reads document threshold limit m := by
    obtain ⟨taken, hshadowed⟩ := shadowed_run (schedule.run_thread ⟨document, threshold, limit⟩ m).1
    exact hshadowed.reached

end Threads

section Replies

variable {env : Environment} {dump : Json → Bytes} {version : Bytes} {search : SearchTask env}
  {parse : Bytes → Option Json} {request params id : Json} {s t : Session Machine} {Q : Json → Prop}

def Wrote (Q : Json → Prop) (s t : Session Machine) : Prop :=
  ∃ replies, t.written = s.written ++ replies ∧ ∀ reply ∈ replies, reply.contains Jsonrpc.resultKey = true → Q reply

lemma wrote_nothing (h : t.written = s.written) : Wrote Q s t := ⟨[], by rw [h, List.append_nil], by simp⟩

lemma logged_of_dumpable {json : Json} (h : json.isDumpable) (s : Session Machine) :
    logged json s = (some (), s) := by
  rw [logged, if_pos h]
  rfl

lemma logged_of_not_dumpable {json : Json} (h : ¬ json.isDumpable) (s : Session Machine) :
    logged json s = (none, s) := by
  rw [logged, if_neg h]
  rfl

lemma writeJsonMessage_eq {message : Json} (h : message.isDumpable) (s : Session Machine) :
    writeJsonMessage message s = (some (), { s with written := s.written ++ [message] }) := by
  rw [writeJsonMessage, bind_of_eq (logged_of_dumpable h s)]
  rfl

lemma writeJsonMessage_of_not_dumpable {message : Json} (h : ¬ message.isDumpable) (s : Session Machine) :
    writeJsonMessage message s = (none, s) := by
  rw [writeJsonMessage, bind_of_none (congrArg Prod.fst (logged_of_not_dumpable h s)), logged_of_not_dumpable h s]

lemma wrote_createError (id : Json) (code : ℤ) (message : Bytes) (s : Session Machine) :
    Wrote Q s (writeJsonMessage (Jsonrpc.createError id code message) s).2 := by
  by_cases hdumpable : (Jsonrpc.createError id code message).isDumpable
  · rw [writeJsonMessage_eq hdumpable]
    refine ⟨[_], rfl, List.forall_mem_singleton.mpr fun hcontains => ?_⟩
    cases hcontains
  · rw [writeJsonMessage_of_not_dumpable hdumpable]
    exact wrote_nothing rfl

lemma onHost_eq {α : Type} {x : StateAction Machine α} {result : Option α} {n : Machine}
    (h : x s.machine = (result, n)) :
    onHost x s = (result, { s with workspace := { s.workspace with host := n } }) := by
  rw [Session.machine] at h
  simp only [onHost, onWorkspace, zoom, Session.setWorkspace, h]

lemma currentDocument_eq (uri : Bytes) (s : Session Machine) :
    currentDocument (crossrefHost env dump version search) uri s =
      (some (s.machine.currentDocument? env s.documents uri), s) := by
  rw [currentDocument, bind_of_some (a := s) rfl, Machine.currentDocument?, Session.documents]
  cases hlookup : s.workspace.documentManager.openDocuments.lookup uri with
  | some document => rfl
  | none => rfl

def Replied (env : Environment) (search : SearchTask env) (request params : Json) (documents : DocumentManager)
    (m n : Machine) (reply : Json) : Prop :=
  ∃ id result, request.member? Jsonrpc.idKey = some id ∧ reply = Jsonrpc.createResponse id result ∧
    SimilarText env search params documents m n result

def searchCurrent (host : Host Machine) (id : Json) (threshold : ℤ) (limit : ℕ) :
    Option TextDocument → StateAction (Session Machine) Unit
  | none => writeJsonMessage (Jsonrpc.createResponse id noMatches)
  | some document => do
    let result ← onHost (host.searchJson document threshold limit)
    writeJsonMessage (Jsonrpc.createResponse id result)
    logged id

lemma wrote_searched {id : Json} (hid : id.isDumpable) {document : TextDocument} {threshold : ℤ} {limit : ℕ}
    (s : Session Machine) {Q : Machine → Json → Prop}
    (hQ : ∀ result n, search.searchJson document threshold limit s.machine = (some result, n) →
      Q n (Jsonrpc.createResponse id result)) :
    let t := (searchCurrent (crossrefHost env dump version search) id threshold limit (some document) s).2
    Wrote (Q t.machine) s t := by
  rw [searchCurrent]
  cases hresult : search.searchJson document threshold limit s.machine with
  | mk result n =>
    have hsearch := onHost_eq (x := (crossrefHost env dump version search).searchJson document threshold limit) hresult
    cases result with
    | none =>
      rw [bind_of_none (congrArg Prod.fst hsearch), hsearch]
      exact wrote_nothing rfl
    | some result =>
      rw [bind_of_eq hsearch]
      by_cases hreply : (Jsonrpc.createResponse id result).isDumpable
      · rw [bind_of_eq (writeJsonMessage_eq hreply _), logged_of_dumpable hid]
        exact ⟨[_], rfl, List.forall_mem_singleton.mpr fun _ => hQ result n hresult⟩
      · rw [bind_of_none (congrArg Prod.fst (writeJsonMessage_of_not_dumpable hreply _)),
          writeJsonMessage_of_not_dumpable hreply]
        exact wrote_nothing rfl

lemma wrote_unavailable {Q : Machine → Json → Prop} (s : Session Machine)
    (hQ : Q s.machine (Jsonrpc.createResponse id noMatches)) :
    let t := (writeJsonMessage (Jsonrpc.createResponse id noMatches) s).2
    Wrote (Q t.machine) s t := by
  by_cases hreply : (Jsonrpc.createResponse id noMatches).isDumpable
  · rw [writeJsonMessage_eq hreply]
    exact ⟨[_], rfl, List.forall_mem_singleton.mpr fun _ => hQ⟩
  · rw [writeJsonMessage_of_not_dumpable hreply]
    exact wrote_nothing rfl

lemma wrote_handleGetSimilarText (hid : request.member? Jsonrpc.idKey = some id) (params : Json) (s : Session Machine) :
    let t := (handleGetSimilarText (crossrefHost env dump version search) id params s).2
    Wrote (Replied env search request params s.documents s.machine t.machine) s t := by
  rw [handleGetSimilarText]
  cases huri : stringMember? params uriKey with
  | none => exact wrote_createError id _ _ s
  | some uri =>
    cases hthreshold : params.value Json.getInt (ascii "threshold") 80 with
    | none => exact wrote_nothing rfl
    | some threshold =>
      cases hlimit : params.value Json.getSize (ascii "limit") 10 with
      | none => exact wrote_nothing rfl
      | some limit =>
        simp only [bind_ofOption_some]
        by_cases hdumpable : id.isDumpable
        · rw [bind_of_eq (logged_of_dumpable hdumpable s), bind_of_eq (currentDocument_eq uri s)]
          cases hdocument : s.machine.currentDocument? env s.documents uri with
          | none =>
            exact wrote_unavailable (Q := Replied env search request params s.documents s.machine) s
              ⟨id, noMatches, hid, rfl, .unavailable uri huri hdocument rfl⟩
          | some document =>
            refine wrote_searched (Q := Replied env search request params s.documents s.machine) hdumpable s ?_
            intro result n hsearch
            exact ⟨id, result, hid, rfl, .searched uri document threshold limit result huri hdocument hthreshold hlimit
              hsearch⟩
        · rw [bind_of_none (congrArg Prod.fst (logged_of_not_dumpable hdumpable s)), logged_of_not_dumpable hdumpable s]
          exact wrote_nothing rfl

lemma Wrote.trans {u : Session Machine} (hst : Wrote Q s t) (htu : Wrote Q t u) : Wrote Q s u := by
  obtain ⟨first, hfirst, hQ⟩ := hst
  obtain ⟨second, hsecond, hQ'⟩ := htu
  exact ⟨first ++ second, by rw [hsecond, hfirst, List.append_assoc], List.forall_mem_append.mpr ⟨hQ, hQ'⟩⟩

lemma machine_writeJsonMessage (message : Json) (s : Session Machine) :
    (writeJsonMessage message s).2.machine = s.machine := by
  by_cases hdumpable : message.isDumpable
  · rw [writeJsonMessage_eq hdumpable]
    rfl
  · rw [writeJsonMessage_of_not_dumpable hdumpable]

lemma wrote_answerError (request : Json) (code : ℤ) (message : Bytes) (s : Session Machine) :
    Wrote Q s (answerError request code message s).2 ∧ (answerError request code message s).2.machine = s.machine := by
  rw [answerError, answer]
  cases request.member? Jsonrpc.idKey with
  | none => exact ⟨wrote_nothing rfl, rfl⟩
  | some id => exact ⟨wrote_createError id code message s, machine_writeJsonMessage _ s⟩

lemma wrote_handleMessage
    (hmethod : stringMember? request Jsonrpc.methodKey = some (ascii "dltxt/get_similar_text"))
    (hparams : request.value some Jsonrpc.paramsKey .emptyObject = some params) (s : Session Machine) :
    let t := (handleMessage (crossrefHost env dump version search) request s).2
    Wrote (Replied env search request params s.documents s.machine t.machine) s t := by
  obtain ⟨method, hmember, hname⟩ := Option.bind_eq_some_iff.mp hmethod
  rw [handleMessage]
  split_ifs with hjsonrpc
  · rw [snd_bind_pure]
    exact (wrote_answerError request _ _ s).1
  · simp only [hmember, hname, hparams, bind_ofOption_some]
    have hlogged : (logRequest request (ascii "dltxt/get_similar_text") params s).2 = s :=
      (preserves_logRequest _ params : Preserves id (logRequest request _ params)) s
    cases hreturned : (logRequest request (ascii "dltxt/get_similar_text") params s).1 with
    | none =>
      rw [bind_of_none hreturned, hlogged]
      exact wrote_nothing rfl
    | some _ =>
      rw [bind_of_some hreturned, hlogged, if_neg (by decide), if_pos trivial]
      cases hid : request.member? Jsonrpc.idKey with
      | none => exact wrote_nothing rfl
      | some id =>
        simp only
        rw [snd_bind_pure]
        exact wrote_handleGetSimilarText hid params s

lemma wrote_handleRequestMessage
    (hmethod : stringMember? request Jsonrpc.methodKey = some (ascii "dltxt/get_similar_text"))
    (hparams : request.value some Jsonrpc.paramsKey .emptyObject = some params) (s : Session Machine) :
    let t := (handleRequestMessage (crossrefHost env dump version search) request s).session
    Wrote (Replied env search request params s.documents s.machine t.machine) s t := by
  have hmessage := @wrote_handleMessage env dump version search request params hmethod hparams s
  rw [handleRequestMessage, tryStoreJsonrpcResponse_eq_none hmethod]
  simp only
  split_ifs
  · exact wrote_nothing rfl
  · cases (handleMessage (crossrefHost env dump version search) request s).1 with
    | some ended => exact hmessage
    | none =>
      simp only [handleException]
      rw [(wrote_answerError (Q := fun _ => True) request _ _ _).2]
      exact hmessage.trans (wrote_answerError request _ _ _).1

end Replies

section Runs

variable {K : Type} [Field K] [LinearOrder K] {A : ScoreArithmetic K} {P : Platform K} {env : Environment}
  {schedule : SearchSchedule A P env} {dump : Json → Bytes} {version : Bytes} {parse : Bytes → Option Json}
  {E : Type} {input : Reader E} {fs : FileSystem} {events : List Process.Event} {b c : Bridge Machine E}
  {event : Intake.Event} {payload : Bytes} {request params : Json}

/-- The reply to `dltxt/get_similar_text`: the parameters of the message are searched for, on its own thread, while the
machine goes from `m` to `n`, and what is reported held of a state that the machine has passed. -/
inductive SoundReply (A : ScoreArithmetic K) (P : Platform K) (env : Environment) (request params : Json)
    (documents : DocumentManager) (m n : Machine) (reply : Json) : Prop
  | unavailable (id : Json) (uri : Bytes) (hid : request.member? Jsonrpc.idKey = some id)
      (huri : stringMember? params uriKey = some uri) (hdocument : m.currentDocument? env documents uri = none)
      (hreply : reply = Jsonrpc.createResponse id noMatches)
  | searched (id : Json) (uri : Bytes) (search : SearchRequest) (moves : List SearchThread.Event) (t : SearchThread K)
      (found : List LineMatch) (lineMatches : List Json) (hid : request.member? Jsonrpc.idKey = some id)
      (huri : stringMember? params uriKey = some uri)
      (hdocument : m.currentDocument? env documents uri = some search.currentDocument)
      (hthreshold : params.value Json.getInt (ascii "threshold") 80 = some search.threshold)
      (hlimit : params.value Json.getSize (ascii "limit") 10 = some search.limit)
      (hrun : run (SearchThread.step A P env search) (.start m) moves = some t) (hafter : t.machine = n)
      (hreturned : t.search.phase = .returned found)
      (hmatches : found.mapM (lineMatchToJson env.codec) = some lineMatches)
      (hreply : reply = Jsonrpc.createResponse id (matchesToJson lineMatches))
      (hsound : ∀ lineMatch ∈ found, ∃ o pair, LeadsTo (Machine.step env) m o ∧ LeadsTo (Machine.step env) o n ∧
        SearchRun.Sound search o.pooled.service.toBuildState pair lineMatch ∧
        ∀ other, (filePathFromUri other).rootDirectory = true →
          isGitignored (filePathFromUri other) o.pooled.service.workspaceGitignoreRules false = true →
          ∀ result ∈ lineMatch.refs, result.lineInfo.fileName ≠ (filePathFromUri other).genericString)

lemma step_popped {host : Host Machine} (hstep : b.step host parse dump (.input event) = some c)
    (hpopped : b.popResult event = some (.message payload)) :
    c.loop = handleEvent host parse b.loop.session (.message payload) ∧
      ∀ replies, (handleEvent host parse b.loop.session (.message payload)).session.written =
        b.loop.session.written ++ replies → c.outbox = replies := by
  obtain ⟨intake, -, ⟨hpops, -⟩ | ⟨hpops, hcan, -, rfl⟩⟩ := Bridge.step_input_cases hstep
  · rw [Bridge.popResult, hpops] at hpopped
    cases hpopped
  · rw [Bridge.popResult, hpops, if_pos rfl] at hpopped
    rw [Bridge.canPop, Bool.and_eq_true, List.isEmpty_iff] at hcan
    rw [hpopped]
    refine ⟨Bridge.loop_advance _ hcan.1, fun replies hreplies => ?_⟩
    have houtbox := @Bridge.outbox_advance _ _ host parse { b with intake := intake } _ hcan.1 replies hreplies
    exact houtbox.trans (congrArg (· ++ replies) hcan.2)

omit [Field K] [LinearOrder K] in
lemma searchResult_eq_some {codec : Codec} {phase : SearchPhase K} {result : Json}
    (h : searchResult codec phase = some result) :
    ∃ found lineMatches, phase = .returned found ∧ found.mapM (lineMatchToJson codec) = some lineMatches ∧
      result = matchesToJson lineMatches := by
  cases phase with
  | returned found =>
    obtain ⟨lineMatches, hmatches, rfl⟩ := Option.map_eq_some_iff.mp h
    exact ⟨found, lineMatches, rfl, hmatches, rfl⟩
  | entering | waiting | searching | retrieved | thrown => cases h

theorem similar_text_answered
    (hrun : run (Process.step env dump version (searchTask schedule) parse) (Process.start input fs) events = some b)
    (hstep : Process.step env dump version (searchTask schedule) parse b (.input event) = some c)
    (hpopped : b.popResult event = some (.message payload)) (hrequest : received parse payload = some request)
    (hmethod : stringMember? request Jsonrpc.methodKey = some (ascii "dltxt/get_similar_text"))
    (hparams : request.value some Jsonrpc.paramsKey .emptyObject = some params) :
    ∀ reply ∈ c.outbox, reply.contains Jsonrpc.resultKey = true →
      SoundReply A P env request params b.loop.session.documents b.machine c.machine reply := by
  have hserved : ∀ n, LeadsTo (Machine.step env) b.machine n → Confined n.pooled.abstract ∧
      n.pooled.service.toBuildState.Consistent := by
    rintro n ⟨later, hlater⟩
    have hserves := (servesRule env dump).moved_run (fun _ _ => serves_of_same rfl) hrun
    obtain ⟨calls, hnamed, hcalls⟩ := (servesRule env dump).trans _ _ _ hserves ((servesRule env dump).run hlater)
    exact ⟨PooledService.confined_abstract hnamed hcalls, (PooledService.run_wellFormed hcalls).consistent⟩
  have hbridge : b.step (crossrefHost env dump version (searchTask schedule)) parse dump (.input event) =
      some c := hstep
  obtain ⟨hloop, houtbox⟩ := step_popped hbridge hpopped
  obtain ⟨replies, hwritten, hreplies⟩ :=
    @wrote_handleRequestMessage env dump version (searchTask schedule) request params hmethod hparams b.loop.session
  have hhandled : handleEvent (crossrefHost env dump version (searchTask schedule)) parse b.loop.session
      (.message payload) = handleRequestMessage (crossrefHost env dump version (searchTask schedule)) request
        b.loop.session := by
    rw [handleEvent, hrequest]
  have hmachine : c.machine = (handleRequestMessage (crossrefHost env dump version (searchTask schedule)) request
      b.loop.session).session.machine := by
    rw [Bridge.machine, hloop, hhandled]
    rfl
  rw [houtbox replies (hhandled ▸ hwritten), hmachine]
  intro reply hreply hresult
  obtain ⟨id, result, hid, rfl, hfound⟩ := hreplies reply hreply hresult
  cases hfound with
  | unavailable uri huri hdocument hsame => exact .unavailable id uri hid huri hdocument rfl
  | searched uri document threshold limit result huri hdocument hthreshold hlimit hsearch =>
    obtain ⟨hresult, hafter⟩ := Prod.mk.inj hsearch
    obtain ⟨found, lineMatches, hreturned, hmatches, rfl⟩ := searchResult_eq_some hresult
    obtain ⟨hthread, -⟩ := schedule.run_thread ⟨document, threshold, limit⟩ b.machine
    obtain ⟨taken, hshadowed⟩ := shadowed_run hthread
    refine .searched id uri ⟨document, threshold, limit⟩ _ _ found lineMatches hid huri hdocument hthreshold hlimit
      hthread hafter hreturned hmatches rfl ?_
    intro lineMatch hmem
    obtain ⟨o, pair, hbefore, hlater, hsound⟩ := hshadowed.sound hreturned (fun n hn => (hserved n hn).2) hmem
    refine ⟨o, pair, hbefore, hafter ▸ hlater, hsound, fun other habsolute hignored result hmember => ?_⟩
    obtain ⟨hconfined, hconsistent⟩ := hserved o hbefore
    obtain ⟨line, -, hline⟩ := List.mem_filterMap.mp (hsound.stored result hmember)
    exact (PooledService.untraced_of_confined hconfined hconsistent habsolute hignored).2 line _ hline

end Runs

section Examples

def plainEnvironment : Environment where
  codec :=
    { uchardet := fun _ => some (ascii "ASCII")
      iconv := fun source target input =>
        if source = utf16le then (utf16Units input).map (List.map UInt16.toUInt8)
        else asciiCodec.iconv source target input }
  makeTextParser _ := some wholeText

def sameLine : FileSystem where
  read path :=
    if path = FsPath.ofBytes (ascii "/w/a.txt") ∨ path = FsPath.ofBytes (ascii "/w/b.txt") then some (ascii "abcde")
    else none
  present _ := true
  lastWriteTime _ := none
  tree path := if path = FsPath.ofBytes (ascii "/w") then some (.file textName .done) else none

def aloneMoves : List SearchThread.Event := [.search .enter, .search .parse, .search .retrieve, .search .score]

noncomputable def aloneSchedule : SearchSchedule SearchRun.flatScores (Platform.ascending 1) plainEnvironment where
  moves request m :=
    if (run (SearchThread.step SearchRun.flatScores (Platform.ascending 1) plainEnvironment request) (.start m)
        aloneMoves).any fun t => decide (SearchRun.Ended t.search.phase) then aloneMoves
    else (exists_moves SearchRun.flatScores (Platform.ascending 1) plainEnvironment request m).choose
  ends request m := by
    split_ifs with halone
    · obtain ⟨t, ht, hended⟩ := (Option.any_eq_true _ _).mp halone
      exact ⟨t, ht, of_decide_eq_true hended⟩
    · exact (exists_moves SearchRun.flatScores (Platform.ascending 1) plainEnvironment request m).choose_spec

def similarPayload : Bytes :=
  ascii "\x7b\"jsonrpc\":\"2.0\",\"id\":1,\"method\":\"dltxt/get_similar_text\",\"params\":" ++
    ascii "\x7b\"uri\":\"file:///w/b.txt\"\x7d\x7d"

def similarParams : Json := .object [(uriKey, .ofString "file:///w/b.txt")]

def similarJson : Json :=
  .object [(Jsonrpc.idKey, .unsigned 1), (Jsonrpc.jsonrpcKey, .ofString "2.0"),
    (Jsonrpc.methodKey, .ofString "dltxt/get_similar_text"), (Jsonrpc.paramsKey, similarParams)]

def parseSimilar (payload : Bytes) : Option Json :=
  if payload = similarPayload then some similarJson else parseSettings payload

noncomputable abbrev stepSimilar : Bridge Machine Unit → Process.Event → Option (Bridge Machine Unit) :=
  Process.step plainEnvironment dumpStrings (ascii "0") (searchTask aloneSchedule) parseSimilar

abbrev startSimilar : Bridge Machine Unit :=
  Process.start (readerOf .zeroBytes [frameMessage foldersPayload, frameMessage settingsPayload,
    frameMessage similarPayload]) sameLine

def untilSimilar : List Process.Event :=
  (List.replicate 4 .read).map .input ++ popSettings ++ [.machine (.runTask 0), .input .deliver]

def countMatches (reply : Json) : ℕ := ((reply.member Jsonrpc.resultKey).member matchesKey).elements.length

lemma run_similar : ∃ b c reply, run stepSimilar startSimilar untilSimilar = some b ∧
    stepSimilar b (.input .waitAndPop) = some c ∧ b.popResult .waitAndPop = some (.message similarPayload) ∧
    c.outbox = [reply] ∧ reply.contains Jsonrpc.resultKey = true ∧ countMatches reply = 1 := by
  have hstepped : (run stepSimilar startSimilar untilSimilar).bind (fun b =>
      (stepSimilar b (.input .waitAndPop)).map fun c => ((b.popResult .waitAndPop).bind PopResult.message?,
        c.outbox.map fun reply => (reply.contains Jsonrpc.resultKey, countMatches reply))) =
      some (some similarPayload, [(true, 1)]) := by decide +kernel
  obtain ⟨b, hb, hstepped⟩ := Option.bind_eq_some_iff.mp hstepped
  obtain ⟨c, hc, hseen⟩ := Option.map_eq_some_iff.mp hstepped
  obtain ⟨hmessage, hreplies⟩ := Prod.mk.inj hseen
  obtain ⟨result, hresult, hpayload⟩ := Option.bind_eq_some_iff.mp hmessage
  obtain ⟨reply, houtbox, hreply⟩ := List.map_eq_singleton_iff.mp hreplies
  obtain ⟨hcontains, hcount⟩ := Prod.mk.inj hreply
  cases result with
  | message payload =>
    cases hpayload
    exact ⟨b, c, reply, hb, hc, hresult, houtbox, hcontains, hcount⟩
  | failed | endOfInput => cases hpayload

theorem similar_text_answered_sameLine :
    ∃ (b c : Bridge Machine Unit) (reply : Json), c.outbox = [reply] ∧ countMatches reply = 1 ∧
      SoundReply SearchRun.flatScores (Platform.ascending 1) plainEnvironment similarJson similarParams
        b.loop.session.documents b.machine c.machine reply := by
  obtain ⟨b, c, reply, hrun, hstep, hpopped, houtbox, hcontains, hcount⟩ := run_similar
  have hmem : reply ∈ c.outbox := by
    rw [houtbox]
    exact List.mem_singleton_self reply
  have hrequest : received parseSimilar similarPayload = some similarJson := by
    rw [received, if_neg (by decide), parseSimilar, if_pos rfl]
  exact ⟨b, c, reply, houtbox, hcount,
    similar_text_answered hrun hstep hpopped hrequest (by decide) rfl reply hmem hcontains⟩

end Examples

end DltxtBridge.Protocol
