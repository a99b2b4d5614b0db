import DltxtBridge.Library.TransitionSystem

/-! `LocalSessionManager` and its `IdleShutdownMonitor`, which calls back when the bridge has
become idle. -/

namespace DltxtBridge.Protocol

/-- `waiting` is the wait on the timer; `posted` are the handlers of waits that have ended with the
time, which a cancellation does not reach any more. `calls` counts the calls of `on_timeout_`. -/
structure IdleShutdownMonitor where
  timeout : ℤ
  hasCallback : Bool := true
  generation : UInt64 := 0
  waiting : Option UInt64 := none
  posted : List UInt64 := []
  calls : ℕ := 0

namespace IdleShutdownMonitor

def armTimer (monitor : IdleShutdownMonitor) : IdleShutdownMonitor :=
  if monitor.timeout ≤ 0 || !monitor.hasCallback then monitor
  else if 1 < monitor.generation + 1 then
    { monitor with generation := monitor.generation + 1, calls := monitor.calls + 1 }
  else
    { monitor with generation := monitor.generation + 1, waiting := some (monitor.generation + 1) }

def cancelTimer (monitor : IdleShutdownMonitor) : IdleShutdownMonitor :=
  { monitor with generation := monitor.generation + 1, waiting := none }

def create (timeout : ℤ) : IdleShutdownMonitor := armTimer { timeout := timeout }

def update (monitor : IdleShutdownMonitor) (sessionCount : ℕ) : IdleShutdownMonitor :=
  if sessionCount = 0 then monitor.armTimer else monitor.cancelTimer

def timerExpired (monitor : IdleShutdownMonitor) : Option IdleShutdownMonitor :=
  monitor.waiting.map fun generation =>
    { monitor with waiting := none, posted := monitor.posted ++ [generation] }

def runHandler (monitor : IdleShutdownMonitor) : Option IdleShutdownMonitor :=
  match monitor.posted with
  | [] => none
  | generation :: posted =>
    some
      { monitor with
        posted := posted
        calls := if generation = monitor.generation then monitor.calls + 1 else monitor.calls }

end IdleShutdownMonitor

/-- Sessions are named by their addresses. `broadcasts` holds the copy that each broadcast under
way has taken of the sessions, and `everRegistered` remembers the past. -/
structure LocalSessionManager where
  monitor : IdleShutdownMonitor
  sessions : List ℕ := []
  broadcasts : List (List ℕ) := []
  everRegistered : Bool := false

namespace LocalSessionManager

def create (timeout : ℤ) : LocalSessionManager := { monitor := .create timeout }

def onSessionCountChanged (manager : LocalSessionManager) : LocalSessionManager :=
  { manager with monitor := manager.monitor.update manager.sessions.length }

def registerSession (manager : LocalSessionManager) (session : ℕ) : LocalSessionManager :=
  onSessionCountChanged { manager with sessions := manager.sessions ++ [session], everRegistered := true }

def removeSessions (manager : LocalSessionManager) (removed : List ℕ) : LocalSessionManager :=
  { manager with sessions := manager.sessions.filter (· ∉ removed) }

def unregister (manager : LocalSessionManager) (session : ℕ) : LocalSessionManager :=
  onSessionCountChanged (manager.removeSessions [session])

def startBroadcast (manager : LocalSessionManager) : LocalSessionManager :=
  { manager with broadcasts := manager.broadcasts ++ [manager.sessions] }

/-- The end of a broadcast that found the sessions in `dead` closed, or failed to write to them. -/
def finishBroadcast (manager : LocalSessionManager) (index : ℕ) (dead : List ℕ) : Option LocalSessionManager :=
  match manager.broadcasts[index]? with
  | none => none
  | some copy =>
    if ∀ session ∈ dead, session ∈ copy then
      some (onSessionCountChanged
        ({ manager with broadcasts := manager.broadcasts.eraseIdx index }.removeSessions dead))
    else none

inductive Event
  | registerSession (session : ℕ)
  | unregister (session : ℕ)
  | startBroadcast
  | finishBroadcast (index : ℕ) (dead : List ℕ)
  | timerExpired
  | runHandler

def step (manager : LocalSessionManager) : Event → Option LocalSessionManager
  | .registerSession session => some (manager.registerSession session)
  | .unregister session => some (manager.unregister session)
  | .startBroadcast => some manager.startBroadcast
  | .finishBroadcast index dead => manager.finishBroadcast index dead
  | .timerExpired => manager.monitor.timerExpired.map ({ manager with monitor := · })
  | .runHandler => manager.monitor.runHandler.map ({ manager with monitor := · })

section Idleness

variable {manager next : LocalSessionManager} {event : Event} {timeout : ℤ}

/-- A step that calls back leaves no session, and is the end of the first wait with no session
registered so far or takes the last session away; in particular a broadcast that calls back has
removed one. -/
def FiresOnlyForIdleness (manager : LocalSessionManager) (event : Event) : Prop :=
  ∀ next, manager.step event = some next → next.monitor.calls ≠ manager.monitor.calls →
    next.sessions = [] ∧
    ((event = .runHandler ∧ manager.everRegistered = false) ∨ (manager.sessions ≠ [] ∧ next.sessions = [])) ∧
    (∀ index dead, event = .finishBroadcast index dead → next.sessions ≠ manager.sessions)

def BroadcastWithoutSession (manager : LocalSessionManager) (event : Event) : Prop :=
  manager.sessions = [] ∧ ∃ index dead next, event = .finishBroadcast index dead ∧ manager.step event = some next

def UnregistersRegistered (manager : LocalSessionManager) (event : Event) : Prop :=
  ∀ session, event = .unregister session → session ∈ manager.sessions

lemma broadcastWithoutSession_finishBroadcast {index : ℕ} {dead : List ℕ} :
    BroadcastWithoutSession manager (.finishBroadcast index dead) ↔
      manager.sessions = [] ∧ (manager.finishBroadcast index dead).isSome = true := by
  rw [Option.isSome_iff_exists]
  constructor
  · rintro ⟨hsessions, _, _, next, heq, hnext⟩
    cases heq
    exact ⟨hsessions, next, hnext⟩
  · rintro ⟨hsessions, next, hnext⟩
    exact ⟨hsessions, index, dead, next, rfl, hnext⟩

instance decidableBroadcastWithoutSession :
    ∀ (manager : LocalSessionManager) (event : Event), Decidable (BroadcastWithoutSession manager event)
  | _, .finishBroadcast _ _ => decidable_of_iff' _ broadcastWithoutSession_finishBroadcast
  | _, .registerSession _ | _, .unregister _ | _, .startBroadcast | _, .timerExpired | _, .runHandler =>
    isFalse fun ⟨_, _, _, _, heq, _⟩ => by cases heq

instance decidableUnregistersRegistered :
    ∀ (manager : LocalSessionManager) (event : Event), Decidable (UnregistersRegistered manager event)
  | manager, .unregister session =>
    decidable_of_iff (session ∈ manager.sessions) ⟨fun h _ heq => by cases heq; exact h, fun h => h session rfl⟩
  | _, .registerSession _ | _, .finishBroadcast _ _ | _, .startBroadcast | _, .timerExpired | _, .runHandler =>
    isTrue nofun

def GenerationFits (manager : LocalSessionManager) : Prop := manager.monitor.generation.toNat + 1 < 2 ^ 64

instance : DecidablePred GenerationFits := fun _ => inferInstanceAs (Decidable (_ < _))

structure MonitorKept (timeout : ℤ) (monitor : IdleShutdownMonitor) : Prop where
  timeout_eq : monitor.timeout = timeout
  hasCallback : monitor.hasCallback = true
  generation_pos : 1 ≤ monitor.generation.toNat
  waiting_first : ∀ generation, monitor.waiting = some generation → generation = 1
  posted_first : ∀ generation ∈ monitor.posted, generation = 1

structure Kept (timeout : ℤ) (manager : LocalSessionManager) : Prop where
  monitor : MonitorKept timeout manager.monitor
  generation_of_registered : manager.everRegistered = true → 2 ≤ manager.monitor.generation.toNat
  registered_of_session : manager.sessions ≠ [] → manager.everRegistered = true

lemma kept_create (htimeout : 0 < timeout) : Kept timeout (create timeout) := by
  have hcreate : IdleShutdownMonitor.create timeout = { timeout := timeout, generation := 1, waiting := some 1 } := by
    rw [IdleShutdownMonitor.create, IdleShutdownMonitor.armTimer, if_neg (by simp [htimeout])]
    rfl
  rw [create, hcreate]
  refine ⟨⟨rfl, rfl, le_rfl, ?_, nofun⟩, nofun, fun h => absurd rfl h⟩
  intro generation hwaiting
  exact (Option.some.inj hwaiting).symm

lemma toNat_generation_succ (hfits : GenerationFits manager) :
    (manager.monitor.generation + 1).toNat = manager.monitor.generation.toNat + 1 := by
  rw [UInt64.toNat_add]
  exact Nat.mod_eq_of_lt hfits

lemma update_eq (h : MonitorKept timeout manager.monitor) (htimeout : 0 < timeout)
    (hfits : GenerationFits manager) (sessionCount : ℕ) :
    manager.monitor.update sessionCount =
      if sessionCount = 0 then
        { manager.monitor with
          generation := manager.monitor.generation + 1
          calls := manager.monitor.calls + 1 }
      else { manager.monitor with generation := manager.monitor.generation + 1, waiting := none } := by
  have hpositive : ¬ (decide (manager.monitor.timeout ≤ 0) || !manager.monitor.hasCallback) = true := by
    rw [h.timeout_eq, h.hasCallback, decide_eq_false (not_le.mpr htimeout)]
    exact Bool.false_ne_true
  have hlater : 1 < manager.monitor.generation + 1 := by
    rw [UInt64.lt_iff_toNat_lt, toNat_generation_succ hfits]
    exact Nat.lt_succ_of_le h.generation_pos
  rw [IdleShutdownMonitor.update, IdleShutdownMonitor.armTimer, if_neg hpositive, if_pos hlater,
    IdleShutdownMonitor.cancelTimer]

lemma kept_onSessionCountChanged (h : MonitorKept timeout manager.monitor) (htimeout : 0 < timeout)
    (hfits : GenerationFits manager) (hregistered : manager.sessions ≠ [] → manager.everRegistered = true) :
    Kept timeout manager.onSessionCountChanged := by
  have hgeneration : 2 ≤ (manager.monitor.generation + 1).toNat := by
    rw [toNat_generation_succ hfits]
    exact Nat.succ_le_succ h.generation_pos
  rw [onSessionCountChanged, update_eq h htimeout hfits]
  split_ifs
  · exact ⟨⟨h.timeout_eq, h.hasCallback, (by decide : 1 ≤ 2).trans hgeneration, h.waiting_first, h.posted_first⟩,
      fun _ => hgeneration, hregistered⟩
  · exact ⟨⟨h.timeout_eq, h.hasCallback, (by decide : 1 ≤ 2).trans hgeneration, nofun, h.posted_first⟩,
      fun _ => hgeneration, hregistered⟩

lemma calls_onSessionCountChanged (manager : LocalSessionManager) (h : MonitorKept timeout manager.monitor)
    (htimeout : 0 < timeout) (hfits : GenerationFits manager) :
    manager.onSessionCountChanged.monitor.calls ≠ manager.monitor.calls ↔ manager.sessions = [] := by
  rw [onSessionCountChanged, update_eq h htimeout hfits, ← List.length_eq_zero_iff]
  split_ifs with hempty
  · exact iff_of_true (Nat.succ_ne_self _) hempty
  · exact iff_of_false (fun hne => hne rfl) hempty

lemma registered_removeSessions (h : Kept timeout manager) (removed : List ℕ)
    (hsome : (manager.removeSessions removed).sessions ≠ []) : manager.everRegistered = true := by
  apply h.registered_of_session
  rintro hnil
  rw [removeSessions, hnil] at hsome
  exact hsome rfl

lemma finishBroadcast_cases {index : ℕ} {dead : List ℕ}
    (hstep : manager.step (.finishBroadcast index dead) = some next) :
    next = onSessionCountChanged
      ({ manager with broadcasts := manager.broadcasts.eraseIdx index }.removeSessions dead) := by
  rw [step, finishBroadcast] at hstep
  cases hcopy : manager.broadcasts[index]? with
  | none =>
    rw [hcopy] at hstep
    cases hstep
  | some copy =>
    rw [hcopy, Option.ite_none_right_eq_some] at hstep
    exact (Option.some.inj hstep.2).symm

lemma timerExpired_cases (hstep : manager.step .timerExpired = some next) :
    ∃ generation, manager.monitor.waiting = some generation ∧
      next = { manager with
        monitor := { manager.monitor with waiting := none, posted := manager.monitor.posted ++ [generation] } } := by
  obtain ⟨monitor, hexpired, rfl⟩ := Option.map_eq_some_iff.mp hstep
  obtain ⟨generation, hwaiting, rfl⟩ := Option.map_eq_some_iff.mp hexpired
  exact ⟨generation, hwaiting, rfl⟩

lemma runHandler_cases (hstep : manager.step .runHandler = some next) :
    ∃ generation posted, manager.monitor.posted = generation :: posted ∧
      next = { manager with
        monitor := { manager.monitor with
          posted := posted
          calls := if generation = manager.monitor.generation then manager.monitor.calls + 1
            else manager.monitor.calls } } := by
  obtain ⟨monitor, hhandler, rfl⟩ := Option.map_eq_some_iff.mp hstep
  rw [IdleShutdownMonitor.runHandler] at hhandler
  cases hposted : manager.monitor.posted with
  | nil =>
    rw [hposted] at hhandler
    cases hhandler
  | cons generation posted =>
    rw [hposted] at hhandler
    cases hhandler
    exact ⟨generation, posted, rfl, rfl⟩

lemma kept_step (htimeout : 0 < timeout) (h : Kept timeout manager) (hfits : GenerationFits manager)
    (hstep : manager.step event = some next) : Kept timeout next := by
  cases event with
  | registerSession session =>
    cases hstep
    exact kept_onSessionCountChanged h.monitor htimeout hfits fun _ => rfl
  | unregister session =>
    cases hstep
    exact kept_onSessionCountChanged h.monitor htimeout hfits (registered_removeSessions h [session])
  | startBroadcast =>
    cases hstep
    exact ⟨h.monitor, h.generation_of_registered, h.registered_of_session⟩
  | finishBroadcast index dead =>
    rw [finishBroadcast_cases hstep]
    exact kept_onSessionCountChanged h.monitor htimeout hfits (registered_removeSessions h dead)
  | timerExpired =>
    obtain ⟨generation, hwaiting, rfl⟩ := timerExpired_cases hstep
    refine ⟨⟨h.monitor.timeout_eq, h.monitor.hasCallback, h.monitor.generation_pos, nofun, ?_⟩,
      h.generation_of_registered, h.registered_of_session⟩
    intro posted hmem
    rcases List.mem_append.mp hmem with hmem | hmem
    · exact h.monitor.posted_first posted hmem
    · rw [List.mem_singleton.mp hmem]
      exact h.monitor.waiting_first generation hwaiting
  | runHandler =>
    obtain ⟨generation, posted, hposted, rfl⟩ := runHandler_cases hstep
    have hfirst := h.monitor.posted_first
    rw [hposted, List.forall_mem_cons] at hfirst
    exact ⟨⟨h.monitor.timeout_eq, h.monitor.hasCallback, h.monitor.generation_pos, h.monitor.waiting_first,
      hfirst.2⟩, h.generation_of_registered, h.registered_of_session⟩

lemma fires_registerSession (h : Kept timeout manager) (htimeout : 0 < timeout) (hfits : GenerationFits manager)
    (session : ℕ) : FiresOnlyForIdleness manager (.registerSession session) := by
  intro next hstep hcalls
  cases hstep
  have hnone := (calls_onSessionCountChanged
    { manager with sessions := manager.sessions ++ [session], everRegistered := true } h.monitor htimeout hfits).mp hcalls
  exact absurd hnone (List.concat_ne_nil session manager.sessions)

lemma fires_unregister (h : Kept timeout manager) (htimeout : 0 < timeout) (hfits : GenerationFits manager)
    {session : ℕ} (hmem : session ∈ manager.sessions) : FiresOnlyForIdleness manager (.unregister session) := by
  intro next hstep hcalls
  cases hstep
  have hnone := (calls_onSessionCountChanged (manager.removeSessions [session]) h.monitor htimeout hfits).mp hcalls
  exact ⟨hnone, .inr ⟨List.ne_nil_of_mem hmem, hnone⟩, nofun⟩

lemma fires_runHandler (h : Kept timeout manager) : FiresOnlyForIdleness manager .runHandler := by
  intro next hstep hcalls
  obtain ⟨generation, posted, hposted, rfl⟩ := runHandler_cases hstep
  have hcurrent : generation = manager.monitor.generation := by
    by_contra hold
    exact hcalls (if_neg hold)
  have hfirst := h.monitor.posted_first generation (hposted ▸ List.mem_cons_self)
  have hnever : manager.everRegistered = false := by
    by_contra hregistered
    have hgeneration := h.generation_of_registered (Bool.not_eq_false _ ▸ hregistered)
    rw [← hcurrent, hfirst] at hgeneration
    exact absurd hgeneration (by decide)
  have hnone : manager.sessions = [] := by
    by_contra hsome
    rw [h.registered_of_session hsome] at hnever
    cases hnever
  exact ⟨hnone, .inl ⟨rfl, hnever⟩, nofun⟩

lemma calls_finishBroadcast (h : Kept timeout manager) (htimeout : 0 < timeout) (hfits : GenerationFits manager)
    {index : ℕ} {dead : List ℕ} (hstep : manager.step (.finishBroadcast index dead) = some next) :
    (next.monitor.calls ≠ manager.monitor.calls ↔ next.sessions = []) ∧
      (manager.sessions = [] → next.sessions = []) := by
  rw [finishBroadcast_cases hstep]
  refine ⟨calls_onSessionCountChanged (removeSessions _ dead) h.monitor htimeout hfits, fun hnone => ?_⟩
  exact (congrArg (List.filter (· ∉ dead)) hnone).trans List.filter_nil

lemma fires_finishBroadcast_iff (h : Kept timeout manager) (htimeout : 0 < timeout)
    (hfits : GenerationFits manager) (index : ℕ) (dead : List ℕ) :
    FiresOnlyForIdleness manager (.finishBroadcast index dead) ↔
      ¬ BroadcastWithoutSession manager (.finishBroadcast index dead) := by
  constructor
  · rintro hfires ⟨hnone, index', dead', next, heq, hstep⟩
    obtain ⟨hcalls, hnext⟩ := calls_finishBroadcast h htimeout hfits hstep
    exact (hfires next hstep (hcalls.mpr (hnext hnone))).2.2 index dead rfl ((hnext hnone).trans hnone.symm)
  · intro hwithout next hstep hcalls
    have hsome : manager.sessions ≠ [] := fun hnone => hwithout ⟨hnone, index, dead, next, rfl, hstep⟩
    have hnext := (calls_finishBroadcast h htimeout hfits hstep).1.mp hcalls
    refine ⟨hnext, .inr ⟨hsome, hnext⟩, fun _ _ _ => ?_⟩
    rw [hnext]
    exact hsome.symm

lemma fires_iff (h : Kept timeout manager) (htimeout : 0 < timeout)
    (hdomain : UnregistersRegistered manager event ∧ GenerationFits manager) :
    FiresOnlyForIdleness manager event ↔ ¬ BroadcastWithoutSession manager event := by
  have hother : (∀ index dead, event ≠ .finishBroadcast index dead) → ¬ BroadcastWithoutSession manager event := by
    rintro hne ⟨-, index, dead, -, heq, -⟩
    exact hne index dead heq
  cases event with
  | registerSession session => exact iff_of_true (fires_registerSession h htimeout hdomain.2 session) (hother nofun)
  | unregister session =>
    exact iff_of_true (fires_unregister h htimeout hdomain.2 (hdomain.1 session rfl)) (hother nofun)
  | startBroadcast =>
    refine iff_of_true (fun next hstep hcalls => ?_) (hother nofun)
    cases hstep
    exact absurd rfl hcalls
  | finishBroadcast index dead => exact fires_finishBroadcast_iff h htimeout hdomain.2 index dead
  | timerExpired =>
    refine iff_of_true (fun next hstep hcalls => ?_) (hother nofun)
    obtain ⟨generation, -, rfl⟩ := timerExpired_cases hstep
    exact absurd rfl hcalls
  | runHandler => exact iff_of_true (fires_runHandler h) (hother nofun)

end Idleness

theorem idle_shutdown_fires_only_for_idleness_iff {timeout : ℤ} (htimeout : 0 < timeout) {events : List Event}
    (hdomain : TransitionSystem.Along step
      (fun manager event => UnregistersRegistered manager event ∧ GenerationFits manager) (create timeout) events) :
    TransitionSystem.Along step FiresOnlyForIdleness (create timeout) events ↔
      TransitionSystem.Along step (fun manager event => ¬ BroadcastWithoutSession manager event)
        (create timeout) events :=
  TransitionSystem.along_congr_of_along (I := Kept timeout)
    (fun _ _ _ hkept hmeets hstep => kept_step htimeout hkept hmeets.2 hstep)
    (fun _ _ hkept hmeets => fires_iff hkept htimeout hmeets) (kept_create htimeout) hdomain

def oneSession : List Event := [.timerExpired, .runHandler, .registerSession 7, .startBroadcast, .finishBroadcast 0 [7]]

theorem idle_shutdown_one_session :
    TransitionSystem.Along step FiresOnlyForIdleness (create 1000) oneSession ∧
      (TransitionSystem.run step (create 1000) oneSession).map (fun manager => manager.monitor.calls) = some 2 := by
  refine ⟨(idle_shutdown_fires_only_for_idleness_iff (by decide) ?_).mpr ?_, by decide⟩
  · decide
  · decide

theorem broadcast_without_session_calls_back :
    ¬ TransitionSystem.Along step FiresOnlyForIdleness (create 1000) [.startBroadcast, .finishBroadcast 0 []] := by
  rintro ⟨-, hlater⟩
  have hfires := (hlater (create 1000).startBroadcast rfl).1
  exact (hfires _ rfl (by decide)).2.2 0 [] rfl rfl

end LocalSessionManager

end DltxtBridge.Protocol
