import DltxtBridge.Library.FiniteMap
import DltxtBridge.Library.Pool
import DltxtBridge.Library.TransitionSystem
import DltxtBridge.Protocol.JsonRpc
import DltxtBridge.Protocol.RoundTrip

/-! `ResponseManager`: responses are stored for requests that wait on a timer. An event
runs one operation, or one waiting coroutine up to its end. -/

namespace DltxtBridge.Protocol

structure Tracker where
  originalId : RequestId := .monostate
  responses : List Json := []

inductive WaitResult
  | responseReady (response : Json)
  | timedOut
  | cancelled

def WaitResult.response? : WaitResult → Option Json
  | responseReady response => some response
  | _ => none

inductive TimerCompletion
  | expired
  | operationAborted
deriving DecidableEq

def TimerCompletion.waitResult : TimerCompletion → WaitResult
  | expired => .timedOut
  | operationAborted => .cancelled

/-- A suspended `wait_for_response`. It keeps its tracker, and its timer has completed once
`completion` is set. -/
structure Waiter where
  id : RequestId
  tracker : ℕ
  completion : Option TimerCompletion := none

/-- `trackers` is the shared memory of the trackers made so far. `created`, `stored` and
`results` record every id handed out, every response stored and every wait that ended, where
a wait that threw has no result. -/
structure ResponseManager where
  nextBridgeRequestId : UInt64 := 0
  pendingResponses : FiniteMap RequestId ℕ := ∅
  trackers : ℕ → Tracker := fun _ => {}
  waiters : List Waiter := []
  created : List (RequestId × RequestId) := []
  stored : List (RequestId × Json) := []
  results : List (RequestId × Option WaitResult) := []

namespace ResponseManager

def bridgeId (n : UInt64) : RequestId := .string (ascii "bridge-" ++ decimal n.toNat)

/-- A null id throws before anything is written. -/
def createBridgeRequestId (m : ResponseManager) (originalId : RequestId) : ResponseManager :=
  if Jsonrpc.isTrackableRequestId originalId then
    { m with
      nextBridgeRequestId := m.nextBridgeRequestId + 1
      pendingResponses := m.pendingResponses.insert (bridgeId (m.nextBridgeRequestId + 1)) m.created.length
      trackers := Function.update m.trackers m.created.length { originalId := originalId }
      created := m.created ++ [(originalId, bridgeId (m.nextBridgeRequestId + 1))] }
  else m

def completeWaits (completion : TimerCompletion) (p : Waiter → Bool) (waiters : List Waiter) : List Waiter :=
  waiters.map fun w =>
    if p w && w.completion.isNone then { w with completion := some completion } else w

def storeResponse (m : ResponseManager) (id : RequestId) (response : Json) : ResponseManager :=
  match m.pendingResponses.lookup id with
  | none => m
  | some k =>
    { m with
      trackers := Function.update m.trackers k
        { m.trackers k with responses := (m.trackers k).responses ++ [response] }
      waiters := completeWaits .operationAborted (fun w => w.tracker = k) m.waiters
      stored := m.stored ++ [(id, response)] }

def cancelAll (m : ResponseManager) : ResponseManager :=
  { m with
    waiters := completeWaits .operationAborted
      (fun w => m.pendingResponses.lookup w.id = some w.tracker) m.waiters }

def cleanup (m : ResponseManager) (id : RequestId) : ResponseManager :=
  { m with pendingResponses := m.pendingResponses.erase id }

def readdress (originalId : RequestId) (response : Json) : Option Json :=
  response.assign Jsonrpc.idKey (Jsonrpc.requestIdToJson originalId)

/-- The two places where `wait_for_response` takes the front response, or goes on without. -/
def takeResponse (m : ResponseManager) (id : RequestId) (k : ℕ) (otherwise : ResponseManager) :
    ResponseManager :=
  match (m.trackers k).responses with
  | [] => otherwise
  | response :: responses =>
    { m with
      trackers := Function.update m.trackers k { m.trackers k with responses := responses }
      results := m.results ++ [(id, (readdress (m.trackers k).originalId response).map .responseReady)] }

def endWait (m : ResponseManager) (id : RequestId) (result : WaitResult) : ResponseManager :=
  { m with results := m.results ++ [(id, some result)] }

/-- `wait_for_response` up to its end or its suspension. -/
def waitForResponse (m : ResponseManager) (id : RequestId) : ResponseManager :=
  match m.pendingResponses.lookup id with
  | none => m.endWait id .cancelled
  | some k => m.takeResponse id k { m with waiters := m.waiters ++ [{ id := id, tracker := k }] }

/-- `wait_for_response` from its resumption to its end. -/
def resume (m : ResponseManager) (w : Waiter) (completion : TimerCompletion) : ResponseManager :=
  m.takeResponse w.id w.tracker (m.endWait w.id completion.waitResult)

inductive Event
  | createBridgeRequestId (originalId : RequestId)
  | storeResponse (id : RequestId) (response : Json)
  | waitForResponse (id : RequestId)
  | timerExpires (index : ℕ)
  | resume (index : ℕ)
  | cancelAll
  | cleanup (id : RequestId)

def step (m : ResponseManager) : Event → Option ResponseManager
  | .createBridgeRequestId originalId => some (m.createBridgeRequestId originalId)
  | .storeResponse id response => some (m.storeResponse id response)
  | .waitForResponse id => some (m.waitForResponse id)
  | .timerExpires index =>
    match m.waiters[index]? with
    | some w =>
      if w.completion.isSome then none
      else some { m with waiters := m.waiters.set index { w with completion := some .expired } }
    | none => none
  | .resume index =>
    match m.waiters[index]? with
    | some w =>
      w.completion.map fun completion =>
        { m with waiters := m.waiters.eraseIdx index }.resume w completion
    | none => none
  | .cancelAll => some m.cancelAll
  | .cleanup id => some (m.cleanup id)

end ResponseManager

end DltxtBridge.Protocol
