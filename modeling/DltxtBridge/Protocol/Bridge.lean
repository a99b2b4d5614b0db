import DltxtBridge.Protocol.Intake
import DltxtBridge.Protocol.Replies

/-! The bridge on standard input and output: what comes in, the session loop, and the coroutines
beside it that write to the same session. One thread runs the session, and a write to a stdio handle
keeps it until the frame is out. -/

namespace DltxtBridge.Protocol

inductive Sender
  | sessionLoop
  | indexReady
  | heartbeat
deriving DecidableEq

/-- `outbox` is what the loop has yet to write for the message in hand, and `spawned` what the
scheduled notifications have yet to write. -/
structure Bridge (κ E : Type) where
  intake : Intake E
  loop : SessionLoop κ
  outbox : List Json := []
  spawned : List Json := []
  sent : List (Sender × Json) := []
  wire : Bytes := []

def heartbeatMessage : Json :=
  Jsonrpc.createNotification (ascii "dltxt/notification") (.object [(ascii "message", .ofString "heartbeat")])

def Intake.Event.pops : Intake.Event → Bool
  | .read => false
  | .deliver => false
  | .waitAndPop => true
  | .resume => true

namespace Bridge

variable {κ E : Type}

/-- A step of the input, of a coroutine of the session, or of the thread pool, which calls
`notify_crossref_index_ready` and works on the host behind the loop. -/
inductive Event (κ : Type)
  | input (event : Intake.Event)
  | write
  | notify
  | heartbeat
  | indexReady
  | background (change : κ → κ)

def start (input : Reader E) (workspace : Workspace κ) : Bridge κ E where
  intake := { input := input }
  loop := { session := { workspace := workspace } }

def sentBy (sender : Sender) (b : Bridge κ E) : List Json :=
  b.sent.filterMap fun entry => if entry.1 = sender then some entry.2 else none

def isOpen (b : Bridge κ E) : Bool := b.loop.isOpen || !b.outbox.isEmpty

def canPop (b : Bridge κ E) : Bool := b.loop.isOpen && b.outbox.isEmpty

variable (host : Host κ) (parse : Bytes → Option Json) (dump : Json → Bytes)

/-- The write succeeds. -/
def writeJsonMessage (sender : Sender) (message : Json) (b : Bridge κ E) : Bridge κ E :=
  { b with sent := b.sent ++ [(sender, message)], wire := b.wire ++ frameMessage (dump message) }

def advance (event : SessionEvent) (b : Bridge κ E) : Bridge κ E :=
  let next := stepLoop host parse b.loop event
  { b with
    loop := next
    outbox := b.outbox ++ next.session.written.drop b.loop.session.written.length
    spawned := b.spawned ++ next.session.scheduled.drop b.loop.session.scheduled.length }

def endLoop (b : Bridge κ E) : Bridge κ E := { b with loop := { b.loop with isOpen := false } }

def receive (result : Option (PopResult E)) (b : Bridge κ E) : Bridge κ E :=
  match result with
  | some (.message payload) => b.advance host parse (.message payload)
  | some (.failed _) => b.endLoop
  | some .endOfInput => b.endLoop
  | none => b

def popResult (b : Bridge κ E) (event : Intake.Event) : Option (PopResult E) :=
  if event.pops then b.intake.inbox.queue.popRound.1 else none

def changeHost (change : κ → κ) (b : Bridge κ E) : Bridge κ E :=
  let workspace := { b.loop.session.workspace with host := change b.loop.session.workspace.host }
  { b with loop := { b.loop with session := { b.loop.session with workspace := workspace } } }

def step (b : Bridge κ E) : Event κ → Option (Bridge κ E)
  | .input event =>
    if event.pops && !b.canPop then none
    else
      (b.intake.step event).map fun intake => { b with intake := intake }.receive host parse (b.popResult event)
  | .write =>
    match b.outbox with
    | [] => none
    | message :: rest => some ({ b with outbox := rest }.writeJsonMessage dump .sessionLoop message)
  | .notify =>
    match b.spawned with
    | [] => none
    | message :: rest =>
      let resumed := { b with spawned := rest }
      some (if b.isOpen then resumed.writeJsonMessage dump .indexReady message else resumed)
  | .heartbeat => if b.isOpen then some (b.writeJsonMessage dump .heartbeat heartbeatMessage) else none
  | .indexReady => some (b.advance host parse .crossrefIndexReady)
  | .background change => some (b.changeHost change)

end Bridge

end DltxtBridge.Protocol
