import ZoneBus.Counter
import ZoneBus.Envelope
import ZoneBus.Link
import ZoneBus.Reassembly.Store
import ZoneBus.Request.Pending
import ZoneBus.SendQueue
import ZoneBus.Subscription
import ZoneBus.Transfer

/-!
# Sessions: the state

A session shares one link among many callers.  A caller's message is registered
and queued; one writer takes it from the queue onto the link.  One reader takes
bytes from the link, finds the frames in them, puts values together, calls the
subscribers and ends the requests that a message answers.  One scanner looks at
the deadlines from time to time, and has overdue requests sent once more or lets
them time out.

The writer, the reader and the scanner belong to a run, which lasts from a start
to the next stop or fault.  They are tasks that move step by step, like the
calls that start and stop the session and the callers that wait for an outcome;
this module says how far each of them can have come.

## Main definitions

* `SessionConfig` — the settings of a session.
* `SessionState` — what a session publishes about itself.
* `Run`, with `ReaderPhase`, `WriterPhase` and `ScannerPhase` — the tasks of a run.
* `Control` — a call that starts or stops the session.
* `CallPhase` — a caller that waits for an outcome.
* `Notice` — what becomes known about a session from outside.
* `Session` — all of it.
-/

namespace ZoneBus

/-! ### Settings -/

/-- The settings of a session; times are in milliseconds. -/
structure SessionConfig where
  /-- The address that messages go out from. -/
  localAddress : Address := .external
  /-- How long an answer may take after each attempt. -/
  requestTimeout : Nat := 500
  /-- How often a message is sent again after the first attempt. -/
  retries : UInt32 := 3
  /-- The time from one look at the deadlines to the next. -/
  scanInterval : Nat := 25
  /-- Whether packets of values are acknowledged. -/
  acknowledgeData : Bool := true
  /-- How many notices an observer may fall behind. -/
  eventCapacity : Nat := 256
  /-- How many bytes are read at once. -/
  readBufferSize : Nat := 1024
deriving DecidableEq

/-- The settings that a session really runs with: nothing is zero that must not be. -/
def SessionConfig.sanitized (c : SessionConfig) : SessionConfig :=
  { c with
    scanInterval := max c.scanInterval 1
    eventCapacity := max c.eventCapacity 1
    readBufferSize := max c.readBufferSize 1 }

/-! ### What is published -/

/-- What a session publishes about itself. -/
inductive SessionState where
  /-- It does nothing. -/
  | stopped
  /-- The link is being opened. -/
  | starting
  /-- It takes messages. -/
  | started
  /-- The link is being closed. -/
  | stopping
deriving DecidableEq, Repr

/-- The name of a state. -/
def SessionState.name : SessionState → String
  | stopped => "stopped"
  | starting => "starting"
  | started => "started"
  | stopping => "stopping"

/-- Something from the wire that was dropped; never fatal. -/
inductive ProtocolIssue where
  /-- Bytes were no frame, or a frame no message. -/
  | decode (error : ProtocolError)
  /-- A packet did not fit the transfer in progress. -/
  | reassembly (source : Address) (error : BufferError)
deriving DecidableEq

/-- The text of an issue. -/
def ProtocolIssue.message : ProtocolIssue → String
  | decode error => error.message
  | reassembly source error => s!"{error.message} (from {source.display})"

/-! ### Tasks -/

/-- The number of a run. -/
abbrev RunId := Nat

/-- The number of a call that starts or stops the session. -/
abbrev ControlId := Nat

/-- The number of a caller that waits. -/
abbrev CallerId := Nat

/-- Whoever can move. -/
inductive TaskId where
  /-- A call that starts or stops the session. -/
  | control (id : ControlId)
  /-- The reader of a run. -/
  | reader (run : RunId)
  /-- The writer of a run. -/
  | writer (run : RunId)
  /-- The scanner of a run. -/
  | scanner (run : RunId)
  /-- A caller. -/
  | caller (id : CallerId)
deriving DecidableEq, Repr

/-- How far the reaction to a fault has come. -/
inductive Teardown where
  /-- In turn for the lifecycle lock, because of this error. -/
  | locking (cause : LinkError)
  /-- Closing the link. -/
  | closing (call : CallId)
deriving DecidableEq

/-- How far a reader has come. -/
inductive ReaderPhase where
  /-- It has not moved yet. -/
  | waking
  /-- About to read. -/
  | idle
  /-- Reading. -/
  | receiving (call : CallId)
  /-- Handling what was read, one result of the decoder after another. -/
  | handling
  /-- Ending the run because of a fault. -/
  | faulting (teardown : Teardown)
  /-- It has ended. -/
  | exited
deriving DecidableEq

/-- How far a writer has come. -/
inductive WriterPhase where
  /-- Waiting for a frame. -/
  | popping
  /-- About to see whether the request has ended meanwhile. -/
  | checking (frame : OutboundFrame)
  /-- Writing. -/
  | sending (frame : OutboundFrame) (call : CallId)
  /-- About to note that the frame was written. -/
  | marking (frame : OutboundFrame)
  /-- Ending the run because of a fault. -/
  | faulting (teardown : Teardown)
  /-- It has ended. -/
  | exited
deriving DecidableEq

/-- How far a scanner has come. -/
inductive ScannerPhase where
  /-- Waiting for the next look at the deadlines. -/
  | waiting
  /-- It has ended. -/
  | exited
deriving DecidableEq

/-- The tasks of a run. -/
structure Run where
  /-- Whether the tasks are to end. -/
  cancelled : Bool
  /-- How far the reader has come. -/
  reader : ReaderPhase
  /-- What the reader has made of the bytes so far. -/
  decoder : Decoder
  /-- How far the writer has come. -/
  writer : WriterPhase
  /-- How far the scanner has come. -/
  scanner : ScannerPhase
  /-- When the scanner looks next. -/
  nextScan : Instant
deriving DecidableEq

/-- The tasks of a run that begins now: the first look at the deadlines is at once. -/
def Run.fresh (now : Instant) : Run := ⟨false, .waking, .fresh, .popping, .waiting, now⟩

/-- Whether all tasks of a run have ended. -/
def Run.hasExited (r : Run) : Bool :=
  decide (r.reader = .exited ∧ r.writer = .exited ∧ r.scanner = .exited)

/-- How far a call that starts or stops the session has come. -/
inductive Control where
  /-- Starting, in turn for the lifecycle lock. -/
  | startTurn
  /-- Starting, with the lock: the link is being opened. -/
  | opening (call : CallId)
  /-- Starting, with the lock: the reader of the new run has not moved yet. -/
  | awaitingReader (run : RunId)
  /-- Stopping, in turn for the lifecycle lock. -/
  | stopTurn
  /-- Stopping: the link is being closed. -/
  | closing (run : RunId) (call : CallId)
  /-- Stopping: the tasks of the run have not all ended. -/
  | joining (run : RunId)
deriving DecidableEq

/-- How far a caller has come. -/
inductive CallPhase where
  /-- Waiting for the outcome of a request. -/
  | awaiting (id : RequestId)
  /-- Waiting for the value that a request asks for. -/
  | reading (id : RequestId)
  /-- Sending the packets of a value; these requests were made so far. -/
  | writing (target : Address) (priority : Priority) (rest : List Packet) (made : List RequestId)
  /-- Waiting for the packets of a value to be written, in order.  After a
  failure the rest is withdrawn. -/
  | collecting (rest : List RequestId) (failure : Option SessionError)
deriving DecidableEq

/-- How a call ends. -/
inductive CallResult where
  /-- With the reply to a request. -/
  | reply (reply : Reply)
  /-- With a value that was read. -/
  | value (bytes : Bytes)
  /-- With everything done. -/
  | done
  /-- With a failure. -/
  | failed (error : SessionError)
deriving DecidableEq

/-! ### Sessions -/

/-- What becomes known about a session from outside. -/
inductive Notice where
  /-- A message was written. -/
  | sent (envelope : Envelope)
  /-- A message was read, whoever it is for. -/
  | received (envelope : Envelope)
  /-- Something from the wire was dropped. -/
  | issue (issue : ProtocolIssue)
  /-- The session entered a state. -/
  | entered (state : SessionState)
  /-- A subscriber was called. -/
  | update (id : SubscriptionId) (update : PathUpdate)
  /-- A caller's call ended. -/
  | ended (id : CallerId) (result : CallResult)
  /-- A call that starts or stops the session ended. -/
  | controlled (id : ControlId) (failure : Option SessionError)
  /-- Something happened on the link. -/
  | link (event : LinkEvent)
deriving DecidableEq

/-- A session. -/
structure Session where
  /-- The settings it runs with. -/
  config : SessionConfig
  /-- The time. -/
  now : Instant
  /-- The published state. -/
  state : SessionState
  /-- The link to the bus. -/
  link : Link
  /-- Frames on their way to the writer. -/
  queue : SendQueue OutboundFrame
  /-- Requests that have not ended. -/
  pending : PendingTable
  /-- Requests that have ended, and how, in the order in which they did. -/
  delivered : List (RequestId × Outcome)
  /-- The values of every device. -/
  buffers : BufferStore
  /-- Who is called when a value changes. -/
  subscriptions : Subscriptions Unit
  /-- Numbers the requests. -/
  requestIds : Counter
  /-- The run that the next stop or fault ends. -/
  running : Option RunId
  /-- The tasks in turn for the lifecycle lock; the first one holds it. -/
  lifecycleLock : List TaskId
  /-- Every run there ever was. -/
  runs : Directory RunId Run
  /-- Numbers the runs. -/
  runIds : Counter
  /-- The calls that start or stop the session. -/
  controls : Directory ControlId Control
  /-- Numbers them. -/
  controlIds : Counter
  /-- The callers that wait. -/
  callers : Directory CallerId CallPhase

namespace Session

/-- A session that was never started. -/
def fresh (config : SessionConfig) (link : Link) : Session :=
  { config := config.sanitized, now := 0, state := .stopped, link, queue := .empty
    pending := .empty, delivered := [], buffers := .empty, subscriptions := .empty
    requestIds := .fresh, running := none, lifecycleLock := [], runs := .empty
    runIds := .fresh, controls := .empty, controlIds := .fresh, callers := .empty }

/-- Publishes a state; observers hear of it when it is another one. -/
def enter (s : Session) (state : SessionState) : Session × List Notice :=
  if s.state = state then (s, []) else ({ s with state := state }, [.entered state])

/-- Hands the outcomes of ended requests to those who wait for them. -/
def deliver (s : Session) (settled : List Settled) : Session :=
  { s with delivered := s.delivered ++ settled.filterMap fun e =>
      match e.ending with
      | .outcome outcome => some (e.id, outcome)
      | .replaced => none }

/-- The outcome of a request that has ended. -/
def outcome? (s : Session) (id : RequestId) : Option Outcome :=
  (s.delivered.find? fun e => e.1 == id).map Prod.snd

/-- The last value published at a path of a device. -/
def cached (s : Session) (target : Address) (path : Path) : Option Bytes :=
  s.buffers.read target path

/-- Forgets the value at a path of a device; tells whether there was a buffer. -/
def forget (s : Session) (target : Address) (path : Path) : Bool × Session :=
  let (found, buffers) := s.buffers.remove target path
  (found, { s with buffers := buffers })

/-- Subscribes to a path of a device. -/
def subscribe (s : Session) (target : Address) (path : Path) : SubscriptionId × Session :=
  let (id, subscriptions) := s.subscriptions.subscribe (target, path) ()
  (id, { s with subscriptions := subscriptions })

/-- Ends a subscription; tells whether there was one. -/
def unsubscribe (s : Session) (id : SubscriptionId) : Bool × Session :=
  let (found, subscriptions) := s.subscriptions.unsubscribe id
  (found, { s with subscriptions := subscriptions })

end Session

end ZoneBus
