import ZoneBus.Session.Traffic

/-!
# Sessions: the moves of the tasks

Every task is a sequence of moves, and between two moves of one task any other
may move.  `Session.moves` lists everything a task may do next: nothing
while it has to wait, more than one thing where it may take either of two ways.
A task whose run is to end may always end instead of going on with what it waits
for.

A start holds the lifecycle lock until it is through.  A stop and a fault hold
it only while they take the run away that is installed, so that exactly one of
them ends a run; what is left of the run is closed down after that.

## Main definitions

* `Session.beginStart`, `Session.beginStop` — calls that start and stop.
* `Session.beginCall` — a caller begins to wait.
* `Session.readerMoves`, `writerMoves`, `scannerMoves`, `controlMoves`,
  `callerMoves` — what each kind of task may do next.
* `Session.moves` — what a task may do next.
* `Session.Step` — one move of one task.
-/

namespace ZoneBus

/-- What a task may do next: the session after it, and what becomes known. -/
abbrev Moves := List (Session × List Notice)

namespace Session

/-! ### Moving on the link -/

/-- How a call of the link ended, if these events tell. -/
def resultOf? (c : CallId) : List LinkEvent → Option LinkResult
  | [] => none
  | .finished c' result :: rest => if c' = c then some result else resultOf? c rest
  | _ :: rest => resultOf? c rest

/-- The moves of a call of the link; once the call has ended, the task goes on. -/
def onLink (s : Session) (c : CallId) (goOn : Session → LinkResult → Session × List Notice) :
    Moves :=
  (s.link.moves c).map fun (link, events) =>
    let s := { s with link := link }
    let seen := events.map Notice.link
    match resultOf? c events with
    | none => (s, seen)
    | some result =>
      let (s, more) := goOn s result
      (s, seen ++ more)

/-- Starts a call of the link. -/
def beginLink (s : Session) (call : LinkCall) : CallId × Session :=
  let (c, link) := s.link.begin call
  (c, { s with link := link })

/-- Drops a call of the link midway. -/
def abortLink (s : Session) (c : CallId) : Session := { s with link := s.link.abort c }

/-! ### The lifecycle lock -/

/-- Gets in turn for the lifecycle lock. -/
def queueLifecycle (s : Session) (t : TaskId) : Session :=
  { s with lifecycleLock := s.lifecycleLock ++ [t] }

/-- Gives the lifecycle lock up. -/
def releaseLifecycle (s : Session) (t : TaskId) : Session :=
  { s with lifecycleLock := s.lifecycleLock.filter fun i => decide (i ≠ t) }

/-- Whether a task holds the lifecycle lock. -/
def holdsLifecycle (s : Session) (t : TaskId) : Bool := s.lifecycleLock.head? == some t

/-! ### Ending a run -/

/-- Changes a run. -/
def modifyRun (s : Session) (r : RunId) (f : Run → Run) : Session :=
  { s with runs := s.runs.modify r f }

/-- Takes the installed run away and begins to close it down: its tasks are to
end, the queue is closed, every request ends with the given failure, and the link
is being closed. -/
def takeDown (s : Session) (r : RunId) (error : SessionError) : CallId × Session × List Notice :=
  let (s, entered) := { s with running := none }.enter .stopping
  let s := s.modifyRun r fun run => { run with cancelled := true }
  let (_, queue) := s.queue.close
  let (_, settled, pending) := s.pending.failAll error
  let s := { s with queue := queue, pending := pending }.deliver settled
  let (c, s) := s.beginLink .close
  (c, s, entered)

/-- What the reaction to a fault may do next.  The task ends when it is through,
or when somebody else has taken the run away. -/
def teardownMoves (s : Session) (t : TaskId) (put : Session → Teardown → Session)
    (exit : Session → Session) : Teardown → Moves
  | .locking cause =>
    if s.holdsLifecycle t then
      match s.running with
      | none => [(exit (s.releaseLifecycle t), [])]
      | some r =>
        let (c, s, notices) := (s.releaseLifecycle t).takeDown r (.connection cause)
        [(put s (.closing c), notices)]
    else []
  | .closing c => s.onLink c fun s _ =>
    let (s, entered) := s.enter .stopped
    (exit s, entered)

/-! ### The reader -/

/-- Notes how far the reader of a run has come. -/
def setReader (s : Session) (r : RunId) (phase : ReaderPhase) : Session :=
  s.modifyRun r fun run => { run with reader := phase }

/-- What the reader of a run may do next. -/
def readerMoves (s : Session) (r : RunId) (run : Run) : Moves :=
  let exit := if run.cancelled then [(s.setReader r .exited, [])] else []
  match run.reader with
  | .waking => [(s.setReader r .idle, [])]
  | .idle =>
    let (c, s') := s.beginLink (.receive s.config.readBufferSize)
    exit ++ [(s'.setReader r (.receiving c), [])]
  | .receiving c =>
    let dropped := if run.cancelled then [((s.abortLink c).setReader r .exited, [])] else []
    dropped ++ s.onLink c fun s result =>
      match result with
      | .received bytes =>
        (s.modifyRun r fun run =>
          { run with reader := .handling, decoder := run.decoder.extend bytes }, [])
      | .failed error =>
        if run.cancelled then (s.setReader r .exited, [])
        else ((s.setReader r (.faulting (.locking error))).queueLifecycle (.reader r), [])
      | .done => (s.setReader r .exited, [])
  | .handling =>
    match run.decoder.next with
    | (none, decoder) =>
      [(s.modifyRun r fun run => { run with reader := .idle, decoder := decoder }, [])]
    | (some result, decoder) =>
      [(s.modifyRun r fun run => { run with decoder := decoder }).handle result]
  | .faulting teardown =>
    s.teardownMoves (.reader r) (fun s t => s.setReader r (.faulting t))
      (fun s => s.setReader r .exited) teardown
  | .exited => []

/-! ### The writer -/

/-- Notes how far the writer of a run has come. -/
def setWriter (s : Session) (r : RunId) (phase : WriterPhase) : Session :=
  s.modifyRun r fun run => { run with writer := phase }

/-- Notes that a frame was written. -/
def noteWritten (s : Session) (f : OutboundFrame) : Session × List Notice :=
  let (_, settled, pending) := s.pending.markWritten f.id s.now s.config.requestTimeout
  ({ s with pending := pending }.deliver settled, [.sent f.envelope])

/-- What the writer of a run may do next. -/
def writerMoves (s : Session) (r : RunId) (run : Run) : Moves :=
  let exit := if run.cancelled then [(s.setWriter r .exited, [])] else []
  match run.writer with
  | .popping =>
    exit ++
      if s.queue.closed then [(s.setWriter r .exited, [])]
      else
        match s.queue.tryPop with
        | none => []
        | some (frame, queue) => [({ s with queue := queue }.setWriter r (.checking frame), [])]
  | .checking frame =>
    if s.pending.contains frame.id then
      let (c, s) := s.beginLink (.send frame.bytes)
      [(s.setWriter r (.sending frame c), [])]
    else [(s.setWriter r .popping, [])]
  | .sending frame c =>
    let dropped := if run.cancelled then [((s.abortLink c).setWriter r .exited, [])] else []
    dropped ++ s.onLink c fun s result =>
      match result with
      | .done => (s.setWriter r (.marking frame), [])
      | .failed error =>
        if run.cancelled then (s.setWriter r .exited, [])
        else ((s.setWriter r (.faulting (.locking error))).queueLifecycle (.writer r), [])
      | .received _ => (s.setWriter r .exited, [])
  | .marking frame =>
    let (s, notices) := s.noteWritten frame
    [(s.setWriter r .popping, notices)]
  | .faulting teardown =>
    s.teardownMoves (.writer r) (fun s t => s.setWriter r (.faulting t))
      (fun s => s.setWriter r .exited) teardown
  | .exited => []

/-! ### The scanner -/

/-- How late a look at the deadlines may be before the following ones are moved. -/
def scanSlack : Nat := 5

/-- When the scanner looks again after it has looked. -/
def scanAfter (s : Session) (due : Instant) : Instant :=
  if s.now ≤ due + scanSlack then due + s.config.scanInterval else s.now + s.config.scanInterval

/-- Hands on what became of an overdue request.  When the queue is closed, a
request that would be sent once more ends. -/
def handOn (s : Session) : Expiry → Session
  | .resend frame priority _ =>
    match s.queue.push priority frame with
    | some queue => { s with queue := queue }
    | none => (s.withdraw frame.id .cancelled).2
  | .timedOut _ _ => s

/-- Looks at the deadlines: overdue requests are sent once more or time out. -/
def scan (s : Session) : Session :=
  let expired := s.pending.expire s.now
  expired.results.foldl handOn ({ s with pending := expired.table }.deliver expired.settled)

/-- What the scanner of a run may do next. -/
def scannerMoves (s : Session) (r : RunId) (run : Run) : Moves :=
  match run.scanner with
  | .waiting =>
    let exit := if run.cancelled then
        [(s.modifyRun r fun run => { run with scanner := .exited }, [])]
      else []
    exit ++
      if run.nextScan ≤ s.now then
        [(s.scan.modifyRun r fun run => { run with nextScan := s.scanAfter run.nextScan }, [])]
      else []
  | .exited => []

/-! ### Starting and stopping -/

/-- Notes how far a call that starts or stops has come. -/
def setControl (s : Session) (i : ControlId) (phase : Control) : Session :=
  { s with controls := s.controls.put i phase }

/-- Ends a call that starts or stops. -/
def endControl (s : Session) (i : ControlId) (failure : Option SessionError) :
    Session × List Notice :=
  ({ s.releaseLifecycle (.control i) with controls := s.controls.erase i }, [.controlled i failure])

/-- Begins a call that starts or stops. -/
def beginControl (s : Session) (phase : Control) : ControlId × Session :=
  let (i, controlIds) := s.controlIds.next
  (i, ({ s with controlIds := controlIds }.setControl i phase).queueLifecycle (.control i))

/-- Begins to start the session. -/
def beginStart (s : Session) : ControlId × Session := s.beginControl .startTurn

/-- Begins to stop the session. -/
def beginStop (s : Session) : ControlId × Session := s.beginControl .stopTurn

/-- Begins a run. -/
def spawn (s : Session) : RunId × Session :=
  let (r, runIds) := s.runIds.next
  (r, { s with runIds := runIds, runs := s.runs.put r (.fresh s.now), queue := s.queue.reopen })

/-- Whether the reader of a run has moved. -/
def readerIsUp (s : Session) (r : RunId) : Bool :=
  match s.runs.find? r with
  | some run => decide (run.reader ≠ .waking)
  | none => true

/-- What a call that starts or stops may do next. -/
def controlMoves (s : Session) (i : ControlId) : Control → Moves
  | .startTurn =>
    if s.holdsLifecycle (.control i) then
      match s.running with
      | some _ => [s.endControl i (some .alreadyStarted)]
      | none =>
        let (s, entered) := s.enter .starting
        let (c, s) := s.beginLink .open
        [(s.setControl i (.opening c), entered)]
    else []
  | .opening c => s.onLink c fun s result =>
    match result with
    | .failed error =>
      let (s, entered) := s.enter .stopped
      let (s, ended) := s.endControl i (some (.connection error))
      (s, entered ++ ended)
    | _ =>
      let (r, s) := s.spawn
      (s.setControl i (.awaitingReader r), [])
  | .awaitingReader r =>
    if s.readerIsUp r then
      let (s, entered) := { s with running := some r }.enter .started
      let (s, ended) := s.endControl i none
      [(s, entered ++ ended)]
    else []
  | .stopTurn =>
    if s.holdsLifecycle (.control i) then
      match s.running with
      | none => [s.endControl i none]
      | some r =>
        let (c, s, notices) := (s.releaseLifecycle (.control i)).takeDown r .cancelled
        [(s.setControl i (.closing r c), notices)]
    else []
  | .closing r c => s.onLink c fun s _ => (s.setControl i (.joining r), [])
  | .joining r =>
    match (s.runs.find? r).map Run.hasExited with
    | some false => []
    | _ =>
      let (s, entered) := s.enter .stopped
      let (s, ended) := s.endControl i none
      [(s, entered ++ ended)]

/-! ### Callers -/

/-- A caller begins to wait. -/
def beginCall (s : Session) (i : CallerId) (phase : CallPhase) : Session :=
  { s with callers := s.callers.put i phase }

/-- A caller's call ends. -/
def endCall (s : Session) (i : CallerId) (result : CallResult) : Session × List Notice :=
  ({ s with callers := s.callers.erase i }, [.ended i result])

/-- What a caller makes of the outcome of a request. -/
def resultOfReply : Outcome → CallResult
  | .success reply => .reply reply
  | .failure error => .failed error

/-- What a caller who reads makes of the outcome of a request. -/
def resultOfRead : Outcome → CallResult
  | .success (.data value) => .value value
  | .success reply => .failed (.unexpectedReply reply)
  | .failure error => .failed error

/-- What a caller may do next. -/
def callerMoves (s : Session) (i : CallerId) : CallPhase → Moves
  | .awaiting id =>
    match s.outcome? id with
    | none => []
    | some outcome => [s.endCall i (resultOfReply outcome)]
  | .reading id =>
    match s.outcome? id with
    | none => []
    | some outcome => [s.endCall i (resultOfRead outcome)]
  | .writing _ _ [] made => [(s.beginCall i (.collecting made none), [])]
  | .writing target priority (p :: rest) made =>
    match s.send target (.setData p) priority with
    | (.ok id, s) => [(s.beginCall i (.writing target priority rest (made ++ [id])), [])]
    | (.error error, s) => [(s.cancelAll made).endCall i (.failed error)]
  | .collecting [] none => [s.endCall i .done]
  | .collecting [] (some error) => [s.endCall i (.failed error)]
  | .collecting (id :: rest) none =>
    match s.outcome? id with
    | none => []
    | some (.success _) => [(s.beginCall i (.collecting rest none), [])]
    | some (.failure error) => [(s.beginCall i (.collecting rest (some error)), [])]
  | .collecting (id :: rest) (some error) =>
    [((s.cancel id).2.beginCall i (.collecting rest (some error)), [])]

/-- Begins to wait for the outcome of a message that is sent now. -/
def beginSend (s : Session) (i : CallerId) (target : Address) (message : Message)
    (priority : Priority) (phase : RequestId → CallPhase) : Session × List Notice :=
  match s.send target message priority with
  | (.ok id, s) => (s.beginCall i (phase id), [])
  | (.error error, s) => s.endCall i (.failed error)

/-- Begins to send an event and to wait for its handshake. -/
def beginEvent (s : Session) (i : CallerId) (target : Address) (path : Path) (id : UInt16)
    (priority : Priority) : Session × List Notice :=
  s.beginSend i target (.event (.plain path id priority)) priority .awaiting

/-- Begins to read the value at a path: at once from what is known, unless it is
to be asked for anew. -/
def beginRead (s : Session) (i : CallerId) (target : Address) (path : Path) (refresh : Bool) :
    Session × List Notice :=
  match if refresh then none else s.cached target path with
  | some value => s.endCall i (.value value)
  | none => s.beginSend i target (.requestData (.stored path)) .low .reading

/-- Begins to write a value to a path. -/
def beginWrite (s : Session) (i : CallerId) (target : Address) (path : Path) (value : Bytes)
    (priority : Priority) : Session × List Notice :=
  match transfer path .root value with
  | .error e => s.endCall i (.failed (.encode e))
  | .ok packets => (s.beginCall i (.writing target priority packets []), [])

/-! ### All tasks -/

/-- What a task may do next. -/
def moves (s : Session) : TaskId → Moves
  | .control i =>
    match s.controls.find? i with
    | some phase => s.controlMoves i phase
    | none => []
  | .reader r =>
    match s.runs.find? r with
    | some run => s.readerMoves r run
    | none => []
  | .writer r =>
    match s.runs.find? r with
    | some run => s.writerMoves r run
    | none => []
  | .scanner r =>
    match s.runs.find? r with
    | some run => s.scannerMoves r run
    | none => []
  | .caller i =>
    match s.callers.find? i with
    | some phase => s.callerMoves i phase
    | none => []

/-- One move of one task. -/
inductive Step : Session → List Notice → Session → Prop where
  /-- Some task takes one of its moves. -/
  | move {s s' : Session} {t : TaskId} {notices : List Notice} :
      (s', notices) ∈ s.moves t → Step s notices s'

end Session

end ZoneBus
