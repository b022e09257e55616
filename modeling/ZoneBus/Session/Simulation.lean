import ZoneBus.Session.Turns

/-!
# Sessions in a simulation

A session under a clock of its own, over a line to a peer at the far end.  The
clock stands still while tasks move, and goes on only when it is told to.  Once
no task can move, the peer reads everything that was written, unless it is held
back; that makes room on the line, so tasks may move again.

## Main definitions

* `Simulation` — the session, the peer, and the calls of its callers.
* `Sighting`, `Record`, `Report` — what was seen, and when.
* `Simulation.settle` — everything that happens at one instant.
* `Simulation.start`, `stop`, `send`, `event`, `read`, `write`, `wait`, `cancel` —
  what callers do.
* `Simulation.inject`, `hold`, `dropPeer` — what the peer does.
* `Simulation.advance` — time passes.
-/

namespace ZoneBus

/-- Something that was seen. -/
inductive Sighting where
  /-- Something became known about the session. -/
  | notice (notice : Notice)
  /-- The peer read these bytes. -/
  | arrived (bytes : Bytes)
deriving DecidableEq

/-- What was seen, and when. -/
abbrev Record := List (Instant × Sighting)

/-- A record sorted by what was seen. -/
structure Report where
  /-- The bytes that the peer read at each instant. -/
  wire : List (Instant × Bytes) := []
  /-- The messages that were written. -/
  sent : List Envelope := []
  /-- The messages that were read. -/
  received : List Envelope := []
  /-- What was dropped. -/
  issues : List ProtocolIssue := []
  /-- The states that the session entered. -/
  states : List SessionState := []
  /-- The calls of subscribers. -/
  updates : List (SubscriptionId × PathUpdate) := []
  /-- The calls that ended, and when. -/
  ended : List (CallerId × Instant × CallResult) := []

/-- Puts bytes that the peer read before those of a report. -/
def Report.addWire (r : Report) (t : Instant) (bytes : Bytes) : Report :=
  match r.wire with
  | (u, later) :: rest =>
    if t = u then { r with wire := (u, bytes ++ later) :: rest }
    else { r with wire := (t, bytes) :: r.wire }
  | [] => { r with wire := [(t, bytes)] }

/-- Puts a notice before those of a report. -/
def Report.addNotice (r : Report) (t : Instant) : Notice → Report
  | .sent e => { r with sent := e :: r.sent }
  | .received e => { r with received := e :: r.received }
  | .issue i => { r with issues := i :: r.issues }
  | .entered s => { r with states := s :: r.states }
  | .update i u => { r with updates := (i, u) :: r.updates }
  | .ended i result => { r with ended := (i, t, result) :: r.ended }
  | .controlled _ _ => r
  | .link _ => r

/-- Sorts a record by what was seen. -/
def Record.report (seen : Record) : Report :=
  seen.foldr (fun e r =>
    match e.2 with
    | .notice n => r.addNotice e.1 n
    | .arrived bytes => r.addWire e.1 bytes) {}

/-- A session under a clock of its own. -/
structure Simulation where
  /-- The session. -/
  session : Session
  /-- Whether there is a peer at the far end. -/
  hasPeer : Bool
  /-- Whether the peer is kept from reading. -/
  held : Bool
  /-- Numbers the calls of the callers. -/
  calls : Counter
  /-- The calls that sent a message and whose outcome nobody waits for yet. -/
  handles : Directory CallerId RequestId

namespace Simulation

/-- A session that was never started, over a line with room for the given number of
bytes each way. -/
def fresh (config : SessionConfig) (endpoint : String) (capacity : Nat)
    (connects : List (Option LinkError)) : Simulation :=
  { session := .fresh config (.fresh endpoint (some capacity) connects)
    hasPeer := false, held := false, calls := .fresh, handles := .empty }

/-! ### One instant -/

/-- Whether the far end was reached in a move. -/
def connected (notices : List Notice) : Bool :=
  notices.any fun n => decide (n = .link .connected)

/-- The next thing that happens. -/
def step? (m : Simulation) : Option (Simulation × List Sighting) :=
  match m.session.turn? with
  | some (session, notices) =>
    some ({ m with session := session, hasPeer := m.hasPeer || connected notices },
      notices.map .notice)
  | none =>
    let link := m.session.link
    if m.hasPeer && !m.held && !link.line.outbound.isEmpty then
      let (bytes, line) := link.line.collect
      some ({ m with session := { m.session with link := { link with line := line } } },
        [.arrived bytes])
    else none

/-- At most the given number of things that happen, added in front of a record
kept backwards. -/
def settleWithin : Nat → Simulation → Record → Simulation × Record
  | 0, m, seen => (m, seen)
  | n + 1, m, seen =>
    match m.step? with
    | none => (m, seen)
    | some (m', sightings) =>
      settleWithin n m' ((sightings.map fun i => (m.session.now, i)).reverse ++ seen)

/-- How much something that has arrived gives to deal with. -/
def loadOfArrival : Arrival → Nat
  | .data bytes => bytes.length
  | _ => 1

/-- How much a caller has to deal with. -/
def loadOfCall : CallPhase → Nat
  | .writing _ _ rest made => rest.length + made.length + 1
  | .collecting rest _ => rest.length + 1
  | _ => 1

/-- How many bytes and frames have to be dealt with, and by how many tasks. -/
def load (m : Simulation) : Nat :=
  let s := m.session
  let arrivals := s.link.line.inbound.foldl (fun n a => n + loadOfArrival a) 0
  let unread := s.runs.values.foldl (fun n run => n + run.decoder.unread.length + 1) 0
  let asked := s.callers.values.foldl (fun n phase => n + loadOfCall phase) 0
  arrivals + unread + asked + s.controls.size + s.queue.size + s.pending.size

/-- More moves than it takes to deal with one byte, frame or task: no frame has
as many bytes. -/
def movesEach : Nat := 65536

/-- Everything that happens at this instant. -/
def settle (m : Simulation) : Simulation × Record :=
  let (m, seen) := settleWithin (movesEach * (m.load + 1)) m []
  (m, seen.reverse)

/-! ### Callers -/

/-- Changes the session. -/
def withSession (m : Simulation) (session : Session) : Simulation := { m with session := session }

/-- Numbers a call. -/
def number (m : Simulation) : CallerId × Simulation :=
  let (i, calls) := m.calls.next
  (i, { m with calls := calls })

/-- What a call that starts or stops came to, if it has ended. -/
def controlResult? (i : ControlId) : Record → Option (Option SessionError)
  | [] => none
  | (_, .notice (.controlled j failure)) :: rest =>
    if j = i then some failure else controlResult? i rest
  | _ :: rest => controlResult? i rest

/-- Lets a call that starts or stops run to its end. -/
def control (m : Simulation) (begun : ControlId × Session) :
    Option SessionError × Simulation × Record :=
  let (m, seen) := (m.withSession begun.2).settle
  ((controlResult? begun.1 seen).join, m, seen)

/-- Starts the session. -/
def start (m : Simulation) : Option SessionError × Simulation × Record :=
  m.control m.session.beginStart

/-- Stops the session. -/
def stop (m : Simulation) : Option SessionError × Simulation × Record :=
  m.control m.session.beginStop

/-- A message to be sent for a caller. -/
structure Sending where
  /-- Where it goes. -/
  target : Address
  /-- What is sent. -/
  message : Message
  /-- How urgent it is. -/
  priority : Priority
  /-- Whether the caller waits for the outcome at once. -/
  watched : Bool

/-- Sends a message.  Every attempt is a call of its own, also a failed one. -/
def send (m : Simulation) (x : Sending) :
    (CallerId × Except SessionError RequestId) × Simulation :=
  let (i, m) := m.number
  let (result, session) := m.session.send x.target x.message x.priority
  let m := m.withSession session
  match result with
  | .error _ => ((i, result), m)
  | .ok id =>
    if x.watched then ((i, result), m.withSession (m.session.beginCall i (.awaiting id)))
    else ((i, result), { m with handles := m.handles.put i id })

/-- Sends several messages; no task moves in between. -/
def sendAll (m : Simulation) : List Sending →
    List (CallerId × Except SessionError RequestId) × Simulation
  | [] => ([], m)
  | x :: rest =>
    let (sent, m) := m.send x
    let (later, m) := m.sendAll rest
    (sent :: later, m)

/-- A call that may end at once, and everything that happens then. -/
def call (m : Simulation) (begin : CallerId → Session → Session × List Notice) :
    CallerId × Simulation × Record :=
  let (i, m) := m.number
  let (session, notices) := begin i m.session
  let now := m.session.now
  let (m, seen) := (m.withSession session).settle
  (i, m, notices.map (fun n => (now, .notice n)) ++ seen)

/-- Sends an event and waits for its handshake. -/
def event (m : Simulation) (target : Address) (path : Path) (id : UInt16) (priority : Priority) :
    CallerId × Simulation × Record :=
  m.call fun i s => s.beginEvent i target path id priority

/-- Reads a value. -/
def read (m : Simulation) (target : Address) (path : Path) (refresh : Bool) :
    CallerId × Simulation × Record :=
  m.call fun i s => s.beginRead i target path refresh

/-- Writes a value. -/
def write (m : Simulation) (target : Address) (path : Path) (value : Bytes)
    (priority : Priority) : CallerId × Simulation × Record :=
  m.call fun i s => s.beginWrite i target path value priority

/-- Withdraws a message that nobody waits for; tells whether it had not ended.
Nothing when there is no such message. -/
def cancel? (m : Simulation) (i : CallerId) : Option (Bool × Simulation) :=
  (m.handles.find? i).map fun id =>
    let (found, session) := m.session.cancel id
    (found, m.withSession session)

/-- Waits for the outcome of a message from now on.  Nothing when there is no such
message. -/
def wait? (m : Simulation) (i : CallerId) : Option Simulation :=
  (m.handles.find? i).map fun id =>
    { m with
      session := m.session.beginCall i (.awaiting id)
      handles := m.handles.erase i }

/-! ### The peer -/

/-- What comes of the peer's writing. -/
inductive Injected where
  /-- The bytes are on the line. -/
  | written
  /-- The session has closed its end. -/
  | broken
  /-- There is no peer. -/
  | noPeer
deriving DecidableEq

/-- The peer writes bytes. -/
def inject (m : Simulation) (bytes : Bytes) : Injected × Simulation :=
  let link := m.session.link
  if !m.hasPeer then (.noPeer, m)
  else if bytes.isEmpty then (.written, m)
  else if !link.hasReader && !link.hasWriter then (.broken, m)
  else
    (.written, m.withSession
      { m.session with link := { link with line := link.line.arrive (.data bytes) } })

/-- Keeps the peer from reading, or lets it read again. -/
def hold (m : Simulation) (held : Bool) : Simulation := { m with held := held }

/-- Takes the peer away; tells whether there was one.  What it has not read is
lost, and the next write to it fails. -/
def dropPeer (m : Simulation) : Bool × Simulation :=
  if m.hasPeer then
    let link := m.session.link
    let line := { link.line.arrive .endOfStream with
      outbound := []
      writeFailure := some "broken pipe" }
    (true, { m with
      hasPeer := false
      session := { m.session with link := { link with line := line } } })
  else (false, m)

/-! ### Time -/

/-- Moves the clock. -/
def moveTo (m : Simulation) (t : Instant) : Simulation × Record :=
  (m.withSession { m.session.scanFrom t with now := t }).settle

/-- Moves the clock on to an instant, with at most the given number of stops on the
way. -/
def advanceWithin : Nat → Simulation → Instant → Simulation × Record
  | 0, m, target => m.moveTo target
  | n + 1, m, target =>
    match m.session.nextScan? with
    | none => m.moveTo target
    | some t =>
      if t ≤ target then
        let (m, seen) := m.moveTo t
        let (m, later) := advanceWithin n m target
        (m, seen ++ later)
      else m.moveTo target

/-- Some milliseconds pass.  The clock stops wherever a look at the deadlines finds
an overdue request. -/
def advance (m : Simulation) (milliseconds : Nat) : Simulation × Record :=
  advanceWithin milliseconds m (m.session.now + milliseconds)

end Simulation

end ZoneBus
