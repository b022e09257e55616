import ZoneBus.Directory
import ZoneBus.Link.Error
import ZoneBus.Link.Line

/-!
# Links

A link opens and closes the byte stream to the bus and moves bytes both ways.
Several calls may be under way at once.  Reading and writing each have a lock of
their own, taken in turn, so a call that waits for bytes never keeps a writer
waiting.  Closing publishes the closed state first; a call that waits for bytes
or for room then gives up, and its lock goes on to the next in turn.

A call is a sequence of small moves, and between two moves of one call any other
call may move.  `Link.moves` lists everything a call may do next: nothing while
it has to wait, and more than one thing where it may take either of two ways.

## Main definitions

* `LinkState` — closed, open, or faulted.
* `LinkCall`, `LinkPhase` — what is asked of a link, and how far a call has come.
* `Link` — the state of a link with the calls under way.
* `Link.begin`, `Link.abort` — starting a call, and dropping one midway.
* `Link.moves` — everything a call may do next.
* `Link.Step` — one move of one call.
-/

namespace ZoneBus

/-- The state of a link as others see it. -/
inductive LinkState where
  /-- Not opened, or closed again. -/
  | closed
  /-- Usable. -/
  | open
  /-- Reading or writing failed; it has to be opened again. -/
  | faulted
deriving DecidableEq, Repr

/-- The name of a state. -/
def LinkState.name : LinkState → String
  | .closed => "closed"
  | .open => "open"
  | .faulted => "faulted"

/-- The number of a call. -/
abbrev CallId := Nat

/-- What is asked of a link. -/
inductive LinkCall where
  /-- Open it. -/
  | open
  /-- Close it. -/
  | close
  /-- Write all of these bytes. -/
  | send (bytes : Bytes)
  /-- Read at most this many bytes. -/
  | receive (most : Nat)
deriving DecidableEq

/-- How far a call has come. -/
inductive LinkPhase where
  /-- Nothing has happened. -/
  | begun (call : LinkCall)
  /-- Opening, in turn for the reading lock. -/
  | openReader
  /-- Opening, with the reading lock, in turn for the writing lock. -/
  | openWriter
  /-- Opening, with both locks. -/
  | connecting
  /-- Closing, in turn for the writing lock. -/
  | closeWriter
  /-- Closing, with the writing lock and the writing half. -/
  | shuttingDown
  /-- Closing, in turn for the reading lock. -/
  | closeReader
  /-- Sending, in turn for the writing lock. -/
  | sendTurn (bytes : Bytes)
  /-- Sending, with the writing lock; these bytes are left to write. -/
  | writing (rest : Bytes)
  /-- Receiving, in turn for the reading lock. -/
  | receiveTurn (most : Nat)
  /-- Receiving, with the reading lock. -/
  | reading (most : Nat)
deriving DecidableEq

/-- How a call ends. -/
inductive LinkResult where
  /-- It did what was asked. -/
  | done
  /-- These bytes were read. -/
  | received (bytes : Bytes)
  /-- It failed. -/
  | failed (error : LinkError)
deriving DecidableEq

/-- What a move makes known. -/
inductive LinkEvent where
  /-- The state was published. -/
  | changed
  /-- The far end was reached. -/
  | connected
  /-- The line took bytes of a call. -/
  | wrote (call : CallId) (bytes : Bytes)
  /-- The writing half was shut down. -/
  | shutdown
  /-- A call ended. -/
  | finished (call : CallId) (result : LinkResult)
deriving DecidableEq

/-- A link and the calls under way. -/
structure Link where
  /-- The name of the far end. -/
  endpoint : String
  /-- The published state. -/
  state : LinkState
  /-- Whether there is a reading half. -/
  hasReader : Bool
  /-- Whether there is a writing half. -/
  hasWriter : Bool
  /-- The calls in turn for the reading lock; the first one holds it. -/
  readerLock : List CallId
  /-- The calls in turn for the writing lock; the first one holds it. -/
  writerLock : List CallId
  /-- The calls under way. -/
  calls : Directory CallId LinkPhase
  /-- The number of the next call. -/
  nextCall : CallId
  /-- The line to the far end. -/
  line : Line
  /-- How the next attempts to reach the far end come out; all further ones succeed. -/
  connects : List (Option LinkError)

namespace Link

/-- A link that was never opened. -/
def fresh (endpoint : String) (capacity : Option Nat) (connects : List (Option LinkError)) :
    Link :=
  { endpoint, connects, state := .closed, hasReader := false, hasWriter := false
    readerLock := [], writerLock := [], calls := .empty, nextCall := 0
    line := .fresh capacity }

/-- Starts a call. -/
def begin (l : Link) (call : LinkCall) : CallId × Link :=
  (l.nextCall, { l with
    nextCall := l.nextCall + 1
    calls := l.calls.put l.nextCall (.begun call) })

/-- Gives up both locks, or the places in turn for them. -/
def unlock (l : Link) (c : CallId) : Link :=
  { l with
    readerLock := l.readerLock.filter fun i => decide (i ≠ c)
    writerLock := l.writerLock.filter fun i => decide (i ≠ c) }

/-- Drops a call midway; what it has written stays written. -/
def abort (l : Link) (c : CallId) : Link :=
  { l.unlock c with calls := l.calls.erase c }

/-- Whether a call holds the reading lock. -/
def holdsReader (l : Link) (c : CallId) : Bool := l.readerLock.head? == some c

/-- Whether a call holds the writing lock. -/
def holdsWriter (l : Link) (c : CallId) : Bool := l.writerLock.head? == some c

/-- Notes how far a call has come. -/
def advance (l : Link) (c : CallId) (phase : LinkPhase) : Link :=
  { l with calls := l.calls.put c phase }

/-- Ends a call. -/
def finish (l : Link) (c : CallId) (result : LinkResult) : Link × List LinkEvent :=
  (l.abort c, [.finished c result])

/-- Gets in turn for the reading lock. -/
def queueReader (l : Link) (c : CallId) (phase : LinkPhase) : Link :=
  { l.advance c phase with readerLock := l.readerLock ++ [c] }

/-- Gets in turn for the writing lock. -/
def queueWriter (l : Link) (c : CallId) (phase : LinkPhase) : Link :=
  { l.advance c phase with writerLock := l.writerLock ++ [c] }

/-- Publishes a fault; only an open link can fault. -/
def fault (l : Link) : Link × List LinkEvent :=
  match l.state with
  | .open => ({ l with state := .faulted }, [.changed])
  | _ => (l, [])

/-- Ends a call that failed on the line. -/
def fail (l : Link) (c : CallId) (error : LinkError) : Link × List LinkEvent :=
  let (l, published) := l.fault
  let (l, ended) := l.finish c (.failed error)
  (l, published ++ ended)

/-- The first move of a call. -/
def start (l : Link) (c : CallId) : LinkCall → Link × List LinkEvent
  | .open =>
    match l.state with
    | .open => l.finish c .done
    | _ => (l.queueReader c .openReader, [])
  | .close => ({ l with state := .closed }.queueWriter c .closeWriter, [.changed])
  | .send bytes => (l.queueWriter c (.sendTurn bytes), [])
  | .receive most => (l.queueReader c (.receiveTurn most), [])

/-- Tries to reach the far end, with both locks. -/
def connect (l : Link) (c : CallId) : Link × List LinkEvent :=
  match l.connects with
  | some error :: later => { l with connects := later }.finish c (.failed error)
  | outcomes =>
    let (l, ended) := { l with
      connects := outcomes.tail
      line := l.line.connect
      hasReader := true
      hasWriter := true
      state := .open }.finish c .done
    (l, [.connected, .changed] ++ ended)

/-- Shuts the writing half down, and gets in turn for the reading lock. -/
def shutDown (l : Link) (c : CallId) : Link × List LinkEvent :=
  (({ l with line := { l.line with shutdownFailure := none } }.unlock c).queueReader c .closeReader,
    [.shutdown])

/-- What writing leads to, unless it has to wait. -/
def write (l : Link) (c : CallId) (bytes : Bytes) : List (Link × List LinkEvent) :=
  match l.line.write bytes with
  | none => []
  | some (written, line) =>
    let taken := line.outbound.drop l.line.outbound.length
    let noted := if taken.isEmpty then [] else [.wrote c taken]
    let l := { l with line := line }
    let (l, events) :=
      match written with
      | .done => l.finish c .done
      | .partly rest => (l.advance c (.writing rest), [])
      | .failed reason => { l with hasWriter := false }.fail c (.io reason)
    [(l, noted ++ events)]

/-- What reading leads to, unless it has to wait. -/
def read (l : Link) (c : CallId) (most : Nat) : List (Link × List LinkEvent) :=
  match l.line.read most with
  | none => []
  | some (result, line) =>
    let l := { l with line := line }
    match result with
    | .data bytes => [l.finish c (.received bytes)]
    | .ended => [{ l with hasReader := false }.fail c .closed]
    | .failed reason => [{ l with hasReader := false }.fail c (.io reason)]

/-- Giving up because the link has left the open state. -/
def giveUp (l : Link) (c : CallId) : List (Link × List LinkEvent) :=
  match l.state with
  | .open => []
  | _ => [l.finish c (.failed .notOpen)]

/-- Everything that a call in the given phase may do next. -/
def movesIn (l : Link) (c : CallId) : LinkPhase → List (Link × List LinkEvent)
  | .begun call => [l.start c call]
  | .openReader => if l.holdsReader c then [(l.queueWriter c .openWriter, [])] else []
  | .openWriter =>
    if l.holdsWriter c then
      match l.state with
      | .open => [l.finish c .done]
      | _ => [(l.advance c .connecting, [])]
    else []
  | .connecting => [l.connect c]
  | .closeWriter =>
    if l.holdsWriter c then
      if l.hasWriter then [({ l with hasWriter := false }.advance c .shuttingDown, [])]
      else [((l.unlock c).queueReader c .closeReader, [])]
    else []
  | .shuttingDown => [l.shutDown c]
  | .closeReader =>
    if l.holdsReader c then [{ l with hasReader := false }.finish c .done] else []
  | .sendTurn bytes =>
    if l.holdsWriter c then
      if l.hasWriter then [(l.advance c (.writing bytes), [])]
      else [l.finish c (.failed .notOpen)]
    else []
  | .writing rest => l.giveUp c ++ l.write c rest
  | .receiveTurn most =>
    if l.holdsReader c then
      if l.hasReader then [(l.advance c (.reading most), [])]
      else [l.finish c (.failed .notOpen)]
    else []
  | .reading most => l.giveUp c ++ l.read c most

/-- Everything that a call may do next. -/
def moves (l : Link) (c : CallId) : List (Link × List LinkEvent) :=
  match l.calls.find? c with
  | none => []
  | some phase => l.movesIn c phase

/-- One move of one call. -/
inductive Step : Link → List LinkEvent → Link → Prop where
  /-- Some call takes one of its moves. -/
  | move {l l' : Link} {c : CallId} {events : List LinkEvent} :
      (l', events) ∈ l.moves c → Step l events l'

end Link

end ZoneBus
