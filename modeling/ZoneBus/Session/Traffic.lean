import ZoneBus.Session.Basic

/-!
# Sessions: messages out and in

Sending a message registers a request and queues its frame.  A message that has
come in is looked at only when it is for this session or for everybody: a
handshake may end a request; a packet is acknowledged, put in its place, shown
to the subscribers, and, when it completes a value, shown again as a whole
before it ends the request that asked for it.  Everything else is only noted.

## Main definitions

* `Session.enqueue` — registers and queues a message.
* `Session.send` — the same for a caller, who needs a started session.
* `Session.cancel` — withdraws a request.
* `Session.acceptPacket` — takes a packet of a value.
* `Session.dispatch` — takes any message.
-/

namespace ZoneBus

namespace Session

/-! ### Out -/

/-- Ends a request that has not ended, with a failure. -/
def withdraw (s : Session) (id : RequestId) (error : SessionError) : Bool × Session :=
  let (found, settled, pending) := s.pending.cancel id error
  (found, { s with pending := pending }.deliver settled)

/-- Registers a message and queues its frame.  A message without wire form is
neither.  When the queue is closed, the request ends at once. -/
def enqueue (s : Session) (target : Address) (message : Message) (priority : Priority) :
    Except SessionError RequestId × Session :=
  let envelope : Envelope := ⟨target, s.config.localAddress, message⟩
  match envelope.encode with
  | .error e => (.error (.encode e), s)
  | .ok bytes =>
    let (id, requestIds) := s.requestIds.next
    let frame : OutboundFrame := ⟨id, envelope, bytes⟩
    let request :=
      PendingRequest.fresh frame priority (ReplyKey.ofRequest? target message) s.config.retries
    let (settled, pending) := s.pending.insert request
    let s := { s with requestIds := requestIds, pending := pending }.deliver settled
    match s.queue.push priority frame with
    | some queue => (.ok id, { s with queue := queue })
    | none => (.ok id, (s.withdraw id .cancelled).2)

/-- Sends a message for a caller. -/
def send (s : Session) (target : Address) (message : Message) (priority : Priority) :
    Except SessionError RequestId × Session :=
  if s.state = .started then s.enqueue target message priority else (.error .notStarted, s)

/-- Withdraws a request for a caller; tells whether it had not ended. -/
def cancel (s : Session) (id : RequestId) : Bool × Session := s.withdraw id .cancelled

/-- Withdraws several requests. -/
def cancelAll (s : Session) (ids : List RequestId) : Session :=
  ids.foldl (fun s id => (s.cancel id).2) s

/-! ### In -/

/-- Ends the oldest request that a reply belongs to. -/
def resolve (s : Session) (key : ReplyKey) (reply : Reply) : Session :=
  let (_, settled, pending) := s.pending.resolve key reply
  { s with pending := pending }.deliver settled

/-- Calls the subscribers of a place. -/
def announce (s : Session) (place : Place) (update : PathUpdate) : List Notice :=
  (s.subscriptions.notify place (fun notices id _ => notices ++ [Notice.update id update]) []).2

/-- Queues the acknowledgement of a packet, if packets are acknowledged. -/
def acknowledge (s : Session) (source : Address) : Session :=
  if s.config.acknowledgeData then (s.enqueue source (.handshake .data) .high).2 else s

/-- Takes a packet of a value. -/
def acceptPacket (s : Session) (source : Address) (p : Packet) : Session × List Notice :=
  let s := s.acknowledge source
  let path := p.valuePath
  match s.buffers.writePacket s.now source path p.number p.count p.data with
  | (.error e, buffers) => ({ s with buffers := buffers }, [.issue (.reassembly source e)])
  | (.ok completed, buffers) =>
    let s := { s with buffers := buffers }
    let shown := s.announce (source, path) (.fragment source path p.number p.count p.data)
    match completed with
    | none => (s, shown)
    | some value =>
      (s.resolve (.data source path) (.data value),
        shown ++ s.announce (source, path) (.complete source path value))

/-- Whether a message is for this session. -/
def isFor (s : Session) (e : Envelope) : Bool :=
  decide (e.target = s.config.localAddress) || e.target.isBroadcast

/-- Takes a message. -/
def dispatch (s : Session) (e : Envelope) : Session × List Notice :=
  let heard := [Notice.received e]
  if s.isFor e then
    match e.message with
    | .handshake kind =>
      match ReplyKey.ofHandshake? e.source kind with
      | none => (s, heard)
      | some key => (s.resolve key (.ack kind), heard)
    | .setData packet =>
      let (s, more) := s.acceptPacket e.source packet
      (s, heard ++ more)
    | _ => (s, heard)
  else (s, heard)

/-- Takes what came out of the decoder. -/
def handle (s : Session) (r : FrameResult) : Session × List Notice :=
  match r with
  | .error e => (s, [.issue (.decode e)])
  | .ok frame =>
    match Envelope.ofFrame frame with
    | .error e => (s, [.issue (.decode e)])
    | .ok envelope => s.dispatch envelope

end Session

end ZoneBus
