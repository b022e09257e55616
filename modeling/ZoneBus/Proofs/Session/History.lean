import ZoneBus.Proofs.Histories
import ZoneBus.Session.Turns

/-!
# Histories of a session

A session goes on by the moves of its tasks and by what is done to it from
outside: callers start and stop it, send and withdraw messages, the far end of
the link writes, reads and breaks off, and time passes.  A history is any
sequence of these, in any order; nothing is assumed about who goes first or
about what the far end does.

## Main definitions

* `Session.Input`, `Session.apply` — what is done from outside.
* `Session.Happens` — one move of a task, or one input.
* `Session.History` — everything that happened, the latest first.
* `Session.play` — the history of a script.
-/

namespace ZoneBus

namespace Session

/-! ### Inputs -/

/-- Something done to a session from outside its tasks. -/
inductive Input where
  /-- A caller begins to start it. -/
  | start
  /-- A caller begins to stop it. -/
  | stop
  /-- A caller sends a message and keeps a handle. -/
  | send (target : Address) (message : Message) (priority : Priority)
  /-- A caller withdraws a message. -/
  | cancel (id : RequestId)
  /-- A caller begins to wait for the outcome of a message. -/
  | await (i : CallerId) (id : RequestId)
  /-- A caller sends an event and waits for its handshake. -/
  | event (i : CallerId) (target : Address) (path : Path) (id : UInt16) (priority : Priority)
  /-- A caller reads a value. -/
  | read (i : CallerId) (target : Address) (path : Path) (refresh : Bool)
  /-- A caller writes a value. -/
  | write (i : CallerId) (target : Address) (path : Path) (value : Bytes) (priority : Priority)
  /-- Somebody subscribes. -/
  | subscribe (target : Address) (path : Path)
  /-- Somebody unsubscribes. -/
  | unsubscribe (id : SubscriptionId)
  /-- Somebody forgets a value. -/
  | forget (target : Address) (path : Path)
  /-- The far end did something: the line is now this one, and the next attempts to
  reach the far end come out like this. -/
  | farEnd (line : Line) (connects : List (Option LinkError))
  /-- Time passes, at least up to an instant. -/
  | pass (t : Instant)
  /-- The looks at the deadlines before an instant are left out. -/
  | skipScans (t : Instant)

/-- The session after an input. -/
def apply (s : Session) : Input → Session
  | .start => s.beginStart.2
  | .stop => s.beginStop.2
  | .send target message priority => (s.send target message priority).2
  | .cancel id => (s.cancel id).2
  | .await i id => s.beginCall i (.awaiting id)
  | .event i target path id priority => (s.beginEvent i target path id priority).1
  | .read i target path refresh => (s.beginRead i target path refresh).1
  | .write i target path value priority => (s.beginWrite i target path value priority).1
  | .subscribe target path => (s.subscribe target path).2
  | .unsubscribe id => (s.unsubscribe id).2
  | .forget target path => (s.forget target path).2
  | .farEnd line connects => { s with link := { s.link with line := line, connects := connects } }
  | .pass t => { s with now := max s.now t }
  | .skipScans t => s.scanFrom t

/-! ### Histories -/

/-- What can happen next. -/
inductive Occurrence where
  /-- A task moves. -/
  | move (t : TaskId)
  /-- Something is done from outside. -/
  | input (i : Input)

/-- Something happens to a session: a task takes one of its moves, or something is done
from outside. -/
abbrev Happens : Session → Occurrence → Session → Prop :=
  ZoneBus.Happens moves apply (fun t _ => Occurrence.move t) Occurrence.input

/-- What happened between two sessions, the latest first, each with the session
that it happened to. -/
abbrev History : Session → List (Session × Occurrence) → Session → Prop :=
  ZoneBus.History Happens

/-! ### Scripts -/

/-- A line of a script: an input, or a task with the number of the move it takes. -/
abbrev Cue := ZoneBus.Cue TaskId Input

/-- What a script leads to, and what happened on the way. -/
abbrev play (s : Session) (past : List (Session × Occurrence)) (script : List Cue) :
    Option (List (Session × Occurrence) × Session) :=
  ZoneBus.play moves apply (fun t _ => Occurrence.move t) Occurrence.input s past script

/-- A script that leads where something holds shows a history that does. -/
theorem exists_history (s : Session) (script : List Cue)
    (P : List (Session × Occurrence) → Session → Prop) [∀ past s', Decidable (P past s')]
    (h : ((s.play [] script).any fun p => decide (P p.1 p.2)) = true) :
    ∃ past s', History s past s' ∧ P past s' :=
  exists_history_of_play s script P h

/-- The first start of a session, up to the installed run. -/
def firstStart : List Cue :=
  .input .start :: List.replicate 5 (.move (.control 1) 0) ++
    [.move (.reader 1) 0, .move (.control 1) 0]

end Session

end ZoneBus
