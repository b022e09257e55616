import ZoneBus.Link
import ZoneBus.Proofs.Histories

/-!
# Histories of a link

A link goes on by the moves of the calls under way and by what is done to it from
outside: calls begin, a caller drops a call midway, and the far end writes, makes
room, breaks off, or comes to be out of reach.  A history is any sequence of
these, in any order, so between two moves of one call anything may happen.

## Main definitions

* `Link.Input`, `Link.apply` — what is done from outside.
* `Link.Happens` — one move of a call, or one input.
* `Link.History` — everything that happened, the latest first.
* `Link.play` — the history of a script.
-/

namespace ZoneBus

namespace Link

/-! ### Inputs -/

/-- Something done to a link from outside its calls. -/
inductive Input where
  /-- A call begins. -/
  | begin (call : LinkCall)
  /-- A call is dropped midway. -/
  | drop (c : CallId)
  /-- The far end did something: the line is now this one, and the next attempts to
  reach the far end come out like this. -/
  | farEnd (line : Line) (connects : List (Option LinkError))

/-- The link after an input. -/
def apply (l : Link) : Input → Link
  | .begin call => (l.begin call).2
  | .drop c => l.abort c
  | .farEnd line connects => { l with line := line, connects := connects }

/-! ### Histories -/

/-- What can happen next. -/
inductive Occurrence where
  /-- A call moves, and this becomes known. -/
  | move (c : CallId) (events : List LinkEvent)
  /-- Something is done from outside. -/
  | input (i : Input)

/-- Whether a call ends, and like this. -/
def Occurrence.ends (c : CallId) (result : LinkResult) : Occurrence → Bool
  | .move _ events => decide (LinkEvent.finished c result ∈ events)
  | .input _ => false

/-- Whether the far end is reached. -/
def Occurrence.reaches : Occurrence → Bool
  | .move _ events => decide (LinkEvent.connected ∈ events)
  | .input _ => false

/-- Something happens to a link: a call takes one of its moves, or something is done from
outside. -/
abbrev Happens : Link → Occurrence → Link → Prop :=
  ZoneBus.Happens moves apply Occurrence.move Occurrence.input

/-- What happened between two links, the latest first, each with the link that it
happened to. -/
abbrev History : Link → List (Link × Occurrence) → Link → Prop := ZoneBus.History Happens

/-! ### Scripts -/

/-- A line of a script: an input, or a call with the number of the move it takes. -/
abbrev Cue := ZoneBus.Cue CallId Input

/-- What a script leads to, and what happened on the way. -/
abbrev play (l : Link) (past : List (Link × Occurrence)) (script : List Cue) :
    Option (List (Link × Occurrence) × Link) :=
  ZoneBus.play moves apply Occurrence.move Occurrence.input l past script

/-- A script that leads where something holds shows a history that does. -/
theorem exists_history (l : Link) (script : List Cue)
    (P : List (Link × Occurrence) → Link → Prop) [∀ past l', Decidable (P past l')]
    (h : ((l.play [] script).any fun p => decide (P p.1 p.2)) = true) :
    ∃ past l', History l past l' ∧ P past l' :=
  exists_history_of_play l script P h

end Link

end ZoneBus
