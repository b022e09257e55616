import ZoneBus.Link

/-!
# Letting a link settle

Calls move until every one of them has ended or has to wait.  The oldest call
that can move goes first, and takes its last move; a call that may go on does so
rather than give up.

## Main definitions

* `Link.work` — more moves than a link can make on its own.
* `Link.settle` — the link once nothing can move, with all that became known.
* `finishedCalls` — the calls that ended among what became known.
-/

namespace ZoneBus

/-- More moves than a call in a phase has left. -/
def LinkPhase.work : LinkPhase → Nat
  | .begun (.send bytes) => 4 + bytes.length
  | .begun _ => 5
  | .openReader => 4
  | .openWriter => 3
  | .connecting => 2
  | .closeWriter => 4
  | .shuttingDown => 3
  | .closeReader => 2
  | .sendTurn bytes => 3 + bytes.length
  | .writing rest => 2 + rest.length
  | .receiveTurn _ => 3
  | .reading _ => 2

namespace Link

/-- More moves than the calls under way have left. -/
def work (l : Link) : Nat := l.calls.values.foldr (fun phase n => phase.work + n) 0

/-- The move that the oldest of some calls that can move takes: the last of its moves,
so that a call that may go on does not give up. -/
def firstMove? (l : Link) : List CallId → Option (Link × List LinkEvent)
  | [] => none
  | c :: rest =>
    match (l.moves c).getLast? with
    | some m => some m
    | none => l.firstMove? rest

/-- At most the given number of moves. -/
def settleWithin : Nat → Link → List LinkEvent × Link
  | 0, l => ([], l)
  | n + 1, l =>
    match l.firstMove? l.calls.keys with
    | none => ([], l)
    | some (l', events) =>
      let (later, l'') := settleWithin n l'
      (events ++ later, l'')

/-- The link once nothing can move, with all that became known on the way. -/
def settle (l : Link) : List LinkEvent × Link := settleWithin l.work l

end Link

/-- The calls that ended, and how, in the order in which they did. -/
def finishedCalls : List LinkEvent → List (CallId × LinkResult)
  | [] => []
  | .finished c result :: rest => (c, result) :: finishedCalls rest
  | _ :: rest => finishedCalls rest

end ZoneBus
