import ZoneBus.Session.Moves

/-!
# Sessions: taking turns

Where several tasks of a session can move, this module says which one does: first
the callers, then the calls that start and stop, then for each run the reader,
the scanner and the writer.  So a caller queues everything it has before the
writer takes any of it, and urgent frames go out first.  A task that may take
either of two ways takes the one that ends it.

## Main definitions

* `Session.tasks` — everyone who might move, in the order of their turns.
* `Session.turn?` — the next move, and nothing when all have to wait.
* `Session.scanFrom` — the looks at the deadlines up to an instant, left out.
* `Session.nextScan?` — when the next look finds an overdue request.
-/

namespace ZoneBus

/-- The first look at or after an instant, when looks are made from `due` on with
the given interval between them. -/
def firstTick (due interval t : Nat) : Nat :=
  if t ≤ due then due else due + interval * ((t - due + interval - 1) / interval)

/-- No look before the instant is chosen. -/
theorem le_firstTick (due interval t : Nat) (h : 0 < interval) :
    t ≤ firstTick due interval t := by
  unfold firstTick
  split
  · assumption
  · have h1 := Nat.div_add_mod (t - due + interval - 1) interval
    have h2 := Nat.mod_lt (t - due + interval - 1) h
    generalize (t - due + interval - 1) % interval = left at h1 h2
    generalize interval * ((t - due + interval - 1) / interval) = passed at h1 ⊢
    omega

/-- Whether the scanner of a run waits for its next look. -/
def Run.isScanning (r : Run) : Bool := decide (r.scanner = .waiting) && !r.cancelled

namespace Session

/-- The tasks of a run in the order of their turns. -/
def tasksOfRun (r : RunId) : List TaskId := [.reader r, .scanner r, .writer r]

/-- Everyone who might move, in the order of their turns. -/
def tasks (s : Session) : List TaskId :=
  s.callers.keys.map .caller ++ s.controls.keys.map .control ++ s.runs.keys.flatMap tasksOfRun

/-- The first move of the first of some tasks that can move. -/
def firstMove? (s : Session) : List TaskId → Option (Session × List Notice)
  | [] => none
  | t :: rest =>
    match s.moves t with
    | m :: _ => some m
    | [] => s.firstMove? rest

/-- The next move; nothing when all have to wait. -/
def turn? (s : Session) : Option (Session × List Notice) := s.firstMove? s.tasks

/-- Leaves the looks before an instant out.  This changes nothing else as long as
no request is overdue at them. -/
def scanFrom (s : Session) (t : Instant) : Session :=
  { s with runs := ⟨s.runs.entries.map fun (r, run) =>
      (r, { run with nextScan := firstTick run.nextScan s.config.scanInterval t })⟩ }

/-- When the next look finds an overdue request. -/
def nextScan? (s : Session) : Option Instant :=
  match s.pending.nextDeadline? with
  | none => none
  | some deadline =>
    ((s.runs.values.filter Run.isScanning).map fun run =>
      firstTick run.nextScan s.config.scanInterval deadline).min?

/-- A turn is a move of some task. -/
theorem step_of_turn? {s s' : Session} {notices : List Notice}
    (h : s.turn? = some (s', notices)) : Step s notices s' := by
  unfold turn? at h
  generalize s.tasks = ts at h
  induction ts with
  | nil => simp [firstMove?] at h
  | cons t ts ih =>
    unfold firstMove? at h
    split at h
    · next m rest hm =>
      cases h
      exact .move (t := t) (by rw [hm]; exact List.mem_cons_self)
    · exact ih h

end Session

end ZoneBus
