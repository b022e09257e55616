import ZoneBus.Proofs.Session.FramesInFlight
import ZoneBus.Proofs.Session.Placement

/-!
# What happens to the frame of a request

A history tells how often the frame of a request was pushed, how often a writer began
to write it, how often it was noted as written and when, and how often it was to be
sent once more.  The account of a request ties that trail to the session: to the copies
of its frame that are ahead or in flight, and to its entry in the table.

## Main definitions

* `Trail` — what became of the frame of one request.
* `Session.trail` — the trail of a request through a history.
* `Trail.Of`, `Within`, `UsesUp`, `LongWritten` — what can be said of a trail.
* `Trail.Fits` — the entry of a request tells of its trail.
* `Session.Account` — what the trail of a request has to do with the session.
* `Session.Sound` — what the account rests on.

## Main results

* `Trail.Fits.of_overdue` — an overdue request was written since the last time.
* `Session.Account.recedes` — where nothing comes up, the account stays.
* `Session.Account.length_le` — what was written was begun, and what was begun was pushed.
-/

namespace ZoneBus

/-- What answers the message of a frame, if anything does. -/
def OutboundFrame.key? (frame : OutboundFrame) : Option ReplyKey :=
  ReplyKey.ofRequest? frame.envelope.target frame.envelope.message

/-- What became of the frame of one request, the latest first. -/
structure Trail where
  /-- Each time it was pushed, and with what priority. -/
  pushed : List (Priority × OutboundFrame)
  /-- Each time a writer began to write it. -/
  begun : List OutboundFrame
  /-- Each time it was noted as written, and when. -/
  written : List (Instant × OutboundFrame)
  /-- Each time it was to be sent once more, and with what priority. -/
  resent : List (Priority × OutboundFrame)
deriving DecidableEq

/-- Those among some frames that belong to a request. -/
def framesOf {α : Type} (id : RequestId) (frames : List (α × OutboundFrame)) :
    List (α × OutboundFrame) :=
  frames.filter fun e => decide (e.2.id = id)

/-- The trail of a request after one more thing has happened. -/
def Trail.after (t : Trail) (id : RequestId) (s : Session) (o : Session.Occurrence)
    (s' : Session) : Trail where
  pushed := framesOf id (s.queue.added s'.queue) ++ t.pushed
  begun := Session.copiesOf (s.begun? o).toList id ++ t.begun
  written := framesOf id ((s.marked? o).toList.map fun e => (s.now, e.2)) ++ t.written
  resent := framesOf id ((s.expiries o s').filterMap Expiry.requeued?) ++ t.resent

/-- A trail is that of one frame, which was always pushed with one priority. -/
structure Trail.Of (t : Trail) (frame : OutboundFrame) (priority : Priority) : Prop where
  /-- It was pushed. -/
  pushed : ∀ e ∈ t.pushed, e = (priority, frame)
  /-- It was begun. -/
  begun : ∀ f ∈ t.begun, f = frame
  /-- It was noted as written. -/
  written : ∀ e ∈ t.written, e.2 = frame
  /-- It was to be sent once more. -/
  resent : ∀ e ∈ t.resent, e = (priority, frame)

/-- A frame was not written more often than it was pushed, nor pushed more often than so
many retries allow. -/
structure Trail.Within (t : Trail) (retries : Nat) : Prop where
  /-- What was written was begun. -/
  written : t.written.length ≤ t.begun.length
  /-- What was begun was pushed. -/
  begun : t.begun.length ≤ t.pushed.length
  /-- It was pushed once, and again only when it was to be sent once more. -/
  pushed : t.pushed.length ≤ t.resent.length + 1
  /-- That took a retry each time. -/
  resent : t.resent.length ≤ retries

/-- Every one of so many retries was used, and the frame was written each time. -/
structure Trail.UsesUp (t : Trail) (retries : Nat) : Prop where
  /-- It was to be sent once more for each retry. -/
  resent : t.resent.length = retries
  /-- It was pushed for each of them, and once before. -/
  pushed : t.pushed.length = retries + 1
  /-- Each time a writer began to write it. -/
  begun : t.begun.length = retries + 1
  /-- Each time it was noted as written. -/
  written : t.written.length = retries + 1

/-- The frame was written, every time that a writer began to write it, and not later than
a timeout before an instant. -/
structure Trail.LongWritten (t : Trail) (timeout : Nat) (now : Instant) : Prop where
  /-- It was written. -/
  ever : t.written ≠ []
  /-- No writer is still writing it. -/
  all : t.begun.length = t.written.length
  /-- Each time was early enough. -/
  early : ∀ e ∈ t.written, e.1 + timeout ≤ now

/-- The entry of a request tells of its trail: every retry that is gone was a time to
send its frame once more; it was pushed for each of them and once before; and since the
last time it was written, unless there is no deadline. -/
structure Trail.Fits (t : Trail) (config : SessionConfig) (frame : OutboundFrame)
    (priority : Priority) (r : PendingRequest) : Prop where
  /-- The frame is the one that was pushed. -/
  sameFrame : r.frame = frame
  /-- So is the priority. -/
  samePriority : r.priority = priority
  /-- The key is that of the message. -/
  sameKey : r.key = frame.key?
  /-- The retries that are left are those that were not used. -/
  retries : r.retries.toNat + t.resent.length = config.retries.toNat
  /-- It was pushed at first, and each time it was to be sent once more. -/
  pushed : t.pushed.length = t.resent.length + 1
  /-- Without a deadline it was not written since the last time. -/
  unwritten : r.deadline = none → t.written.length = t.resent.length
  /-- With a deadline it was, and long enough before. -/
  written : ∀ deadline, r.deadline = some deadline →
    r.key.isSome = true ∧ t.written.length = t.resent.length + 1 ∧
      ∀ e ∈ t.written, e.1 + config.requestTimeout ≤ deadline

/-- An overdue request expects an answer, and was written since the last time it was to be
sent; long enough before. -/
theorem Trail.Fits.of_overdue {t : Trail} {config : SessionConfig} {frame : OutboundFrame}
    {priority : Priority} {r : PendingRequest} {now : Instant}
    (h : t.Fits config frame priority r) (ho : r.isOverdue now = true) :
    frame.key?.isSome = true ∧ t.written.length = t.resent.length + 1 ∧
      ∀ e ∈ t.written, e.1 + config.requestTimeout ≤ now := by
  rw [PendingRequest.isOverdue] at ho
  split at ho
  · next deadline hd =>
    obtain ⟨hkey, hwritten, htime⟩ := h.written deadline hd
    rw [h.sameKey] at hkey
    exact ⟨hkey, hwritten, fun e he => Nat.le_trans (htime e he) (of_decide_eq_true ho)⟩
  · cases ho

namespace Session

/-- The trail of a request through what happened up to a session. -/
def trail (id : RequestId) : List (Session × Occurrence) → Session → Trail
  | [], _ => ⟨[], [], [], []⟩
  | (v, o) :: past, s => (trail id past v).after id v o s

/-- What the trail of a request has to do with the session. -/
structure Account (t : Trail) (frame : OutboundFrame) (priority : Priority) (s : Session) :
    Prop where
  /-- It was always pushed with the same bytes and priority. -/
  pushed : ∀ e ∈ t.pushed, e = (priority, frame)
  /-- The same bytes were written. -/
  begun : ∀ f ∈ t.begun, f = frame
  /-- They were noted as written in the past. -/
  written : ∀ e ∈ t.written, e.2 = frame ∧ e.1 ≤ s.now
  /-- They were to be sent once more with the same priority. -/
  resent : ∀ e ∈ t.resent, e = (priority, frame)
  /-- Its copies are the same frame. -/
  same : ∀ f, f ∈ s.ahead ∨ f ∈ s.inFlight → f.id = frame.id → f = frame
  /-- What is ahead was pushed and not begun. -/
  ahead : (copiesOf s.ahead frame.id).length + t.begun.length ≤ t.pushed.length
  /-- What is in flight was begun and not noted. -/
  inFlight : (copiesOf s.inFlight frame.id).length + t.written.length ≤ t.begun.length
  /-- It was pushed once, and again only when it was to be sent once more. -/
  spent : t.pushed.length ≤ t.resent.length + 1
  /-- That does not happen more often than the settings allow. -/
  retries : t.resent.length ≤ s.config.retries.toNat
  /-- It does not happen to a request that expects no answer. -/
  keyless : frame.key? = none → t.resent = []
  /-- A number that was not given out has no trail. -/
  unborn : s.requestIds.given < frame.id → t.pushed = [] ∧ t.resent = []
  /-- The entry tells of the trail. -/
  registered : ∀ r, s.pending.requests.find? frame.id = some r →
    t.Fits s.config frame priority r
  /-- Whoever timed out had used every retry, and was written each time. -/
  timedOut : s.TimedOut frame.id →
    t.resent.length = s.config.retries.toNat ∧ t.written.length = s.config.retries.toNat + 1

/-- The trail of a number has something to do with the session. -/
def Accounted (t : Trail) (id : RequestId) (s : Session) : Prop :=
  ∃ frame priority, frame.id = id ∧ Account t frame priority s

/-- Where nothing comes up, the account stays. -/
theorem Account.recedes {t : Trail} {frame : OutboundFrame} {priority : Priority}
    {s s' : Session} (h : Account t frame priority s) (hr : Recedes s s') :
    Account t frame priority s' where
  pushed := h.pushed
  begun := h.begun
  written := fun e he => ⟨(h.written e he).1, Nat.le_trans (h.written e he).2 hr.now⟩
  resent := h.resent
  same := fun f hf => h.same f (hf.imp (hr.ahead.subset ·) (hr.inFlight.subset ·))
  ahead := by
    have hle := length_copiesOf_le hr.ahead frame.id
    have hold := h.ahead
    omega
  inFlight := by
    have hle := length_copiesOf_le hr.inFlight frame.id
    have hold := h.inFlight
    omega
  spent := h.spent
  retries := by
    rw [hr.config]
    exact h.retries
  keyless := h.keyless
  unborn := fun hid => h.unborn (Nat.lt_of_le_of_lt hr.given hid)
  registered := fun r hf => by
    rw [hr.config]
    exact h.registered r (hr.registered _ r hf)
  timedOut := fun ht => by
    rw [hr.config]
    exact h.timedOut (hr.timedOut _ ht)

/-- What was written was begun, and what was begun was pushed. -/
theorem Account.length_le {t : Trail} {frame : OutboundFrame} {priority : Priority} {s : Session}
    (h : Account t frame priority s) :
    t.written.length ≤ t.begun.length ∧ t.begun.length ≤ t.pushed.length := by
  have hahead := h.ahead
  have hflight := h.inFlight
  omega

/-- The trail of a number that was not given out is empty. -/
theorem Account.eq_empty {t : Trail} {frame : OutboundFrame} {priority : Priority} {s : Session}
    (h : Account t frame priority s) (hid : s.requestIds.given < frame.id) :
    t = ⟨[], [], [], []⟩ := by
  obtain ⟨hpushed, hresent⟩ := h.unborn hid
  obtain ⟨hwritten, hbegun⟩ := h.length_le
  obtain ⟨pushed, begun, written, resent⟩ := t
  dsimp only at hpushed hresent hwritten hbegun
  subst hpushed hresent
  rw [List.length_nil, Nat.le_zero, List.length_eq_zero_iff] at hbegun
  subst hbegun
  rw [List.length_nil, Nat.le_zero, List.length_eq_zero_iff] at hwritten
  rw [hwritten]

/-! ### What the account rests on -/

/-- What holds in every history, as far as the account rests on it. -/
structure Sound (s : Session) : Prop where
  /-- The ledger is right. -/
  ledger : s.Ledger
  /-- The table is right. -/
  table : TableOk s.pending
  /-- Frames on their way bear numbers that were given out. -/
  known : s.Known
  /-- Runs have different numbers. -/
  runs : s.runs.keys.Nodup

theorem Ledger.le_of_timedOut {s : Session} {id : Nat} (h : s.Ledger)
    (ht : s.TimedOut id) : id ≤ s.requestIds.given := by
  obtain ⟨attempts, hm⟩ := ht
  have hmem := h.mem_iff.mp (List.mem_append_right _ (List.mem_map.mpr ⟨_, hm, rfl⟩))
  rw [List.mem_range'_1] at hmem
  omega

/-- Whoever timed out is not registered any more. -/
theorem Ledger.find?_of_timedOut {s : Session} {id : RequestId} (h : s.Ledger)
    (ht : s.TimedOut id) : s.pending.requests.find? id = none := by
  obtain ⟨attempts, hm⟩ := ht
  have hnot := (h.endedWith_of_mem hm).1
  rw [PendingTable.contains, Directory.contains, Option.isSome_eq_false_iff] at hnot
  exact Option.isNone_iff_eq_none.mp hnot

theorem Sound.le_given {s : Session} (h : s.Sound) {frame : OutboundFrame}
    (hf : frame ∈ s.ahead ∨ frame ∈ s.inFlight) : frame.id ≤ s.requestIds.given := by
  refine h.known frame ?_
  -- what is found in a hand is in the hand of a run that is found
  have inHand : ∀ {pick : WriterPhase → Option OutboundFrame},
      (∀ phase, pick phase = some frame → phase.hand? = some frame) →
      (frame ∈ s.runs.values.filterMap fun run => pick run.writer) → s.Underway frame := by
    intro pick hpick hm
    obtain ⟨run, hrun, hp⟩ := List.mem_filterMap.mp hm
    obtain ⟨⟨r, _⟩, he, rfl⟩ := List.mem_map.mp hrun
    exact Or.inr ⟨r, _, Directory.find?_eq_some_of_mem h.runs he, hpick _ hp⟩
  rcases hf with hf | hf
  · rcases List.mem_append.mp hf with hq | hc
    · exact Or.inl hq
    · exact inHand (fun _ => WriterPhase.hand?_of_checked?) hc
  · exact inHand (fun _ => WriterPhase.hand?_of_sent?) hf

theorem Sound.minor {s s' : Session} (h : s.Sound) (hm : Minor s s') : s'.Sound where
  ledger := (keepsBooks_works (.minor hm)).1 h.ledger
  table := tableOk_posted (b := s.books) h.table (posted_works h.ledger (.minor hm))
  known := known_works h.ledger h.table h.known (.minor hm)
  runs := nodup_runs_minor hm h.runs

theorem Sound.minors {s s' : Session} (h : s.Sound) (hm : Minors s s') : s'.Sound := by
  induction hm with
  | refl => exact h
  | tail _ hw ih => exact ih.minor hw

end Session

end ZoneBus
