import Mathlib.Logic.Relation
import ZoneBus.Proofs.Directory.Keys
import ZoneBus.Proofs.Link.Calls
import ZoneBus.Proofs.Request.Settling
import ZoneBus.Proofs.Session.History

/-!
# What can change

Everything that happens to a session is made of a few elementary changes.  Most
of them are everyday work: a task comes one phase further, a frame goes into the
queue or out of it, a request is registered or ends.  The others govern the
session: they belong to a start, a stop or a fault, and they alone touch its
published state, the installed run and the calls that start and stop.  Noting
that a frame was written is a change of its own.

Every invariant of a session is checked against these changes, and against
nothing else; where it matters who did what, against the deeds that they make up.

## Main definitions

* `Session.teardownOf?` — how far a task has come with its reaction to a fault.
* `Session.TrafficOnly` — only requests and frames differ.
* `Session.Minor`, `Session.Writes`, `Session.Works` — the everyday changes.
* `Session.Governs` — the changes of a start, a stop or a fault.
* `Session.marked?`, `Session.begun?`, `Session.expiries` — the frame that a move notes
  as written, the frame that it begins to write, and what it makes of overdue requests.
* `Session.Deed` — whatever happens, by who does it.

## Main results

* `Session.enqueue_cases` — what becomes of a message that is to go out.
* `Session.takeDown_eq`, `takenDown_eq` — what taking a run away does.
-/

namespace ZoneBus

namespace Session

/-! ### Small laws of the operations -/

@[simp] theorem enter_fst (s : Session) (state : SessionState) :
    (s.enter state).1 = { s with state := state } := by
  unfold enter
  split
  · next h => subst h; rfl
  · rfl

@[simp] theorem find?_modifyRun (s : Session) (r r' : RunId) (f : Run → Run) :
    (s.modifyRun r f).runs.find? r' =
      if r = r' then (s.runs.find? r').map f else s.runs.find? r' :=
  Directory.find?_modify s.runs r r' f

/-- Leaving looks out changes nothing about a run but its next look. -/
theorem find?_scanFrom (s : Session) (t : Instant) (r : RunId) :
    (s.scanFrom t).runs.find? r = (s.runs.find? r).map fun run =>
      { run with nextScan := firstTick run.nextScan s.config.scanInterval t } :=
  Directory.findIn_map s.runs.entries
    (fun run => { run with nextScan := firstTick run.nextScan s.config.scanInterval t }) r

/-- The request that a message becomes when it is registered next. -/
def newRequest (s : Session) (target : Address) (message : Message) (priority : Priority)
    (bytes : Bytes) : PendingRequest :=
  .fresh ⟨s.requestIds.given + 1, ⟨target, s.config.localAddress, message⟩, bytes⟩ priority
    (ReplyKey.ofRequest? target message) s.config.retries

/-- Registers a request under the next number. -/
def registered (s : Session) (request : PendingRequest) : Session :=
  { s with
    requestIds := s.requestIds.next.2
    pending := (s.pending.insert request).2 }.deliver (s.pending.insert request).1

/-- A message without wire form is refused; any other is registered, and queued
unless the queue is closed. -/
theorem enqueue_cases (s : Session) (target : Address) (message : Message) (priority : Priority) :
    (∃ e, s.enqueue target message priority = (.error (.encode e), s)) ∨
      ∃ bytes, (Envelope.mk target s.config.localAddress message).encode = .ok bytes ∧
        let request := s.newRequest target message priority bytes
        ((∃ queue, s.queue.push priority request.frame = some queue ∧
            s.enqueue target message priority =
              (.ok (s.requestIds.given + 1), { s.registered request with queue := queue })) ∨
          (s.queue.push priority request.frame = none ∧
            s.enqueue target message priority =
              (.ok (s.requestIds.given + 1),
                ((s.registered request).withdraw (s.requestIds.given + 1) .cancelled).2))) := by
  cases he : (Envelope.mk target s.config.localAddress message).encode with
  | error e => exact Or.inl ⟨e, by rw [enqueue]; simp only [he]⟩
  | ok bytes =>
    refine Or.inr ⟨bytes, rfl, ?_⟩
    dsimp only
    rw [enqueue]
    simp only [he]
    split
    · next queue hp => exact Or.inl ⟨queue, hp, rfl⟩
    · next hp => exact Or.inr ⟨hp, rfl⟩

/-- A send that is refused leaves the session as it is. -/
theorem send_error {s : Session} {target : Address} {message : Message} {priority : Priority}
    {e : SessionError} (h : (s.send target message priority).1 = .error e) :
    (s.send target message priority).2 = s := by
  unfold send at h ⊢
  by_cases hs : s.state = .started
  · rw [if_pos hs] at h ⊢
    rcases s.enqueue_cases target message priority with
      ⟨e', he⟩ | ⟨bytes, _, ⟨queue, _, he⟩ | ⟨_, he⟩⟩
    · rw [he]
    · rw [he] at h; cases h
    · rw [he] at h; cases h
  · rw [if_neg hs]

/-- Taking a run away stops its tasks, closes the queue and ends every request. -/
theorem takeDown_eq (s : Session) (r : RunId) (error : SessionError) :
    (s.takeDown r error).1 = s.link.nextCall ∧
      (s.takeDown r error).2.1 =
        { s with
          running := none
          state := .stopping
          runs := s.runs.modify r fun run => { run with cancelled := true }
          queue := s.queue.close.2
          pending := .empty
          delivered := s.delivered ++ s.pending.requests.keys.map fun id => (id, .failure error)
          link := (s.link.begin .close).2 } := by
  unfold takeDown
  have h := enter_fst { s with running := none } .stopping
  generalize Session.enter { s with running := none } .stopping = entered at h
  obtain ⟨v, notices⟩ := entered
  dsimp only at h
  subst h
  refine ⟨rfl, ?_⟩
  -- every ending is an outcome, so all of them are delivered
  rw [← outcomesOf_map]
  rfl

/-! ### Tearing down -/

/-- How far a task has come with its reaction to a fault. -/
def teardownOf? (s : Session) : TaskId → Option Teardown
  | .reader r => (s.runs.find? r).bind fun run =>
    match run.reader with
    | .faulting teardown => some teardown
    | _ => none
  | .writer r => (s.runs.find? r).bind fun run =>
    match run.writer with
    | .faulting teardown => some teardown
    | _ => none
  | _ => none

theorem teardownOf?_reader {s : Session} {r : RunId} {teardown : Teardown} :
    s.teardownOf? (.reader r) = some teardown ↔
      ∃ run, s.runs.find? r = some run ∧ run.reader = .faulting teardown := by
  rw [teardownOf?, Option.bind_eq_some_iff]
  refine exists_congr fun run => and_congr_right fun _ => ?_
  cases run.reader <;> simp

theorem teardownOf?_writer {s : Session} {r : RunId} {teardown : Teardown} :
    s.teardownOf? (.writer r) = some teardown ↔
      ∃ run, s.runs.find? r = some run ∧ run.writer = .faulting teardown := by
  rw [teardownOf?, Option.bind_eq_some_iff]
  refine exists_congr fun run => and_congr_right fun _ => ?_
  cases run.writer <;> simp

/-- Only readers and writers react to faults. -/
theorem teardownOf?_cases {s : Session} {t : TaskId} {teardown : Teardown}
    (h : s.teardownOf? t = some teardown) :
    (∃ r run, t = .reader r ∧ s.runs.find? r = some run ∧ run.reader = .faulting teardown) ∨
      ∃ r run, t = .writer r ∧ s.runs.find? r = some run ∧ run.writer = .faulting teardown := by
  cases t with
  | reader r =>
    obtain ⟨run, hr, hf⟩ := teardownOf?_reader.mp h
    exact Or.inl ⟨r, run, rfl, hr, hf⟩
  | writer r =>
    obtain ⟨run, hr, hf⟩ := teardownOf?_writer.mp h
    exact Or.inr ⟨r, run, rfl, hr, hf⟩
  | control i => cases h
  | scanner r => cases h
  | caller i => cases h

/-- Notes how far a task has come with its reaction to a fault. -/
def putTeardown (s : Session) (t : TaskId) (teardown : Teardown) : Session :=
  match t with
  | .reader r => s.setReader r (.faulting teardown)
  | .writer r => s.setWriter r (.faulting teardown)
  | _ => s

/-- Ends a task of a run. -/
def exitTask (s : Session) (t : TaskId) : Session :=
  match t with
  | .reader r => s.setReader r .exited
  | .writer r => s.setWriter r .exited
  | _ => s

/-- Takes the installed run away for a task, which gives the lifecycle lock up. -/
def takenDown (s : Session) (t : TaskId) (r : RunId) (error : SessionError) : Session :=
  ((s.releaseLifecycle t).takeDown r error).2.1

theorem takenDown_eq (s : Session) (t : TaskId) (r : RunId) (error : SessionError) :
    s.takenDown t r error =
      { s with
        lifecycleLock := (s.releaseLifecycle t).lifecycleLock
        running := none
        state := .stopping
        runs := s.runs.modify r fun run => { run with cancelled := true }
        queue := s.queue.close.2
        pending := .empty
        delivered := s.delivered ++ s.pending.requests.keys.map fun id => (id, .failure error)
        link := (s.link.begin .close).2 } :=
  (takeDown_eq (s.releaseLifecycle t) r error).2

theorem putTeardown_eq (s : Session) (t : TaskId) (teardown : Teardown) :
    ∃ runs, s.putTeardown t teardown = { s with runs := runs } := by
  cases t <;> exact ⟨_, rfl⟩

theorem exitTask_eq (s : Session) (t : TaskId) :
    ∃ runs, s.exitTask t = { s with runs := runs } := by
  cases t <;> exact ⟨_, rfl⟩

/-! ### What traffic leaves alone -/

/-- Only requests and frames on their way out differ. -/
def TrafficOnly (s s' : Session) : Prop :=
  ∃ queue pending delivered requestIds, s' = { s with queue, pending, delivered, requestIds }

theorem TrafficOnly.refl (s : Session) : s.TrafficOnly s :=
  ⟨s.queue, s.pending, s.delivered, s.requestIds, rfl⟩

theorem TrafficOnly.trans {s₁ s₂ s₃ : Session} (h : s₁.TrafficOnly s₂) (h' : s₂.TrafficOnly s₃) :
    s₁.TrafficOnly s₃ := by
  obtain ⟨_, _, _, _, rfl⟩ := h
  obtain ⟨queue, pending, delivered, requestIds, rfl⟩ := h'
  exact ⟨queue, pending, delivered, requestIds, rfl⟩

theorem TrafficOnly.callers {s s' : Session} (h : s.TrafficOnly s') : s'.callers = s.callers := by
  obtain ⟨_, _, _, _, rfl⟩ := h
  rfl

theorem trafficOnly_withdraw (s : Session) (id : RequestId) (error : SessionError) :
    s.TrafficOnly (s.withdraw id error).2 :=
  ⟨s.queue, _, _, s.requestIds, rfl⟩

theorem trafficOnly_enqueue (s : Session) (target : Address) (message : Message)
    (priority : Priority) : s.TrafficOnly (s.enqueue target message priority).2 := by
  rcases s.enqueue_cases target message priority with
    ⟨e, he⟩ | ⟨bytes, _, ⟨queue, _, he⟩ | ⟨_, he⟩⟩
  · rw [he]
    exact .refl s
  · rw [he]
    exact ⟨queue, _, _, _, rfl⟩
  · rw [he]
    exact TrafficOnly.trans ⟨s.queue, _, _, _, rfl⟩ (trafficOnly_withdraw _ _ _)

theorem trafficOnly_send (s : Session) (target : Address) (message : Message)
    (priority : Priority) : s.TrafficOnly (s.send target message priority).2 := by
  rw [send]
  split
  · exact s.trafficOnly_enqueue target message priority
  · exact .refl s

theorem trafficOnly_cancelAll (ids : List RequestId) (s : Session) :
    s.TrafficOnly (s.cancelAll ids) := by
  induction ids generalizing s with
  | nil => exact .refl s
  | cons id ids ih => exact (s.trafficOnly_withdraw id .cancelled).trans (ih _)

theorem trafficOnly_resolve (s : Session) (key : ReplyKey) (reply : Reply) :
    s.TrafficOnly (s.resolve key reply) :=
  ⟨s.queue, _, _, s.requestIds, rfl⟩

theorem trafficOnly_handOn (s : Session) (e : Expiry) : s.TrafficOnly (s.handOn e) := by
  cases e with
  | resend frame priority attempt =>
    rw [handOn]
    split
    · exact ⟨_, s.pending, s.delivered, s.requestIds, rfl⟩
    · exact trafficOnly_withdraw _ _ _
  | timedOut id attempts => exact .refl s

theorem trafficOnly_scan (s : Session) : s.TrafficOnly s.scan := by
  rw [scan]
  generalize (s.pending.expire s.now).results = results
  have h : s.TrafficOnly
      ({ s with pending := (s.pending.expire s.now).table }.deliver
        (s.pending.expire s.now).settled) := ⟨s.queue, _, _, s.requestIds, rfl⟩
  -- by induction on the results, from any session that differs in traffic only
  revert h
  generalize { s with pending := (s.pending.expire s.now).table }.deliver
    (s.pending.expire s.now).settled = v
  intro h
  induction results generalizing v with
  | nil => exact h
  | cons e es ih => exact ih _ (h.trans (trafficOnly_handOn v e))

theorem runs_scan (s : Session) : s.scan.runs = s.runs := by
  obtain ⟨_, _, _, _, he⟩ := s.trafficOnly_scan
  rw [he]

theorem trafficOnly_noteWritten (s : Session) (f : OutboundFrame) :
    s.TrafficOnly (s.noteWritten f).1 :=
  ⟨s.queue, _, _, s.requestIds, rfl⟩

/-! ### Everyday work -/

/-- What is done for callers and by readers and scanners, apart from looks at the
deadlines. -/
inductive Minor : Session → Session → Prop where
  /-- The link, the callers, the values, the subscriptions and the time are no
  concern here, except that the calls of the link keep their kind and that time does not
  go back. -/
  | aside {s : Session} (link : Link) (callers : Directory CallerId CallPhase)
      (buffers : BufferStore) (subscriptions : Subscriptions Unit) (now : Instant) :
      s.link.Keeps link → s.now ≤ now →
      Minor s { s with link, callers, buffers, subscriptions, now }
  /-- Looks at the deadlines are left out. -/
  | skips {s : Session} (t : Instant) : Minor s (s.scanFrom t)
  /-- The reader or the scanner of a run comes further, outside the teardown. -/
  | reads {s : Session} {r : RunId} {run : Run} (f : Run → Run) :
      s.runs.find? r = some run → run.hasExited = false →
      (∀ run, (f run).cancelled = run.cancelled ∧ (f run).writer = run.writer) →
      ((f run).reader = run.reader ∨
        (∀ teardown, run.reader ≠ .faulting teardown) ∧
          ∀ c, (f run).reader ≠ .faulting (.closing c)) →
      Minor s (s.modifyRun r f)
  /-- Somebody gets in turn for the lifecycle lock. -/
  | queues {s : Session} (t : TaskId) : Minor s (s.queueLifecycle t)
  /-- A message is registered and queued, for a caller of a started session or for a
  reader. -/
  | enqueues {s : Session} (target : Address) (message : Message) (priority : Priority) :
      (s.state = .started ∨ ∃ r run, s.runs.find? r = some run ∧ run.hasExited = false) →
      Minor s (s.enqueue target message priority).2
  /-- A request is withdrawn. -/
  | withdraws {s : Session} (id : RequestId) : Minor s (s.withdraw id .cancelled).2
  /-- A reply ends a request. -/
  | resolves {s : Session} (key : ReplyKey) (reply : Reply) : reply ≠ .sent →
      Minor s (s.resolve key reply)

/-- What the writer of a run does, apart from noting a written frame. -/
inductive Writes (r : RunId) : Session → Session → Prop where
  /-- The writer takes a frame from the queue. -/
  | pops {s : Session} {run : Run} {frame : OutboundFrame} {queue : SendQueue OutboundFrame} :
      s.runs.find? r = some run → run.writer = .popping →
      s.queue.tryPop = some (frame, queue) →
      Writes r s ({ s with queue := queue }.setWriter r (.checking frame))
  /-- The request of the frame has not ended, so the writer begins to write. -/
  | sends {s : Session} {run : Run} {frame : OutboundFrame} :
      s.runs.find? r = some run → run.writer = .checking frame →
      s.pending.contains frame.id = true →
      Writes r s
        ((s.beginLink (.send frame.bytes)).2.setWriter r (.sending frame s.link.nextCall))
  /-- The request of the frame has ended, so the writer drops it. -/
  | drops {s : Session} {run : Run} {frame : OutboundFrame} :
      s.runs.find? r = some run → run.writer = .checking frame →
      s.pending.contains frame.id = false →
      Writes r s (s.setWriter r .popping)
  /-- The frame is written. -/
  | writes {s : Session} {run : Run} {frame : OutboundFrame} {c : CallId} :
      s.runs.find? r = some run → run.writer = .sending frame c →
      Writes r s (s.setWriter r (.marking frame))
  /-- Writing failed. -/
  | breaks {s : Session} {run : Run} {frame : OutboundFrame} {c : CallId} (cause : LinkError) :
      s.runs.find? r = some run → run.writer = .sending frame c →
      Writes r s (s.setWriter r (.faulting (.locking cause)))
  /-- The writer ends: its run is to end, the queue is closed, or its call ended like
  no call that sends. -/
  | leaves {s : Session} {run : Run} :
      s.runs.find? r = some run →
      (run.writer = .popping ∨ ∃ frame c, run.writer = .sending frame c) →
      (run.cancelled = true ∨ s.queue.closed = true ∨
        ∃ frame c link events bytes, run.writer = .sending frame c ∧
          (link, events) ∈ s.link.moves c ∧ resultOf? c events = some (.received bytes)) →
      Writes r s (s.setWriter r .exited)

/-- The everyday changes. -/
inductive Works : Session → Session → Prop where
  /-- Something is done for a caller, or by a reader or a scanner. -/
  | minor {s s' : Session} : Minor s s' → Works s s'
  /-- A writer comes further. -/
  | writer {s s' : Session} {r : RunId} : Writes r s s' → Works s s'
  /-- A scanner looks at the deadlines. -/
  | scans {s : Session} : Works s s.scan

/-- Any number of such changes. -/
abbrev Minors : Session → Session → Prop := Relation.ReflTransGen Minor

@[inherit_doc Minors]
abbrev Worked : Session → Session → Prop := Relation.ReflTransGen Works

/-! ### Starting and stopping -/

/-- The changes of a start, a stop or a fault, each with what brings it about. -/
inductive Governs : Session → Occurrence → Session → Prop where
  /-- A caller gets in turn for the lifecycle lock, to start. -/
  | asksStart {s : Session} : Governs s (.input .start) (s.beginControl .startTurn).2
  /-- A caller gets in turn for the lifecycle lock, to stop. -/
  | asksStop {s : Session} : Governs s (.input .stop) (s.beginControl .stopTurn).2
  /-- A call with the lock finds nothing to do. -/
  | refuses {s : Session} {i : ControlId} (failure : Option SessionError) :
      s.controls.find? i = some .startTurn ∨ s.controls.find? i = some .stopTurn →
      Governs s (.move (.control i)) (s.endControl i failure).1
  /-- A start with the lock begins to open the link. -/
  | startBegins {s : Session} {i : ControlId} :
      s.controls.find? i = some .startTurn → s.holdsLifecycle (.control i) = true →
      s.running = none →
      Governs s (.move (.control i))
        (((s.enter .starting).1.beginLink .open).2.setControl i (.opening s.link.nextCall))
  /-- The link cannot be opened. -/
  | startFails {s : Session} {i : ControlId} {c : CallId} (failure : Option SessionError) :
      s.controls.find? i = some (.opening c) →
      Governs s (.move (.control i)) (((s.enter .stopped).1.endControl i failure).1)
  /-- A new run begins. -/
  | spawns {s : Session} {i : ControlId} {c : CallId} :
      s.controls.find? i = some (.opening c) →
      Governs s (.move (.control i)) (s.spawn.2.setControl i (.awaitingReader s.spawn.1))
  /-- The new run is installed. -/
  | startEnds {s : Session} {i : ControlId} {r : RunId} :
      s.controls.find? i = some (.awaitingReader r) →
      Governs s (.move (.control i))
        ((({ s with running := some r }.enter .started).1.endControl i none).1)
  /-- A stop takes the installed run away. -/
  | stopBegins {s : Session} {i : ControlId} {r : RunId} :
      s.controls.find? i = some .stopTurn → s.holdsLifecycle (.control i) = true →
      s.running = some r →
      Governs s (.move (.control i))
        ((s.takenDown (.control i) r .cancelled).setControl i (.closing r s.link.nextCall))
  /-- A stop has closed the link. -/
  | stopJoins {s : Session} {i : ControlId} {r : RunId} {c : CallId} :
      s.controls.find? i = some (.closing r c) →
      Governs s (.move (.control i)) (s.setControl i (.joining r))
  /-- A stop is through. -/
  | stopEnds {s : Session} {i : ControlId} {r : RunId} :
      s.controls.find? i = some (.joining r) →
      Governs s (.move (.control i)) (((s.enter .stopped).1.endControl i none).1)
  /-- A fault takes the installed run away. -/
  | faultBegins {s : Session} {t : TaskId} {cause : LinkError} {r : RunId} :
      s.teardownOf? t = some (.locking cause) → s.holdsLifecycle t = true →
      s.running = some r →
      Governs s (.move t)
        ((s.takenDown t r (.connection cause)).putTeardown t (.closing s.link.nextCall))
  /-- A fault finds the run taken away already. -/
  | faultLate {s : Session} {t : TaskId} {cause : LinkError} :
      s.teardownOf? t = some (.locking cause) → s.holdsLifecycle t = true → s.running = none →
      Governs s (.move t) ((s.releaseLifecycle t).exitTask t)
  /-- The reaction to a fault is through. -/
  | faultEnds {s : Session} {t : TaskId} {c : CallId} :
      s.teardownOf? t = some (.closing c) →
      Governs s (.move t) ((s.enter .stopped).1.exitTask t)

/-- Everyday work, or a change of the other kind after a move of the link. -/
def Changes (s : Session) (o : Occurrence) (s' : Session) : Prop :=
  Worked s s' ∨ ∃ link, s.link.Keeps link ∧ Governs { s with link := link } o s'

/-! ### What moves can be told by -/

/-- The frame that the move of a writer notes as written. -/
def marked? (s : Session) : Occurrence → Option (RunId × OutboundFrame)
  | .move (.writer r) => (s.runs.find? r).bind fun run =>
    match run.writer with
    | .marking frame => some (r, frame)
    | _ => none
  | _ => none

/-- The frame that the move of a writer begins to write. -/
def begun? (s : Session) : Occurrence → Option OutboundFrame
  | .move (.writer r) => (s.runs.find? r).bind fun run =>
    match run.writer with
    | .checking frame => if s.pending.contains frame.id then some frame else none
    | _ => none
  | _ => none

/-- What became of the overdue requests when a scanner looked at the deadlines and goes
on waiting; nothing in any other move. -/
def expiries (s : Session) (o : Occurrence) (s' : Session) : List Expiry :=
  match o with
  | .move (.scanner r) =>
    if (s'.runs.find? r).map Run.scanner = some .waiting then (s.pending.expire s.now).results
    else []
  | _ => []

/-- Nothing is noted, begun or looked at. -/
def Unmarked (s : Session) (o : Occurrence) (s' : Session) : Prop :=
  s.marked? o = none ∧ s.begun? o = none ∧ s.expiries o s' = []

/-- Whatever happens, by who does it. -/
inductive Deed : Session → Occurrence → Session → Prop where
  /-- A writer notes that a frame was written. -/
  | notes {s : Session} {r : RunId} {run : Run} {frame : OutboundFrame} :
      s.runs.find? r = some run → run.writer = .marking frame →
      Deed s (.move (.writer r)) ((s.noteWritten frame).1.setWriter r .popping)
  /-- A writer comes further in another way. -/
  | writes {s v : Session} {r : RunId} (link : Link) (lifecycleLock : List TaskId) :
      Writes r s v → Minors v { v with link, lifecycleLock } →
      Deed s (.move (.writer r)) { v with link, lifecycleLock }
  /-- A scanner looks at the deadlines. -/
  | looks {s : Session} {r : RunId} {run : Run} (next : Run → Instant) :
      s.runs.find? r = some run → run.scanner = .waiting →
      Deed s (.move (.scanner r)) (s.scan.modifyRun r fun run => { run with nextScan := next run })
  /-- Something else is done for a caller, or by a task of a run. -/
  | minor {s s' : Session} {o : Occurrence} : s.Unmarked o s' → Minors s s' → Deed s o s'
  /-- The session is started, stopped or brought down by a fault. -/
  | governs {s s' : Session} {o : Occurrence} (link : Link) : s.Unmarked o s' →
      s.link.Keeps link → Governs { s with link := link } o s' → Deed s o s'

end Session

end ZoneBus
