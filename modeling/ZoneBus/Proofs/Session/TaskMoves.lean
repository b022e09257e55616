import ZoneBus.Proofs.Session.Change

/-!
# The moves of the tasks

What a task may do next is a list of moves.  Here the moves of a reader, a writer and a
caller, of a call that starts or stops, and of a task that reacts to a fault, are listed once
more as the few ways there are to go, each with what it needs and with what comes of it.

## Main definitions

* `Session.TeardownWay` — the ways of a task that reacts to a fault.
* `Session.ReaderWay`, `Session.WriterWay` — the ways of the reader and of the writer of a
  run.
* `Session.ControlWay` — the ways of a call that starts or stops the session.
* `Session.CallerWay` — the ways of a caller.

## Main results

* `Session.mem_onLink` — the moves of a task that waits for a call of the link.
* `Session.teardownWay_of_mem`, `readerWay_of_mem`, `writerWay_of_mem`,
  `controlWay_of_mem`, `callerWay_of_mem` — **there are no other ways.**
-/

namespace ZoneBus

namespace Session

variable {s : Session} {t : TaskId} {r : RunId} {run : Run} {m : Session × List Notice}

/-- The moves of a task that waits for a call of the link. -/
theorem mem_onLink {c : CallId} {goOn : Session → LinkResult → Session × List Notice}
    (h : m ∈ s.onLink c goOn) :
    ∃ link events, (link, events) ∈ s.link.moves c ∧ s.link.Keeps link ∧
      ((resultOf? c events = none ∧ m.1 = { s with link := link }) ∨
        ∃ result, resultOf? c events = some result ∧
          m.1 = (goOn { s with link := link } result).1) := by
  rw [onLink, List.mem_map] at h
  obtain ⟨⟨link, events⟩, hmem, hm⟩ := h
  refine ⟨link, events, hmem, Link.keeps_of_mem_moves hmem, ?_⟩
  dsimp only at hm
  cases hres : resultOf? c events with
  | none =>
    rw [hres] at hm
    exact Or.inl ⟨rfl, by rw [← hm]⟩
  | some result =>
    rw [hres] at hm
    exact Or.inr ⟨result, rfl, by rw [← hm]⟩

/-! ### The reaction to a fault -/

/-- The ways of a task that reacts to a fault. -/
inductive TeardownWay (s : Session) (t : TaskId) : Teardown → Session → Prop where
  /-- It has the lifecycle lock, and somebody else has taken the run away. -/
  | late {cause : LinkError} : s.holdsLifecycle t = true → s.running = none →
      TeardownWay s t (.locking cause) ((s.releaseLifecycle t).exitTask t)
  /-- It has the lifecycle lock, and takes the installed run away. -/
  | takes {cause : LinkError} {r : RunId} : s.holdsLifecycle t = true → s.running = some r →
      TeardownWay s t (.locking cause) ((s.takenDown t r (.connection cause)).putTeardown t
        (.closing s.link.nextCall))
  /-- The link is still being closed. -/
  | waits {c : CallId} {link : Link} {events : List LinkEvent} :
      (link, events) ∈ s.link.moves c → TeardownWay s t (.closing c) { s with link := link }
  /-- The link is closed. -/
  | ends {c : CallId} {link : Link} {events : List LinkEvent} {result : LinkResult} :
      (link, events) ∈ s.link.moves c → resultOf? c events = some result →
      TeardownWay s t (.closing c)
        ((Session.enter { s with link := link } .stopped).1.exitTask t)

theorem teardownWay_of_mem {put : Session → Teardown → Session} {exit : Session → Session}
    {teardown : Teardown} (hput : ∀ v w, put v w = v.putTeardown t w)
    (hexit : ∀ v, exit v = v.exitTask t) (h : m ∈ s.teardownMoves t put exit teardown) :
    s.TeardownWay t teardown m.1 := by
  cases teardown with
  | locking cause =>
    rw [teardownMoves] at h
    split at h
    · next hlock =>
      split at h
      · next hr =>
        rw [List.mem_singleton] at h
        rw [h, hexit]
        exact .late hlock hr
      · next r hr =>
        rw [List.mem_singleton] at h
        rw [h, hput, (takeDown_eq _ _ _).1]
        exact .takes hlock hr
    · cases h
  | closing c =>
    rw [teardownMoves] at h
    obtain ⟨link, events, hmem, _, ⟨_, hm⟩ | ⟨result, hres, hm⟩⟩ := mem_onLink h
    · rw [hm]
      exact .waits hmem
    · dsimp only at hm
      rw [hm, hexit]
      exact .ends hmem hres

/-! ### The reader -/

/-- The ways of the reader of a run. -/
inductive ReaderWay (s : Session) (r : RunId) (run : Run) : ReaderPhase → Session → Prop where
  /-- It moves for the first time. -/
  | wakes : ReaderWay s r run .waking (s.setReader r .idle)
  /-- It ends, since the run is to end. -/
  | leaves : run.cancelled = true → ReaderWay s r run .idle (s.setReader r .exited)
  /-- It begins to wait for bytes. -/
  | listens : ReaderWay s r run .idle ((s.beginLink (.receive s.config.readBufferSize)).2.setReader
      r (.receiving s.link.nextCall))
  /-- It drops its call, since the run is to end. -/
  | drops {c : CallId} : run.cancelled = true →
      ReaderWay s r run (.receiving c) ((s.abortLink c).setReader r .exited)
  /-- There are no bytes yet. -/
  | waits {c : CallId} {link : Link} {events : List LinkEvent} :
      (link, events) ∈ s.link.moves c →
      ReaderWay s r run (.receiving c) { s with link := link }
  /-- It gives the bytes to the decoder. -/
  | reads {c : CallId} {link : Link} {events : List LinkEvent} {bytes : Bytes} :
      (link, events) ∈ s.link.moves c → resultOf? c events = some (.received bytes) →
      ReaderWay s r run (.receiving c) (Session.modifyRun { s with link := link } r fun run =>
        { run with reader := .handling, decoder := run.decoder.extend bytes })
  /-- Its call does not end well, and it ends: the run is to end, or the answer is one to
  another kind of call. -/
  | ends {c : CallId} {link : Link} {events : List LinkEvent} {result : LinkResult} :
      (link, events) ∈ s.link.moves c → resultOf? c events = some result →
      (run.cancelled = true ∧ ∃ error, result = .failed error) ∨ result = .done →
      ReaderWay s r run (.receiving c) (Session.setReader { s with link := link } r .exited)
  /-- Its call fails, and it reacts to the fault. -/
  | breaks {c : CallId} {link : Link} {events : List LinkEvent} {error : LinkError} :
      (link, events) ∈ s.link.moves c → resultOf? c events = some (.failed error) →
      ReaderWay s r run (.receiving c) ((Session.setReader { s with link := link } r
        (.faulting (.locking error))).queueLifecycle (.reader r))
  /-- There is nothing left to handle. -/
  | rests {decoder : Decoder} : run.decoder.next = (none, decoder) →
      ReaderWay s r run .handling
        (s.modifyRun r fun run => { run with reader := .idle, decoder := decoder })
  /-- It handles what the decoder found. -/
  | handles {result : FrameResult} {decoder : Decoder} :
      run.decoder.next = (some result, decoder) →
      ReaderWay s r run .handling
        ((s.modifyRun r fun run => { run with decoder := decoder }).handle result).1
  /-- It goes on with its reaction to a fault. -/
  | reacts {teardown : Teardown} {s' : Session} : s.TeardownWay (.reader r) teardown s' →
      ReaderWay s r run (.faulting teardown) s'

theorem readerWay_of_mem (h : m ∈ s.readerMoves r run) :
    s.ReaderWay r run run.reader m.1 := by
  rw [readerMoves] at h
  cases hph : run.reader with
  | waking =>
    rw [hph] at h
    rw [List.mem_singleton] at h
    subst h
    exact .wakes
  | idle =>
    rw [hph] at h
    rw [List.mem_append] at h
    rcases h with h | h
    · split at h
      · next hc =>
        rw [List.mem_singleton] at h
        subst h
        exact .leaves hc
      · cases h
    · rw [List.mem_singleton] at h
      subst h
      exact .listens
  | receiving c =>
    rw [hph] at h
    rw [List.mem_append] at h
    rcases h with h | h
    · split at h
      · next hc =>
        rw [List.mem_singleton] at h
        subst h
        exact .drops hc
      · cases h
    · obtain ⟨link, events, hmem, _, ⟨_, hm⟩ | ⟨result, hres, hm⟩⟩ := mem_onLink h
      · rw [hm]
        exact .waits hmem
      · rw [hm]
        cases result with
        | received bytes => exact .reads hmem hres
        | failed error =>
          dsimp only
          split
          · next hc => exact .ends hmem hres (Or.inl ⟨hc, error, rfl⟩)
          · exact .breaks hmem hres
        | done => exact .ends hmem hres (Or.inr rfl)
  | handling =>
    rw [hph] at h
    dsimp only at h
    split at h
    · next hnext =>
      rw [List.mem_singleton] at h
      subst h
      exact .rests hnext
    · next hnext =>
      rw [List.mem_singleton] at h
      subst h
      exact .handles hnext
  | faulting teardown =>
    rw [hph] at h
    exact .reacts (teardownWay_of_mem (fun _ _ => rfl) (fun _ => rfl) h)
  | exited =>
    rw [hph] at h
    cases h

/-! ### The writer -/

/-- The ways of the writer of a run. -/
inductive WriterWay (s : Session) (r : RunId) (run : Run) : WriterPhase → Session → Prop where
  /-- It ends before it takes another frame. -/
  | leaves : run.cancelled = true ∨ s.queue.closed = true →
      WriterWay s r run .popping (s.setWriter r .exited)
  /-- It takes a frame from the queue. -/
  | takes {frame : OutboundFrame} {queue : SendQueue OutboundFrame} :
      s.queue.closed = false → s.queue.tryPop = some (frame, queue) →
      WriterWay s r run .popping (Session.setWriter { s with queue := queue } r (.checking frame))
  /-- The request is pending: the frame is to be written. -/
  | begins {frame : OutboundFrame} : s.pending.contains frame.id = true →
      WriterWay s r run (.checking frame)
        ((s.beginLink (.send frame.bytes)).2.setWriter r (.sending frame s.link.nextCall))
  /-- The request has ended: the frame is let go. -/
  | skips {frame : OutboundFrame} : s.pending.contains frame.id = false →
      WriterWay s r run (.checking frame) (s.setWriter r .popping)
  /-- It drops its call, since the run is to end. -/
  | drops {frame : OutboundFrame} {c : CallId} : run.cancelled = true →
      WriterWay s r run (.sending frame c) ((s.abortLink c).setWriter r .exited)
  /-- The frame is still being written. -/
  | waits {frame : OutboundFrame} {c : CallId} {link : Link} {events : List LinkEvent} :
      (link, events) ∈ s.link.moves c →
      WriterWay s r run (.sending frame c) { s with link := link }
  /-- The frame is written. -/
  | writes {frame : OutboundFrame} {c : CallId} {link : Link} {events : List LinkEvent} :
      (link, events) ∈ s.link.moves c → resultOf? c events = some .done →
      WriterWay s r run (.sending frame c)
        (Session.setWriter { s with link := link } r (.marking frame))
  /-- Its call does not end well, and it ends: the run is to end, or the answer is one to
  another kind of call. -/
  | ends {frame : OutboundFrame} {c : CallId} {link : Link} {events : List LinkEvent}
      {result : LinkResult} : (link, events) ∈ s.link.moves c →
      resultOf? c events = some result → (run.cancelled = true ∧ ∃ error, result = .failed error) ∨
        (∃ bytes, result = .received bytes) →
      WriterWay s r run (.sending frame c) (Session.setWriter { s with link := link } r .exited)
  /-- Its call fails, and it reacts to the fault. -/
  | breaks {frame : OutboundFrame} {c : CallId} {link : Link} {events : List LinkEvent}
      {error : LinkError} : (link, events) ∈ s.link.moves c →
      resultOf? c events = some (.failed error) →
      WriterWay s r run (.sending frame c)
        ((Session.setWriter { s with link := link } r
          (.faulting (.locking error))).queueLifecycle (.writer r))
  /-- It notes that the frame was written. -/
  | notes {frame : OutboundFrame} :
      WriterWay s r run (.marking frame) ((s.noteWritten frame).1.setWriter r .popping)
  /-- It goes on with its reaction to a fault. -/
  | reacts {teardown : Teardown} {s' : Session} : s.TeardownWay (.writer r) teardown s' →
      WriterWay s r run (.faulting teardown) s'

theorem writerWay_of_mem (h : m ∈ s.writerMoves r run) :
    s.WriterWay r run run.writer m.1 := by
  rw [writerMoves] at h
  cases hph : run.writer with
  | popping =>
    rw [hph] at h
    rw [List.mem_append] at h
    rcases h with h | h
    · split at h
      · next hc =>
        rw [List.mem_singleton] at h
        subst h
        exact .leaves (Or.inl hc)
      · cases h
    · split at h
      · next hc =>
        rw [List.mem_singleton] at h
        subst h
        exact .leaves (Or.inr hc)
      · next hc =>
        split at h
        · cases h
        · next hp =>
          rw [List.mem_singleton] at h
          subst h
          exact .takes (Bool.eq_false_iff.mpr hc) hp
  | checking frame =>
    rw [hph] at h
    dsimp only at h
    split at h
    · next hc =>
      rw [List.mem_singleton] at h
      subst h
      exact .begins hc
    · next hc =>
      rw [List.mem_singleton] at h
      subst h
      exact .skips (Bool.eq_false_iff.mpr hc)
  | sending frame c =>
    rw [hph] at h
    rw [List.mem_append] at h
    rcases h with h | h
    · split at h
      · next hc =>
        rw [List.mem_singleton] at h
        subst h
        exact .drops hc
      · cases h
    · obtain ⟨link, events, hmem, _, ⟨_, hm⟩ | ⟨result, hres, hm⟩⟩ := mem_onLink h
      · rw [hm]
        exact .waits hmem
      · rw [hm]
        cases result with
        | received bytes => exact .ends hmem hres (Or.inr ⟨bytes, rfl⟩)
        | failed error =>
          dsimp only
          split
          · next hc => exact .ends hmem hres (Or.inl ⟨hc, error, rfl⟩)
          · exact .breaks hmem hres
        | done => exact .writes hmem hres
  | marking frame =>
    rw [hph] at h
    dsimp only at h
    rw [List.mem_singleton] at h
    subst h
    exact .notes
  | faulting teardown =>
    rw [hph] at h
    exact .reacts (teardownWay_of_mem (fun _ _ => rfl) (fun _ => rfl) h)
  | exited =>
    rw [hph] at h
    cases h

/-! ### Starts and stops -/

/-- The ways of a call that starts or stops the session. -/
inductive ControlWay (s : Session) (i : ControlId) : Control → Session → Prop where
  /-- A start has the lifecycle lock, and the session is started. -/
  | refuses {r : RunId} : s.holdsLifecycle (.control i) = true → s.running = some r →
      ControlWay s i .startTurn (s.endControl i (some .alreadyStarted)).1
  /-- A start has the lifecycle lock, and begins to open the link. -/
  | begins : s.holdsLifecycle (.control i) = true → s.running = none →
      ControlWay s i .startTurn
        (((s.enter .starting).1.beginLink .open).2.setControl i (.opening s.link.nextCall))
  /-- The link is still being opened. -/
  | opening {c : CallId} {link : Link} {events : List LinkEvent} :
      (link, events) ∈ s.link.moves c → ControlWay s i (.opening c) { s with link := link }
  /-- The link cannot be opened. -/
  | fails {c : CallId} {link : Link} {events : List LinkEvent} {error : LinkError} :
      (link, events) ∈ s.link.moves c → resultOf? c events = some (.failed error) →
      ControlWay s i (.opening c) ((Session.enter { s with link := link } .stopped).1.endControl i
        (some (.connection error))).1
  /-- The link is open, and a new run begins. -/
  | spawns {c : CallId} {link : Link} {events : List LinkEvent} {result : LinkResult} :
      (link, events) ∈ s.link.moves c → resultOf? c events = some result →
      ControlWay s i (.opening c)
        ((spawn { s with link := link }).2.setControl i (.awaitingReader s.spawn.1))
  /-- The reader of the new run is up, and the run is installed. -/
  | installs {r : RunId} : s.readerIsUp r = true → ControlWay s i (.awaitingReader r)
      (({ s with running := some r }.enter .started).1.endControl i none).1
  /-- A stop has the lifecycle lock, and there is nothing to stop. -/
  | rests : s.holdsLifecycle (.control i) = true → s.running = none →
      ControlWay s i .stopTurn (s.endControl i none).1
  /-- A stop has the lifecycle lock, and takes the installed run away. -/
  | takes {r : RunId} : s.holdsLifecycle (.control i) = true → s.running = some r →
      ControlWay s i .stopTurn
        ((s.takenDown (.control i) r .cancelled).setControl i (.closing r s.link.nextCall))
  /-- The link is still being closed. -/
  | closing {r : RunId} {c : CallId} {link : Link} {events : List LinkEvent} :
      (link, events) ∈ s.link.moves c → ControlWay s i (.closing r c) { s with link := link }
  /-- The link is closed. -/
  | closes {r : RunId} {c : CallId} {link : Link} {events : List LinkEvent}
      {result : LinkResult} :
      (link, events) ∈ s.link.moves c → resultOf? c events = some result →
      ControlWay s i (.closing r c) (Session.setControl { s with link := link } i (.joining r))
  /-- The tasks of the run have ended. -/
  | joins {r : RunId} : (s.runs.find? r).map Run.hasExited ≠ some false →
      ControlWay s i (.joining r) ((s.enter .stopped).1.endControl i none).1

theorem controlWay_of_mem {i : ControlId} {phase : Control} (h : m ∈ s.controlMoves i phase) :
    s.ControlWay i phase m.1 := by
  cases phase with
  | startTurn =>
    rw [controlMoves] at h
    split at h
    · next hlock =>
      split at h
      · next hr =>
        rw [List.mem_singleton] at h
        subst h
        exact .refuses hlock hr
      · next hr =>
        rw [List.mem_singleton] at h
        subst h
        have hway := ControlWay.begins hlock hr
        rw [enter_fst] at hway
        dsimp only
        rw [enter_fst]
        exact hway
    · cases h
  | opening c =>
    rw [controlMoves] at h
    obtain ⟨link, events, hmem, _, ⟨_, hm⟩ | ⟨result, hres, hm⟩⟩ := mem_onLink h
    · rw [hm]
      exact .opening hmem
    · rw [hm]
      cases result with
      | failed error => exact .fails hmem hres
      | done => exact .spawns hmem hres
      | received bytes => exact .spawns hmem hres
  | awaitingReader r =>
    rw [controlMoves] at h
    split at h
    · next hup =>
      rw [List.mem_singleton] at h
      subst h
      exact .installs hup
    · cases h
  | stopTurn =>
    rw [controlMoves] at h
    split at h
    · next hlock =>
      split at h
      · next hr =>
        rw [List.mem_singleton] at h
        subst h
        exact .rests hlock hr
      · next r hr =>
        rw [List.mem_singleton] at h
        subst h
        rw [(takeDown_eq _ _ _).1]
        exact .takes hlock hr
    · cases h
  | closing r c =>
    rw [controlMoves] at h
    obtain ⟨link, events, hmem, _, ⟨_, hm⟩ | ⟨result, hres, hm⟩⟩ := mem_onLink h
    · rw [hm]
      exact .closing hmem
    · rw [hm]
      exact .closes hmem hres
  | joining r =>
    rw [controlMoves] at h
    split at h
    · cases h
    · next hexited =>
      rw [List.mem_singleton] at h
      subst h
      exact .joins hexited

/-! ### Callers -/

/-- The ways of a caller. -/
inductive CallerWay (s : Session) (i : CallerId) : CallPhase → Session × List Notice → Prop where
  /-- Its call ends. -/
  | ends {phase : CallPhase} (result : CallResult) : CallerWay s i phase (s.endCall i result)
  /-- It waits for the packets that it sent. -/
  | waits {phase : CallPhase} (rest : List RequestId) (failure : Option SessionError) :
      CallerWay s i phase (s.beginCall i (.collecting rest failure), [])
  /-- It sends the next packet of a value. -/
  | sends {target : Address} {priority : Priority} {p : Packet} {rest : List Packet}
      {made : List RequestId} {id : RequestId} {s' : Session} :
      s.send target (.setData p) priority = (.ok id, s') →
      CallerWay s i (.writing target priority (p :: rest) made)
        (s'.beginCall i (.writing target priority rest (made ++ [id])), [])
  /-- It cannot send the next packet, and withdraws those that it sent. -/
  | fails {target : Address} {priority : Priority} {p : Packet} {rest : List Packet}
      {made : List RequestId} {error : SessionError} {s' : Session} :
      s.send target (.setData p) priority = (.error error, s') →
      CallerWay s i (.writing target priority (p :: rest) made)
        ((s'.cancelAll made).endCall i (.failed error))
  /-- One of its packets was not written, and it withdraws another. -/
  | withdraws {id : RequestId} {rest : List RequestId} {error : SessionError} :
      CallerWay s i (.collecting (id :: rest) (some error))
        ((s.cancel id).2.beginCall i (.collecting rest (some error)), [])

theorem callerWay_of_mem {i : CallerId} {phase : CallPhase} (h : m ∈ s.callerMoves i phase) :
    s.CallerWay i phase m := by
  unfold callerMoves at h
  split at h
  · split at h
    · cases h
    · rw [List.mem_singleton] at h
      subst h
      exact .ends _
  · split at h
    · cases h
    · rw [List.mem_singleton] at h
      subst h
      exact .ends _
  · rw [List.mem_singleton] at h
    subst h
    exact .waits _ none
  · split at h
    · next hs =>
      rw [List.mem_singleton] at h
      subst h
      exact .sends hs
    · next hs =>
      rw [List.mem_singleton] at h
      subst h
      exact .fails hs
  · rw [List.mem_singleton] at h
    subst h
    exact .ends _
  · rw [List.mem_singleton] at h
    subst h
    exact .ends _
  · split at h
    · cases h
    · rw [List.mem_singleton] at h
      subst h
      exact .waits _ none
    · rw [List.mem_singleton] at h
      subst h
      exact .waits _ (some _)
  · rw [List.mem_singleton] at h
    subst h
    exact .withdraws

end Session

end ZoneBus
