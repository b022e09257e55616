import ZoneBus.Proofs.Session.Inbound

/-!
# Moves that leave the callers alone

The tasks of a run and the calls that start and stop have little to do with callers: they
give no numbers to requests, move no caller, and tell nobody that a message was written.
There are two exceptions.  A writer that notes a frame as written tells of its message, and
a reader that takes a packet has it acknowledged, which is a request like any other.

## Main definitions

* `Notice.sent?` — the message that a notice says was written.
* `Session.Aside`, `Session.Asides` — a move, or each of some, leaves the callers alone.

## Main results

* `Session.sent_of_move` — **a move tells of the frame that it notes, and of no other.**
* `Session.callers_of_move` — **callers come further by their own moves.**
-/

namespace ZoneBus

/-- The message that a notice says was written. -/
def Notice.sent? : Notice → Option Envelope
  | .sent e => some e
  | _ => none

namespace Session

variable {s : Session} {t : TaskId} {c : CallId} {r : RunId} {run : Run}
  {m : Session × List Notice}

/-- A move leaves the callers alone. -/
structure Aside (s : Session) (m : Session × List Notice) : Prop where
  /-- No number is given to a request. -/
  requestIds : m.1.requestIds = s.requestIds
  /-- No caller comes further. -/
  callers : m.1.callers = s.callers
  /-- No message is told to be written. -/
  sent : m.2.filterMap Notice.sent? = []

/-- Each of some moves leaves the callers alone. -/
def Asides (s : Session) (ms : Moves) : Prop := ∀ m ∈ ms, s.Aside m

theorem asides_nil : s.Asides [] := List.forall_mem_nil _

theorem asides_append {ms ms' : Moves} : s.Asides (ms ++ ms') ↔ s.Asides ms ∧ s.Asides ms' :=
  List.forall_mem_append

theorem asides_one (h : s.Aside m) : s.Asides [m] := List.forall_mem_singleton.mpr h

theorem asides_ite {p : Prop} [Decidable p] {ms ms' : Moves} (h : s.Asides ms)
    (h' : s.Asides ms') : s.Asides (if p then ms else ms') := by
  split <;> assumption

theorem aside_enter (s : Session) (state : SessionState) : s.Aside (s.enter state) := by
  unfold enter
  split <;> exact ⟨rfl, rfl, rfl⟩

theorem aside_takeDown (s : Session) (r : RunId) (error : SessionError) :
    s.Aside (s.takeDown r error).2 := by
  refine ⟨?_, ?_, (aside_enter { s with running := none } .stopping).sent⟩
  · rw [(takeDown_eq s r error).2]
  · rw [(takeDown_eq s r error).2]

theorem asides_onLink {goOn : Session → LinkResult → Session × List Notice}
    (h : ∀ (v : Session) result, v.Aside (goOn v result)) : s.Asides (s.onLink c goOn) := by
  have seen : ∀ events : List LinkEvent, (events.map Notice.link).filterMap Notice.sent? = [] := by
    intro events
    rw [List.filterMap_map]
    exact List.filterMap_eq_nil_iff.mpr fun _ _ => rfl
  intro m hm
  rw [onLink, List.mem_map] at hm
  obtain ⟨⟨link, events⟩, _, rfl⟩ := hm
  dsimp only
  split
  · exact ⟨rfl, rfl, seen events⟩
  · next result _ =>
    obtain ⟨hi, hc, hsent⟩ := h { s with link := link } result
    refine ⟨hi, hc, ?_⟩
    rw [List.filterMap_append, seen, List.nil_append]
    exact hsent

theorem asides_teardown {put : Session → Teardown → Session} {exit : Session → Session}
    (hput : ∀ v w, (put v w).requestIds = v.requestIds ∧ (put v w).callers = v.callers)
    (hexit : ∀ v, (exit v).requestIds = v.requestIds ∧ (exit v).callers = v.callers)
    (teardown : Teardown) : s.Asides (s.teardownMoves t put exit teardown) := by
  intro m hm
  cases teardown with
  | locking cause =>
    rw [teardownMoves] at hm
    split at hm
    · split at hm
      · rw [List.mem_singleton] at hm
        subst hm
        exact ⟨(hexit _).1, (hexit _).2, rfl⟩
      · next r _ =>
        rw [List.mem_singleton] at hm
        subst hm
        obtain ⟨hi, hc, hsent⟩ := aside_takeDown (s.releaseLifecycle t) r (.connection cause)
        exact ⟨(hput _ _).1.trans hi, (hput _ _).2.trans hc, hsent⟩
    · simp at hm
  | closing c =>
    rw [teardownMoves] at hm
    refine asides_onLink (fun v result => ?_) m hm
    obtain ⟨hi, hc, hsent⟩ := v.aside_enter .stopped
    exact ⟨(hexit _).1.trans hi, (hexit _).2.trans hc, hsent⟩

/-! ### The reader -/

/-- A reader that does not handle what it has read leaves the callers alone. -/
theorem asides_reader (hph : run.reader ≠ .handling) (hm : m ∈ s.readerMoves r run) :
    s.Aside m := by
  rw [readerMoves] at hm
  cases hreader : run.reader with
  | waking =>
    rw [hreader] at hm
    refine asides_one ?_ m hm
    exact ⟨rfl, rfl, rfl⟩
  | idle =>
    rw [hreader] at hm
    refine asides_append.mpr ⟨?_, ?_⟩ m hm
    · exact asides_ite (asides_one ⟨rfl, rfl, rfl⟩) asides_nil
    · exact asides_one ⟨rfl, rfl, rfl⟩
  | receiving c =>
    rw [hreader] at hm
    refine asides_append.mpr ⟨?_, asides_onLink fun v result => ?_⟩ m hm
    · exact asides_ite (asides_one ⟨rfl, rfl, rfl⟩) asides_nil
    · split
      · exact ⟨rfl, rfl, rfl⟩
      · split <;> exact ⟨rfl, rfl, rfl⟩
      · exact ⟨rfl, rfl, rfl⟩
  | handling => exact absurd hreader hph
  | faulting teardown =>
    rw [hreader] at hm
    refine asides_teardown ?_ ?_ teardown m hm
    · exact fun _ _ => ⟨rfl, rfl⟩
    · exact fun _ => ⟨rfl, rfl⟩
  | exited =>
    rw [hreader] at hm
    simp at hm

/-- Subscribers are told of updates. -/
theorem sent_announce (s : Session) (place : Place) (update : PathUpdate) :
    (s.announce place update).filterMap Notice.sent? = [] := by
  have told : ∀ (called : List (SubscriptionId × Unit)) (notices : List Notice),
      notices.filterMap Notice.sent? = [] →
      (called.foldl (fun notices e => notices ++ [Notice.update e.1 update])
        notices).filterMap Notice.sent? = [] := by
    intro called
    induction called with
    | nil => exact fun _ h => h
    | cons e called ih =>
      intro notices h
      refine ih _ ?_
      rw [List.filterMap_append, h]
      rfl
  exact told _ [] rfl

theorem sent_acceptPacket (s : Session) (source : Address) (p : Packet) :
    (s.acceptPacket source p).2.filterMap Notice.sent? = [] := by
  rw [acceptPacket]
  dsimp only
  split
  · rfl
  · split
    · exact sent_announce _ _ _
    · rw [List.filterMap_append, sent_announce, sent_announce]
      rfl

theorem sent_handle (s : Session) (result : FrameResult) :
    (s.handle result).2.filterMap Notice.sent? = [] := by
  unfold handle
  split
  · rfl
  · split
    · rfl
    · next e _ =>
      rw [dispatch]
      split
      · split
        · split <;> rfl
        · next p _ => exact sent_acceptPacket s e.source p
        · rfl
      · rfl

theorem callers_handle (s : Session) (result : FrameResult) :
    (s.handle result).1.callers = s.callers := by
  obtain ⟨v, buffers, hv, hhandled⟩ := s.trafficOnly_handle result
  exact hhandled.callers.trans hv.callers

/-- A reader moves no caller and tells of nothing that was written. -/
theorem callers_reader (hm : m ∈ s.readerMoves r run) :
    m.1.callers = s.callers ∧ m.2.filterMap Notice.sent? = [] := by
  by_cases hph : run.reader = .handling
  · rw [readerMoves, hph] at hm
    dsimp only at hm
    split at hm
    · rw [List.mem_singleton] at hm
      subst hm
      exact ⟨rfl, rfl⟩
    · rw [List.mem_singleton] at hm
      subst hm
      exact ⟨callers_handle _ _, sent_handle _ _⟩
  · have haside := asides_reader hph hm
    exact ⟨haside.callers, haside.sent⟩

/-! ### The writer -/

/-- A writer that notes nothing leaves the callers alone. -/
theorem asides_writer (hph : ∀ frame, run.writer ≠ .marking frame)
    (hm : m ∈ s.writerMoves r run) : s.Aside m := by
  rw [writerMoves] at hm
  cases hwriter : run.writer with
  | popping =>
    rw [hwriter] at hm
    refine asides_append.mpr ⟨?_, asides_ite ?_ ?_⟩ m hm
    · exact asides_ite (asides_one ⟨rfl, rfl, rfl⟩) asides_nil
    · exact asides_one ⟨rfl, rfl, rfl⟩
    · split
      · exact asides_nil
      · exact asides_one ⟨rfl, rfl, rfl⟩
  | checking frame =>
    rw [hwriter] at hm
    refine asides_ite ?_ ?_ m hm
    · exact asides_one ⟨rfl, rfl, rfl⟩
    · exact asides_one ⟨rfl, rfl, rfl⟩
  | sending frame c =>
    rw [hwriter] at hm
    refine asides_append.mpr ⟨?_, asides_onLink fun v result => ?_⟩ m hm
    · exact asides_ite (asides_one ⟨rfl, rfl, rfl⟩) asides_nil
    · split
      · exact ⟨rfl, rfl, rfl⟩
      · split <;> exact ⟨rfl, rfl, rfl⟩
      · exact ⟨rfl, rfl, rfl⟩
  | marking frame => exact absurd hwriter (hph frame)
  | faulting teardown =>
    rw [hwriter] at hm
    refine asides_teardown ?_ ?_ teardown m hm
    · exact fun _ _ => ⟨rfl, rfl⟩
    · exact fun _ => ⟨rfl, rfl⟩
  | exited =>
    rw [hwriter] at hm
    simp at hm

/-- A writer gives no numbers, moves no caller, and tells of the frame that it notes. -/
theorem noted_writer (hr : s.runs.find? r = some run) (hm : m ∈ s.writerMoves r run) :
    m.1.requestIds = s.requestIds ∧ m.1.callers = s.callers ∧ m.2.filterMap Notice.sent? =
      (s.marked? (.move (.writer r))).toList.map fun e => e.2.envelope := by
  rw [marked?, hr, Option.bind_some]
  by_cases hph : ∃ frame, run.writer = .marking frame
  · obtain ⟨frame, hph⟩ := hph
    rw [writerMoves, hph] at hm
    dsimp only at hm
    rw [List.mem_singleton] at hm
    subst hm
    rw [hph]
    exact ⟨rfl, rfl, rfl⟩
  · obtain ⟨hi, hc, hsent⟩ := asides_writer (fun frame he => hph ⟨frame, he⟩) hm
    refine ⟨hi, hc, ?_⟩
    rw [hsent]
    split
    · next frame he => exact absurd ⟨frame, he⟩ hph
    · rfl

/-! ### The scanner, and the calls -/

theorem callers_scanner (hm : m ∈ s.scannerMoves r run) :
    m.1.callers = s.callers ∧ m.2.filterMap Notice.sent? = [] := by
  rw [scannerMoves] at hm
  split at hm
  · rw [List.mem_append] at hm
    rcases hm with hm | hm
    · split at hm
      · rw [List.mem_singleton] at hm
        subst hm
        exact ⟨rfl, rfl⟩
      · simp at hm
    · split at hm
      · rw [List.mem_singleton] at hm
        subst hm
        exact ⟨s.trafficOnly_scan.callers, rfl⟩
      · simp at hm
  · simp at hm

theorem asides_control (i : ControlId) (phase : Control) : s.Asides (s.controlMoves i phase) := by
  have ends : ∀ (v : Session) (state : SessionState) (failure : Option SessionError),
      v.Aside (((v.enter state).1.endControl i failure).1,
        (v.enter state).2 ++ [.controlled i failure]) := by
    intro v state failure
    obtain ⟨hi, hc, hsent⟩ := v.aside_enter state
    refine ⟨hi, hc, ?_⟩
    rw [List.filterMap_append, hsent]
    rfl
  intro m hm
  cases phase with
  | startTurn =>
    rw [controlMoves] at hm
    split at hm
    · split at hm
      · refine asides_one ?_ m hm
        exact ⟨rfl, rfl, rfl⟩
      · rw [List.mem_singleton] at hm
        subst hm
        obtain ⟨hi, hc, hsent⟩ := s.aside_enter .starting
        exact ⟨hi, hc, hsent⟩
    · simp at hm
  | opening c =>
    rw [controlMoves] at hm
    refine asides_onLink (fun v result => ?_) m hm
    cases result with
    | failed error => exact ends v .stopped _
    | _ => exact ⟨rfl, rfl, rfl⟩
  | awaitingReader r =>
    rw [controlMoves] at hm
    split at hm
    · rw [List.mem_singleton] at hm
      subst hm
      obtain ⟨hi, hc, hsent⟩ := ends { s with running := some r } .started none
      exact ⟨hi, hc, hsent⟩
    · simp at hm
  | stopTurn =>
    rw [controlMoves] at hm
    split at hm
    · split at hm
      · refine asides_one ?_ m hm
        exact ⟨rfl, rfl, rfl⟩
      · next r _ =>
        rw [List.mem_singleton] at hm
        subst hm
        obtain ⟨hi, hc, hsent⟩ := aside_takeDown (s.releaseLifecycle (.control i)) r .cancelled
        exact ⟨hi, hc, hsent⟩
    · simp at hm
  | closing r c =>
    rw [controlMoves] at hm
    exact asides_onLink (fun _ _ => ⟨rfl, rfl, rfl⟩) m hm
  | joining r =>
    rw [controlMoves] at hm
    split at hm
    · simp at hm
    · rw [List.mem_singleton] at hm
      subst hm
      exact ends s .stopped none

theorem sent_caller {i : CallerId} {phase : CallPhase} (hm : m ∈ s.callerMoves i phase) :
    m.2.filterMap Notice.sent? = [] := by
  cases callerWay_of_mem hm <;> rfl

/-! ### All tasks -/

/-- **A move tells of the frame that it notes as written, and of no other.** -/
theorem sent_of_move (hm : m ∈ s.moves t) : m.2.filterMap Notice.sent? =
    (s.marked? (.move t)).toList.map fun e => e.2.envelope := by
  cases t with
  | writer r =>
    rw [moves] at hm
    split at hm
    · next hr => exact (noted_writer hr hm).2.2
    · simp at hm
  | control i =>
    rw [moves] at hm
    split at hm
    · exact (asides_control i _ m hm).sent
    · simp at hm
  | reader r =>
    rw [moves] at hm
    split at hm
    · exact (callers_reader hm).2
    · simp at hm
  | scanner r =>
    rw [moves] at hm
    split at hm
    · exact (callers_scanner hm).2
    · simp at hm
  | caller i =>
    rw [moves] at hm
    split at hm
    · exact sent_caller hm
    · simp at hm

/-- **Callers come further by their own moves.** -/
theorem callers_of_move (hm : m ∈ s.moves t) (ht : ∀ i, t ≠ .caller i) :
    m.1.callers = s.callers := by
  cases t with
  | writer r =>
    rw [moves] at hm
    split at hm
    · next hr => exact (noted_writer hr hm).2.1
    · simp at hm
  | control i =>
    rw [moves] at hm
    split at hm
    · exact (asides_control i _ m hm).callers
    · simp at hm
  | reader r =>
    rw [moves] at hm
    split at hm
    · exact (callers_reader hm).1
    · simp at hm
  | scanner r =>
    rw [moves] at hm
    split at hm
    · exact (callers_scanner hm).1
    · simp at hm
  | caller i => exact absurd rfl (ht i)

end Session

end ZoneBus
