import ZoneBus.Proofs.Session.Frames

/-!
# Who tells of a reply

Many things end a request, but nearly all of them tell of a failure.  A request ends with a
reply in two moves only: when a reader takes something out of the decoder, and when a writer
notes that a frame was written.

## Main definitions

* `Session.inbound?`, `Session.heard?` — what a reader takes out of the decoder, and the
  message in it.
* `Session.Mute` — no request ends with a reply.

## Main results

* `Session.tells_of_happens` — **who tells of a reply.**
-/

namespace ZoneBus

namespace Session

/-- What the move of a reader takes out of the decoder. -/
def inbound? (s : Session) : Occurrence → Option FrameResult
  | .move (.reader r) => (s.runs.find? r).bind fun run =>
    match run.reader with
    | .handling => run.decoder.next.1
    | _ => none
  | _ => none

/-- The message in what the move of a reader takes. -/
def heard? (s : Session) (o : Occurrence) : Option Envelope :=
  match s.inbound? o with
  | some (.ok frame) => (Envelope.ofFrame frame).toOption
  | _ => none

/-- No request ends with a reply. -/
def Mute (s s' : Session) : Prop :=
  ∀ id reply, (id, .success reply) ∈ s'.delivered → (id, .success reply) ∈ s.delivered

variable {s s' s'' : Session}

/-! ### Most things tell of failures only -/

theorem Mute.refl (s : Session) : Mute s s := fun _ _ hm => hm

theorem Mute.trans (h : Mute s s') (h' : Mute s' s'') : Mute s s'' :=
  fun id reply hm => h id reply (h' id reply hm)

theorem mute_of_eq (h : s'.delivered = s.delivered) : Mute s s' := by
  intro id reply hm
  rwa [h] at hm

/-- A task has one move, by which nobody is told of anything. -/
theorem mute_of_mem {m n : Session × List Notice} (h : m ∈ [n])
    (hd : n.1.delivered = s.delivered) : Mute s m.1 := by
  obtain rfl := List.mem_singleton.mp h
  exact mute_of_eq hd

/-- What is settled are failures. -/
theorem mute_settle {settled : List Settled} (t : PendingTable)
    (h : PendingTable.Fails settled) : Mute s ({ s with pending := t }.deliver settled) := by
  intro id reply hm
  have hm : (id, .success reply) ∈ s.delivered ++ outcomesOf settled := hm
  refine (List.mem_append.mp hm).resolve_right fun hm => ?_
  obtain ⟨error, he⟩ := h id _ hm
  cases he

theorem mute_withdraw (s : Session) (id : RequestId) (error : SessionError) :
    Mute s (s.withdraw id error).2 :=
  mute_settle _ (PendingTable.fails_cancel s.pending id error)

/-- Nobody is told when a request is registered. -/
theorem outcomesOf_insert (t : PendingTable) (r : PendingRequest) :
    outcomesOf (t.insert r).1 = [] := by
  unfold PendingTable.insert
  dsimp only
  split <;> rfl

theorem delivered_registered (s : Session) (request : PendingRequest) :
    (s.registered request).delivered = s.delivered := by
  show s.delivered ++ outcomesOf (s.pending.insert request).1 = s.delivered
  rw [outcomesOf_insert, List.append_nil]

theorem mute_enqueue (s : Session) (target : Address) (message : Message) (priority : Priority) :
    Mute s (s.enqueue target message priority).2 := by
  rcases s.enqueue_cases target message priority with
    ⟨e, he⟩ | ⟨bytes, _, ⟨queue, _, he⟩ | ⟨_, he⟩⟩
  · rw [he]
    exact .refl s
  · rw [he]
    exact mute_of_eq (delivered_registered s _)
  · rw [he]
    exact (mute_of_eq (delivered_registered s _)).trans (mute_withdraw _ _ _)

theorem mute_send (s : Session) (target : Address) (message : Message) (priority : Priority) :
    Mute s (s.send target message priority).2 := by
  unfold send
  split
  · exact mute_enqueue s target message priority
  · exact .refl s

theorem mute_cancelAll (ids : List RequestId) : ∀ s : Session, Mute s (s.cancelAll ids) := by
  induction ids with
  | nil => exact fun s => .refl s
  | cons id ids ih => exact fun s => (mute_withdraw s id .cancelled).trans (ih _)

theorem mute_scan (s : Session) : Mute s s.scan := by
  have hand : ∀ (results : List Expiry) (v : Session), Mute v (results.foldl handOn v) := by
    intro results
    induction results with
    | nil => exact fun v => .refl v
    | cons e results ih =>
      intro v
      refine Mute.trans ?_ (ih _)
      cases e with
      | resend frame priority attempt =>
        rw [handOn]
        split
        · exact mute_of_eq rfl
        · exact mute_withdraw v frame.id .cancelled
      | timedOut id attempts => exact .refl v
  exact (mute_settle _ (PendingTable.fails_expire s.pending s.now)).trans (hand _ _)

theorem delivered_enter (s : Session) (state : SessionState) :
    (s.enter state).1.delivered = s.delivered := by
  rw [enter_fst]

theorem mute_takeDown (s : Session) (r : RunId) (error : SessionError) :
    Mute s (s.takeDown r error).2.1 := by
  intro id reply hm
  rw [(takeDown_eq s r error).2] at hm
  refine (List.mem_append.mp hm).resolve_right fun hm => ?_
  obtain ⟨_, _, he⟩ := List.mem_map.mp hm
  cases he

/-- A task waits for a call of the link. -/
theorem mute_teardown {t : TaskId} {teardown : Teardown}
    (h : s.TeardownWay t teardown s') : Mute s s' := by
  have exited : ∀ (v : Session), (v.exitTask t).delivered = v.delivered := fun v => by
    obtain ⟨runs, he⟩ := exitTask_eq v t
    rw [he]
  cases h with
  | late => exact mute_of_eq (exited _)
  | @takes cause r =>
    obtain ⟨runs, he⟩ := putTeardown_eq (s.takenDown t r (.connection cause)) t
      (.closing s.link.nextCall)
    refine (mute_takeDown (s.releaseLifecycle t) r (.connection cause)).trans (mute_of_eq ?_)
    rw [he]
    rfl
  | waits => exact mute_of_eq rfl
  | ends => exact mute_of_eq ((exited _).trans (delivered_enter _ .stopped))

/-! ### Tasks -/

theorem mute_control {i : ControlId} {phase : Control} (h : s.ControlWay i phase s') :
    Mute s s' := by
  cases h with
  | begins => exact mute_of_eq (delivered_enter s .starting)
  | @fails _ link => exact mute_of_eq (delivered_enter { s with link := link } .stopped)
  | @installs r => exact mute_of_eq (delivered_enter { s with running := some r } .started)
  | takes =>
    exact (mute_takeDown (s.releaseLifecycle (.control i)) _ _).trans (mute_of_eq rfl)
  | joins => exact mute_of_eq (delivered_enter s .stopped)
  | _ => exact mute_of_eq rfl

theorem mute_beginSend (s : Session) (i : CallerId) (target : Address) (message : Message)
    (priority : Priority) (phase : RequestId → CallPhase) :
    Mute s (s.beginSend i target message priority phase).1 := by
  have hs := mute_send s target message priority
  rw [beginSend]
  split
  · next heq =>
    rw [heq] at hs
    exact hs.trans (mute_of_eq rfl)
  · next heq =>
    rw [heq] at hs
    exact hs.trans (mute_of_eq rfl)

theorem mute_caller {i : CallerId} {phase : CallPhase} {m : Session × List Notice}
    (h : m ∈ s.callerMoves i phase) : Mute s m.1 := by
  cases callerWay_of_mem h with
  | ends | waits => exact mute_of_eq rfl
  | @sends target priority p _ _ _ _ heq =>
    have hs := mute_send s target (.setData p) priority
    rw [heq] at hs
    exact hs.trans (mute_of_eq rfl)
  | @fails target priority p _ made _ _ heq =>
    have hs := mute_send s target (.setData p) priority
    rw [heq] at hs
    exact (hs.trans (mute_cancelAll made _)).trans (mute_of_eq rfl)
  | @withdraws id => exact (mute_withdraw s id .cancelled).trans (mute_of_eq rfl)

theorem mute_apply (s : Session) (i : Input) : Mute s (s.apply i) := by
  cases i with
  | send target message priority => exact mute_send s target message priority
  | cancel id => exact mute_withdraw s id .cancelled
  | event i target path id priority => exact mute_beginSend s _ _ _ _ _
  | read i target path refresh =>
    rw [apply, beginRead]
    split
    · exact mute_of_eq rfl
    · exact mute_beginSend s _ _ _ _ _
  | write i target path value priority =>
    rw [apply, beginWrite]
    split
    · exact mute_of_eq rfl
    · exact mute_of_eq rfl
  | start => exact mute_of_eq rfl
  | stop => exact mute_of_eq rfl
  | await i id => exact mute_of_eq rfl
  | subscribe target path => exact mute_of_eq rfl
  | unsubscribe id => exact mute_of_eq rfl
  | forget target path => exact mute_of_eq rfl
  | farEnd line connects => exact mute_of_eq rfl
  | pass t => exact mute_of_eq rfl
  | skipScans t => exact mute_of_eq rfl

theorem mute_scanner {r : RunId} {run : Run} {m : Session × List Notice}
    (h : m ∈ s.scannerMoves r run) : Mute s m.1 := by
  rw [scannerMoves] at h
  split at h
  · rw [List.mem_append] at h
    rcases h with h | h
    · split at h
      · exact mute_of_mem h rfl
      · cases h
    · split at h
      · rw [List.mem_singleton] at h
        subst h
        exact (mute_scan s).trans (mute_of_eq rfl)
      · cases h
  · cases h

/-- A reader tells of no reply, unless it takes something out of the decoder. -/
theorem mute_reader {r : RunId} {run : Run} {m : Session × List Notice}
    (hr : s.runs.find? r = some run) (h : m ∈ s.readerMoves r run) :
    (s.inbound? (.move (.reader r)) = none ∧ Mute s m.1) ∨
      ∃ result decoder, s.inbound? (.move (.reader r)) = some result ∧
        m.1 = ((s.modifyRun r fun run => { run with decoder := decoder }).handle result).1 := by
  have hway := readerWay_of_mem h
  have hin : s.inbound? (.move (.reader r)) =
      match run.reader with
      | .handling => run.decoder.next.1
      | _ => none := by
    rw [inbound?, hr]
    rfl
  generalize m.1 = s' at hway ⊢
  generalize run.reader = phase at hway hin
  cases hway with
  | rests hnext => exact Or.inl ⟨by rw [hin, hnext], mute_of_eq rfl⟩
  | @handles result decoder hnext => exact Or.inr ⟨result, decoder, by rw [hin, hnext], rfl⟩
  | reacts hway => exact Or.inl ⟨hin, mute_teardown hway⟩
  | _ => exact Or.inl ⟨hin, mute_of_eq rfl⟩

/-- A writer tells of no reply, unless it notes that a frame was written. -/
theorem mute_writer {r : RunId} {run : Run} {m : Session × List Notice}
    (h : m ∈ s.writerMoves r run) :
    Mute s m.1 ∨ ∃ frame, run.writer = .marking frame ∧
      m.1 = (s.noteWritten frame).1.setWriter r .popping := by
  have hway := writerWay_of_mem h
  generalize m.1 = s' at hway ⊢
  generalize run.writer = phase at hway ⊢
  cases hway with
  | @notes frame => exact Or.inr ⟨frame, rfl, rfl⟩
  | reacts hway => exact Or.inl (mute_teardown hway)
  | _ => exact Or.inl (mute_of_eq rfl)

/-- **Who tells of a reply**: a reader that takes something out of the decoder, or a writer
that notes that a frame was written. -/
theorem tells_of_happens {o : Occurrence} (h : Happens s o s') :
    (s.inbound? o = none ∧ Mute s s') ∨
    (∃ r result decoder, o = .move (.reader r) ∧ s.inbound? o = some result ∧
      s' = ((s.modifyRun r fun run => { run with decoder := decoder }).handle result).1) ∨
    ∃ r run frame, o = .move (.writer r) ∧ s.runs.find? r = some run ∧
      run.writer = .marking frame ∧ s' = (s.noteWritten frame).1.setWriter r .popping := by
  cases h with
  | input i => exact Or.inl ⟨rfl, mute_apply s i⟩
  | @move _ t _ h =>
    cases t with
    | control i =>
      rw [moves] at h
      split at h
      · exact Or.inl ⟨rfl, mute_control (controlWay_of_mem h)⟩
      · cases h
    | reader r =>
      rw [moves] at h
      split at h
      · next hr =>
        rcases mute_reader hr h with hm | ⟨result, decoder, hin, hs⟩
        · exact Or.inl hm
        · exact Or.inr (Or.inl ⟨r, result, decoder, rfl, hin, hs⟩)
      · cases h
    | writer r =>
      rw [moves] at h
      split at h
      · next run hr =>
        rcases mute_writer h with hm | ⟨frame, hph, hs⟩
        · exact Or.inl ⟨rfl, hm⟩
        · exact Or.inr (Or.inr ⟨r, run, frame, rfl, hr, hph, hs⟩)
      · cases h
    | scanner r =>
      rw [moves] at h
      split at h
      · exact Or.inl ⟨rfl, mute_scanner h⟩
      · cases h
    | caller i =>
      rw [moves] at h
      split at h
      · exact Or.inl ⟨rfl, mute_caller h⟩
      · cases h

end Session

end ZoneBus
