import ZoneBus.Proofs.Session.Retries

/-!
# Written out

A writer notes that a frame was written, and the session takes its word for it.  The word
is good: the link was asked to write the bytes of just this frame, and the call that it was
asked with has ended as it was asked to.  Both lie in the past of whoever holds the frame,
so this is an invariant of the writers' hands and of everything that has happened.

## Main definitions

* `Session.Moment`, `Session.moments` — everything that happened, with the sessions before
  and after it.
* `Session.Asked`, `Session.WrittenOut` — the link was asked to write a frame, and did.
* `Session.KeepsHands` — no writer comes further with a frame that it writes.
* `Session.Handed` — what is said of the frames in the writers' hands is true.

## Main results

* `Session.hands_of_happens` — how a writer comes further with a frame.
* `Session.writtenOut_of_marking` — **what is noted as written was written.**
-/

namespace ZoneBus

namespace Session

/-! ### Moments -/

/-- One thing that happened. -/
structure Moment where
  /-- The session before. -/
  before : Session
  /-- What happened. -/
  what : Occurrence
  /-- The session after. -/
  after : Session

/-- Everything that happened up to a session, the latest first. -/
def moments : List (Session × Occurrence) → Session → List Moment
  | [], _ => []
  | (v, o) :: earlier, s => ⟨v, o, s⟩ :: moments earlier v

/-- What came before a moment is a history of its own, and so is what came after. -/
theorem History.exists_of_moments {s₀ s : Session} {past : List (Session × Occurrence)}
    (h : History s₀ past s) : ∀ {later earlier : List Moment} {m : Moment},
    moments past s = later ++ m :: earlier →
      Happens m.before m.what m.after ∧ ∃ past' past'', History s₀ past' m.before ∧
        earlier = moments past' m.before ∧ History m.after past'' s := by
  induction h with
  | nil =>
    intro later earlier m he
    exact absurd he.symm (List.append_ne_nil_of_right_ne_nil later (List.cons_ne_nil _ _))
  | @cons v s past o h ho ih =>
    intro later earlier m he
    cases later with
    | nil =>
      obtain ⟨rfl, rfl⟩ := List.cons.inj he
      exact ⟨ho, past, [], h, rfl, .nil _⟩
    | cons m' later =>
      obtain ⟨hm, past', past'', h', he, h''⟩ := ih (List.cons.inj he).2
      exact ⟨hm, past', _, h', he, .cons h'' ho⟩

/-! ### What the link was asked -/

/-- The link was asked to write the bytes of a frame, with this call. -/
def Asked (ms : List Moment) (frame : OutboundFrame) (c : CallId) : Prop :=
  ∃ m ∈ ms, m.before.link.nextCall = c ∧
    m.after.link = (m.before.link.begin (.send frame.bytes)).2

/-- The link was asked to write the bytes of a frame, and the call has ended well; no two
calls have the same number. -/
def WrittenOut (ms : List Moment) (frame : OutboundFrame) : Prop :=
  ∃ c, Asked ms frame c ∧ ∃ m ∈ ms, ∃ events,
    (m.after.link, events) ∈ m.before.link.moves c ∧ resultOf? c events = some .done

variable {ms : List Moment} {frame : OutboundFrame} {c : CallId} {s s' s'' : Session}

theorem Asked.cons (h : Asked ms frame c) (m : Moment) : Asked (m :: ms) frame c := by
  obtain ⟨b, hb, h⟩ := h
  exact ⟨b, List.mem_cons_of_mem m hb, h⟩

theorem WrittenOut.cons (h : WrittenOut ms frame) (m : Moment) : WrittenOut (m :: ms) frame := by
  obtain ⟨c, hc, e, he, h⟩ := h
  exact ⟨c, hc.cons m, e, List.mem_cons_of_mem m he, h⟩

/-! ### Most things leave the hands alone -/

/-- Whoever writes a frame, or has written it, did so before. -/
def KeepsHands (s s' : Session) : Prop :=
  ∀ r run', s'.runs.find? r = some run' → run'.writer.sent? = none ∨
    ∃ run, s.runs.find? r = some run ∧ run.writer = run'.writer

namespace KeepsHands

theorem of_eq (h : s'.runs = s.runs) : KeepsHands s s' := by
  intro r run hr
  rw [h] at hr
  exact Or.inr ⟨run, hr, rfl⟩

theorem trans (h : KeepsHands s s') (h' : KeepsHands s' s'') : KeepsHands s s'' := by
  intro r run'' hr
  rcases h' r run'' hr with hnone | ⟨run', hr', he⟩
  · exact Or.inl hnone
  · rw [← he]
    exact h r run' hr'

theorem modifyRun (s : Session) (r : RunId) {f : Run → Run}
    (hf : ∀ run, (f run).writer.sent? = none ∨ (f run).writer = run.writer) :
    KeepsHands s (s.modifyRun r f) := by
  intro r' run' hr'
  rw [find?_modifyRun] at hr'
  split at hr'
  · obtain ⟨run, hr, rfl⟩ := Option.map_eq_some_iff.mp hr'
    exact (hf run).imp_right fun he => ⟨run, hr, he.symm⟩
  · exact Or.inr ⟨run', hr', rfl⟩

theorem setWriter (s : Session) (r : RunId) {phase : WriterPhase} (h : phase.sent? = none) :
    KeepsHands s (s.setWriter r phase) :=
  modifyRun s r fun _ => Or.inl h

theorem putTeardown (s : Session) (t : TaskId) (teardown : Teardown) :
    KeepsHands s (s.putTeardown t teardown) := by
  cases t with
  | reader r => exact modifyRun s r fun _ => Or.inr rfl
  | writer r => exact setWriter s r rfl
  | control i => exact of_eq rfl
  | scanner r => exact of_eq rfl
  | caller i => exact of_eq rfl

theorem exitTask (s : Session) (t : TaskId) : KeepsHands s (s.exitTask t) := by
  cases t with
  | reader r => exact modifyRun s r fun _ => Or.inr rfl
  | writer r => exact setWriter s r rfl
  | control i => exact of_eq rfl
  | scanner r => exact of_eq rfl
  | caller i => exact of_eq rfl

theorem takenDown (s : Session) (t : TaskId) (r : RunId) (error : SessionError) :
    KeepsHands s (s.takenDown t r error) := by
  rw [takenDown_eq]
  exact (modifyRun s r (f := fun run => { run with cancelled := true })
    fun _ => Or.inr rfl).trans (of_eq rfl)

end KeepsHands

theorem keepsHands_minor (h : Minor s s') : KeepsHands s s' := by
  cases h with
  | aside => exact .of_eq rfl
  | skips t =>
    intro r run' hr
    rw [find?_scanFrom, Option.map_eq_some_iff] at hr
    obtain ⟨run, hr, rfl⟩ := hr
    exact Or.inr ⟨run, hr, rfl⟩
  | @reads r _ f _ _ hkeep _ => exact .modifyRun s r fun run => Or.inr (hkeep run).2
  | queues => exact .of_eq rfl
  | enqueues target message priority _ =>
    obtain ⟨_, _, _, _, he⟩ := s.trafficOnly_enqueue target message priority
    exact .of_eq (by rw [he])
  | withdraws => exact .of_eq rfl
  | resolves => exact .of_eq rfl

theorem keepsHands_minors (h : Minors s s') : KeepsHands s s' := by
  induction h with
  | refl => exact .of_eq rfl
  | tail _ hm ih => exact ih.trans (keepsHands_minor hm)

/-- Starts, stops and faults let no writer write. -/
theorem keepsHands_governs {o : Occurrence} (h : Governs s o s') : KeepsHands s s' := by
  cases h with
  | asksStart => exact .of_eq rfl
  | asksStop => exact .of_eq rfl
  | refuses => exact .of_eq rfl
  | startBegins => rw [enter_fst]; exact .of_eq rfl
  | startFails => rw [enter_fst]; exact .of_eq rfl
  | spawns =>
    intro r run hr
    change (s.runs.put (s.runIds.given + 1) _).find? r = some run at hr
    rw [Directory.find?_put] at hr
    split at hr
    · obtain rfl := Option.some.inj hr
      exact Or.inl rfl
    · exact Or.inr ⟨run, hr, rfl⟩
  | startEnds => rw [enter_fst]; exact .of_eq rfl
  | @stopBegins i r => exact (KeepsHands.takenDown s (.control i) r .cancelled).trans (.of_eq rfl)
  | stopJoins => exact .of_eq rfl
  | stopEnds => rw [enter_fst]; exact .of_eq rfl
  | @faultBegins t cause r =>
    exact (KeepsHands.takenDown s t r (.connection cause)).trans (.putTeardown _ t _)
  | @faultLate t =>
    have hfree : KeepsHands s (s.releaseLifecycle t) := .of_eq rfl
    exact hfree.trans (.exitTask _ t)
  | @faultEnds t =>
    rw [enter_fst]
    have hstops : KeepsHands s { s with state := .stopped } := .of_eq rfl
    exact hstops.trans (.exitTask _ t)

/-! ### How a writer comes further -/

/-- A writer that has written a frame was writing it, and the call has ended well. -/
theorem done_of_marking {r : RunId} {run run' : Run} {written : OutboundFrame}
    (hr : s.runs.find? r = some run) (hph : run.writer = .sending frame c)
    (h : Happens s (.move (.writer r)) s') (hr' : s'.runs.find? r = some run')
    (hph' : run'.writer = .marking written) :
    ∃ events, (s'.link, events) ∈ s.link.moves c ∧ resultOf? c events = some .done := by
  obtain ⟨hm⟩ := h
  rw [moves, hr] at hm
  have hway := writerWay_of_mem hm
  rw [hph] at hway
  -- in no other case does the writer come to note anything
  have other : ∀ (v : Session) (phase : WriterPhase), v.runs = s.runs →
      (∀ f, phase ≠ .marking f) → (v.setWriter r phase).runs.find? r = some run' → False := by
    intro v phase hv hne he
    rw [setWriter, find?_modifyRun, if_pos rfl, hv, hr] at he
    obtain rfl := Option.some.inj he
    exact hne _ hph'
  cases hway with
  | drops => exact (other (s.abortLink c) .exited rfl (by simp) hr').elim
  | waits =>
    obtain rfl := Option.some.inj (hr.symm.trans hr')
    rw [hph] at hph'
    cases hph'
  | writes hmem hres => exact ⟨_, hmem, hres⟩
  | @ends _ _ link => exact (other { s with link := link } .exited rfl (by simp) hr').elim
  | @breaks _ _ link _ error =>
    exact (other { s with link := link } (.faulting (.locking error)) rfl (by simp) hr').elim

/-- Only the writer whose phase is noted comes further. -/
theorem find?_setWriter {r r' : RunId} {phase : WriterPhase} {run' : Run}
    (h : (s.setWriter r phase).runs.find? r' = some run') :
    s.runs.find? r' = some run' ∨ r = r' ∧ run'.writer = phase := by
  rw [setWriter, find?_modifyRun] at h
  split at h
  · next he =>
    obtain ⟨run, _, rfl⟩ := Option.map_eq_some_iff.mp h
    exact Or.inr ⟨he, rfl⟩
  · exact Or.inl h

/-- **How a writer comes further with a frame**: the link is asked to write its bytes, or
the call that wrote them ends well, or nobody comes further. -/
theorem hands_of_happens {o : Occurrence} (h : Happens s o s') {r : RunId} {run' : Run}
    (hr' : s'.runs.find? r = some run') :
    (run'.writer.sent? = none ∨ ∃ run, s.runs.find? r = some run ∧ run.writer = run'.writer) ∨
    (∃ frame, run'.writer = .sending frame s.link.nextCall ∧
      s'.link = (s.link.begin (.send frame.bytes)).2) ∨
    ∃ frame c run events, run'.writer = .marking frame ∧ s.runs.find? r = some run ∧
      run.writer = .sending frame c ∧ (s'.link, events) ∈ s.link.moves c ∧
        resultOf? c events = some .done := by
  have kept : ∀ {s'}, KeepsHands s s' → s'.runs.find? r = some run' →
      run'.writer.sent? = none ∨
        ∃ run, s.runs.find? r = some run ∧ run.writer = run'.writer :=
    fun hkeeps hr' => hkeeps r run' hr'
  cases deed_of_happens h with
  | @notes r' run frame hr hph =>
    have hnote : KeepsHands s (s.noteWritten frame).1 := .of_eq rfl
    exact Or.inl (kept (hnote.trans (.setWriter _ r' rfl)) hr')
  | @writes v r' link lifecycleLock hw _ =>
    cases hw with
    | @pops run frame queue hr hph hp =>
      have hpop : KeepsHands s { s with queue := queue } := .of_eq rfl
      exact Or.inl (kept (hpop.trans ((KeepsHands.setWriter _ r' rfl).trans (.of_eq rfl))) hr')
    | @sends run frame hr hph hc =>
      rcases find?_setWriter (s := (s.beginLink (.send frame.bytes)).2) hr' with hr' | ⟨_, he⟩
      · exact Or.inl (Or.inr ⟨run', hr', rfl⟩)
      · have hbegun : s.begun? (.move (.writer r')) = some frame := by
          rw [begun?, hr, Option.bind_some, hph]
          exact if_pos hc
        exact Or.inr (Or.inl ⟨frame, he, link_of_begun hbegun h⟩)
    | drops => exact Or.inl (kept ((KeepsHands.setWriter s r' rfl).trans (.of_eq rfl)) hr')
    | @writes run frame c hr hph =>
      rcases find?_setWriter (s := s) hr' with hr₀ | ⟨rfl, he⟩
      · exact Or.inl (Or.inr ⟨run', hr₀, rfl⟩)
      · obtain ⟨events, hmem, hres⟩ := done_of_marking hr hph h hr' he
        exact Or.inr (Or.inr ⟨frame, c, run, events, he, hr, hph, hmem, hres⟩)
    | breaks => exact Or.inl (kept ((KeepsHands.setWriter s r' rfl).trans (.of_eq rfl)) hr')
    | leaves => exact Or.inl (kept ((KeepsHands.setWriter s r' rfl).trans (.of_eq rfl)) hr')
  | @looks r' run next hr hph =>
    have hscan : KeepsHands s s.scan := .of_eq s.runs_scan
    have hnext := KeepsHands.modifyRun s.scan r' (f := fun run => { run with nextScan := next run })
      fun _ => Or.inr rfl
    exact Or.inl (kept (hscan.trans hnext) hr')
  | minor _ hm => exact Or.inl (kept (keepsHands_minors hm) hr')
  | governs link _ _ hg =>
    have hlink : KeepsHands s { s with link := link } := .of_eq rfl
    exact Or.inl (kept (hlink.trans (keepsHands_governs hg)) hr')

/-! ### What is in hand -/

/-- What is said of the frames in the writers' hands is true: for one that is being
written the link was asked with the call that the writer waits for, and one that is to be
noted was written out. -/
def Handed (ms : List Moment) (s : Session) : Prop :=
  ∀ r run, s.runs.find? r = some run →
    (∀ frame c, run.writer = .sending frame c → Asked ms frame c) ∧
      ∀ frame, run.writer = .marking frame → WrittenOut ms frame

/-- Whatever happens keeps what is said of the hands true. -/
theorem handed_happens {o : Occurrence} (h : Handed ms s) (ho : Happens s o s') :
    Handed (⟨s, o, s'⟩ :: ms) s' := by
  intro r run' hr'
  rcases hands_of_happens ho hr' with
    (hnone | ⟨run, hr, he⟩) | ⟨frame, he, hlink⟩ |
      ⟨frame, c, run, events, he, hr, hph, hmem, hres⟩
  · constructor
    · intro frame c he
      rw [he] at hnone
      cases hnone
    · intro frame he
      rw [he] at hnone
      cases hnone
  · rw [← he]
    exact ⟨fun frame c hph => ((h r run hr).1 frame c hph).cons _,
      fun frame hph => ((h r run hr).2 frame hph).cons _⟩
  · constructor
    · intro frame' c he'
      obtain ⟨rfl, rfl⟩ := WriterPhase.sending.inj (he.symm.trans he')
      exact ⟨_, List.mem_cons_self, rfl, hlink⟩
    · intro frame' he'
      rw [he] at he'
      cases he'
  · constructor
    · intro frame' c he'
      rw [he] at he'
      cases he'
    · intro frame' he'
      obtain rfl := WriterPhase.marking.inj (he.symm.trans he')
      exact ⟨c, ((h r run hr).1 frame c hph).cons _, _, List.mem_cons_self, events, hmem, hres⟩

theorem handed_of_history {config : SessionConfig} {link : Link}
    {past : List (Session × Occurrence)} (h : History (fresh config link) past s) :
    Handed (moments past s) s := by
  induction h with
  | nil =>
    intro r run hr
    cases hr
  | cons _ ho ih => exact handed_happens ih ho

/-- **What is noted as written was written**: the link was asked to write the bytes of the
frame, and the call has ended well. -/
theorem writtenOut_of_marking {config : SessionConfig} {link : Link}
    {past : List (Session × Occurrence)} (h : History (fresh config link) past s) {r : RunId}
    {run : Run} (hr : s.runs.find? r = some run) (hph : run.writer = .marking frame) :
    WrittenOut (moments past s) frame :=
  (handed_of_history h r run hr).2 frame hph

end Session

end ZoneBus
