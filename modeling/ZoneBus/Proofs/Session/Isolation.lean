import ZoneBus.Proofs.Session.Copies
import ZoneBus.Proofs.Session.Retries

/-!
# Runs and the tasks of the runs before

A run is told to end, and its tasks end when they come to see it; neither a fault nor the
next start waits for that.  So a run may be in charge while tasks of a run before it go on.
Until they have ended, two kinds of them can do it harm: a writer that waits for frames
takes one and may end with it, and a task that is in turn for the lifecycle lock because
of its own fault takes down whichever run is installed.  Once all of them have ended, no
task but its own moves for as long as the run stays in charge.

## Main definitions

* `TaskId.run?` — the run that a task belongs to.
* `Session.Harms` — a task of another run takes a frame out of the queue, or takes the run
  down.
* `Session.Threatened` — a task of another run has come so far that it may.

## Main results

* `Session.alone_happens` — where the tasks of all other runs have ended, they stay so.
* `Session.isolated_iff` — **a run can be harmed exactly when it is threatened, and is left
  to its own tasks once those of all other runs have ended.**
* `Session.exists_harmed` — a request lost, and a run taken down, by the run before.
-/

namespace ZoneBus

/-- The run that a task belongs to. -/
def TaskId.run? : TaskId → Option RunId
  | .reader r => some r
  | .writer r => some r
  | .scanner r => some r
  | .control _ => none
  | .caller _ => none

namespace Session

/-- A task of another run takes a frame out of the queue, or takes the run down. -/
def Harms (s : Session) (o : Occurrence) (s' : Session) (r : RunId) : Prop :=
  ∃ t r', o = .move t ∧ t.run? = some r' ∧ r' ≠ r ∧
    (s'.queue.toList.length < s.queue.toList.length ∨
      s.running = some r ∧ s'.running ≠ some r)

/-- A writer of another run waits for the frames that are there, or a task of another run
is in turn to react to its fault while the run is installed. -/
def Threatened (s : Session) (r : RunId) : Prop :=
  (∃ r' run, r' ≠ r ∧ s.runs.find? r' = some run ∧ run.writer = .popping ∧
    s.queue.closed = false ∧ s.queue.toList ≠ []) ∨
  ∃ t r' cause, t.run? = some r' ∧ r' ≠ r ∧ s.teardownOf? t = some (.locking cause) ∧
    s.holdsLifecycle t = true ∧ s.running = some r

variable {s s' v : Session} {r : RunId} {o : Occurrence}

/-! ### Runs whose tasks have all ended -/

/-- A task that moves belongs to a run that has not ended. -/
theorem exists_run_of_move {t : TaskId} {r' : RunId} (ho : Happens s (.move t) s')
    (ht : t.run? = some r') : ∃ run, s.runs.find? r' = some run ∧ run.hasExited = false := by
  obtain ⟨hm⟩ := ho
  cases t with
  | reader r =>
    cases ht
    rw [moves] at hm
    split at hm
    · next run hr =>
      refine ⟨run, hr, decide_eq_false fun hx => ?_⟩
      rw [readerMoves, hx.1] at hm
      cases hm
    · cases hm
  | writer r =>
    cases ht
    rw [moves] at hm
    split at hm
    · next run hr =>
      refine ⟨run, hr, decide_eq_false fun hx => ?_⟩
      rw [writerMoves, hx.2.1] at hm
      cases hm
    · cases hm
  | scanner r =>
    cases ht
    rw [moves] at hm
    split at hm
    · next run hr =>
      refine ⟨run, hr, decide_eq_false fun hx => ?_⟩
      rw [scannerMoves, hx.2.2] at hm
      cases hm
    · cases hm
  | control => cases ht
  | caller => cases ht

/-- Who reacts to a fault has not ended. -/
theorem Alone.of_reacts {t : TaskId} {teardown : Teardown} (h : s.Alone r)
    (ht : s.teardownOf? t = some teardown) : t = .reader r ∨ t = .writer r := by
  rcases teardownOf?_cases ht with ⟨r', run, rfl, hr, hph⟩ | ⟨r', run, rfl, hr, hph⟩
  · have hx : run.hasExited = false := decide_eq_false fun hx => by simp [hph] at hx
    exact Or.inl (congrArg TaskId.reader (h.eq hr hx))
  · have hx : run.hasExited = false := decide_eq_false fun hx => by simp [hph] at hx
    exact Or.inr (congrArg TaskId.writer (h.eq hr hx))

theorem Alone.of_runs (h : s.Alone r) (hruns : s'.runs = s.runs) : s'.Alone r := by
  intro r' run hne hr
  rw [hruns] at hr
  exact h r' run hne hr

/-- Taking a run away ends no task, and brings none back. -/
theorem Alone.takenDown (h : s.Alone r) (t : TaskId) (r' : RunId) (error : SessionError) :
    (s.takenDown t r' error).Alone r := by
  intro r'' run hne hr
  rw [takenDown_eq] at hr
  change (s.runs.modify r' fun run => { run with cancelled := true }).find? r'' = some run at hr
  rw [Directory.find?_modify] at hr
  split at hr
  · obtain ⟨run₀, hr₀, rfl⟩ := Option.map_eq_some_iff.mp hr
    exact h r'' run₀ hne hr₀
  · exact h r'' run hne hr

/-- A task of the run comes further. -/
theorem Alone.putTeardown {t : TaskId} {teardown : Teardown} (h : s.Alone r)
    (ht : t = .reader r ∨ t = .writer r) : (s.putTeardown t teardown).Alone r := by
  rcases ht with rfl | rfl
  · exact h.modifyRun _
  · exact h.modifyRun _

theorem Alone.exitTask {t : TaskId} (h : s.Alone r) (ht : t = .reader r ∨ t = .writer r) :
    (s.exitTask t).Alone r := by
  rcases ht with rfl | rfl
  · exact h.modifyRun _
  · exact h.modifyRun _

theorem alone_governs (h : s.Alone r) (hl : s.Lifecycle) (hc : s.InCharge r)
    (hg : Governs s o s') : s'.Alone r := by
  cases hg with
  | asksStart => exact h
  | asksStop => exact h
  | refuses => exact h
  | startBegins => exact h.of_runs (by rw [enter_fst]; rfl)
  | startFails => exact h.of_runs (by rw [enter_fst]; rfl)
  -- no run begins while one is in charge
  | spawns hi => cases hl.awaiting_of_inCharge hi rfl hc
  | startEnds => exact h.of_runs (by rw [enter_fst]; rfl)
  | @stopBegins i r' => exact h.takenDown (.control i) r' .cancelled
  | stopJoins => exact h
  | stopEnds => exact h.of_runs (by rw [enter_fst]; rfl)
  | faultBegins ht => exact (h.takenDown _ _ _).putTeardown (h.of_reacts ht)
  | faultLate ht => exact Alone.exitTask (h.of_runs rfl) (h.of_reacts ht)
  | faultEnds ht => exact Alone.exitTask (h.of_runs (by rw [enter_fst])) (h.of_reacts ht)

/-- **While a run is in charge and the tasks of the others have ended, they stay so.** -/
theorem alone_happens (ho : Happens s o s') (hl : s.Lifecycle) (hc : s.InCharge r)
    (h : s.Alone r) : s'.Alone r := by
  rcases happens_cases ho with ⟨r', run, frame, _, hr, hph, rfl⟩ | ⟨_, hw | ⟨link, _, hg⟩⟩
  · obtain rfl := h.eq hr (not_exited_of_writer (by rw [hph]; simp))
    have hnoted : (s.noteWritten frame).1.Alone r' := h
    exact hnoted.modifyRun _
  · exact alone_worked h hw
  · exact alone_governs (s := { s with link := link }) h (hl.withLink link) hc hg

/-! ### What a task of another run can do -/

/-- A writer takes frames out of an open queue only. -/
theorem open_of_pops {r' : RunId} {run : Run} (ho : Happens s (.move (.writer r')) s')
    (hr : s.runs.find? r' = some run) (hw : run.writer = .popping)
    (hless : s'.queue.toList.length < s.queue.toList.length) : s.queue.closed = false := by
  obtain ⟨hm⟩ := ho
  rw [moves, hr] at hm
  have hway := writerWay_of_mem hm
  rw [hw] at hway
  cases hway with
  | leaves => exact absurd hless (Nat.lt_irrefl _)
  | takes hopen => exact hopen

/-- Of what governs a session, a task of a run does nothing to the queue and the installed
run unless it takes that one away. -/
theorem governs_of_run {t : TaskId} {r' : RunId} (hg : Governs s (.move t) s')
    (ht : t.run? = some r') :
    (∃ cause r, s.teardownOf? t = some (.locking cause) ∧ s.holdsLifecycle t = true ∧
      s.running = some r) ∨ s'.queue = s.queue ∧ s'.running = s.running := by
  cases hg with
  | refuses => cases ht
  | startBegins => cases ht
  | startFails => cases ht
  | spawns => cases ht
  | startEnds => cases ht
  | stopBegins => cases ht
  | stopJoins => cases ht
  | stopEnds => cases ht
  | faultBegins hlocking hlock hr => exact Or.inl ⟨_, _, hlocking, hlock, hr⟩
  | faultLate =>
    obtain ⟨runs, hexit⟩ := exitTask_eq (s.releaseLifecycle t) t
    rw [hexit]
    exact Or.inr ⟨rfl, rfl⟩
  | faultEnds =>
    obtain ⟨runs, hexit⟩ := exitTask_eq (s.enter .stopped).1 t
    rw [hexit, enter_fst]
    exact Or.inr ⟨rfl, rfl⟩

/-- Only who threatens a run harms it. -/
theorem threatened_of_harms (ho : Happens s o s') (hl : s.Lifecycle) (hc : s.InCharge r)
    (hh : s.Harms o s' r) : s.Threatened r := by
  obtain ⟨t, r', rfl, ht, hne, hharm⟩ := hh
  have shrinks : s'.running = s.running → s'.queue.toList.length < s.queue.toList.length :=
    fun hrun => hharm.resolve_right fun ⟨hr, hr'⟩ => hr' (hrun.trans hr)
  have harmless : s.queue.toList.length ≤ s'.queue.toList.length → s'.running = s.running →
      s.Threatened r := fun hle hrun => absurd (shrinks hrun) (Nat.not_lt.mpr hle)
  cases deed_of_happens ho with
  | notes => exact harmless (Nat.le_refl _) rfl
  | @writes v _ link lock hw hm =>
    cases ht
    obtain ⟨items, hext⟩ := extends_of_minors hm
    have hrun := (sameLifecycle_worked (.head (.writer hw) (Minors.worked hm))).running
    cases hw with
    | @pops run frame queue hr hph hp =>
      have hless := shrinks hrun
      refine Or.inl ⟨r', run, hne, hr, hph, open_of_pops ho hr hph hless, fun hnil => ?_⟩
      rw [hnil] at hless
      exact absurd hless (Nat.not_lt_zero _)
    | sends => exact harmless hext.length_le hrun
    | drops => exact harmless hext.length_le hrun
    | writes => exact harmless hext.length_le hrun
    | breaks => exact harmless hext.length_le hrun
    | leaves => exact harmless hext.length_le hrun
  | looks =>
    obtain ⟨items, hext⟩ := s.exists_extends_scan
    exact harmless hext.length_le (sameLifecycle_works .scans).running
  | minor _ hm =>
    obtain ⟨items, hext⟩ := extends_of_minors hm
    exact harmless hext.length_le (sameLifecycle_worked (Minors.worked hm)).running
  | governs link _ _ hg =>
    rcases governs_of_run hg ht with ⟨cause, r'', hlocking, hlock, hr⟩ | ⟨hqueue, hrun⟩
    · obtain rfl := hl.eq_of_inCharge hr hc
      refine Or.inr ⟨t, r', cause, ht, hne, ?_, hlock, hr⟩
      cases t <;> exact hlocking
    · exact harmless (Nat.le_of_eq (congrArg (fun q => q.toList.length) hqueue.symm)) hrun

/-- Who is in turn to react to a fault may take the installed run away. -/
theorem exists_takes_of_locking {t : TaskId} {cause : LinkError}
    (ht : s.teardownOf? t = some (.locking cause)) (hlock : s.holdsLifecycle t = true)
    (hr : s.running = some r) : ∃ s', Happens s (.move t) s' ∧ s'.running = none := by
  have takes : ∀ put exit, ∃ v teardown notices,
      (put v teardown, notices) ∈ s.teardownMoves t put exit (.locking cause) ∧
        v.running = none := by
    intro put exit
    rw [teardownMoves, if_pos hlock, hr]
    refine ⟨s.takenDown t r (.connection cause), _, _, List.mem_singleton_self _, ?_⟩
    rw [takenDown_eq]
  rcases teardownOf?_cases ht with ⟨r', run, rfl, hf, hph⟩ | ⟨r', run, rfl, hf, hph⟩
  · obtain ⟨v, teardown, notices, hm, hv⟩ := takes (fun s t => s.setReader r' (.faulting t))
      (fun s => s.setReader r' .exited)
    have hmove : (v.setReader r' (.faulting teardown), notices) ∈ s.moves (.reader r') := by
      rw [moves, hf]
      dsimp only
      rw [readerMoves, hph]
      exact hm
    exact ⟨_, .move hmove, hv⟩
  · obtain ⟨v, teardown, notices, hm, hv⟩ := takes (fun s t => s.setWriter r' (.faulting t))
      (fun s => s.setWriter r' .exited)
    have hmove : (v.setWriter r' (.faulting teardown), notices) ∈ s.moves (.writer r') := by
      rw [moves, hf]
      dsimp only
      rw [writerMoves, hph]
      exact hm
    exact ⟨_, .move hmove, hv⟩

/-- Who threatens a run may harm it next. -/
theorem exists_harms (h : s.Threatened r) : ∃ o s', Happens s o s' ∧ s.Harms o s' r := by
  rcases h with ⟨r', run, hne, hr, hw, hopen, hqueued⟩ |
    ⟨t, r', cause, ht, hne, hlocking, hlock, hr⟩
  · obtain ⟨frame, queue, hp⟩ := SendQueue.exists_tryPop hqueued
    have hm : ({ s with queue := queue }.setWriter r' (.checking frame), []) ∈
        s.moves (.writer r') := by
      rw [moves, hr]
      dsimp only
      rw [writerMoves, hw]
      dsimp only
      rw [hopen, if_neg Bool.false_ne_true, hp]
      exact List.mem_append_right _ (List.mem_singleton_self _)
    refine ⟨_, _, .move hm, .writer r', r', rfl, rfl, hne, Or.inl ?_⟩
    show queue.toList.length < s.queue.toList.length
    rw [(SendQueue.toList_of_tryPop hp).1]
    exact Nat.lt_succ_self _
  · obtain ⟨s', ho, hnone⟩ := exists_takes_of_locking hlocking hlock hr
    exact ⟨_, s', ho, t, r', rfl, ht, hne, Or.inr ⟨hr, by rw [hnone]; simp⟩⟩

/-! ### Histories -/

/-- Once the tasks of the other runs have ended, none of them moves while the run stays
in charge. -/
theorem alone_of_history {past : List (Session × Occurrence)} (h : History s past v)
    (hl : s.Lifecycle) (halone : s.Alone r) (hc : ∀ w ∈ past.map Prod.fst, w.InCharge r) :
    v.Lifecycle ∧ v.Alone r ∧ ∀ e ∈ past, ∀ t r', e.2 = .move t → t.run? = some r' → r' = r := by
  induction h with
  | nil => exact ⟨hl, halone, fun _ he => by cases he⟩
  | cons _ ho ih =>
    rw [List.map_cons, List.forall_mem_cons] at hc
    obtain ⟨hl, halone, hown⟩ := ih hc.2
    refine ⟨lifecycle_happens ho hl, alone_happens ho hl hc.1 halone, ?_⟩
    refine List.forall_mem_cons.mpr ⟨fun t r' he ht => ?_, hown⟩
    obtain rfl : _ = Occurrence.move t := he
    obtain ⟨run, hr, hx⟩ := exists_run_of_move ho ht
    exact halone.eq hr hx

/-- **A task of another run can harm a run in charge exactly when it threatens it, and once
the tasks of all other runs have ended, nothing is done for any other run** for as long as
the run stays in charge. -/
theorem isolated_iff {config : SessionConfig} {link : Link} {past : List (Session × Occurrence)}
    (h : History (fresh config link) past s) (hc : s.InCharge r) :
    ((∃ o s', Happens s o s' ∧ s.Harms o s' r) ↔ s.Threatened r) ∧
      (s.Alone r → ∀ later v, History s later v → (∀ w ∈ later.map Prod.fst, w.InCharge r) →
        v.Alone r ∧ ∀ e ∈ later, ∀ t r', e.2 = .move t → t.run? = some r' → r' = r) := by
  have hl := lifecycle_of_history h
  refine ⟨⟨fun ⟨o, s', ho, hh⟩ => threatened_of_harms ho hl hc hh, exists_harms⟩, ?_⟩
  intro halone later v hv hlater
  exact (alone_of_history hv hl halone hlater).2

/-- The far end breaks off. -/
def breaksOff : Cue := .input (.farEnd { Line.fresh none with inbound := [.endOfStream] } [])

/-- The reader of the first run meets a fault and goes all the way through it; the writer,
which waits for frames, is not there yet.  A second run is installed, and a message is sent. -/
def strayWriter : List Cue :=
  firstStart ++ breaksOff :: List.replicate 9 (.move (.reader 1) 0) ++
    .input .start :: List.replicate 5 (.move (.control 2) 0) ++
    [.move (.reader 2) 0, .move (.control 2) 0,
      .input (.send (.controllerAt 1) (.event (.plain .root 7 .low)) .low)]

/-- A reader that meets a fault while its run is being started, with a stop and another
start in turn for the lifecycle lock before it. -/
def strayFault : List Cue :=
  .input .start :: List.replicate 5 (.move (.control 1) 0) ++
    [.move (.reader 1) 0, .input .stop, .input .start, breaksOff] ++
    List.replicate 4 (.move (.reader 1) 0) ++ .move (.control 1) 0 ::
    List.replicate 5 (.move (.control 2) 0) ++ List.replicate 5 (.move (.control 3) 0) ++
    [.move (.reader 2) 0, .move (.control 3) 0]

theorem isolated_iff_strayWriter : ∃ past s, History (fresh {} (.fresh "" none [])) past s ∧
    s.InCharge 2 ∧ ∃ o s', Happens s o s' ∧ s.Harms o s' 2 := by
  obtain ⟨past, s, h, hrunning, hwriter, hopen, hqueued⟩ := exists_history
    (fresh {} (.fresh "" none [])) strayWriter
    (fun _ s => s.running = some 2 ∧ (s.runs.find? 1).map Run.writer = some .popping ∧
      s.queue.closed = false ∧ s.queue.toList ≠ []) (by decide +kernel)
  obtain ⟨run, hr, hw⟩ := Option.map_eq_some_iff.mp hwriter
  have hc : s.InCharge 2 := Or.inl hrunning
  exact ⟨past, s, h, hc, (isolated_iff h hc).1.mpr
    (Or.inl ⟨1, run, by decide, hr, hw, hopen, hqueued⟩)⟩

/-- **A run can be harmed by the one before.**  A request that was registered while run 2
was installed has neither a copy of its frame nor a deadline, since the writer of run 1
took the frame and ended; and the reader of run 1 takes run 2 down because of its own
fault. -/
theorem exists_harmed :
    (∃ past s, History (fresh {} (.fresh "" none [])) past s ∧
      ((∃ v ∈ past.map Prod.fst, v.running = some 2 ∧ v.pending.contains 1 = false) ∧
        s.running = some 2 ∧
        (s.pending.requests.find? 1).map PendingRequest.deadline = some none ∧
        s.copies 2 1 = [] ∧ (s.runs.find? 1).map Run.writer = some .exited)) ∧
    ∃ past v s, History (fresh {} (.fresh "" none [])) past v ∧ v.running = some 2 ∧
      Happens v (.move (.reader 1)) s ∧ s.running = none := by
  constructor
  · exact exists_history _ (strayWriter ++
      [.move (.writer 1) 1, .move (.writer 1) 0, .move (.writer 1) 0]) _ (by decide +kernel)
  · obtain ⟨past, v, h, hr, hlock, hlocking⟩ := exists_history
      (fresh {} (.fresh "" none [])) strayFault
      (fun _ v => v.running = some 2 ∧ v.holdsLifecycle (.reader 1) = true ∧
        v.teardownOf? (.reader 1) = some (.locking .closed)) (by decide +kernel)
    obtain ⟨s, ho, hnone⟩ := exists_takes_of_locking hlocking hlock hr
    exact ⟨past, v, s, h, hr, ho, hnone⟩

end Session

end ZoneBus
