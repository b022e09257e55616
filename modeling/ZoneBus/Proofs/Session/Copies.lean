import ZoneBus.Proofs.Session.Lifecycle
import ZoneBus.Proofs.Session.Placement

/-!
# One copy of every frame

While a run serves a session, every registered request has one copy of its frame,
queued or in the hand of the writer, or it has a deadline.  So no request is left
with neither a copy nor a deadline, and none is queued twice.

The invariant of a serving run says what makes that so: the run is installed or
about to be, the queue is open, and the writer goes on until it is told to end or
meets a fault.  It is the only writer who takes frames, since the tasks of earlier
runs have ended; one of those could otherwise take a frame and end with it.

## Main definitions

* `Session.lingers` — a task of another run has not ended.
* `Session.Serving` — what holds while a run serves the session.

## Main results

* `Session.serves_happens` — whatever happens keeps the invariant.
* `Session.one_copy_or_deadline` — **every registered request has one copy of its
  frame or a deadline.**
-/

namespace ZoneBus

namespace Session

/-! ### A run that serves -/

/-- A run is installed, or its start waits for the reader. -/
def InCharge (s : Session) (r : RunId) : Prop :=
  s.running = some r ∨ ∃ i, s.controls.find? i = some (.awaitingReader r)

/-- All tasks of the other runs have ended. -/
def Alone (s : Session) (r : RunId) : Prop :=
  ∀ r' run, r' ≠ r → s.runs.find? r' = some run → run.hasExited = true

/-- A run is there, and a task of another one has not ended. -/
def lingers (s : Session) (r : RunId) : Bool :=
  s.runs.contains r && s.runs.entries.any fun e => decide (e.1 ≠ r) && !e.2.hasExited

theorem alone_of_not_lingers {s : Session} {r : RunId} {run : Run} (h : s.lingers r = false)
    (hr : s.runs.find? r = some run) : s.Alone r := by
  intro r' run' hne hr'
  rw [lingers, Directory.contains, hr, Option.isSome_some, Bool.true_and, List.any_eq_false] at h
  have he := h (r', run') (Directory.mem_entries_of_find? hr')
  dsimp only at he
  rw [decide_eq_true hne, Bool.true_and, Bool.not_eq_true, Bool.not_eq_false'] at he
  exact he

/-- What holds while a run, whose writer has come this far, serves the session. -/
structure Serving (s : Session) (r : RunId) (phase : WriterPhase) : Prop where
  /-- The run is installed, or about to be. -/
  inCharge : s.InCharge r
  /-- Frames are taken. -/
  opened : s.queue.closed = false
  /-- The writer has not ended, nor closes the run down. -/
  alive : phase ≠ .exited ∧ ∀ c, phase ≠ .faulting (.closing c)
  /-- A writer that writes does so by a call that sends. -/
  sending : ∀ frame c, phase = .sending frame c → s.link.Sends c
  /-- Unless the writer met a fault, every request has its one copy, or a deadline. -/
  placed : (∀ teardown, phase ≠ .faulting teardown) →
    Placed (phase.hand?.toList ++ s.queue.toList) s.pending

/-- As long as a run is not to end, it serves the session. -/
def Serves (s : Session) (r : RunId) : Prop :=
  ∀ run, s.runs.find? r = some run → run.cancelled = false → s.Serving r run.writer

section Runs

variable {s s' v : Session} {r : RunId}

theorem serves_of_none (h : s.runs.find? r = none) : s.Serves r := by
  intro run hr
  rw [h] at hr
  cases hr

/-- Where nothing but the link moves on, a run goes on serving. -/
theorem Serves.of_eq (h : s.Serves r) (hc : s.InCharge r → s'.InCharge r)
    (hq : s'.queue = s.queue) (hp : s'.pending = s.pending) (hl : s.link.Keeps s'.link)
    (hruns : ∀ run', s'.runs.find? r = some run' → run'.cancelled = false →
      ∃ run, s.runs.find? r = some run ∧ run.cancelled = false ∧ run.writer = run'.writer) :
    s'.Serves r := by
  intro run' hr' hcan'
  obtain ⟨run, hr, hcan, hw⟩ := hruns run' hr' hcan'
  have old := h run hr hcan
  rw [hw] at old
  exact {
    inCharge := hc old.inCharge
    opened := by rw [hq]; exact old.opened
    alive := old.alive
    sending := fun frame c he => (old.sending frame c he).of_keeps hl
    placed := by rw [hq, hp]; exact old.placed }

/-- Requests and frames change together. -/
theorem Serves.of_traffic (h : s.Serves r) (ht : s.TrafficOnly s')
    (hopen : s.queue.closed = false → s'.queue.closed = false)
    (hplaced : ∀ hand, (∀ frame ∈ hand, s.Underway frame) → s.queue.closed = false →
      Placed (hand ++ s.queue.toList) s.pending → Placed (hand ++ s'.queue.toList) s'.pending) :
    s'.Serves r := by
  intro run hr hcan
  obtain ⟨queue, pending, delivered, requestIds, rfl⟩ := ht
  have old := h run hr hcan
  refine ⟨old.inCharge, hopen old.opened, old.alive, old.sending, fun hno => ?_⟩
  refine hplaced _ (fun frame hm => ?_) old.opened (old.placed hno)
  rw [Option.mem_toList] at hm
  exact Or.inr ⟨r, run, hr, hm⟩

/-- The writer comes to another phase. -/
theorem serves_setWriter {run : Run} {phase : WriterPhase} (hr : v.runs.find? r = some run)
    (h : run.cancelled = false → v.Serving r phase) : (v.setWriter r phase).Serves r := by
  intro run' hr' hcan
  rw [setWriter, find?_modifyRun, if_pos rfl, hr] at hr'
  obtain rfl := Option.some.inj hr'
  have hnew := h hcan
  exact ⟨hnew.inCharge, hnew.opened, hnew.alive, hnew.sending, hnew.placed⟩

theorem SameLifecycle.inCharge (h : SameLifecycle s s') (hc : s.InCharge r) : s'.InCharge r := by
  rw [InCharge, h.running, h.controls]
  exact hc

end Runs

/-! ### Everyday work -/

theorem Alone.eq {s : Session} {r r' : RunId} {run : Run} (h : s.Alone r)
    (hr : s.runs.find? r' = some run) (hx : run.hasExited = false) : r' = r := by
  refine Decidable.not_not.mp fun hne => ?_
  rw [h r' run hne hr] at hx
  cases hx

theorem Alone.modifyRun {s : Session} {r : RunId} (h : s.Alone r) (f : Run → Run) :
    (s.modifyRun r f).Alone r := by
  intro r' run hne hr
  rw [find?_modifyRun, if_neg (Ne.symm hne)] at hr
  exact h r' run hne hr

/-- A writer that has not ended leaves its run alive. -/
theorem not_exited_of_writer {run : Run} (h : run.writer ≠ .exited) : run.hasExited = false :=
  decide_eq_false fun hx => h hx.2.1

/-- Everyday work is done by tasks that have not ended. -/
theorem alone_works {s s' : Session} {r : RunId} (h : s.Alone r) (hw : Works s s') :
    s'.Alone r := by
  have setWriter : ∀ {v : Session} {r' : RunId} {run : Run} (phase : WriterPhase), v.Alone r →
      v.runs.find? r' = some run → run.writer ≠ .exited → (v.setWriter r' phase).Alone r := by
    intro v r' run phase hv hr hne
    rw [hv.eq hr (not_exited_of_writer hne)]
    exact hv.modifyRun _
  have traffic : s.TrafficOnly s' → s'.Alone r := by
    rintro ⟨_, _, _, _, rfl⟩
    exact h
  cases hw with
  | minor hw =>
    cases hw with
    | aside => exact h
    | skips t =>
      intro r' run hne hr
      rw [find?_scanFrom, Option.map_eq_some_iff] at hr
      obtain ⟨run₀, hr₀, rfl⟩ := hr
      exact h r' run₀ hne hr₀
    | reads f hr hx _ _ =>
      rw [h.eq hr hx]
      exact h.modifyRun f
    | queues => exact h
    | enqueues target message priority _ => exact traffic (s.trafficOnly_enqueue _ _ _)
    | withdraws id => exact traffic (s.trafficOnly_withdraw _ _)
    | resolves key reply _ => exact traffic (s.trafficOnly_resolve _ _)
  | writer hw =>
    cases hw with
    | @pops run frame queue hr hph _ =>
      exact setWriter (v := { s with queue := queue }) _ h hr (by rw [hph]; simp)
    | @sends run frame hr hph _ =>
      exact setWriter (v := (s.beginLink (.send frame.bytes)).2) _ h hr (by rw [hph]; simp)
    | drops hr hph _ => exact setWriter _ h hr (by rw [hph]; simp)
    | writes hr hph => exact setWriter _ h hr (by rw [hph]; simp)
    | breaks _ hr hph => exact setWriter _ h hr (by rw [hph]; simp)
    | leaves hr hph _ =>
      refine setWriter _ h hr ?_
      rcases hph with hph | ⟨_, _, hph⟩ <;> rw [hph] <;> simp
  | scans => exact traffic s.trafficOnly_scan

theorem alone_worked {s s' : Session} {r : RunId} (h : s.Alone r) (hw : Worked s s') :
    s'.Alone r := by
  induction hw with
  | refl => exact h
  | tail _ hw ih => exact alone_works ih hw

/-- A message that is sent is registered with one copy of its frame. -/
theorem Serves.enqueue {s : Session} {r : RunId} (hk : s.Known) (h : s.Serves r)
    (target : Address) (message : Message) (priority : Priority) :
    (s.enqueue target message priority).2.Serves r := by
  have ht := s.trafficOnly_enqueue target message priority
  rcases s.enqueue_cases target message priority with
    ⟨e, he⟩ | ⟨bytes, _, ⟨queue, hp, he⟩ | ⟨hp, he⟩⟩
  · rw [he]
    exact h
  · rw [he] at ht ⊢
    obtain ⟨hperm, hclosed⟩ := SendQueue.push_spec hp
    refine h.of_traffic ht hclosed.trans fun hand hhand _ hold => ?_
    -- no frame on its way bears the new number
    have hnew : ∀ frame ∈ hand ++ s.queue.toList, frame.id ≠ s.requestIds.given + 1 := by
      intro frame hm
      have hway : s.Underway frame := (List.mem_append.mp hm).elim (hhand frame) Or.inl
      exact Nat.ne_of_lt (Nat.lt_succ_of_le (hk frame hway))
    have hins := placed_insert (s.newRequest target message priority bytes) hold rfl hnew
    refine hins.perm ?_
    exact List.perm_middle.symm.trans (List.Perm.append_left hand hperm.symm)
  · intro run hr hcan
    rw [he] at hr
    have hopen := (h run hr hcan).opened
    rw [SendQueue.push_eq_none_iff.mp hp] at hopen
    cases hopen

/-- What is done besides the writers' and the scanners' work keeps the copies right. -/
theorem serves_minor {s s' : Session} {r : RunId} (hk : s.Known) (halone : s.Alone r)
    (h : s.Serves r) (hm : Minor s s') : s'.Serves r := by
  have hcharge : s.InCharge r → s'.InCharge r := (sameLifecycle_works (.minor hm)).inCharge
  cases hm with
  | aside link _ _ _ _ hl _ =>
    exact h.of_eq hcharge rfl rfl hl fun run hr hcan => ⟨run, hr, hcan, rfl⟩
  | skips t =>
    refine h.of_eq hcharge rfl rfl (.refl _) fun run' hr hcan => ?_
    rw [find?_scanFrom, Option.map_eq_some_iff] at hr
    obtain ⟨run, hrun, rfl⟩ := hr
    exact ⟨run, hrun, hcan, rfl⟩
  | @reads r' run f hr hx hkeep _ =>
    refine h.of_eq hcharge rfl rfl (.refl _) fun run' hr' hcan => ?_
    obtain rfl := halone.eq hr hx
    rw [find?_modifyRun, if_pos rfl, hr] at hr'
    obtain rfl := Option.some.inj hr'
    obtain ⟨hcan', hwriter⟩ := hkeep run
    exact ⟨run, hr, hcan'.symm.trans hcan, hwriter.symm⟩
  | queues => exact h.of_eq hcharge rfl rfl (.refl _) fun run hr hcan => ⟨run, hr, hcan, rfl⟩
  | enqueues target message priority _ => exact h.enqueue hk target message priority
  | withdraws id =>
    refine h.of_traffic (s.trafficOnly_withdraw id .cancelled) (fun hopen => hopen) ?_
    exact fun hand _ _ hold => hold.of_find? fun _ _ hf => (find?_of_cancel hf).2
  | resolves key reply _ =>
    refine h.of_traffic (s.trafficOnly_resolve key reply) (fun hopen => hopen) ?_
    exact fun hand _ _ hold => hold.of_find? fun _ _ => find?_of_resolve

section Writer

variable {s v : Session} {r r' : RunId} {run : Run} {phase : WriterPhase}

/-- A writer that comes further is that of the run, and goes on from what held for it. -/
theorem Serves.comesFurther (h : s.Serves r) (halone : s.Alone r)
    (hr : s.runs.find? r' = some run) (hruns : v.runs = s.runs) (hne : run.writer ≠ .exited)
    (next : run.cancelled = false → s.Serving r run.writer → v.Serving r phase) :
    (v.setWriter r' phase).Serves r := by
  obtain rfl := halone.eq hr (not_exited_of_writer hne)
  exact serves_setWriter (hruns ▸ hr) fun hcan => next hcan (h run hr hcan)

/-- The writer takes a frame, which passes from the queue into its hand. -/
theorem Serving.pops {frame : OutboundFrame} {queue : SendQueue OutboundFrame}
    (h : s.Serving r .popping) (hp : s.queue.tryPop = some (frame, queue)) :
    ({ s with queue := queue } : Session).Serving r (.checking frame) := by
  obtain ⟨hlist, hclosed⟩ := SendQueue.toList_of_tryPop hp
  refine ⟨h.inCharge, hclosed.trans h.opened, by simp, by simp, fun _ => ?_⟩
  have hplace := h.placed (by simp)
  rw [hlist] at hplace
  exact hplace

/-- The writer begins to write what it has in hand. -/
theorem Serving.sends {frame : OutboundFrame} (h : s.Serving r (.checking frame)) :
    (s.beginLink (.send frame.bytes)).2.Serving r
      (.sending frame (s.beginLink (.send frame.bytes)).1) := by
  refine ⟨h.inCharge, h.opened, by simp, fun frame' c he => ?_, fun _ => h.placed (by simp)⟩
  obtain ⟨_, rfl⟩ := WriterPhase.sending.inj he
  exact Link.sends_begin _ _

/-- **A writer that comes further keeps the copies right.** -/
theorem serves_writes {s' : Session} (halone : s.Alone r) (h : s.Serves r)
    (hw : Writes r' s s') : s'.Serves r := by
  cases hw with
  | @pops run frame queue hr hph hp =>
    refine h.comesFurther halone hr rfl (by rw [hph]; simp) fun _ old => ?_
    rw [hph] at old
    exact old.pops hp
  | @sends run frame hr hph _ =>
    refine h.comesFurther halone hr rfl (by rw [hph]; simp) fun _ old => ?_
    rw [hph] at old
    exact old.sends
  | @drops run frame hr hph hgone =>
    refine h.comesFurther halone hr rfl (by rw [hph]; simp) fun _ old => ?_
    rw [hph] at old
    exact ⟨old.inCharge, old.opened, by simp, by simp, fun _ => (old.placed (by simp)).drop hgone⟩
  | @writes run frame c hr hph =>
    refine h.comesFurther halone hr rfl (by rw [hph]; simp) fun _ old => ?_
    rw [hph] at old
    exact ⟨old.inCharge, old.opened, by simp, by simp, fun _ => old.placed (by simp)⟩
  | @breaks run frame c cause hr hph =>
    refine h.comesFurther halone hr rfl (by rw [hph]; simp) fun _ old => ?_
    exact ⟨old.inCharge, old.opened, by simp, by simp, fun hno => absurd rfl (hno _)⟩
  | @leaves run hr hph hwhy =>
    have hne : run.writer ≠ .exited := by
      rcases hph with hph | ⟨_, _, hph⟩ <;> rw [hph] <;> simp
    refine h.comesFurther halone hr rfl hne fun hcan old => ?_
    -- nothing that makes a writer end has come about
    rcases hwhy with hc | hc | ⟨frame, c, link, events, bytes, hsend, hm, hres⟩
    · rw [hcan] at hc; cases hc
    · rw [old.opened] at hc; cases hc
    · exact absurd hres (Link.not_received_of_sending (old.sending frame c hsend) hm)

end Writer

/-- A look at the deadlines takes the deadline from a request and queues its frame. -/
theorem Serves.scan {s : Session} {r : RunId} (h : s.Serves r) (ht : TableOk s.pending) :
    s.scan.Serves r := by
  refine h.of_traffic s.trafficOnly_scan (fun hopen => (scan_of_open hopen).2.2.1) ?_
  intro hand _ hopen hold
  have hperm := toList_scan_of_open hopen
  rw [(scan_of_open hopen).1]
  refine (placed_expire ht hold s.now).perm ?_
  -- the frames that are sent once more go behind the hand
  refine (List.perm_append_comm_assoc _ _ _).trans ?_
  exact List.Perm.append_left hand hperm.symm

/-- **Everyday work keeps the copies right.** -/
theorem serves_works {s s' : Session} {r : RunId} (ht : TableOk s.pending) (hk : s.Known)
    (halone : s.Alone r) (h : s.Serves r) (hw : Works s s') : s'.Serves r := by
  cases hw with
  | minor hm => exact serves_minor hk halone h hm
  | writer hw => exact serves_writes halone h hw
  | scans => exact h.scan ht

/-! ### Starts, stops and faults -/

section Charge

variable {s s' : Session} {r : RunId} {i : ControlId}

/-- A call that does not wait for a reader goes on or ends. -/
theorem InCharge.of_controls (h : s.InCharge r)
    (hi : ∀ r', s.controls.find? i ≠ some (.awaitingReader r'))
    (hr : s'.running = s.running)
    (hcs : ∀ j, i ≠ j → s'.controls.find? j = s.controls.find? j) : s'.InCharge r := by
  rcases h with h | ⟨j, hj⟩
  · exact Or.inl (hr.trans h)
  · have hne : i ≠ j := by
      rintro rfl
      exact hi r hj
    exact Or.inr ⟨j, (hcs j hne).trans hj⟩

theorem InCharge.erase (h : s.InCharge r)
    (hi : ∀ r', s.controls.find? i ≠ some (.awaitingReader r'))
    (hr : s'.running = s.running) (hcs : s'.controls = s.controls.erase i) : s'.InCharge r := by
  refine h.of_controls hi hr fun j hne => ?_
  rw [hcs, Directory.find?_erase, if_neg hne]

theorem InCharge.put {phase : Control} (h : s.InCharge r)
    (hi : ∀ r', s.controls.find? i ≠ some (.awaitingReader r'))
    (hr : s'.running = s.running) (hcs : s'.controls = s.controls.put i phase) :
    s'.InCharge r := by
  refine h.of_controls hi hr fun j hne => ?_
  rw [hcs, Directory.find?_put, if_neg hne]

/-- While a run is installed, no other one is in charge. -/
theorem Lifecycle.eq_of_inCharge {r' : RunId} (h : s.Lifecycle) (hr : s.running = some r')
    (hc : s.InCharge r) : r = r' := by
  rcases hc with hc | ⟨j, hj⟩
  · rw [hr, Option.some.injEq] at hc
    exact hc.symm
  · rw [(h.locked j _ hj rfl).2] at hr
    cases hr

/-- While a start is under way, a run in charge is the one that it begins. -/
theorem Lifecycle.awaiting_of_inCharge {phase : Control} (h : s.Lifecycle)
    (hi : s.controls.find? i = some phase) (hp : phase.isStarting = true)
    (hc : s.InCharge r) : phase = .awaitingReader r := by
  obtain ⟨hlock, hnone⟩ := h.locked i phase hi hp
  rcases hc with hc | ⟨j, hj⟩
  · rw [hnone] at hc; cases hc
  · obtain rfl := TaskId.control.inj (h.eq_of_holds hj rfl hlock)
    rw [hi, Option.some.injEq] at hj
    exact hj

end Charge

/-- A run that is not to end after the installed one was taken away was not the
installed one. -/
theorem find?_of_takenDown {s : Session} {t : TaskId} {r r' : RunId} {error : SessionError}
    (h : ((s.takenDown t r' error).runs.find? r).map Run.cancelled = some false) :
    r ≠ r' ∧ (s.runs.find? r).map Run.cancelled = some false := by
  rw [takenDown_eq] at h
  change ((s.runs.modify r' fun run => { run with cancelled := true }).find? r).map _ = _ at h
  rw [Directory.find?_modify] at h
  split at h
  · rw [Option.map_map, Option.map_eq_some_iff] at h
    obtain ⟨_, _, hc⟩ := h
    cases hc
  · next hne => exact ⟨Ne.symm hne, h⟩

/-- When the installed run is taken away, no run serves any more. -/
theorem serves_takenDown {s s' : Session} {r r' : RunId} (t : TaskId) (error : SessionError)
    (hl : s.Lifecycle) (h : s.Serves r) (hr : s.running = some r')
    (hruns : (s'.runs.find? r).map Run.cancelled =
      ((s.takenDown t r' error).runs.find? r).map Run.cancelled) : s'.Serves r := by
  intro run' hrun' hcan
  rw [hrun', Option.map_some, hcan] at hruns
  obtain ⟨hne, hrun⟩ := find?_of_takenDown hruns.symm
  obtain ⟨run, hrun, hcan⟩ := Option.map_eq_some_iff.mp hrun
  exact absurd (hl.eq_of_inCharge hr (h run hrun hcan).inCharge) hne

/-- A run that begins serves the session, which was quiet. -/
theorem serves_spawn {s : Session} {r : RunId} {i : ControlId} {c : CallId} (hl : s.Lifecycle)
    (h : s.Serves r) (hi : s.controls.find? i = some (.opening c)) :
    (s.spawn.2.setControl i (.awaitingReader s.spawn.1)).Serves r := by
  have hno : ∀ r', ¬s.InCharge r' := fun r' hc => by
    cases hl.awaiting_of_inCharge hi rfl hc
  have hquiet := hl.quiet (hl.locked i _ hi rfl).2 fun j r' hj => hno r' (Or.inr ⟨j, hj⟩)
  intro run hr hcan
  change (s.runs.put (s.runIds.given + 1) (.fresh s.now)).find? r = some run at hr
  rw [Directory.find?_put] at hr
  split at hr
  · next he =>
    subst he
    obtain rfl := Option.some.inj hr
    refine ⟨Or.inr ⟨i, ?_⟩, rfl, by simp [Run.fresh], by simp [Run.fresh], fun _ => ?_⟩
    · show (s.controls.put i (.awaitingReader (s.runIds.given + 1))).find? i = _
      rw [Directory.find?_put, if_pos rfl]
    · -- nothing is registered yet
      intro id req hf
      change s.pending.requests.find? id = some req at hf
      rw [find?_of_entries_eq_nil hquiet.registered] at hf
      cases hf
  · exact absurd (h run hr hcan).inCharge (hno r)

/-- The reaction to a fault of another run, or of the reader, comes to its end. -/
theorem Serves.faultEnds {s : Session} {r : RunId} {t : TaskId} {c : CallId} (h : s.Serves r)
    (ht : s.teardownOf? t = some (.closing c)) : ((s.enter .stopped).1.exitTask t).Serves r := by
  rw [enter_fst]
  rcases teardownOf?_cases ht with ⟨r', run, rfl, _, _⟩ | ⟨r', run, rfl, hr, hph⟩
  · refine h.of_eq (fun hc => hc) rfl rfl (.refl _) fun run' hr' hcan => ?_
    change (s.setReader r' .exited).runs.find? r = some run' at hr'
    rw [setReader, find?_modifyRun] at hr'
    split at hr'
    · obtain ⟨run, hrun, rfl⟩ := Option.map_eq_some_iff.mp hr'
      exact ⟨run, hrun, hcan, rfl⟩
    · exact ⟨run', hr', hcan, rfl⟩
  · -- the writer of a run that is not to end does not close it down
    refine h.of_eq (fun hc => hc) rfl rfl (.refl _) fun run' hr' hcan => ?_
    change (s.setWriter r' .exited).runs.find? r = some run' at hr'
    rw [setWriter, find?_modifyRun] at hr'
    split at hr'
    · next he =>
      subst he
      rw [hr, Option.map_some, Option.some.injEq] at hr'
      subst hr'
      exact absurd hph ((h run hr hcan).alive.2 c)
    · exact ⟨run', hr', hcan, rfl⟩

/-- **A run goes on serving until a stop or a fault takes it away.** -/
theorem serves_governs {s s' : Session} {o : Occurrence} {r : RunId} (hl : s.Lifecycle)
    (h : s.Serves r) (hg : Governs s o s') : s'.Serves r := by
  have same : ∀ run, s.runs.find? r = some run → run.cancelled = false →
      ∃ run₀, s.runs.find? r = some run₀ ∧ run₀.cancelled = false ∧ run₀.writer = run.writer :=
    fun run hr hcan => ⟨run, hr, hcan, rfl⟩
  -- the next call that starts or stops is a new one
  have fresh : ∀ r', s.controls.find? (s.controlIds.given + 1) ≠ some (.awaitingReader r') :=
    fun r' => by simp [hl.find?_next_control]
  cases hg with
  | asksStart => exact h.of_eq (fun hc => hc.put fresh rfl rfl) rfl rfl (.refl _) same
  | asksStop => exact h.of_eq (fun hc => hc.put fresh rfl rfl) rfl rfl (.refl _) same
  | @refuses i failure hi =>
    refine h.of_eq (fun hc => hc.erase (i := i) ?_ rfl rfl) rfl rfl (.refl _) same
    intro r' hf
    rcases hi with hi | hi
    · rw [hi] at hf; cases hf
    · rw [hi] at hf; cases hf
  | startBegins hi _ _ =>
    rw [enter_fst]
    refine h.of_eq (fun hc => hc.put ?_ rfl rfl) rfl rfl (Link.keeps_begin _ _) same
    intro r' hf
    rw [hi] at hf; cases hf
  | @startFails i c failure hi =>
    rw [enter_fst]
    refine h.of_eq (fun hc => hc.erase (i := i) ?_ rfl rfl) rfl rfl (.refl _) same
    intro r' hf
    rw [hi] at hf; cases hf
  | spawns hi => exact serves_spawn hl h hi
  | startEnds hi =>
    rw [enter_fst]
    refine h.of_eq (fun hc => Or.inl ?_) rfl rfl (.refl _) same
    rw [Control.awaitingReader.inj (hl.awaiting_of_inCharge hi rfl hc)]
    rfl
  | @stopBegins i r' _ _ hr => exact serves_takenDown (.control i) .cancelled hl h hr rfl
  | stopJoins hi =>
    refine h.of_eq (fun hc => hc.put ?_ rfl rfl) rfl rfl (.refl _) same
    intro r' hf
    rw [hi] at hf; cases hf
  | @stopEnds i r' hi =>
    rw [enter_fst]
    refine h.of_eq (fun hc => hc.erase (i := i) ?_ rfl rfl) rfl rfl (.refl _) same
    intro r'' hf
    rw [hi] at hf; cases hf
  | @faultBegins t cause r' _ _ hr =>
    exact serves_takenDown t (.connection cause) hl h hr (find?_runs_putTeardown _ _ _ _)
  | @faultLate t cause ht hlock hnone =>
    -- somebody else has the run, so no run is in charge
    intro run hr hcan
    have hruns := find?_runs_exitTask (s.releaseLifecycle t) t r
    rw [hr, Option.map_some, hcan] at hruns
    obtain ⟨run₀, hr₀, hcan₀⟩ := Option.map_eq_some_iff.mp hruns.symm
    rcases (h run₀ hr₀ hcan₀).inCharge with hc | ⟨i, hi⟩
    · rw [hnone] at hc; cases hc
    · rw [hl.eq_of_holds hi rfl hlock] at ht
      cases ht
  | faultEnds ht => exact h.faultEnds ht

/-! ### Whatever happens -/

theorem serves_worked {s s' : Session} {r : RunId} (hl : s.Ledger) (ht : TableOk s.pending)
    (hk : s.Known) (halone : s.Alone r) (h : s.Serves r) (hw : Worked s s') : s'.Serves r := by
  induction hw with
  | refl => exact h
  | @tail v w hv hw ih =>
    -- along the work, everything that it rests on is kept
    have htv : TableOk v.pending := tableOk_posted (b := s.books) ht (posted_worked hl hv)
    exact serves_works htv (known_worked hl ht hk hv) (alone_worked halone hv) ih hw

/-- **Whatever happens keeps the copies right**, as long as no task of another run is
left over from before. -/
theorem serves_happens {s s' : Session} {o : Occurrence} {r : RunId} (hl : s.Ledger)
    (ht : TableOk s.pending) (hk : s.Known) (hlife : s.Lifecycle) (hearlier : s.lingers r = false)
    (h : s.Serves r) (ho : Happens s o s') : s'.Serves r := by
  cases hr : s.runs.find? r with
  | none =>
    rcases happens_cases ho with ⟨r', run, frame, _, hr', _, rfl⟩ | ⟨_, hw | ⟨link, hkeep, hg⟩⟩
    · exact serves_of_none ((sameLifecycle_noteWritten hr' frame).find?_eq_none hr)
    · exact serves_of_none ((sameLifecycle_worked hw).find?_eq_none hr)
    · exact serves_governs (hlife.withLink link) (serves_of_none hr) hg
  | some run =>
    have halone := alone_of_not_lingers hearlier hr
    rcases happens_cases ho with ⟨r', run', frame, _, hr', hph, rfl⟩ | ⟨_, hw | ⟨link, hkeep, hg⟩⟩
    · obtain rfl := halone.eq hr' (not_exited_of_writer (by rw [hph]; simp))
      refine serves_setWriter (v := (s.noteWritten frame).1) hr' fun hcan => ?_
      have old := h run' hr' hcan
      rw [hph] at old
      refine ⟨old.inCharge, old.opened, by simp, by simp, fun _ => ?_⟩
      exact placed_markWritten (old.placed (by simp)) s.now s.config.requestTimeout
    · exact serves_worked hl ht hk halone h hw
    · have hmoved : Serves { s with link := link } r :=
        h.of_eq (fun hc => hc) rfl rfl hkeep fun run hr hcan => ⟨run, hr, hcan, rfl⟩
      exact serves_governs (hlife.withLink link) hmoved hg

theorem serves_of_history {config : SessionConfig} {link : Link} {s : Session} {r : RunId}
    {past : List (Session × Occurrence)} (h : History (fresh config link) past s)
    (hearlier : ∀ v ∈ past.map Prod.fst, v.lingers r = false) : s.Serves r := by
  induction h with
  | nil => exact serves_of_none rfl
  | cons h ho ih =>
    rw [List.map_cons, List.forall_mem_cons] at hearlier
    exact serves_happens (ledger_of_history h) (tableOk_of_history h) (known_of_history h)
      (lifecycle_of_history h) hearlier.1 (ih hearlier.2) ho

/-- The copies of the frame of a request that are queued or in the hand of the writer
of a run. -/
def copies (s : Session) (r : RunId) (id : RequestId) : List OutboundFrame :=
  copiesOf (((s.runs.find? r).bind fun run => run.writer.hand?).toList ++ s.queue.toList) id

/-- **Every registered request has one copy of its frame or a deadline.**  While a run
is installed, its writer has met no fault, and every task of an earlier run had ended
when it began, each registered request is in exactly one of two situations: there is
one copy of its frame, queued or in the hand of the writer, and it has no deadline; or
it expects an answer and has a deadline, and there is no copy.  So there is never more
than one copy, and never neither a copy nor a deadline. -/
theorem one_copy_or_deadline {config : SessionConfig} {link : Link} {s : Session} {r : RunId}
    {past : List (Session × Occurrence)} (h : History (fresh config link) past s)
    (hrunning : s.running = some r) (hcalm : s.teardownOf? (.writer r) = none)
    (hearlier : ∀ v ∈ past.map Prod.fst, v.lingers r = false) :
    ∀ id req, s.pending.requests.find? id = some req →
      (req.OnItsWay (s.copies r id) ∧ ¬req.Awaited (s.copies r id) ∨
        req.Awaited (s.copies r id) ∧ ¬req.OnItsWay (s.copies r id)) ∧
      (s.copies r id).length ≤ 1 ∧ (s.copies r id = [] → req.deadline.isSome = true) := by
  intro id req hf
  have hlive := (lifecycle_of_history h).installed r (Or.inl hrunning)
  obtain ⟨run, hr, hcan⟩ := Option.map_eq_some_iff.mp hlive
  have hplaced := (serves_of_history h hearlier run hr hcan).placed fun teardown hw => by
    rw [teardownOf?_writer.mpr ⟨run, hr, hw⟩] at hcalm
    cases hcalm
  have hcopies : s.copies r id = copiesOf (run.writer.hand?.toList ++ s.queue.toList) id := by
    rw [copies, hr, Option.bind_some]
  rw [hcopies]
  rcases hplaced id req hf with hway | hwait
  · obtain ⟨hd, hc⟩ := hway
    refine ⟨Or.inl ⟨⟨hd, hc⟩, fun hwait => ?_⟩, ?_, fun hnil => ?_⟩
    · obtain ⟨_, hsome, _⟩ := hwait
      rw [hd] at hsome; cases hsome
    · rw [hc]; exact Nat.le_refl 1
    · rw [hc] at hnil; cases hnil
  · obtain ⟨hk, hd, hc⟩ := hwait
    refine ⟨Or.inr ⟨⟨hk, hd, hc⟩, fun hway => ?_⟩, ?_, fun _ => hd⟩
    · rw [hway.1] at hd; cases hd
    · rw [hc]; exact Nat.zero_le 1

/-- Two events are sent to one device, and the urgent one is written. -/
def oneWritten : List Cue :=
  firstStart ++
    [.input (.send (.controllerAt 1) (.event (.plain .root 7 .low)) .low),
      .input (.send (.controllerAt 1) (.event (.plain .root 8 .high)) .high)] ++
    List.replicate 6 (.move (.writer 1) 0)

theorem one_copy_or_deadline_oneWritten : ∃ past s req₁ req₂,
    History (fresh {} (.fresh "" none [])) past s ∧ s.running = some 1 ∧
      s.teardownOf? (.writer 1) = none ∧ (∀ v ∈ past.map Prod.fst, v.lingers 1 = false) ∧
      s.pending.requests.find? 1 = some req₁ ∧ req₁.OnItsWay (s.copies 1 1) ∧
      s.pending.requests.find? 2 = some req₂ ∧ req₂.Awaited (s.copies 1 2) := by
  obtain ⟨past, s, h, hrunning, hcalm, hearlier, hqueued, hwritten⟩ := exists_history
    (fresh {} (.fresh "" none [])) oneWritten
    (fun past s => s.running = some 1 ∧ s.teardownOf? (.writer 1) = none ∧
      (∀ v ∈ past.map Prod.fst, v.lingers 1 = false) ∧
      (s.pending.requests.find? 1).map PendingRequest.deadline = some none ∧
      (s.pending.requests.find? 2).map (fun req => req.deadline.isSome) = some true)
    (by decide +kernel)
  obtain ⟨req₁, hf₁, hd₁⟩ := Option.map_eq_some_iff.mp hqueued
  obtain ⟨req₂, hf₂, hd₂⟩ := Option.map_eq_some_iff.mp hwritten
  have hall := one_copy_or_deadline h hrunning hcalm hearlier
  refine ⟨past, s, req₁, req₂, h, hrunning, hcalm, hearlier, hf₁, ?_, hf₂, ?_⟩
  · rcases (hall 1 req₁ hf₁).1 with hway | ⟨⟨_, hsome, _⟩, _⟩
    · exact hway.1
    · rw [hd₁] at hsome; cases hsome
  · rcases (hall 2 req₂ hf₂).1 with ⟨⟨hnone, _⟩, _⟩ | hwait
    · rw [hnone] at hd₂; cases hd₂
    · exact hwait.1

end Session

end ZoneBus
