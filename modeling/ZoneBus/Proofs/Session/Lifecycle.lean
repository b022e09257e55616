import ZoneBus.Proofs.SendQueue.Items
import ZoneBus.Proofs.Session.SameLifecycle

/-!
# Starts, and sessions without a run

A start that is under way holds the lifecycle lock, and while it does no run is
installed.  A session without an installed run, and without one that is about to
be, is quiet: no request is registered, no frame is queued, and frames are refused
unless there never was a run.

## Main definitions

* `Session.Quiet` — nothing registered, nothing queued, nothing taken.
* `Session.Lifecycle` — what holds in every history.

## Main results

* `Session.Quiet.of_works` — everyday work leaves a quiet session quiet.
* `Session.lifecycle_happens` — whatever happens keeps the invariants.
-/

namespace ZoneBus

/-- Whether a call with the lock is starting the session. -/
def Control.isStarting : Control → Bool
  | .opening _ => true
  | .awaitingReader _ => true
  | _ => false

namespace Session

/-! ### Invariants -/

/-- No request is registered, no frame is queued, and no frame is taken unless there
never was a run. -/
structure Quiet (s : Session) : Prop where
  /-- The table is empty. -/
  registered : s.pending.requests.entries = []
  /-- The queue is empty. -/
  queued : s.queue.toList = []
  /-- The queue is closed, or there is nobody to fill it. -/
  refused : s.queue.closed = true ∨ ∀ r, s.runs.find? r = none

/-- What holds in every history. -/
structure Lifecycle (s : Session) : Prop where
  /-- The numbers of the calls that start and stop were given out. -/
  controls : ∀ i phase, s.controls.find? i = some phase → i ≤ s.controlIds.given
  /-- So were those of the runs. -/
  runs : ∀ r run, s.runs.find? r = some run → r ≤ s.runIds.given
  /-- A start under way holds the lock, and there is no installed run. -/
  locked : ∀ i phase, s.controls.find? i = some phase → phase.isStarting = true →
    s.holdsLifecycle (.control i) = true ∧ s.running = none
  /-- A session that takes messages has an installed run. -/
  started : s.state = .started → s.running ≠ none
  /-- The tasks of the run that is installed, or about to be, are not to end. -/
  installed : ∀ r, (s.running = some r ∨ ∃ i, s.controls.find? i = some (.awaitingReader r)) →
    (s.runs.find? r).map Run.cancelled = some false
  /-- Without such a run the session is quiet. -/
  quiet : s.running = none → (∀ i r, s.controls.find? i ≠ some (.awaitingReader r)) → s.Quiet

theorem lifecycle_fresh (config : SessionConfig) (link : Link) :
    (fresh config link).Lifecycle where
  controls := fun _ _ h => by cases h
  runs := fun _ _ h => by cases h
  locked := fun _ _ h => by cases h
  started := fun h => by cases h
  installed := fun _ h => by rcases h with h | ⟨_, h⟩ <;> cases h
  quiet := fun _ _ => ⟨rfl, rfl, Or.inr fun _ => rfl⟩

/-- The next call that starts or stops has a number that is not in use. -/
theorem Lifecycle.find?_next_control {s : Session} (h : s.Lifecycle) :
    s.controls.find? (s.controlIds.given + 1) = none :=
  Option.eq_none_iff_forall_ne_some.mpr fun phase hf =>
    Nat.not_succ_le_self _ (h.controls _ phase hf)

/-- So has the next run. -/
theorem Lifecycle.find?_next_run {s : Session} (h : s.Lifecycle) :
    s.runs.find? (s.runIds.given + 1) = none :=
  Option.eq_none_iff_forall_ne_some.mpr fun run hf => Nat.not_succ_le_self _ (h.runs _ run hf)

/-! ### Quiet sessions stay quiet -/

theorem find?_of_entries_eq_nil {t : PendingTable} (h : t.requests.entries = [])
    (id : RequestId) : t.requests.find? id = none := by
  rw [Directory.find?, h]; rfl

theorem withdraw_of_quiet {s : Session} (h : s.pending.requests.entries = [])
    (id : RequestId) (error : SessionError) : (s.withdraw id error).2.pending = s.pending := by
  rw [withdraw, PendingTable.cancel, find?_of_entries_eq_nil h]
  rfl

theorem noteWritten_of_quiet {s : Session} (h : s.pending.requests.entries = [])
    (frame : OutboundFrame) : (s.noteWritten frame).1.pending = s.pending := by
  rw [noteWritten, PendingTable.markWritten, find?_of_entries_eq_nil h]
  rfl

theorem resolve_of_quiet {s : Session} (h : s.pending.requests.entries = []) (key : ReplyKey)
    (reply : Reply) : (s.resolve key reply).pending.requests = s.pending.requests := by
  have hno : ∀ id, s.pending.contains id = false := by
    intro id
    rw [PendingTable.contains, Directory.contains, find?_of_entries_eq_nil h]; rfl
  show (s.pending.resolve key reply).2.2.requests = s.pending.requests
  rw [PendingTable.resolve]
  split
  · rfl
  · rfl
  · rw [hno, if_neg Bool.false_ne_true]

theorem scan_of_quiet {s : Session} (h : s.pending.requests.entries = []) :
    s.scan.pending = s.pending ∧ s.scan.queue = s.queue := by
  have ho : s.pending.overdue s.now = [] := by
    rw [PendingTable.overdue, h]; rfl
  rw [scan, PendingTable.expire, ho]
  exact ⟨rfl, rfl⟩

/-- While frames are refused, a message is registered and withdrawn at once. -/
theorem enqueue_of_closed {s : Session} (h : s.pending.requests.entries = [])
    (hq : s.queue.closed = true) (target : Address) (message : Message) (priority : Priority) :
    (s.enqueue target message priority).2.pending.requests.entries = [] ∧
      (s.enqueue target message priority).2.queue = s.queue := by
  rcases s.enqueue_cases target message priority with
    ⟨e, he⟩ | ⟨bytes, _, ⟨queue, hpush, he⟩ | ⟨_, he⟩⟩
  · rw [he]
    exact ⟨h, rfl⟩
  · rw [SendQueue.push_eq_none_iff.mpr hq] at hpush
    cases hpush
  · rw [he]
    refine ⟨?_, rfl⟩
    generalize hreq : s.newRequest target message priority bytes = request
    have hid : request.frame.id = s.requestIds.given + 1 := by rw [← hreq]; rfl
    -- the request is the only entry, and its number is the one that is withdrawn
    have hentries : (s.registered request).pending.requests.entries =
        [(s.requestIds.given + 1, request)] := by
      show (s.pending.requests.put request.frame.id request).entries = _
      rw [Directory.put, h, hid]; rfl
    have hfind : (s.registered request).pending.requests.find? (s.requestIds.given + 1) =
        some request := by
      rw [Directory.find?, hentries, Directory.findIn, if_pos rfl]
    rw [withdraw, PendingTable.cancel, hfind]
    show ((s.registered request).pending.requests.erase _).entries = []
    rw [Directory.erase, hentries]
    simp

/-- Quietness is a matter of the table, the queue and the runs. -/
theorem Quiet.of_eq {s s' : Session} (h : s.Quiet)
    (hp : s'.pending.requests.entries = []) (hq : s'.queue = s.queue)
    (hr : ∀ r, s.runs.find? r = none → s'.runs.find? r = none) : s'.Quiet where
  registered := hp
  queued := by rw [hq]; exact h.queued
  refused := by
    rw [hq]
    exact h.refused.imp_right fun hno r => hr r (hno r)

/-- Where there is a run, a quiet session refuses frames. -/
theorem Quiet.closed {s : Session} {r : RunId} {run : Run} (h : s.Quiet)
    (hr : s.runs.find? r = some run) : s.queue.closed = true := by
  rcases h.refused with hc | hno
  · exact hc
  · rw [hno r] at hr; cases hr

theorem SameLifecycle.find?_eq_none {s s' : Session} (h : SameLifecycle s s') {r : RunId}
    (hr : s.runs.find? r = none) : s'.runs.find? r = none := by
  have hc := h.cancelled r
  rw [hr, Option.map_none, Option.map_eq_none_iff] at hc
  exact hc

/-- Everyday work leaves a quiet session quiet, unless it takes messages. -/
theorem Quiet.of_works {s s' : Session} (hq : s.Quiet) (hs : s.state ≠ .started)
    (h : Works s s') : s'.Quiet := by
  have hnone := fun r => (sameLifecycle_works h).find?_eq_none (r := r)
  cases h with
  | minor h =>
    cases h with
    | aside => exact hq.of_eq hq.registered rfl hnone
    | skips => exact hq.of_eq hq.registered rfl hnone
    | reads => exact hq.of_eq hq.registered rfl hnone
    | queues => exact hq.of_eq hq.registered rfl hnone
    | enqueues target message priority hwho =>
      -- a caller finds the session not started, a reader finds the queue closed
      rcases hwho with hst | ⟨r, run, hr, _⟩
      · exact absurd hst hs
      · obtain ⟨hp, hqueue⟩ :=
          enqueue_of_closed hq.registered (hq.closed hr) target message priority
        exact hq.of_eq hp hqueue hnone
    | withdraws id =>
      exact hq.of_eq (by rw [withdraw_of_quiet hq.registered]; exact hq.registered) rfl hnone
    | resolves key reply _ =>
      exact hq.of_eq (by rw [resolve_of_quiet hq.registered]; exact hq.registered) rfl hnone
  | writer h =>
    cases h with
    | pops hr _ hp =>
      have hn := hq.queued
      rw [SendQueue.toList, List.append_eq_nil_iff] at hn
      rw [SendQueue.tryPop, hn.1, hn.2] at hp
      cases hp
    | sends => exact hq.of_eq hq.registered rfl hnone
    | drops => exact hq.of_eq hq.registered rfl hnone
    | writes => exact hq.of_eq hq.registered rfl hnone
    | breaks => exact hq.of_eq hq.registered rfl hnone
    | leaves => exact hq.of_eq hq.registered rfl hnone
  | scans =>
    obtain ⟨hp, hqueue⟩ := scan_of_quiet hq.registered
    exact hq.of_eq (by rw [hp]; exact hq.registered) hqueue hnone

/-! ### The invariants are kept -/

/-- Only the start under way holds the lock. -/
theorem Lifecycle.eq_of_holds {s : Session} (h : s.Lifecycle) {i : ControlId} {phase : Control}
    {t : TaskId} (hi : s.controls.find? i = some phase) (hp : phase.isStarting = true)
    (ht : s.holdsLifecycle t = true) : t = .control i :=
  Session.eq_of_holds ht (h.locked i phase hi hp).1

theorem Lifecycle.of_same {s s' : Session} (h : s.Lifecycle) (hsame : SameLifecycle s s')
    (hq : s.Quiet → s.state ≠ .started → s'.Quiet) : s'.Lifecycle where
  controls := fun i phase hi => by
    rw [hsame.controlIds]
    exact h.controls i phase (by rw [← hsame.controls]; exact hi)
  runs := fun r run' hr => by
    have hc := hsame.cancelled r
    rw [hr, Option.map_some] at hc
    obtain ⟨run, hrun, _⟩ := Option.map_eq_some_iff.mp hc.symm
    rw [hsame.runIds]
    exact h.runs r run hrun
  locked := fun i phase hi hp => by
    rw [hsame.controls] at hi
    rw [hsame.running]
    obtain ⟨hl, hr⟩ := h.locked i phase hi hp
    exact ⟨holds_of_longer hsame.lock hl, hr⟩
  started := by
    rw [hsame.state, hsame.running]
    exact h.started
  installed := fun r hr => by
    rw [hsame.running, hsame.controls] at hr
    rw [hsame.cancelled]
    exact h.installed r hr
  quiet := by
    rw [hsame.running, hsame.controls]
    intro hr hno
    exact hq (h.quiet hr hno) fun hs => h.started hs hr

theorem lifecycle_works {s s' : Session} (h : s.Lifecycle) (hw : Works s s') : s'.Lifecycle :=
  h.of_same (sameLifecycle_works hw) fun hq hs => hq.of_works hs hw

theorem lifecycle_worked {s s' : Session} (h : s.Lifecycle) (hw : Worked s s') :
    s'.Lifecycle := by
  induction hw with
  | refl => exact h
  | tail _ hw ih => exact lifecycle_works ih hw

theorem lifecycle_noteWritten {s : Session} {r : RunId} {run : Run} {frame : OutboundFrame}
    (h : s.Lifecycle) (hr : s.runs.find? r = some run) :
    ((s.noteWritten frame).1.setWriter r .popping).Lifecycle := by
  have hsame := sameLifecycle_noteWritten hr frame
  refine h.of_same hsame fun hq _ => hq.of_eq ?_ rfl fun r => hsame.find?_eq_none
  show (s.noteWritten frame).1.pending.requests.entries = []
  rw [noteWritten_of_quiet hq.registered]
  exact hq.registered

/-- A change of the calls that start and stop, with the same starts waiting for
their readers and the same run installed. -/
theorem Lifecycle.of_controls {s s' : Session} (h : s.Lifecycle)
    (hci : ∀ i phase, s'.controls.find? i = some phase → i ≤ s'.controlIds.given)
    (hnew : ∀ i phase, s'.controls.find? i = some phase → phase.isStarting = true →
      s'.holdsLifecycle (.control i) = true ∧ s.running = none)
    (hawait : ∀ i r, s'.controls.find? i = some (.awaitingReader r) ↔
      s.controls.find? i = some (.awaitingReader r))
    (hrunning : s'.running = s.running) (hstarted : s'.state = .started → s.state = .started)
    (hri : s'.runIds = s.runIds)
    (hruns : ∀ r, (s'.runs.find? r).map Run.cancelled = (s.runs.find? r).map Run.cancelled)
    (hp : s'.pending = s.pending) (hq : s'.queue = s.queue) : s'.Lifecycle where
  controls := hci
  runs := fun r run' hr => by
    have hc := hruns r
    rw [hr, Option.map_some] at hc
    obtain ⟨run, hrun, _⟩ := Option.map_eq_some_iff.mp hc.symm
    rw [hri]
    exact h.runs r run hrun
  locked := fun i phase hi hph => by
    rw [hrunning]
    exact hnew i phase hi hph
  started := fun hs => by
    rw [hrunning]
    exact h.started (hstarted hs)
  installed := fun r hr => by
    rw [hruns]
    refine h.installed r ?_
    rw [hrunning] at hr
    exact hr.imp_right fun ⟨i, hi⟩ => ⟨i, (hawait i r).mp hi⟩
  quiet := fun hr hno => by
    rw [hrunning] at hr
    have hquiet := h.quiet hr fun i r hi => hno i r ((hawait i r).mpr hi)
    refine hquiet.of_eq (by rw [hp]; exact hquiet.registered) hq fun r hr => ?_
    have hc := hruns r
    rw [hr, Option.map_none, Option.map_eq_none_iff] at hc
    exact hc

/-- Taking the installed run away leaves a quiet session. -/
theorem Lifecycle.of_takenDown {s s' : Session} {r : RunId} (h : s.Lifecycle)
    (hr : s.running = some r)
    (hci : ∀ i phase, s'.controls.find? i = some phase → i ≤ s'.controlIds.given)
    (hnew : ∀ i phase, s'.controls.find? i = some phase → phase.isStarting = true →
      s.controls.find? i = some phase)
    (hrunning : s'.running = none) (hstate : s'.state = .stopping) (hri : s'.runIds = s.runIds)
    (hruns : ∀ r, s.runs.find? r = none → s'.runs.find? r = none)
    (hp : s'.pending = .empty) (hq : s'.queue = s.queue.close.2) : s'.Lifecycle := by
  -- the installed run rules every start under way out
  have hno : ∀ i phase, s'.controls.find? i = some phase → phase.isStarting ≠ true := by
    intro i phase hi hph
    have := (h.locked i phase (hnew i phase hi hph) hph).2
    rw [hr] at this
    cases this
  obtain ⟨hempty, hclosed⟩ := SendQueue.toList_close s.queue
  exact {
    controls := hci
    runs := fun r run' hr => by
      rw [hri]
      cases hf : s.runs.find? r with
      | none => rw [hruns r hf] at hr; cases hr
      | some run => exact h.runs r run hf
    locked := fun i phase hi hph => absurd hph (hno i phase hi)
    started := fun hs => by rw [hstate] at hs; cases hs
    installed := fun r hr => by
      rcases hr with hr | ⟨i, hi⟩
      · rw [hrunning] at hr; cases hr
      · exact absurd rfl (hno i _ hi)
    quiet := fun _ _ => {
      registered := by rw [hp]; rfl
      queued := by rw [hq]; exact hempty
      refused := Or.inl (by rw [hq]; exact hclosed) } }

theorem Lifecycle.put_le {s : Session} (h : s.Lifecycle) {i : ControlId} {phase : Control}
    (hi : i ≤ s.controlIds.given) : ∀ j phase', (s.controls.put i phase).find? j = some phase' →
      j ≤ s.controlIds.given := by
  intro j phase' hj
  rw [Directory.find?_put] at hj
  split at hj
  · next he => rw [← he]; exact hi
  · exact h.controls j phase' hj

theorem Lifecycle.erase_le {s : Session} (h : s.Lifecycle) {i : ControlId} :
    ∀ j phase', (s.controls.erase i).find? j = some phase' → j ≤ s.controlIds.given := by
  intro j phase' hj
  rw [Directory.find?_erase] at hj
  split at hj
  · cases hj
  · exact h.controls j phase' hj

/-- A call that is not waiting for a reader ends. -/
theorem Lifecycle.of_endControl {s s' : Session} {i : ControlId} {phase : Control}
    (h : s.Lifecycle) (hi : s.controls.find? i = some phase)
    (hph : ∀ r, phase ≠ .awaitingReader r)
    (hcs : s'.controls = s.controls.erase i) (hci : s'.controlIds = s.controlIds)
    (hl : s'.lifecycleLock = (s.releaseLifecycle (.control i)).lifecycleLock)
    (hrunning : s'.running = s.running) (hstarted : s'.state = .started → s.state = .started)
    (hri : s'.runIds = s.runIds) (hruns : s'.runs = s.runs)
    (hp : s'.pending = s.pending) (hq : s'.queue = s.queue) : s'.Lifecycle := by
  refine h.of_controls ?_ ?_ ?_ hrunning hstarted hri (fun r => by rw [hruns]) hp hq
  · rw [hcs, hci]
    exact h.erase_le
  · intro j phase' hj hs
    rw [hcs, Directory.find?_erase] at hj
    split at hj
    · cases hj
    · next hne =>
      obtain ⟨hlock, hr⟩ := h.locked j phase' hj hs
      refine ⟨?_, hr⟩
      have hkeep := holds_release (u := .control i) hlock (by simpa using Ne.symm hne)
      rw [holdsLifecycle] at hkeep ⊢
      rw [hl]
      exact hkeep
  · intro j r
    rw [hcs, Directory.find?_erase]
    split
    · next he =>
      subst he
      rw [hi]
      exact ⟨fun h => (by cases h), fun h => absurd (Option.some.inj h) (hph r)⟩
    · exact Iff.rfl

/-- A call that is not waiting for a reader, and is not about to, goes on. -/
theorem Lifecycle.of_setControl {s s' : Session} {i : ControlId} {phase phase' : Control}
    (h : s.Lifecycle) (hi : s.controls.find? i = some phase)
    (hph : ∀ r, phase ≠ .awaitingReader r) (hph' : ∀ r, phase' ≠ .awaitingReader r)
    (hstart : phase'.isStarting = true →
      s.holdsLifecycle (.control i) = true ∧ s.running = none)
    (hcs : s'.controls = s.controls.put i phase') (hci : s'.controlIds = s.controlIds)
    (hl : s'.lifecycleLock = s.lifecycleLock) (hrunning : s'.running = s.running)
    (hstarted : s'.state = .started → s.state = .started)
    (hri : s'.runIds = s.runIds) (hruns : s'.runs = s.runs)
    (hp : s'.pending = s.pending) (hq : s'.queue = s.queue) : s'.Lifecycle := by
  refine h.of_controls ?_ ?_ ?_ hrunning hstarted hri (fun r => by rw [hruns]) hp hq
  · rw [hcs, hci]
    exact h.put_le (h.controls i phase hi)
  · intro j phase'' hj hs
    rw [hcs, Directory.find?_put] at hj
    rw [holdsLifecycle, hl]
    split at hj
    · next he =>
      subst he
      obtain rfl := Option.some.inj hj
      exact hstart hs
    · exact h.locked j phase'' hj hs
  · intro j r
    rw [hcs, Directory.find?_put]
    split
    · next he =>
      subst he
      rw [hi]
      exact ⟨fun h => absurd (Option.some.inj h) (hph' r),
        fun h => absurd (Option.some.inj h) (hph r)⟩
    · exact Iff.rfl

/-- A new call gets in turn for the lock. -/
theorem Lifecycle.of_beginControl {s : Session} (h : s.Lifecycle) {phase : Control}
    (hp : phase.isStarting = false) : (s.beginControl phase).2.Lifecycle := by
  have hnew := h.find?_next_control
  refine h.of_controls ?_ ?_ ?_ rfl id rfl (fun _ => rfl) rfl rfl
  · intro j phase' hj
    change (s.controls.put (s.controlIds.given + 1) phase).find? j = some phase' at hj
    rw [Directory.find?_put] at hj
    split at hj
    · next he => exact Nat.le_of_eq he.symm
    · exact Nat.le_succ_of_le (h.controls j phase' hj)
  · intro j phase' hj hs
    change (s.controls.put (s.controlIds.given + 1) phase).find? j = some phase' at hj
    rw [Directory.find?_put] at hj
    split at hj
    · obtain rfl := Option.some.inj hj
      rw [hp] at hs; cases hs
    · obtain ⟨hl, hr⟩ := h.locked j phase' hj hs
      exact ⟨holds_of_longer (List.prefix_append _ _) hl, hr⟩
  · intro j r
    change (s.controls.put (s.controlIds.given + 1) phase).find? j = _ ↔ _
    rw [Directory.find?_put]
    split
    · next he =>
      rw [← he, hnew]
      refine ⟨fun h => ?_, fun h => by cases h⟩
      obtain rfl := Option.some.inj h
      cases hp
    · exact Iff.rfl

/-- A new run begins, and its start waits for the reader. -/
theorem Lifecycle.of_spawn {s : Session} {i : ControlId} {c : CallId} (h : s.Lifecycle)
    (hi : s.controls.find? i = some (.opening c)) :
    (s.spawn.2.setControl i (.awaitingReader s.spawn.1)).Lifecycle where
  controls := h.put_le (h.controls i _ hi)
  runs := fun r run hr => by
    change (s.runs.put (s.runIds.given + 1) _).find? r = some run at hr
    rw [Directory.find?_put] at hr
    split at hr
    · next he => exact Nat.le_of_eq he.symm
    · exact Nat.le_succ_of_le (h.runs r run hr)
  locked := fun j phase hj hp => by
    change (s.controls.put i _).find? j = some phase at hj
    rw [Directory.find?_put] at hj
    split at hj
    · next he =>
      subst he
      exact h.locked i _ hi rfl
    · exact h.locked j phase hj hp
  started := h.started
  installed := fun r hr => by
    have hput : ∀ r', (s.runs.put (s.runIds.given + 1) (.fresh s.now)).find? r' =
        if s.runIds.given + 1 = r' then some (.fresh s.now) else s.runs.find? r' :=
      fun r' => Directory.find?_put s.runs _ r' _
    change ((s.runs.put (s.runIds.given + 1) (.fresh s.now)).find? r).map Run.cancelled = _
    rw [hput]
    split
    · rfl
    · next hne =>
      -- an older run is waited for by the call that waited for it before
      refine h.installed r (hr.imp_right (Exists.imp fun j hj => ?_))
      change (s.controls.put i (.awaitingReader (s.runIds.given + 1))).find? j = _ at hj
      rw [Directory.find?_put] at hj
      split at hj
      · exact absurd (Control.awaitingReader.inj (Option.some.inj hj)) hne
      · exact hj
  quiet := fun _ hno => by
    refine absurd ?_ (hno i s.spawn.1)
    show (s.controls.put i _).find? i = _
    rw [Directory.find?_put, if_pos rfl]

/-- The new run is installed. -/
theorem Lifecycle.of_startEnds {s : Session} {i : ControlId} {r : RunId} (h : s.Lifecycle)
    (hi : s.controls.find? i = some (.awaitingReader r)) :
    ((({ s with running := some r }.enter .started).1.endControl i none).1).Lifecycle := by
  -- the start that ends is the only one under way
  have hno : ∀ j phase, (s.controls.erase i).find? j = some phase → phase.isStarting ≠ true := by
    intro j phase hj hp
    rw [Directory.find?_erase] at hj
    split at hj
    · cases hj
    · next hne =>
      have := h.eq_of_holds hi rfl (h.locked j phase hj hp).1
      exact hne (TaskId.control.inj this).symm
  rw [enter_fst]
  exact {
    controls := h.erase_le
    runs := h.runs
    locked := fun j phase hj hp => absurd hp (hno j phase hj)
    started := fun _ => Option.some_ne_none r
    installed := fun r' hr => by
      rcases hr with hr | ⟨j, hj⟩
      · obtain rfl := Option.some.inj hr
        exact h.installed r (Or.inr ⟨i, hi⟩)
      · exact absurd rfl (hno j _ hj)
    quiet := fun hr => absurd hr (Option.some_ne_none r) }

theorem find?_runs_exitTask (s : Session) (t : TaskId) (r : RunId) :
    ((s.exitTask t).runs.find? r).map Run.cancelled = (s.runs.find? r).map Run.cancelled := by
  cases t with
  | reader r' => exact find?_cancelled_modifyRun s r' r fun _ => rfl
  | writer r' => exact find?_cancelled_modifyRun s r' r fun _ => rfl
  | control i => rfl
  | scanner r' => rfl
  | caller i => rfl

theorem find?_runs_putTeardown (s : Session) (t : TaskId) (teardown : Teardown) (r : RunId) :
    ((s.putTeardown t teardown).runs.find? r).map Run.cancelled =
      (s.runs.find? r).map Run.cancelled := by
  cases t with
  | reader r' => exact find?_cancelled_modifyRun s r' r fun _ => rfl
  | writer r' => exact find?_cancelled_modifyRun s r' r fun _ => rfl
  | control i => rfl
  | scanner r' => rfl
  | caller i => rfl

/-- Taking a run away leaves no run out. -/
theorem find?_takenDown_eq_none {s : Session} {r' : RunId} (t : TaskId) (r : RunId)
    (error : SessionError) (h : s.runs.find? r' = none) :
    (s.takenDown t r error).runs.find? r' = none := by
  rw [takenDown_eq]
  change (s.runs.modify r _).find? r' = none
  rw [Directory.find?_modify, h]
  split <;> rfl

/-- Starts, stops and faults keep the invariants of the lifecycle. -/
theorem lifecycle_governs {s s' : Session} {o : Occurrence} (h : s.Lifecycle)
    (hg : Governs s o s') : s'.Lifecycle := by
  cases hg with
  | asksStart => exact h.of_beginControl rfl
  | asksStop => exact h.of_beginControl rfl
  | @refuses i failure hi =>
    rcases hi with hi | hi
    · exact h.of_endControl hi (by simp) rfl rfl rfl rfl id rfl rfl rfl rfl
    · exact h.of_endControl hi (by simp) rfl rfl rfl rfl id rfl rfl rfl rfl
  | startBegins hi hl hr =>
    rw [enter_fst]
    exact h.of_setControl hi (by simp) (by simp) (fun _ => ⟨hl, hr⟩) rfl rfl rfl rfl
      (fun h => by cases h) rfl rfl rfl rfl
  | startFails failure hi =>
    rw [enter_fst]
    exact h.of_endControl hi (by simp) rfl rfl rfl rfl (fun h => by cases h) rfl rfl rfl rfl
  | spawns hi => exact h.of_spawn hi
  | startEnds hi => exact h.of_startEnds hi
  | @stopBegins i r hi hl hr =>
    refine h.of_takenDown hr ?_ ?_ ?_ ?_ ?_
      (fun _ => find?_takenDown_eq_none (.control i) r .cancelled) ?_ ?_
    all_goals rw [takenDown_eq]
    · exact h.put_le (h.controls i _ hi)
    · intro j phase hj hp
      change (s.controls.put i _).find? j = some phase at hj
      rw [Directory.find?_put] at hj
      split at hj
      · obtain rfl := Option.some.inj hj
        cases hp
      · exact hj
    all_goals rfl
  | stopJoins hi =>
    exact h.of_setControl hi (by simp) (by simp) (fun h => by cases h) rfl rfl rfl rfl id
      rfl rfl rfl rfl
  | stopEnds hi =>
    rw [enter_fst]
    exact h.of_endControl hi (by simp) rfl rfl rfl rfl (fun h => by cases h) rfl rfl rfl rfl
  | @faultBegins t cause r ht hl hr =>
    obtain ⟨runs, hput⟩ := putTeardown_eq (s.takenDown t r (.connection cause)) t
      (.closing s.link.nextCall)
    have hnone : ∀ r', s.runs.find? r' = none → runs.find? r' = none := by
      intro r' hr'
      have hc := find?_runs_putTeardown (s.takenDown t r (.connection cause)) t
        (.closing s.link.nextCall) r'
      rw [hput, find?_takenDown_eq_none t r _ hr', Option.map_none, Option.map_eq_none_iff] at hc
      exact hc
    rw [hput]
    refine h.of_takenDown hr ?_ ?_ ?_ ?_ ?_ hnone ?_ ?_
    all_goals rw [takenDown_eq]
    · exact h.controls
    · exact fun j phase hj _ => hj
  | @faultLate t cause ht hl hr =>
    have hruns := find?_runs_exitTask (s.releaseLifecycle t) t
    obtain ⟨runs, hexit⟩ := exitTask_eq (s.releaseLifecycle t) t
    rw [hexit] at hruns ⊢
    refine h.of_controls h.controls (fun i phase hi hp => ?_) (fun _ _ => Iff.rfl) rfl id rfl
      hruns rfl rfl
    -- a start under way would hold the lock, and a start is no task that faults
    obtain rfl := h.eq_of_holds hi hp hl
    cases ht
  | @faultEnds t c ht =>
    have hruns := find?_runs_exitTask (s.enter .stopped).1 t
    obtain ⟨runs, hexit⟩ := exitTask_eq (s.enter .stopped).1 t
    rw [hexit] at hruns ⊢
    rw [enter_fst] at hruns ⊢
    exact h.of_controls h.controls h.locked (fun _ _ => Iff.rfl) rfl (fun h => by cases h) rfl
      hruns rfl rfl

/-- A move of the link leaves starts and runs where they are. -/
theorem Lifecycle.withLink {s : Session} (h : s.Lifecycle) (link : Link) :
    Lifecycle { s with link := link } := by
  have hlink : SameLifecycle s { s with link := link } :=
    .of_eq rfl rfl rfl rfl rfl List.prefix_rfl rfl
  exact h.of_same hlink fun hq _ => hq.of_eq hq.registered rfl fun _ => id

/-- **Whatever happens keeps the invariants of the lifecycle.** -/
theorem lifecycle_happens {s s' : Session} {o : Occurrence} (ho : Happens s o s')
    (h : s.Lifecycle) : s'.Lifecycle := by
  rcases happens_cases ho with ⟨r, run, frame, _, hr, _, rfl⟩ | ⟨_, hw | ⟨link, _, hg⟩⟩
  · exact lifecycle_noteWritten h hr
  · exact lifecycle_worked h hw
  · exact lifecycle_governs (h.withLink link) hg

theorem lifecycle_of_history {config : SessionConfig} {link : Link} {s : Session}
    {past : List (Session × Occurrence)} (h : History (fresh config link) past s) :
    s.Lifecycle :=
  h.invariant lifecycle_happens (lifecycle_fresh config link)

end Session

end ZoneBus
