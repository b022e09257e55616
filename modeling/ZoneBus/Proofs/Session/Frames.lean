import ZoneBus.Proofs.SendQueue.Tiers
import ZoneBus.Proofs.Session.TableOperations

/-!
# Frames on their way out

A frame is on its way out while it is queued or in the hand of a writer.  Frames
are put on their way by registering a request, and by a look at the deadlines,
which takes them from registered requests; so every frame on its way bears a
number that was given out.

## Main definitions

* `WriterPhase.hand?` — the frame in the hand of a writer.
* `Session.Underway` — a frame is queued or in hand.
* `Session.resends` — the frames that an expiry sends once more.

## Main results

* `Session.scan_of_open`, `scan_of_closed` — what a look at the deadlines does.
* `Session.underway_works` — where a frame on its way comes from.
* `Session.known_of_history` — frames on their way bear numbers that were given out.
-/

namespace ZoneBus

/-- The frame in the hand of a writer. -/
def WriterPhase.hand? : WriterPhase → Option OutboundFrame
  | .checking frame => some frame
  | .sending frame _ => some frame
  | .marking frame => some frame
  | _ => none

namespace Session

/-! ### Looking at the deadlines -/

/-- The frames that are sent once more. -/
def resends (results : List Expiry) : List OutboundFrame :=
  results.filterMap fun e =>
    match e with
    | .resend frame _ _ => some frame
    | .timedOut _ _ => none

theorem resends_eq (results : List Expiry) :
    resends results = (results.filterMap Expiry.requeued?).map Prod.snd := by
  unfold resends
  rw [List.map_filterMap]
  refine List.filterMap_congr fun e _ => ?_
  cases e <;> rfl

/-- An open queue takes every frame that is sent once more. -/
theorem handOn_of_open : ∀ (results : List Expiry) (v : Session), v.queue.closed = false →
    (results.foldl handOn v).pending = v.pending ∧
      (results.foldl handOn v).delivered = v.delivered ∧
      (results.foldl handOn v).queue.closed = false ∧
      v.queue.Extends (results.foldl handOn v).queue (results.filterMap Expiry.requeued?) := by
  intro results
  induction results with
  | nil => exact fun _ h => ⟨rfl, rfl, h, SendQueue.extends_of_eq rfl rfl⟩
  | cons e results ih =>
    intro v h
    cases e with
    | resend frame priority attempt =>
      cases hp : v.queue.push priority frame with
      | none => rw [SendQueue.push_eq_none_iff, h] at hp; cases hp
      | some queue =>
        have hstep : v.handOn (.resend frame priority attempt) = { v with queue := queue } := by
          rw [handOn, hp]
        rw [List.foldl_cons, hstep]
        obtain ⟨hpend, hdel, hopen, hext⟩ := ih { v with queue := queue }
          ((SendQueue.push_spec hp).2.trans h)
        exact ⟨hpend, hdel, hopen, (SendQueue.extends_push hp).trans hext⟩
    | timedOut id attempts => exact ih v h

/-- A closed queue stays as it is, and the requests that would be sent once more are
withdrawn. -/
theorem handOn_of_closed : ∀ (results : List Expiry) (v : Session), v.queue.closed = true →
    (results.foldl handOn v).queue = v.queue ∧
      (∀ id r, (results.foldl handOn v).pending.requests.find? id = some r →
        v.pending.requests.find? id = some r ∧ ∀ frame ∈ resends results, frame.id ≠ id) ∧
      ∀ e ∈ (results.foldl handOn v).delivered, e ∈ v.delivered ∨ e.2 = .failure .cancelled := by
  intro results
  induction results with
  | nil =>
    exact fun _ _ => ⟨rfl, fun _ _ hf => ⟨hf, fun _ hm => by cases hm⟩, fun _ hm => Or.inl hm⟩
  | cons e results ih =>
    intro v h
    cases e with
    | resend frame priority attempt =>
      have hstep : v.handOn (.resend frame priority attempt) =
          (v.withdraw frame.id .cancelled).2 := by
        rw [handOn, SendQueue.push_eq_none_iff.mpr h]
      rw [List.foldl_cons, hstep]
      obtain ⟨hqueue, hleft, htold⟩ := ih (v.withdraw frame.id .cancelled).2 h
      refine ⟨hqueue, fun id r hf => ?_, fun e hm => ?_⟩
      · obtain ⟨hf, hrest⟩ := hleft id r hf
        obtain ⟨hne, hf⟩ := find?_of_cancel hf
        refine ⟨hf, fun f hm => ?_⟩
        rcases List.mem_cons.mp hm with rfl | hm
        · exact hne
        · exact hrest f hm
      · rcases htold e hm with hm | hm
        · exact (mem_delivered_of_withdraw hm).imp_right fun he => by rw [he]
        · exact Or.inr hm
    | timedOut id attempts => exact ih v h

/-- **What a look at the deadlines does while the queue is open.** -/
theorem scan_of_open {s : Session} (h : s.queue.closed = false) :
    s.scan.pending = (s.pending.expire s.now).table ∧
      s.scan.delivered = s.delivered ++ outcomesOf (s.pending.expire s.now).settled ∧
      s.scan.queue.closed = false ∧
      s.queue.Extends s.scan.queue
        ((s.pending.expire s.now).results.filterMap Expiry.requeued?) := by
  have handed := handOn_of_open (s.pending.expire s.now).results
    ({ s with pending := (s.pending.expire s.now).table }.deliver
      (s.pending.expire s.now).settled) h
  exact handed

/-- **What it does while the queue is closed.** -/
theorem scan_of_closed {s : Session} (h : s.queue.closed = true) :
    s.scan.queue = s.queue ∧
      (∀ id r, s.scan.pending.requests.find? id = some r →
        (s.pending.expire s.now).table.requests.find? id = some r ∧
          ∀ frame ∈ resends (s.pending.expire s.now).results, frame.id ≠ id) ∧
      ∀ e ∈ s.scan.delivered,
        e ∈ s.delivered ++ outcomesOf (s.pending.expire s.now).settled ∨
          e.2 = .failure .cancelled := by
  have handed := handOn_of_closed (s.pending.expire s.now).results
    ({ s with pending := (s.pending.expire s.now).table }.deliver
      (s.pending.expire s.now).settled) h
  exact handed

/-- A look at the deadlines takes nothing out of the queue. -/
theorem exists_extends_scan (s : Session) : ∃ items, s.queue.Extends s.scan.queue items := by
  cases hc : s.queue.closed with
  | false => exact ⟨_, (scan_of_open hc).2.2.2⟩
  | true =>
    rw [(scan_of_closed hc).1]
    exact ⟨[], SendQueue.extends_of_eq rfl rfl⟩

theorem toList_scan_of_open {s : Session} (h : s.queue.closed = false) :
    s.scan.queue.toList.Perm
      (resends (s.pending.expire s.now).results ++ s.queue.toList) := by
  obtain ⟨_, _, _, hext⟩ := scan_of_open h
  rw [resends_eq]
  exact hext.toList_perm

/-- A frame that is sent once more is that of a registered request. -/
theorem registered_of_mem_resends {t : PendingTable} (hn : t.requests.keys.Nodup)
    {now : Instant} {frame : OutboundFrame} (h : frame ∈ resends (t.expire now).results) :
    ∃ id r, t.requests.find? id = some r ∧ r.frame = frame := by
  rw [resends_eq, PendingTable.requeued_eq hn, List.mem_map] at h
  obtain ⟨⟨priority, _⟩, he, rfl⟩ := h
  obtain ⟨id, _, he⟩ := List.mem_filterMap.mp he
  obtain ⟨r, hr, he⟩ := Option.bind_eq_some_iff.mp he
  split at he
  · exact ⟨id, r, hr, congrArg Prod.snd (Option.some.inj he)⟩
  · cases he

/-! ### Frames under way -/

/-- A frame is queued, or in the hand of a writer. -/
def Underway (s : Session) (frame : OutboundFrame) : Prop :=
  frame ∈ s.queue.toList ∨
    ∃ r run, s.runs.find? r = some run ∧ run.writer.hand? = some frame

/-- With the same queue, and nothing new in any hand. -/
theorem Underway.of_runs {s s' : Session} {frame : OutboundFrame} (h : s'.Underway frame)
    (hq : s'.queue.toList = s.queue.toList)
    (hruns : ∀ r run', s'.runs.find? r = some run' → run'.writer.hand? = some frame →
      s.Underway frame) : s.Underway frame := by
  rcases h with h | ⟨r, run', hr, hh⟩
  · exact Or.inl (hq ▸ h)
  · exact hruns r run' hr hh

/-- A run is changed, and its writer takes nothing new into its hand. -/
theorem Underway.of_modifyRun {s : Session} {r : RunId} {f : Run → Run} {frame : OutboundFrame}
    (h : (s.modifyRun r f).Underway frame)
    (hf : ∀ run, s.runs.find? r = some run → (f run).writer.hand? = some frame →
      s.Underway frame) : s.Underway frame := by
  refine h.of_runs rfl fun r' run' hr' hh => ?_
  rw [find?_modifyRun] at hr'
  split at hr'
  · next he =>
    subst he
    obtain ⟨run, hrun, rfl⟩ := Option.map_eq_some_iff.mp hr'
    exact hf run hrun hh
  · exact Or.inr ⟨r', run', hr', hh⟩

theorem Underway.of_setWriter {s : Session} {r : RunId} {phase : WriterPhase}
    {frame : OutboundFrame} (h : (s.setWriter r phase).Underway frame)
    (hf : phase.hand? = some frame → s.Underway frame) : s.Underway frame :=
  h.of_modifyRun fun _ _ hh => hf hh

/-- A message that is queued brings its own frame on its way. -/
theorem underway_enqueue {s : Session} {target : Address} {message : Message}
    {priority : Priority} {frame : OutboundFrame}
    (h : (s.enqueue target message priority).2.Underway frame) :
    s.Underway frame ∨
      frame.id ≤ (s.enqueue target message priority).2.requestIds.given ∧
        s.requestIds.given < frame.id := by
  rcases s.enqueue_cases target message priority with
    ⟨e, he⟩ | ⟨bytes, _, ⟨queue, hp, he⟩ | ⟨_, he⟩⟩
  · rw [he] at h
    exact Or.inl h
  · rw [he] at h ⊢
    rcases h with hq | hh
    · rw [(SendQueue.push_spec hp).1.mem_iff, List.mem_cons] at hq
      rcases hq with rfl | hq
      · exact Or.inr ⟨Nat.le_refl _, Nat.lt_succ_self _⟩
      · exact Or.inl (Or.inl hq)
    · exact Or.inl (Or.inr hh)
  · rw [he] at h
    exact Or.inl h

/-- A writer that comes further brings no frame on its way. -/
theorem underway_writes {s s' : Session} {r : RunId} (hw : Writes r s s') {frame : OutboundFrame}
    (h : s'.Underway frame) : s.Underway frame := by
  cases hw with
  | @pops run popped queue hr _ hp =>
    obtain ⟨hlist, _⟩ := SendQueue.toList_of_tryPop hp
    -- what is in hand now was at the front of the queue
    have hback : (({ s with queue := queue }).Underway frame ∨ popped = frame) := by
      by_cases he : popped = frame
      · exact Or.inr he
      · exact Or.inl (h.of_setWriter fun hh => absurd (Option.some.inj hh) he)
    rcases hback with (hq | hh) | rfl
    · exact Or.inl (by rw [hlist]; exact List.mem_cons_of_mem _ hq)
    · exact Or.inr hh
    · exact Or.inl (by rw [hlist]; exact List.mem_cons_self)
  | @sends run sent hr hph _ =>
    refine Underway.of_setWriter (s := (s.beginLink (.send sent.bytes)).2) h fun hh => ?_
    exact Or.inr ⟨r, run, hr, by rw [hph]; exact hh⟩
  | drops => exact h.of_setWriter fun hh => by cases hh
  | @writes run sent c hr hph =>
    exact h.of_setWriter fun hh => Or.inr ⟨r, run, hr, by rw [hph]; exact hh⟩
  | breaks => exact h.of_setWriter fun hh => by cases hh
  | leaves => exact h.of_setWriter fun hh => by cases hh

/-- **Where a frame on its way comes from**: it was on its way before, it has just been
registered, or it is that of a registered request. -/
theorem underway_works {s s' : Session} (hl : s.Ledger) (hw : Works s s') {frame : OutboundFrame}
    (h : s'.Underway frame) :
    s.Underway frame ∨ frame.id ≤ s'.requestIds.given ∧ s.requestIds.given < frame.id ∨
      ∃ id r, s.pending.requests.find? id = some r ∧ r.frame = frame := by
  cases hw with
  | minor hw =>
    cases hw with
    | aside => exact Or.inl h
    | skips t =>
      refine Or.inl (h.of_runs rfl fun r run' hr hh => ?_)
      rw [find?_scanFrom, Option.map_eq_some_iff] at hr
      obtain ⟨run, hrun, rfl⟩ := hr
      exact Or.inr ⟨r, run, hrun, hh⟩
    | @reads r _ f _ _ hkeep _ =>
      refine Or.inl (h.of_modifyRun fun run hr hh => ?_)
      rw [(hkeep run).2] at hh
      exact Or.inr ⟨r, run, hr, hh⟩
    | queues => exact Or.inl h
    | enqueues target message priority _ => exact (underway_enqueue h).imp_right Or.inl
    | withdraws => exact Or.inl h
    | resolves => exact Or.inl h
  | writer hw => exact Or.inl (underway_writes hw h)
  | scans =>
    rcases h with hq | hh
    -- a closed queue takes nothing; an open one takes frames of registered requests
    · cases hc : s.queue.closed with
      | true =>
        rw [(scan_of_closed hc).1] at hq
        exact Or.inl (Or.inl hq)
      | false =>
        rw [(toList_scan_of_open hc).mem_iff, List.mem_append] at hq
        rcases hq with hq | hq
        · exact Or.inr (Or.inr (registered_of_mem_resends hl.keys_nodup hq))
        · exact Or.inl (Or.inl hq)
    · rw [runs_scan] at hh
      exact Or.inl (Or.inr hh)

/-- A task's teardown leaves every hand as it was, or empty. -/
theorem Underway.of_putTeardown {s : Session} {t : TaskId} {teardown : Teardown}
    {frame : OutboundFrame} (h : (s.putTeardown t teardown).Underway frame) :
    s.Underway frame := by
  cases t with
  | reader r => exact h.of_modifyRun fun run hr hh => Or.inr ⟨r, run, hr, hh⟩
  | writer r => exact h.of_setWriter fun hh => by cases hh
  | control i => exact h
  | scanner r => exact h
  | caller i => exact h

theorem Underway.of_exitTask {s : Session} {t : TaskId} {frame : OutboundFrame}
    (h : (s.exitTask t).Underway frame) : s.Underway frame := by
  cases t with
  | reader r => exact h.of_modifyRun fun run hr hh => Or.inr ⟨r, run, hr, hh⟩
  | writer r => exact h.of_setWriter fun hh => by cases hh
  | control i => exact h
  | scanner r => exact h
  | caller i => exact h

theorem Underway.of_takenDown {s : Session} {t : TaskId} {r : RunId} {error : SessionError}
    {frame : OutboundFrame} (h : (s.takenDown t r error).Underway frame) : s.Underway frame := by
  rw [takenDown_eq] at h
  rcases h with hq | ⟨r', run', hr', hh⟩
  · rw [(SendQueue.toList_close _).1] at hq
    cases hq
  · have hmod : (s.modifyRun r fun run => { run with cancelled := true }).Underway frame :=
      Or.inr ⟨r', run', hr', hh⟩
    exact hmod.of_modifyRun fun run hr hh => Or.inr ⟨r, run, hr, hh⟩

/-- Starts, stops and faults put no frame on its way. -/
theorem underway_governs {s s' : Session} {o : Occurrence} (hg : Governs s o s')
    {frame : OutboundFrame} (h : s'.Underway frame) : s.Underway frame := by
  cases hg with
  | asksStart => exact h
  | asksStop => exact h
  | refuses => exact h
  | startBegins => rw [enter_fst] at h; exact h
  | startFails => rw [enter_fst] at h; exact h
  | spawns =>
    refine h.of_runs rfl fun r run hr hh => ?_
    change (s.runs.put (s.runIds.given + 1) _).find? r = some run at hr
    rw [Directory.find?_put] at hr
    split at hr
    · obtain rfl := Option.some.inj hr
      cases hh
    · exact Or.inr ⟨r, run, hr, hh⟩
  | startEnds => rw [enter_fst] at h; exact h
  | @stopBegins i r =>
    have htaken : (s.takenDown (.control i) r .cancelled).Underway frame := h
    exact htaken.of_takenDown
  | stopJoins => exact h
  | stopEnds => rw [enter_fst] at h; exact h
  | faultBegins => exact h.of_putTeardown.of_takenDown
  | @faultLate t => exact Underway.of_exitTask (s := s.releaseLifecycle t) h
  | faultEnds =>
    have := h.of_exitTask
    rw [enter_fst] at this
    exact this

/-- Frames on their way bear numbers that were given out. -/
def Known (s : Session) : Prop := ∀ frame, s.Underway frame → frame.id ≤ s.requestIds.given

theorem known_works {s s' : Session} (hl : s.Ledger) (ht : TableOk s.pending) (hk : s.Known)
    (hw : Works s s') : s'.Known := by
  intro frame h
  have hgiven := (keepsBooks_works hw).2.1
  rcases underway_works hl hw h with h | ⟨hle, _⟩ | ⟨id, r, hr, rfl⟩
  · exact Nat.le_trans (hk frame h) hgiven
  · exact hle
  -- a frame that is sent once more bears the number of its request
  · rw [ht.framed id r hr]
    exact Nat.le_trans (hl.le_of_find? hr).2 hgiven

theorem known_worked {s s' : Session} (hl : s.Ledger) (ht : TableOk s.pending) (hk : s.Known)
    (hw : Worked s s') : s'.Known := by
  induction hw with
  | refl => exact hk
  | tail hv hw ih =>
    refine known_works ((keepsBooks_worked hv).1 hl) ?_ ih hw
    exact tableOk_posted (b := s.books) ht (posted_worked hl hv)

/-- Whatever happens, frames on their way bear numbers that were given out. -/
theorem known_happens {s s' : Session} {o : Occurrence} (hl : s.Ledger) (ht : TableOk s.pending)
    (hk : s.Known) (ho : Happens s o s') : s'.Known := by
  rcases happens_cases ho with ⟨r, run, written, _, hr, hph, rfl⟩ | ⟨_, hw | ⟨link, _, hg⟩⟩
  · intro frame h
    have h' := Underway.of_setWriter (s := (s.noteWritten written).1) h fun hh => by cases hh
    exact hk frame h'
  · exact known_worked hl ht hk hw
  · intro frame h
    exact Nat.le_trans (hk frame (underway_governs hg h)) (keepsBooks_governs hg).2.1

theorem known_of_history {config : SessionConfig} {link : Link} {s : Session}
    {past : List (Session × Occurrence)} (h : History (fresh config link) past s) : s.Known := by
  induction h with
  | nil =>
    rintro frame (hq | ⟨r, run, hr, _⟩)
    · cases hq
    · cases hr
  | cons h ho ih => exact known_happens (ledger_of_history h) (tableOk_of_history h) ih ho

end Session

end ZoneBus
