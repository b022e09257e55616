import ZoneBus.Proofs.Session.Inversion

/-!
# What everyday work leaves alone

Everyday work neither begins nor ends a start or a teardown: the published state,
the installed run and the calls that start and stop stay what they were, no run
comes or goes, and whoever holds the lifecycle lock goes on holding it.

## Main definitions

* `Session.SameLifecycle` — starts and teardowns are where they were.

## Main results

* `Session.sameLifecycle_works`, `sameLifecycle_noteWritten` — everyday work, and
  noting a written frame.
* `Session.holds_of_longer`, `holds_release`, `eq_of_holds` — the lifecycle lock.
-/

namespace ZoneBus

namespace Session

/-! ### What everyday work leaves alone -/

theorem find?_cancelled_modifyRun (s : Session) (r r' : RunId) {f : Run → Run}
    (hf : ∀ run, (f run).cancelled = run.cancelled) :
    ((s.modifyRun r f).runs.find? r').map Run.cancelled =
      (s.runs.find? r').map Run.cancelled := by
  rw [find?_modifyRun]
  split
  · rw [Option.map_map]
    exact congrArg (fun g => (s.runs.find? r').map g) (funext hf)
  · rfl

/-- Starts and teardowns are where they were; only the lock may have been asked for. -/
structure SameLifecycle (s s' : Session) : Prop where
  /-- The published state is the same. -/
  state : s'.state = s.state
  /-- The installed run is the same. -/
  running : s'.running = s.running
  /-- The calls that start and stop have come as far. -/
  controls : s'.controls = s.controls
  /-- They are numbered on from the same number. -/
  controlIds : s'.controlIds = s.controlIds
  /-- So are the runs. -/
  runIds : s'.runIds = s.runIds
  /-- Whoever held the lock or was in turn for it still is. -/
  lock : s.lifecycleLock <+: s'.lifecycleLock
  /-- The same runs are there, and the same ones are to end. -/
  cancelled : ∀ r, (s'.runs.find? r).map Run.cancelled = (s.runs.find? r).map Run.cancelled
  /-- No task began to close a run down. -/
  closing : ∀ t c, s'.teardownOf? t = some (.closing c) → s.teardownOf? t = some (.closing c)

namespace SameLifecycle

variable {s s' s'' : Session}

theorem trans (h : SameLifecycle s s') (h' : SameLifecycle s' s'') : SameLifecycle s s'' where
  state := h'.state.trans h.state
  running := h'.running.trans h.running
  controls := h'.controls.trans h.controls
  controlIds := h'.controlIds.trans h.controlIds
  runIds := h'.runIds.trans h.runIds
  lock := h.lock.trans h'.lock
  cancelled := fun r => (h'.cancelled r).trans (h.cancelled r)
  closing := fun t c ht => h.closing t c (h'.closing t c ht)

/-- What leaves the tasks alone leaves starts and teardowns alone. -/
theorem of_eq (hs : s'.state = s.state) (hr : s'.running = s.running)
    (hc : s'.controls = s.controls) (hci : s'.controlIds = s.controlIds)
    (hi : s'.runIds = s.runIds) (hl : s.lifecycleLock <+: s'.lifecycleLock)
    (hruns : s'.runs = s.runs) : SameLifecycle s s' where
  state := hs
  running := hr
  controls := hc
  controlIds := hci
  runIds := hi
  lock := hl
  cancelled := fun r => by rw [hruns]
  closing := fun t c ht => by
    cases t <;> simpa only [teardownOf?, hruns] using ht

theorem refl (s : Session) : SameLifecycle s s := of_eq rfl rfl rfl rfl rfl List.prefix_rfl rfl

theorem of_trafficOnly (h : s.TrafficOnly s') : SameLifecycle s s' := by
  obtain ⟨_, _, _, _, rfl⟩ := h
  exact of_eq rfl rfl rfl rfl rfl List.prefix_rfl rfl

/-- A task of a run comes further without beginning to close the run down. -/
theorem of_modifyRun {r : RunId} {run : Run} {f : Run → Run} (hr : s.runs.find? r = some run)
    (hc : (f run).cancelled = run.cancelled)
    (hread : ∀ c, (f run).reader = .faulting (.closing c) → run.reader = .faulting (.closing c))
    (hwrite : ∀ c, (f run).writer = .faulting (.closing c) →
      run.writer = .faulting (.closing c)) : SameLifecycle s (s.modifyRun r f) where
  state := rfl
  running := rfl
  controls := rfl
  controlIds := rfl
  runIds := rfl
  lock := List.prefix_rfl
  cancelled := fun r' => by
    rw [find?_modifyRun]
    by_cases h : r = r'
    · subst h
      rw [if_pos rfl, hr]
      exact congrArg some hc
    · rw [if_neg h]
  closing := fun t c ht => by
    -- the task that closes down is one of the changed run, or of another one
    rcases teardownOf?_cases ht with ⟨r', run', rfl, hf, hph⟩ | ⟨r', run', rfl, hf, hph⟩
    all_goals
      rw [find?_modifyRun] at hf
      by_cases h : r = r'
      · subst h
        rw [if_pos rfl, hr, Option.map_some, Option.some.injEq] at hf
        subst hf
        first
          | exact teardownOf?_reader.mpr ⟨run, hr, hread c hph⟩
          | exact teardownOf?_writer.mpr ⟨run, hr, hwrite c hph⟩
      · rw [if_neg h] at hf
        first
          | exact teardownOf?_reader.mpr ⟨run', hf, hph⟩
          | exact teardownOf?_writer.mpr ⟨run', hf, hph⟩

theorem of_setWriter {r : RunId} {run : Run} {phase : WriterPhase}
    (hr : s.runs.find? r = some run) (hp : ∀ c, phase ≠ .faulting (.closing c)) :
    SameLifecycle s (s.setWriter r phase) :=
  of_modifyRun hr rfl (fun _ h => h) fun c h => absurd h (hp c)

end SameLifecycle

/-- Everyday work leaves starts and teardowns alone. -/
theorem sameLifecycle_works {s s' : Session} (h : Works s s') : SameLifecycle s s' := by
  have aside : ∀ {v w : Session}, w.state = v.state → w.running = v.running →
      w.controls = v.controls → w.controlIds = v.controlIds → w.runIds = v.runIds →
      w.lifecycleLock = v.lifecycleLock → w.runs = v.runs → SameLifecycle v w := by
    intro v w hs hr hc hci hi hl hruns
    exact .of_eq hs hr hc hci hi (hl ▸ List.prefix_rfl) hruns
  cases h with
  | minor h =>
    cases h with
    | aside => exact aside rfl rfl rfl rfl rfl rfl rfl
    | skips t =>
      refine ⟨rfl, rfl, rfl, rfl, rfl, List.prefix_rfl, fun r => ?_, fun t' c ht => ?_⟩
      · rw [find?_scanFrom, Option.map_map]; rfl
      · rcases teardownOf?_cases ht with ⟨r, run, rfl, hf, hph⟩ | ⟨r, run, rfl, hf, hph⟩
        all_goals
          rw [find?_scanFrom, Option.map_eq_some_iff] at hf
          obtain ⟨run', hf', rfl⟩ := hf
          first
            | exact teardownOf?_reader.mpr ⟨run', hf', hph⟩
            | exact teardownOf?_writer.mpr ⟨run', hf', hph⟩
    | @reads r run f hr _ hkeep hread =>
      refine .of_modifyRun hr (hkeep run).1 (fun c h => ?_) (fun c h => ?_)
      · rcases hread with he | ⟨_, hno⟩
        · rw [← he]; exact h
        · exact absurd h (hno c)
      · rw [← (hkeep run).2]; exact h
    | queues t => exact .of_eq rfl rfl rfl rfl rfl (List.prefix_append _ _) rfl
    | enqueues target message priority _ => exact .of_trafficOnly (s.trafficOnly_enqueue _ _ _)
    | withdraws id => exact .of_trafficOnly (s.trafficOnly_withdraw _ _)
    | resolves key reply _ => exact .of_trafficOnly (s.trafficOnly_resolve _ _)
  | writer h =>
    cases h with
    | @pops run frame queue hr _ _ =>
      have hq : SameLifecycle s { s with queue := queue } := aside rfl rfl rfl rfl rfl rfl rfl
      exact hq.trans (.of_setWriter (show _ = some run from hr) (by simp))
    | @sends run frame hr _ _ =>
      have hl : SameLifecycle s (s.beginLink (.send frame.bytes)).2 :=
        aside rfl rfl rfl rfl rfl rfl rfl
      exact hl.trans (.of_setWriter (show _ = some run from hr) (by simp))
    | drops hr _ _ => exact .of_setWriter hr (by simp)
    | writes hr _ => exact .of_setWriter hr (by simp)
    | breaks cause hr _ => exact .of_setWriter hr (by simp)
    | leaves hr _ _ => exact .of_setWriter hr (by simp)
  | scans => exact .of_trafficOnly s.trafficOnly_scan

theorem sameLifecycle_worked {s s' : Session} (h : Worked s s') : SameLifecycle s s' := by
  induction h with
  | refl => exact .refl s
  | tail _ hw ih => exact ih.trans (sameLifecycle_works hw)

/-- Noting a written frame leaves starts and teardowns alone. -/
theorem sameLifecycle_noteWritten {s : Session} {r : RunId} {run : Run}
    (hr : s.runs.find? r = some run) (frame : OutboundFrame) :
    SameLifecycle s ((s.noteWritten frame).1.setWriter r .popping) := by
  refine SameLifecycle.trans (.of_trafficOnly (s.trafficOnly_noteWritten frame)) ?_
  exact .of_setWriter (show _ = some run from hr) (by simp)

/-! ### The lifecycle lock -/

theorem holds_of_longer {s s' : Session} {t : TaskId} (h : s.lifecycleLock <+: s'.lifecycleLock)
    (ht : s.holdsLifecycle t = true) : s'.holdsLifecycle t = true := by
  obtain ⟨more, hmore⟩ := h
  rw [holdsLifecycle, beq_iff_eq] at ht ⊢
  rw [← hmore, List.head?_append, ht, Option.some_or]

theorem holds_release {s : Session} {t u : TaskId} (ht : s.holdsLifecycle t = true)
    (hne : t ≠ u) : (s.releaseLifecycle u).holdsLifecycle t = true := by
  rw [holdsLifecycle, beq_iff_eq] at ht ⊢
  rw [releaseLifecycle]
  cases hl : s.lifecycleLock with
  | nil => rw [hl] at ht; cases ht
  | cons i rest =>
    rw [hl, List.head?_cons, Option.some.injEq] at ht
    subst ht
    -- the front of the line stays where it is when another task leaves
    rw [List.filter_cons_of_pos (by simpa using hne)]
    rfl

theorem eq_of_holds {s : Session} {t u : TaskId} (ht : s.holdsLifecycle t = true)
    (hu : s.holdsLifecycle u = true) : t = u := by
  rw [holdsLifecycle, beq_iff_eq] at ht hu
  rw [ht, Option.some.injEq] at hu
  exact hu

end Session

end ZoneBus
