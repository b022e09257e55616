import ZoneBus.Proofs.Session.Copies
import ZoneBus.Proofs.Session.Outcomes
import ZoneBus.Proofs.Session.QueueOrder

/-!
# A run that nobody ends

A session whose earlier runs have ended goes on, and nobody asks for a stop and no task meets
an error of the link.  Then there is one run at most, which is not to end; its writer is the
only one who moves, its reader is the only one who hears anything, and it finds the queue
open.

## Main definitions

* `Session.Vacant` — every run has ended, and nobody is about to end one.
* `Session.Calm` — nobody asks for a stop, and no task reacts to a fault.
* `Session.faults`, `Occurrence.isStop` — what a calm history has none of.
* `Session.Solo` — one run is there, or about to be, and it is not to end.

## Main results

* `Session.solo_of_history`, `solo_of_moments` — **there is one run at most**, and it goes on.
* `Session.Solo.not_endsRun`, `Solo.stays`, `Solo.eq_of_run`, `Solo.eq_writer` — nothing takes it
  away, its queue is open, and its writer is the only one.
-/

namespace ZoneBus

/-- Whether a call is there to end a run. -/
def Control.endsRun : Control → Bool
  | .stopTurn => true
  | .closing _ _ => true
  | .joining _ => true
  | _ => false

namespace Session

variable {s s' v : Session} {r : RunId} {run : Run} {o : Occurrence}
  {config : SessionConfig} {link : Link} {before later : List (Session × Occurrence)}

/-- No call is there to end a run. -/
def Unstopped (s : Session) : Prop :=
  ∀ i phase, s.controls.find? i = some phase → phase.endsRun = false

/-- Every run has ended, and no call is there to end one. -/
structure Vacant (s : Session) : Prop where
  /-- All tasks of every run have ended. -/
  runs : ∀ r run, s.runs.find? r = some run → run.hasExited = true
  /-- Nobody is stopping the session. -/
  unstopped : s.Unstopped

theorem vacant_fresh (config : SessionConfig) (link : Link) : (fresh config link).Vacant where
  runs := fun _ _ h => by cases h
  unstopped := fun _ _ h => by cases h

/-- Nobody asks for a stop, and no task meets an error of the link. -/
structure Calm (later : List (Session × Occurrence)) (s : Session) : Prop where
  /-- Nobody asks for a stop. -/
  noStop : ∀ e ∈ later, e.2 ≠ .input .stop
  /-- No task reacts to a fault. -/
  noFault : ∀ v ∈ s :: later.map Prod.fst, ∀ t, v.teardownOf? t = none

theorem Calm.tail {e : Session × Occurrence} (h : Calm (e :: later) s) : Calm later e.1 where
  noStop := fun e' he => h.noStop e' (List.mem_cons_of_mem _ he)
  noFault := fun v hv => h.noFault v (List.mem_cons_of_mem _ hv)

/-- Whether a task of a run reacts to a fault. -/
def faults (run : Run) : Bool :=
  match run.reader, run.writer with
  | .faulting _, _ => true
  | _, .faulting _ => true
  | _, _ => false

/-- Whether somebody asks for a stop. -/
def Occurrence.isStop : Occurrence → Bool
  | .input .stop => true
  | _ => false

/-- A check that finds a history calm. -/
theorem calm_of_check (hstop : ∀ e ∈ later, e.2.isStop = false)
    (hfault : ∀ v ∈ s :: later.map Prod.fst, ∀ run ∈ v.runs.values, faults run = false) :
    Calm later s where
  noStop := fun e he hs => by
    have hno := hstop e he
    rw [hs] at hno
    cases hno
  noFault := fun v hv t => by
    refine Option.eq_none_iff_forall_ne_some.mpr fun teardown ht => ?_
    have hno := fun {r run} (hr : v.runs.find? r = some run) =>
      hfault v hv run (List.mem_map_of_mem (f := Prod.snd) (Directory.mem_entries_of_find? hr))
    rcases teardownOf?_cases ht with ⟨r, run, _, hr, hph⟩ | ⟨r, run, _, hr, hph⟩
    · have hfaults := hno hr
      rw [faults.eq_def, hph] at hfaults
      cases hfaults
    · have hfaults := hno hr
      rw [faults.eq_def, hph] at hfaults
      generalize run.reader = phase at hfaults
      cases phase <;> cases hfaults

/-- One run is there, or about to be, and it is not to end; the others have ended. -/
structure Solo (s : Session) (r : RunId) : Prop where
  /-- Nobody is stopping the session. -/
  unstopped : s.Unstopped
  /-- All tasks of the other runs have ended. -/
  alone : s.Alone r
  /-- The run is there and not to end, or it will be the next one. -/
  live : (s.runs.find? r = none ∧ s.runIds.given + 1 = r) ∨
    (s.runs.find? r).map Run.cancelled = some false
  /-- As long as it is there, it serves the session. -/
  serves : s.Serves r

theorem Vacant.solo (h : s.Vacant) (hl : s.Lifecycle) : s.Solo (s.runIds.given + 1) where
  unstopped := h.unstopped
  alone := fun r' run _ hr => h.runs r' run hr
  live := Or.inl ⟨hl.find?_next_run, rfl⟩
  serves := serves_of_none hl.find?_next_run

/-! ### The run goes on -/

theorem Unstopped.put {controls : Directory ControlId Control} {i : ControlId} {phase : Control}
    (h : ∀ j phase', controls.find? j = some phase' → phase'.endsRun = false)
    (hphase : phase.endsRun = false) :
    ∀ j phase', (controls.put i phase).find? j = some phase' → phase'.endsRun = false := by
  intro j phase' hj
  rw [Directory.find?_put] at hj
  split at hj
  · obtain rfl := Option.some.inj hj
    exact hphase
  · exact h j phase' hj

theorem Unstopped.erase {controls : Directory ControlId Control} {i : ControlId}
    (h : ∀ j phase', controls.find? j = some phase' → phase'.endsRun = false) :
    ∀ j phase', (controls.erase i).find? j = some phase' → phase'.endsRun = false := by
  intro j phase' hj
  rw [Directory.find?_erase] at hj
  split at hj
  · cases hj
  · exact h j phase' hj

/-- A start puts a run where it was to be, and other calls change no run. -/
theorem solo_governs (h : s.Solo r) (hl : s.Lifecycle) (hg : Governs s o s')
    (hstop : o ≠ .input .stop) (hfault : ∀ t, s.teardownOf? t = none) (hserves : s'.Serves r) :
    s'.Solo r := by
  have calls : ∀ {v : Session}, v.Unstopped → v.runs = s.runs → v.runIds = s.runIds →
      v.Serves r → v.Solo r := by
    intro v hcalls hruns hids hv
    refine ⟨hcalls, fun r' run hne hr => h.alone r' run hne (hruns ▸ hr), ?_, hv⟩
    rw [hruns, hids]
    exact h.live
  have faulted : ∀ {t teardown}, s.teardownOf? t = some teardown → s'.Solo r := by
    intro t teardown ht
    rw [hfault t] at ht
    cases ht
  cases hg with
  | asksStart => exact calls (Unstopped.put h.unstopped rfl) rfl rfl hserves
  | asksStop => exact absurd rfl hstop
  | refuses => exact calls (Unstopped.erase h.unstopped) rfl rfl hserves
  | startBegins =>
    rw [enter_fst] at hserves ⊢
    exact calls (Unstopped.put h.unstopped rfl) rfl rfl hserves
  | startFails =>
    rw [enter_fst] at hserves ⊢
    exact calls (Unstopped.erase h.unstopped) rfl rfl hserves
  | @spawns i c hi =>
    rcases h.live with ⟨hnone, hnext⟩ | hlive
    · -- the new run is the one that was to be
      have hput : ∀ r', (s.runs.put (s.runIds.given + 1) (.fresh s.now)).find? r' =
          if s.runIds.given + 1 = r' then some (.fresh s.now) else s.runs.find? r' :=
        fun r' => Directory.find?_put _ _ _ _
      refine ⟨Unstopped.put h.unstopped rfl, fun r' run hne hr => ?_, Or.inr ?_, hserves⟩
      · refine h.alone r' run hne ?_
        have hr' : (s.runs.put (s.runIds.given + 1) (.fresh s.now)).find? r' = some run := hr
        rw [hput, hnext, if_neg (Ne.symm hne)] at hr'
        exact hr'
      · show ((s.runs.put (s.runIds.given + 1) (.fresh s.now)).find? r).map Run.cancelled = _
        rw [hput, if_pos hnext]
        rfl
    · -- a run that serves leaves no room for a start that opens the link
      obtain ⟨run, hr, hcancelled⟩ := Option.map_eq_some_iff.mp hlive
      have hawait := hl.awaiting_of_inCharge hi rfl (h.serves run hr hcancelled).inCharge
      cases hawait
  | startEnds =>
    rw [enter_fst] at hserves ⊢
    exact calls (Unstopped.erase h.unstopped) rfl rfl hserves
  | stopBegins hi => cases h.unstopped _ _ hi
  | stopJoins hi => cases h.unstopped _ _ hi
  | stopEnds hi => cases h.unstopped _ _ hi
  | faultBegins ht => exact faulted ht
  | faultLate ht => exact faulted ht
  | faultEnds ht => exact faulted ht

theorem Solo.of_same (h : s.Solo r) (hsame : SameLifecycle s s') (halone : s'.Alone r)
    (hserves : s'.Serves r) : s'.Solo r where
  unstopped := fun i phase hi => h.unstopped i phase (hsame.controls ▸ hi)
  alone := halone
  live := by
    rw [hsame.cancelled, hsame.runIds]
    exact h.live.imp_left fun ⟨hnone, hnext⟩ => ⟨hsame.find?_eq_none hnone, hnext⟩
  serves := hserves

theorem Solo.lingers (h : s.Solo r) (hn : s.runs.keys.Nodup) : s.lingers r = false := by
  have hothers : (s.runs.entries.any fun e => decide (e.1 ≠ r) && !e.2.hasExited) = false := by
    rw [List.any_eq_false]
    rintro ⟨r', run⟩ he hrun
    rw [Bool.and_eq_true, decide_eq_true_eq, Bool.not_eq_true'] at hrun
    rw [h.alone r' run hrun.1 (Directory.find?_eq_some_of_mem hn he)] at hrun
    cases hrun.2
  rw [Session.lingers, hothers, Bool.and_false]

/-- **Whatever happens leaves the one run alone**, as long as nobody asks for a stop and no task
reacts to a fault. -/
theorem solo_happens (hv : History (fresh config link) before s) (h : s.Solo r)
    (ho : Happens s o s') (hstop : o ≠ .input .stop) (hfault : ∀ t, s.teardownOf? t = none) :
    s'.Solo r := by
  have hserves : s'.Serves r := serves_happens (ledger_of_history hv) (tableOk_of_history hv)
    (known_of_history hv) (lifecycle_of_history hv) (h.lingers (sound_of_history hv).runs)
    h.serves ho
  rcases happens_cases ho with ⟨r', run, frame, _, hr, hph, rfl⟩ | ⟨_, hw | ⟨link, hk, hg⟩⟩
  · refine h.of_same (sameLifecycle_noteWritten hr frame) ?_ hserves
    rw [h.alone.eq hr (not_exited_of_writer (by rw [hph]; simp))]
    exact Alone.modifyRun (s := (s.noteWritten frame).1) h.alone _
  · exact h.of_same (sameLifecycle_worked hw) (alone_worked h.alone hw) hserves
  · have hlinked : Solo { s with link := link } r :=
      ⟨h.unstopped, h.alone, h.live, h.serves.of_eq (fun hc => hc) rfl rfl hk
        fun run hr hcan => ⟨run, hr, hcan, rfl⟩⟩
    exact solo_governs hlinked ((lifecycle_of_history hv).withLink link) hg hstop hfault hserves

/-- **There is one run at most, and it goes on.** -/
theorem solo_of_history (hv : History (fresh config link) before v) (hvacant : v.Vacant)
    (h : History v later s) (hcalm : Calm later s) : s.Solo (v.runIds.given + 1) := by
  induction h with
  | nil => exact hvacant.solo (lifecycle_of_history hv)
  | @cons w s later o h ho ih =>
    exact solo_happens (hv.trans h) (ih hcalm.tail) ho (hcalm.noStop _ List.mem_cons_self)
      (hcalm.noFault w (List.mem_cons_of_mem _ List.mem_cons_self))

theorem runIds_governs (hg : Governs s o s') : s.runIds.given ≤ s'.runIds.given := by
  cases hg with
  | spawns => exact Nat.le_succ _
  | asksStart | asksStop | refuses | stopJoins => exact Nat.le_refl _
  | startBegins | startFails | startEnds | stopEnds =>
    rw [enter_fst]
    exact Nat.le_refl _
  | stopBegins =>
    rw [takenDown_eq]
    exact Nat.le_refl _
  | @faultBegins t cause r =>
    obtain ⟨runs, he⟩ := putTeardown_eq (s.takenDown t r (.connection cause)) t
      (.closing s.link.nextCall)
    rw [he, takenDown_eq]
  | @faultLate t =>
    obtain ⟨runs, he⟩ := exitTask_eq (s.releaseLifecycle t) t
    rw [he]
    exact Nat.le_refl _
  | @faultEnds t =>
    obtain ⟨runs, he⟩ := exitTask_eq (s.enter .stopped).1 t
    rw [he, enter_fst]

/-- No number of a run is taken back. -/
theorem runIds_happens (ho : Happens s o s') : s.runIds.given ≤ s'.runIds.given := by
  rcases happens_cases ho with ⟨_, _, _, _, _, _, rfl⟩ | ⟨_, hw | ⟨link, _, hg⟩⟩
  · exact Nat.le_refl _
  · exact Nat.le_of_eq (congrArg Counter.given (sameLifecycle_worked hw).runIds.symm)
  · exact runIds_governs (s := { s with link := link }) hg

/-! ### What follows -/

namespace Solo

/-- Once the run is there, it stays. -/
theorem stays (h' : s'.Solo r) (hl : s.Lifecycle) (ho : Happens s o s')
    (hr : s.runs.find? r = some run) : (s'.runs.find? r).map Run.cancelled = some false := by
  refine h'.live.resolve_left fun ⟨_, hnext⟩ => ?_
  have hle := Nat.le_trans (hl.runs r run hr) (runIds_happens ho)
  exact absurd (hnext.trans_le hle) (Nat.not_succ_le_self _)

/-- Nothing takes the run away. -/
theorem not_endsRun (h : s.Solo r) (hv : History (fresh config link) before s)
    (ho : Happens s o s') (hfault : ∀ t, s.teardownOf? t = none) :
    ¬(⟨s, o, s'⟩ : Moment).EndsRun := by
  rintro ⟨hr, hr'⟩
  dsimp only at hr hr'
  cases ho with
  | @move _ t _ hm =>
    -- it would be a stop or a fault
    obtain ⟨error, hending, _⟩ := ended_of_taken (ledger_of_history hv) (.move hm) hr hr'
    cases t with
    | control i =>
      rw [endingOf?] at hending
      split at hending
      · next hi => cases h.unstopped _ _ hi
      · cases hending
    | _ => simp [endingOf?, hfault] at hending
  | input i =>
    have hsame : (s.apply i).running = s.running := by
      rcases happens_cases (.input i : Happens s (.input i) _) with
        ⟨_, _, _, hmarked, _⟩ | ⟨_, hw | ⟨link, _, hg⟩⟩
      · cases hmarked
      · exact (sameLifecycle_worked hw).running
      · cases i with
        | start => rfl
        | stop => rfl
        | _ => cases hg
    exact hr (hsame.symm.trans hr')

/-- Whoever has not ended is a task of the run. -/
theorem eq_of_run {r' : RunId} (h : s.Solo r) (hr : s.runs.find? r' = some run)
    (hx : run.hasExited = false) : r' = r ∧ run.cancelled = false ∧ s.queue.closed = false := by
  obtain rfl := h.alone.eq hr hx
  have hlive := h.live.resolve_left fun ⟨hnone, _⟩ => by
    rw [hr] at hnone
    cases hnone
  rw [hr] at hlive
  have hcancelled : run.cancelled = false := Option.some.inj hlive
  exact ⟨rfl, hcancelled, (h.serves run hr hcancelled).opened⟩

/-- Only the writer of the run moves. -/
theorem eq_writer {r' : RunId} (h : s.Solo r) (ho : Happens s (.move (.writer r')) s') :
    r' = r := by
  obtain ⟨hm⟩ := ho
  rw [moves] at hm
  split at hm
  · next run hr =>
    refine (h.eq_of_run hr (not_exited_of_writer fun hexit => ?_)).1
    rw [writerMoves, hexit] at hm
    cases hm
  · simp at hm

end Solo

/-- **At every moment there is one run at most**, and nothing takes it away. -/
theorem solo_of_moments (hv : History (fresh config link) before v) (hvacant : v.Vacant)
    (h : History v later s) (hcalm : Calm later s) {m : Moment} (hm : m ∈ moments later s) :
    ∃ past, History v past m.before ∧ m.before.Solo (v.runIds.given + 1) ∧
      Happens m.before m.what m.after ∧ ¬m.EndsRun := by
  induction h with
  | nil => cases hm
  | @cons w s later o h ho ih =>
    rcases List.mem_cons.mp hm with rfl | hm
    · have hsolo := solo_of_history hv hvacant h hcalm.tail
      exact ⟨later, h, hsolo, ho, hsolo.not_endsRun (hv.trans h) ho
        (hcalm.noFault w (List.mem_cons_of_mem _ List.mem_cons_self))⟩
    · exact ih hcalm.tail hm

end Session

end ZoneBus
