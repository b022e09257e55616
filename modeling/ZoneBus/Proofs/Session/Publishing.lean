import ZoneBus.Proofs.Directory.Values
import ZoneBus.Proofs.Session.Lifecycle

/-!
# What is published, by whom

Only a start, a stop or the reaction to a fault publishes a state.  Each of them comes
to one of a few effects on what is published, on the installed run, and on who starts
the session or closes a run down; everything else leaves these alone.

## Main definitions

* `Session.starts`, `Session.closes` — who starts the session, and who closes a run down.
* `Session.Publishes` — the effects.

## Main results

* `Session.publishes_happens` — whatever happens has one of the effects.
-/

namespace ZoneBus

/-! ### Who is at work -/

/-- Whether a call is closing a run down. -/
def Control.isStopping : Control → Bool
  | .closing _ _ => true
  | .joining _ => true
  | _ => false

/-- Whether a task is closing a run down. -/
def Teardown.isClosing : Teardown → Bool
  | .closing _ => true
  | .locking _ => false

namespace Session

/-- Whether a call is starting the session. -/
def starts (s : Session) (i : ControlId) : Bool := (s.controls.find? i).any Control.isStarting

/-- Whether a call or a task is closing a run down. -/
def closes (s : Session) : TaskId → Bool
  | .control i => (s.controls.find? i).any Control.isStopping
  | t => (s.teardownOf? t).any Teardown.isClosing

theorem starts_iff {s : Session} {i : ControlId} :
    s.starts i = true ↔ ∃ phase, s.controls.find? i = some phase ∧ phase.isStarting = true :=
  Option.any_eq_true _ _

/-- A start under way has the lifecycle lock, so nobody else has. -/
theorem Lifecycle.starts_eq_false {s : Session} (h : s.Lifecycle) {t : TaskId}
    (ht : s.holdsLifecycle t = true) {i : ControlId} (hne : t ≠ .control i) :
    s.starts i = false := by
  rw [Bool.eq_false_iff]
  intro hs
  obtain ⟨phase, hi, hp⟩ := starts_iff.mp hs
  exact hne (h.eq_of_holds hi hp ht)

/-- While there is an installed run, nobody starts the session. -/
theorem Lifecycle.starts_eq_false_of_running {s : Session} (h : s.Lifecycle)
    (hr : s.running ≠ none) (i : ControlId) : s.starts i = false := by
  rw [Bool.eq_false_iff]
  intro hs
  obtain ⟨phase, hi, hp⟩ := starts_iff.mp hs
  exact hr (h.locked i phase hi hp).2

/-! ### What becomes of a reaction to a fault -/

theorem teardownOf?_congr {s s' : Session} (h : s'.runs = s.runs) (t : TaskId) :
    s'.teardownOf? t = s.teardownOf? t := by
  cases t <;> simp only [teardownOf?, h]

/-- A task of a run comes further, and whoever closed the run down goes on to. -/
theorem closing_modifyRun {s : Session} {r : RunId} {run : Run} {f : Run → Run}
    (hr : s.runs.find? r = some run)
    (hread : ∀ c, run.reader = .faulting (.closing c) → (f run).reader = .faulting (.closing c))
    (hwrite : ∀ c, run.writer = .faulting (.closing c) → (f run).writer = .faulting (.closing c))
    {t : TaskId} {c : CallId} (ht : s.teardownOf? t = some (.closing c)) :
    (s.modifyRun r f).teardownOf? t = some (.closing c) := by
  rcases teardownOf?_cases ht with ⟨r', run', rfl, hf, hph⟩ | ⟨r', run', rfl, hf, hph⟩
  · rw [teardownOf?_reader]
    by_cases h : r = r'
    · subst h
      rw [hr, Option.some.injEq] at hf
      subst hf
      exact ⟨f run, by rw [find?_modifyRun, if_pos rfl, hr]; rfl, hread c hph⟩
    · exact ⟨run', by rw [find?_modifyRun, if_neg h, hf], hph⟩
  · rw [teardownOf?_writer]
    by_cases h : r = r'
    · subst h
      rw [hr, Option.some.injEq] at hf
      subst hf
      exact ⟨f run, by rw [find?_modifyRun, if_pos rfl, hr]; rfl, hwrite c hph⟩
    · exact ⟨run', by rw [find?_modifyRun, if_neg h, hf], hph⟩

theorem closing_setWriter {s : Session} {r : RunId} {run : Run} {phase : WriterPhase}
    (hr : s.runs.find? r = some run) (hno : ∀ c, run.writer ≠ .faulting (.closing c))
    {t : TaskId} {c : CallId} (ht : s.teardownOf? t = some (.closing c)) :
    (s.setWriter r phase).teardownOf? t = some (.closing c) :=
  closing_modifyRun hr (fun _ h => h) (fun c h => absurd h (hno c)) ht

/-- Everyday work ends no teardown. -/
theorem closing_works {s s' : Session} (h : Works s s') {t : TaskId} {c : CallId}
    (ht : s.teardownOf? t = some (.closing c)) : s'.teardownOf? t = some (.closing c) := by
  have traffic : ∀ {w : Session}, s.TrafficOnly w → w.teardownOf? t = some (.closing c) := by
    rintro w ⟨_, _, _, _, rfl⟩
    exact (teardownOf?_congr rfl t).trans ht
  cases h with
  | minor h =>
    cases h with
    | aside => exact (teardownOf?_congr rfl t).trans ht
    | skips t' =>
      rcases teardownOf?_cases ht with ⟨r, run, rfl, hf, hph⟩ | ⟨r, run, rfl, hf, hph⟩
      · have hscan := find?_scanFrom s t' r
        rw [hf, Option.map_some] at hscan
        exact teardownOf?_reader.mpr ⟨_, hscan, hph⟩
      · have hscan := find?_scanFrom s t' r
        rw [hf, Option.map_some] at hscan
        exact teardownOf?_writer.mpr ⟨_, hscan, hph⟩
    | reads f hr _ hkeep hread =>
      refine closing_modifyRun hr (fun c h => ?_) (fun c h => ?_) ht
      · rcases hread with he | ⟨hno, _⟩
        · rw [he, h]
        · exact absurd h (hno _)
      · rw [(hkeep _).2, h]
    | queues => exact (teardownOf?_congr rfl t).trans ht
    | enqueues target message priority _ => exact traffic (s.trafficOnly_enqueue _ _ _)
    | withdraws id => exact traffic (s.trafficOnly_withdraw _ _)
    | resolves key reply _ => exact traffic (s.trafficOnly_resolve _ _)
  | writer h =>
    cases h with
    | @pops run frame queue hr hw _ =>
      exact closing_setWriter (s := { s with queue := queue }) hr (by simp [hw])
        ((teardownOf?_congr rfl t).trans ht)
    | @sends run frame hr hw _ =>
      exact closing_setWriter (s := (s.beginLink (.send frame.bytes)).2) hr (by simp [hw])
        ((teardownOf?_congr rfl t).trans ht)
    | drops hr hw _ => exact closing_setWriter hr (by simp [hw]) ht
    | writes hr hw => exact closing_setWriter hr (by simp [hw]) ht
    | breaks cause hr hw => exact closing_setWriter hr (by simp [hw]) ht
    | leaves hr hw _ =>
      refine closing_setWriter hr (fun c h => ?_) ht
      rcases hw with hw | ⟨_, _, hw⟩
      · rw [hw] at h; cases h
      · rw [hw] at h; cases h
  | scans => exact traffic s.trafficOnly_scan

theorem closing_worked {s s' : Session} (h : Worked s s') {t : TaskId} {c : CallId}
    (ht : s.teardownOf? t = some (.closing c)) : s'.teardownOf? t = some (.closing c) := by
  induction h with
  | refl => exact ht
  | tail _ hw ih => exact closing_works hw ih

/-! ### The effects -/

/-- What happens does one of these to what is published, to the installed run, and to
those who start the session or close a run down. -/
inductive Publishes (s s' : Session) : Prop where
  /-- Nothing is published. -/
  | keeps : s'.state = s.state → s'.running = s.running → (∀ i, s'.starts i = s.starts i) →
      (∀ t, s'.closes t = s.closes t) → Publishes s s'
  /-- A start begins. -/
  | begins (i : ControlId) : s.running = none → (∀ j, s.starts j = false) →
      s'.state = .starting → s'.running = none → s'.starts i = true →
      (∀ t, s'.closes t = s.closes t) → Publishes s s'
  /-- A start fails. -/
  | fails (i : ControlId) : s.starts i = true → s'.state = .stopped → s'.running = none →
      (∀ j, s'.starts j = false) → (∀ t, s'.closes t = s.closes t) → Publishes s s'
  /-- A start installs its run. -/
  | installs (i : ControlId) : s.starts i = true → s'.state = .started → s'.running ≠ none →
      (∀ j, s'.starts j = false) → (∀ t, s'.closes t = s.closes t) → Publishes s s'
  /-- The installed run is taken away, and a call or a task begins to close it down. -/
  | takes (t : TaskId) : s.running ≠ none → s'.state = .stopping → s'.running = none →
      (∀ j, s'.starts j = false) → s'.closes t = true →
      (∀ u, s'.closes u = true → u = t ∨ s.closes u = true) → Publishes s s'
  /-- A run is closed down. -/
  | ends (t : TaskId) : s.closes t = true → s'.state = .stopped → s'.running = s.running →
      (∀ j, s'.starts j = s.starts j) →
      (∀ u, s'.closes u = true → u ≠ t ∧ s.closes u = true) → Publishes s s'

variable {s s' : Session} {o : Occurrence}

theorem any_closing_of_same (hsame : SameLifecycle s s')
    (hkeep : ∀ t c, s.teardownOf? t = some (.closing c) → s'.teardownOf? t = some (.closing c))
    (t : TaskId) :
    (s'.teardownOf? t).any Teardown.isClosing = (s.teardownOf? t).any Teardown.isClosing := by
  have closing_iff : ∀ v : Session, (v.teardownOf? t).any Teardown.isClosing = true ↔
      ∃ c, v.teardownOf? t = some (.closing c) := by
    intro v
    rw [Option.any_eq_true]
    refine ⟨fun ⟨teardown, ht, hc⟩ => ?_, fun ⟨c, ht⟩ => ⟨_, ht, rfl⟩⟩
    cases teardown with
    | closing c => exact ⟨c, ht⟩
    | locking => cases hc
  rw [Bool.eq_iff_iff, closing_iff, closing_iff]
  exact exists_congr fun c => ⟨hsame.closing t c, hkeep t c⟩

/-- Whether a call or a task closes a run down depends on how far it has come only. -/
theorem closes_eq (t : TaskId)
    (hc : ∀ i, t = .control i → (s'.controls.find? i).any Control.isStopping =
      (s.controls.find? i).any Control.isStopping)
    (ht : (s'.teardownOf? t).any Teardown.isClosing = (s.teardownOf? t).any Teardown.isClosing) :
    s'.closes t = s.closes t := by
  cases t with
  | control i => exact hc i rfl
  | reader r => exact ht
  | writer r => exact ht
  | scanner => rfl
  | caller => rfl

/-- A task that reacts to a fault is no call. -/
theorem closes_of_reacts {t : TaskId} {teardown : Teardown}
    (ht : s.teardownOf? t = some teardown) (v : Session) :
    v.closes t = (v.teardownOf? t).any Teardown.isClosing := by
  rcases teardownOf?_cases ht with ⟨r, _, rfl, _⟩ | ⟨r, _, rfl, _⟩
  · rfl
  · rfl

theorem publishes_of_same (hsame : SameLifecycle s s')
    (hkeep : ∀ t c, s.teardownOf? t = some (.closing c) → s'.teardownOf? t = some (.closing c)) :
    Publishes s s' := by
  refine .keeps hsame.state hsame.running (fun i => ?_) fun t => closes_eq t (fun i _ => ?_) ?_
  · rw [starts, hsame.controls]; rfl
  · rw [hsame.controls]
  · exact any_closing_of_same hsame hkeep t

/-! ### Changes of the calls -/

/-- With the same tasks, who closes a run down depends on the calls only. -/
theorem closes_of_runs (hruns : s'.runs = s.runs)
    (hc : ∀ i, (s'.controls.find? i).any Control.isStopping =
      (s.controls.find? i).any Control.isStopping) (t : TaskId) : s'.closes t = s.closes t :=
  closes_eq t (fun i _ => hc i) (by rw [teardownOf?_congr hruns t])

/-! ### Changes of the tasks -/

theorem teardownOf?_setReader {r : RunId} {run : Run} (hr : s.runs.find? r = some run)
    (phase : ReaderPhase) (u : TaskId) :
    (s.setReader r phase).teardownOf? u =
      if u = .reader r then
        match phase with
        | .faulting teardown => some teardown
        | _ => none
      else s.teardownOf? u := by
  cases u with
  | reader r' =>
    by_cases h : r = r'
    · subst h
      cases phase <;> simp [teardownOf?, setReader, hr]
    · simp [teardownOf?, setReader, h, Ne.symm h]
  | writer r' =>
    by_cases h : r = r'
    · subst h
      simp [teardownOf?, setReader, hr]
    · simp [teardownOf?, setReader, h]
  | _ => rfl

theorem teardownOf?_setWriter {r : RunId} {run : Run} (hr : s.runs.find? r = some run)
    (phase : WriterPhase) (u : TaskId) :
    (s.setWriter r phase).teardownOf? u =
      if u = .writer r then
        match phase with
        | .faulting teardown => some teardown
        | _ => none
      else s.teardownOf? u := by
  cases u with
  | reader r' =>
    by_cases h : r = r'
    · subst h
      simp [teardownOf?, setWriter, hr]
    · simp [teardownOf?, setWriter, h]
  | writer r' =>
    by_cases h : r = r'
    · subst h
      cases phase <;> simp [teardownOf?, setWriter, hr]
    · simp [teardownOf?, setWriter, h, Ne.symm h]
  | _ => rfl

/-- A task that reacts to a fault comes further with it. -/
theorem teardownOf?_putTeardown {t : TaskId} {before : Teardown}
    (ht : s.teardownOf? t = some before) (teardown : Teardown) (u : TaskId) :
    (s.putTeardown t teardown).teardownOf? u =
      if u = t then some teardown else s.teardownOf? u := by
  rcases teardownOf?_cases ht with ⟨r, run, rfl, hr, _⟩ | ⟨r, run, rfl, hr, _⟩
  · exact teardownOf?_setReader hr _ u
  · exact teardownOf?_setWriter hr _ u

/-- A task that reacts to a fault ends. -/
theorem teardownOf?_exitTask {t : TaskId} {before : Teardown}
    (ht : s.teardownOf? t = some before) (u : TaskId) :
    (s.exitTask t).teardownOf? u = if u = t then none else s.teardownOf? u := by
  rcases teardownOf?_cases ht with ⟨r, run, rfl, hr, _⟩ | ⟨r, run, rfl, hr, _⟩
  · exact teardownOf?_setReader hr _ u
  · exact teardownOf?_setWriter hr _ u

theorem teardownOf?_takenDown (t : TaskId) (r : RunId) (error : SessionError) (u : TaskId) :
    (s.takenDown t r error).teardownOf? u = s.teardownOf? u := by
  have hf : ∀ r', (s.takenDown t r error).runs.find? r' =
      if r = r' then (s.runs.find? r').map fun run => { run with cancelled := true }
      else s.runs.find? r' := fun r' => by
    rw [takenDown_eq]
    exact Directory.find?_modify _ _ _ _
  cases u with
  | reader r' =>
    simp only [teardownOf?, hf]
    split
    · cases s.runs.find? r' <;> rfl
    · rfl
  | writer r' =>
    simp only [teardownOf?, hf]
    split
    · cases s.runs.find? r' <;> rfl
    · rfl
  | _ => rfl

/-- A new run closes nothing down. -/
theorem any_closing_spawn (h : s.Lifecycle) (t : TaskId) :
    (s.spawn.2.teardownOf? t).any Teardown.isClosing =
      (s.teardownOf? t).any Teardown.isClosing := by
  have hnew := h.find?_next_run
  have hput : ∀ r, s.spawn.2.runs.find? r =
      if s.runIds.given + 1 = r then some (.fresh s.now) else s.runs.find? r :=
    fun r => Directory.find?_put s.runs _ r _
  cases t with
  | reader r =>
    simp only [teardownOf?, hput]
    split
    · next he => rw [← he, hnew]; rfl
    · rfl
  | writer r =>
    simp only [teardownOf?, hput]
    split
    · next he => rw [← he, hnew]; rfl
    · rfl
  | _ => rfl

/-! ### The effect of each change -/

/-- A start under way leaves no other one behind when it ends. -/
theorem Lifecycle.starts_erase (h : s.Lifecycle) {i : ControlId} {phase : Control}
    (hi : s.controls.find? i = some phase) (hp : phase.isStarting = true) (j : ControlId) :
    ((s.controls.erase i).find? j).any Control.isStarting = false := by
  rw [Directory.any_find?_erase]
  split
  · rfl
  · next hne =>
    exact h.starts_eq_false (h.locked i phase hi hp).1 fun he => hne (TaskId.control.inj he)

/-- A stop takes the installed run away. -/
theorem publishes_stopBegins (h : s.Lifecycle) {i : ControlId} {r : RunId}
    (hi : s.controls.find? i = some .stopTurn) (hr : s.running = some r) :
    Publishes s
      ((s.takenDown (.control i) r .cancelled).setControl i (.closing r s.link.nextCall)) := by
  have hrun : s.running ≠ none := by rw [hr]; exact Option.some_ne_none r
  have hcontrols : (s.takenDown (.control i) r .cancelled).controls = s.controls := by
    rw [takenDown_eq]
  refine .takes (.control i) hrun (by rw [takenDown_eq]; rfl) (by rw [takenDown_eq]; rfl)
    (fun j => ?_) ((Directory.any_find?_put _ _ i i _).trans (if_pos rfl)) (fun u hu => ?_)
  · refine (Directory.any_put_eq ?_ j).trans ?_
    · rw [hcontrols, hi]; rfl
    · rw [hcontrols]
      exact h.starts_eq_false_of_running hrun j
  · by_cases hui : u = .control i
    · exact Or.inl hui
    · refine Or.inr ((closes_eq u (fun j hj => ?_) ?_).symm.trans hu)
      · refine (Directory.any_find?_put _ _ i j _).trans
          ((if_neg fun hij => ?_).trans (by rw [hcontrols]))
        exact hui (hj.trans (congrArg TaskId.control hij.symm))
      · exact congrArg (Option.any Teardown.isClosing) (teardownOf?_takenDown _ r .cancelled u)

/-- A stop is through. -/
theorem publishes_stopEnds {i : ControlId} {r : RunId}
    (hi : s.controls.find? i = some (.joining r)) :
    Publishes s (((s.enter .stopped).1.endControl i none).1) := by
  rw [enter_fst]
  refine .ends (.control i) (by rw [closes, hi]; rfl) rfl rfl
    (Directory.any_erase_eq (d := s.controls) (by rw [hi]; rfl)) fun u hu => ?_
  have hui : u ≠ .control i := by
    rintro rfl
    have := (Directory.any_find?_erase s.controls Control.isStopping i i).trans (if_pos rfl)
    exact Bool.false_ne_true (this.symm.trans hu)
  refine ⟨hui, (closes_eq u (fun j hj => ?_) ?_).symm.trans hu⟩
  · refine (Directory.any_find?_erase s.controls _ i j).trans (if_neg fun hij => ?_)
    exact hui (hj.trans (congrArg TaskId.control hij.symm))
  · exact congrArg (Option.any Teardown.isClosing) (teardownOf?_congr rfl u)

/-- A fault takes the installed run away. -/
theorem publishes_faultBegins (h : s.Lifecycle) {t : TaskId} {cause : LinkError} {r : RunId}
    (ht : s.teardownOf? t = some (.locking cause)) (hr : s.running = some r) :
    Publishes s
      ((s.takenDown t r (.connection cause)).putTeardown t (.closing s.link.nextCall)) := by
  have hrun : s.running ≠ none := by rw [hr]; exact Option.some_ne_none r
  have ht' : (s.takenDown t r (.connection cause)).teardownOf? t = some (.locking cause) := by
    rw [teardownOf?_takenDown, ht]
  have hclosing := teardownOf?_putTeardown ht' (.closing s.link.nextCall)
  obtain ⟨runs, hput⟩ := putTeardown_eq (s.takenDown t r (.connection cause)) t
    (.closing s.link.nextCall)
  have hcontrols : ((s.takenDown t r (.connection cause)).putTeardown t
      (.closing s.link.nextCall)).controls = s.controls := by
    rw [hput, takenDown_eq]
  refine .takes t hrun (by rw [hput, takenDown_eq]) (by rw [hput, takenDown_eq])
    (fun j => ?_) ?_ fun u hu => ?_
  · rw [starts, hcontrols]
    exact h.starts_eq_false_of_running hrun j
  · rw [closes_of_reacts ht, hclosing, if_pos rfl]
    rfl
  · by_cases hut : u = t
    · exact Or.inl hut
    · refine Or.inr ((closes_eq u (fun j _ => by rw [hcontrols]) ?_).symm.trans hu)
      rw [hclosing, if_neg hut, teardownOf?_takenDown]

/-- A fault that comes too late takes nothing away. -/
theorem publishes_faultLate {t : TaskId} {cause : LinkError}
    (ht : s.teardownOf? t = some (.locking cause)) :
    Publishes s ((s.releaseLifecycle t).exitTask t) := by
  have hsame : ∀ u, (s.releaseLifecycle t).teardownOf? u = s.teardownOf? u :=
    teardownOf?_congr rfl
  have hends := teardownOf?_exitTask ((hsame t).trans ht)
  obtain ⟨runs, hexit⟩ := exitTask_eq (s.releaseLifecycle t) t
  refine .keeps (by rw [hexit]; rfl) (by rw [hexit]; rfl) (fun i => by rw [hexit]; rfl)
    fun u => closes_eq u (fun i _ => by rw [hexit]; rfl) ?_
  rw [hends]
  split
  · next he => rw [he, ht]; rfl
  · rw [hsame]

/-- The reaction to a fault is through. -/
theorem publishes_faultEnds {t : TaskId} {c : CallId}
    (ht : s.teardownOf? t = some (.closing c)) :
    Publishes s ((s.enter .stopped).1.exitTask t) := by
  have hsame : ∀ u, (s.enter .stopped).1.teardownOf? u = s.teardownOf? u :=
    teardownOf?_congr (by rw [enter_fst])
  have hends := teardownOf?_exitTask ((hsame t).trans ht)
  obtain ⟨runs, hexit⟩ := exitTask_eq (s.enter .stopped).1 t
  refine .ends t ?_ ?_ ?_ (fun i => ?_) fun u hu => ?_
  · rw [closes_of_reacts ht, ht]
    rfl
  · rw [hexit, enter_fst]
  · rw [hexit, enter_fst]
  · rw [hexit, enter_fst]; rfl
  · have hut : u ≠ t := by
      rintro rfl
      rw [closes_of_reacts ht, hends, if_pos rfl] at hu
      cases hu
    refine ⟨hut, (closes_eq u (fun i _ => by rw [hexit, enter_fst]) ?_).symm.trans hu⟩
    rw [hends, if_neg hut, hsame]

/-- A start, a stop or a fault has one of the effects. -/
theorem publishes_governs (h : s.Lifecycle) (hg : Governs s o s') : Publishes s s' := by
  have hnew := h.find?_next_control
  cases hg with
  | asksStart =>
    exact .keeps rfl rfl (Directory.any_put_eq (by rw [hnew]; rfl))
      (closes_of_runs rfl (Directory.any_put_eq (by rw [hnew]; rfl)))
  | asksStop =>
    exact .keeps rfl rfl (Directory.any_put_eq (by rw [hnew]; rfl))
      (closes_of_runs rfl (Directory.any_put_eq (by rw [hnew]; rfl)))
  | @refuses i failure hi =>
    have hno : (s.controls.find? i).any Control.isStarting = false ∧
        (s.controls.find? i).any Control.isStopping = false := by
      rcases hi with hi | hi
      · rw [hi]; exact ⟨rfl, rfl⟩
      · rw [hi]; exact ⟨rfl, rfl⟩
    exact .keeps rfl rfl (Directory.any_erase_eq hno.1)
      (closes_of_runs rfl (Directory.any_erase_eq hno.2))
  | @startBegins i hi hlock hr =>
    rw [enter_fst]
    refine .begins i hr (fun j => ?_) rfl hr
      ((Directory.any_find?_put _ _ i i _).trans (if_pos rfl))
      (closes_of_runs rfl (Directory.any_put_eq (d := s.controls) (by rw [hi]; rfl)))
    by_cases hij : i = j
    · rw [← hij, starts, hi]; rfl
    · exact h.starts_eq_false hlock fun he => hij (TaskId.control.inj he)
  | @startFails i c failure hi =>
    rw [enter_fst]
    exact .fails i (by rw [starts, hi]; rfl) rfl (h.locked i _ hi rfl).2 (h.starts_erase hi rfl)
      (closes_of_runs rfl (Directory.any_erase_eq (d := s.controls) (by rw [hi]; rfl)))
  | @spawns i c hi =>
    exact .keeps rfl rfl (Directory.any_put_eq (d := s.controls) (by rw [hi]; rfl))
      fun t => closes_eq t (fun j _ => Directory.any_put_eq (d := s.controls) (by rw [hi]; rfl) j)
        (any_closing_spawn h t)
  | @startEnds i r hi =>
    rw [enter_fst]
    exact .installs i (by rw [starts, hi]; rfl) rfl (Option.some_ne_none r)
      (h.starts_erase hi rfl)
      (closes_of_runs rfl (Directory.any_erase_eq (d := s.controls) (by rw [hi]; rfl)))
  | stopBegins hi _ hr => exact publishes_stopBegins h hi hr
  | @stopJoins i r c hi =>
    exact .keeps rfl rfl (Directory.any_put_eq (by rw [hi]; rfl))
      (closes_of_runs rfl (Directory.any_put_eq (by rw [hi]; rfl)))
  | stopEnds hi => exact publishes_stopEnds hi
  | faultBegins ht _ hr => exact publishes_faultBegins h ht hr
  | faultLate ht => exact publishes_faultLate ht
  | faultEnds ht => exact publishes_faultEnds ht

/-- The link does not matter. -/
theorem Publishes.of_link {link : Link} (h : Publishes { s with link := link } s') :
    Publishes s s' := by
  have same : ∀ t, closes { s with link := link } t = s.closes t := fun t =>
    closes_of_runs rfl (fun _ => rfl) t
  cases h with
  | keeps hs hr hstarts hcloses => exact .keeps hs hr hstarts fun t => (hcloses t).trans (same t)
  | begins i hr hno hs hr' hi hcloses =>
    exact .begins i hr hno hs hr' hi fun t => (hcloses t).trans (same t)
  | fails i hi hs hr hno hcloses =>
    exact .fails i hi hs hr hno fun t => (hcloses t).trans (same t)
  | installs i hi hs hr hno hcloses =>
    exact .installs i hi hs hr hno fun t => (hcloses t).trans (same t)
  | takes t hr hs hr' hno ht hcloses =>
    exact .takes t hr hs hr' hno ht fun u hu => (hcloses u hu).imp_right ((same u).symm.trans ·)
  | ends t ht hs hr hstarts hcloses =>
    exact .ends t ((same t).symm.trans ht) hs hr hstarts fun u hu =>
      ⟨(hcloses u hu).1, (same u).symm.trans (hcloses u hu).2⟩

/-- **Whatever happens has one of the effects.** -/
theorem publishes_happens (ho : Happens s o s') (h : s.Lifecycle) : Publishes s s' := by
  rcases happens_cases ho with ⟨r, run, frame, _, hr, hw, rfl⟩ | ⟨_, hw | ⟨link, _, hg⟩⟩
  · refine publishes_of_same (sameLifecycle_noteWritten hr frame) fun t c ht => ?_
    refine closing_setWriter (s := (s.noteWritten frame).1) hr (fun c h => ?_)
      ((teardownOf?_congr rfl t).trans ht)
    rw [hw] at h
    cases h
  · exact publishes_of_same (sameLifecycle_worked hw) fun t c ht => closing_worked hw ht
  · exact (publishes_governs (h.withLink link) hg).of_link

end Session

end ZoneBus
