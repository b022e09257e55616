import ZoneBus.Proofs.Session.Overlap
import ZoneBus.Proofs.Session.Retries

/-!
# The order of the published states

A session is to go from stopped to starting, to started or back, from started to
stopping, and from there to stopped.  The published states keep to this order exactly
as long as no start overlaps a teardown.  A start that begins while the run before it
is still being closed down publishes its own states in between, and the end of the
teardown then publishes that the session is stopped while the new run is installed.

## Main definitions

* `SessionState.leadsTo` — which state may follow which.
* `Session.inOrder` — the states that were published follow one another in order.
* `Session.Published` — what the published state tells as long as they do.

## Main results

* `Session.in_order_iff` — the published states are in order, and tell whether there is
  an installed run, exactly as long as no start overlaps a teardown.
* `Session.exists_stopped_running` — a session at rest that publishes that it is stopped,
  with an installed run.
-/

namespace ZoneBus

/-- Whether a state may follow another. -/
def SessionState.leadsTo : SessionState → SessionState → Bool
  | .stopped, .starting => true
  | .starting, .started => true
  | .starting, .stopped => true
  | .started, .stopping => true
  | .stopping, .stopped => true
  | _, _ => false

namespace Session

/-- Whether the states that were published follow one another in order. -/
def inOrder (s : Session) : List (Session × Occurrence) → Bool
  | [] => true
  | (v, _) :: past => (decide (s.state = v.state) || v.state.leadsTo s.state) && v.inOrder past

/-! ### Overlaps -/

theorem nodup_controls_happens {s s' : Session} {o : Occurrence} (ho : Happens s o s')
    (hn : s.controls.keys.Nodup) : s'.controls.keys.Nodup := by
  have erase : ∀ i, (s.controls.erase i).keys.Nodup := Directory.nodup_keys_erase hn
  have put : ∀ i phase, (s.controls.put i phase).keys.Nodup := Directory.nodup_keys_put hn
  rcases happens_cases ho with ⟨r, run, frame, _, hr, _, rfl⟩ | ⟨_, hw | ⟨link, _, hg⟩⟩
  · exact hn
  · rw [(sameLifecycle_worked hw).controls]
    exact hn
  · cases hg with
    | asksStart => exact put _ _
    | asksStop => exact put _ _
    | refuses => exact erase _
    | startBegins => rw [enter_fst]; exact put _ _
    | startFails => rw [enter_fst]; exact erase _
    | spawns => exact put _ _
    | startEnds => rw [enter_fst]; exact erase _
    | stopBegins => rw [takenDown_eq]; exact put _ _
    | stopJoins => exact put _ _
    | stopEnds => rw [enter_fst]; exact erase _
    | @faultBegins t cause r =>
      obtain ⟨runs, hput⟩ := putTeardown_eq
        (Session.takenDown { s with link := link } t r (.connection cause)) t
        (.closing link.nextCall)
      rw [hput, takenDown_eq]
      exact hn
    | @faultLate t =>
      obtain ⟨runs, hexit⟩ := exitTask_eq (Session.releaseLifecycle { s with link := link } t) t
      rw [hexit]
      exact hn
    | @faultEnds t =>
      obtain ⟨runs, hexit⟩ := exitTask_eq (Session.enter { s with link := link } .stopped).1 t
      rw [hexit, enter_fst]
      exact hn

/-- In an overlap, somebody starts the session and somebody closes a run down. -/
theorem exists_of_overlaps {s : Session} (hcontrols : s.controls.keys.Nodup)
    (hruns : s.runs.keys.Nodup) (h : s.overlaps = true) :
    ∃ i t, s.starts i = true ∧ s.closes t = true := by
  obtain ⟨hstart, htear⟩ := Bool.and_eq_true_iff.mp h
  obtain ⟨i, phase, hi, hp⟩ := Directory.exists_find?_of_any hcontrols hstart
  have hs : s.starts i = true := starts_iff.mpr ⟨phase, hi, hp⟩
  rcases Bool.or_eq_true_iff.mp htear with hstop | hfault
  · obtain ⟨j, phase, hj, hp⟩ := Directory.exists_find?_of_any hcontrols hstop
    exact ⟨i, .control j, hs, (Option.any_eq_true _ _).mpr ⟨phase, hj, hp⟩⟩
  · obtain ⟨r, run, hr, ht⟩ := Directory.exists_find?_of_any hruns hfault
    rcases Bool.or_eq_true_iff.mp ht with ht | ht
    · split at ht
      · next c hw =>
        refine ⟨i, .reader r, hs, ?_⟩
        show (s.teardownOf? (.reader r)).any _ = true
        rw [teardownOf?_reader.mpr ⟨run, hr, hw⟩]
        rfl
      · cases ht
    · split at ht
      · next c hw =>
        refine ⟨i, .writer r, hs, ?_⟩
        show (s.teardownOf? (.writer r)).any _ = true
        rw [teardownOf?_writer.mpr ⟨run, hr, hw⟩]
        rfl
      · cases ht

/-! ### What the published state tells -/

/-- What the published state tells as long as no start overlaps a teardown. -/
structure Published (s : Session) : Prop where
  /-- A start under way. -/
  starting : ∀ i, s.starts i = true → s.state = .starting ∧ s.running = none
  /-- An installed run. -/
  running : s.running ≠ none → s.state = .started
  /-- A run that is closed down. -/
  closing : ∀ t, s.closes t = true → s.state = .stopping ∧ s.running = none
  /-- One run is closed down at a time, by one call or task. -/
  single : ∀ t u, s.closes t = true → s.closes u = true → t = u
  /-- Nothing of these. -/
  stopped : (∀ i, s.starts i = false) → (∀ t, s.closes t = false) → s.running = none →
    s.state = .stopped

variable {s s' : Session}

/-- Where nobody starts the session or closes a run down, and no run is installed, the
session is to be stopped. -/
theorem published_at_rest (hstate : s.state = .stopped) (hr : s.running = none)
    (hno : ∀ i, s.starts i = false) (hc : ∀ t, s.closes t = false) : s.Published where
  starting := fun i hi => by rw [hno i] at hi; cases hi
  running := fun hrun => absurd hr hrun
  closing := fun t ht => by rw [hc t] at ht; cases ht
  single := fun t _ ht => by rw [hc t] at ht; cases ht
  stopped := fun _ _ _ => hstate

/-- Where somebody starts the session, it is to be starting. -/
theorem published_of_starting {i : ControlId} (hi : s.starts i = true)
    (hstate : s.state = .starting) (hr : s.running = none) (hc : ∀ t, s.closes t = false) :
    s.Published where
  starting := fun _ _ => ⟨hstate, hr⟩
  running := fun hrun => absurd hr hrun
  closing := fun t ht => by rw [hc t] at ht; cases ht
  single := fun t _ ht => by rw [hc t] at ht; cases ht
  stopped := fun hno => by rw [hno i] at hi; cases hi

/-- Where a run is installed, the session is to be started. -/
theorem published_of_running (hstate : s.state = .started) (hr : s.running ≠ none)
    (hno : ∀ i, s.starts i = false) (hc : ∀ t, s.closes t = false) : s.Published where
  starting := fun i hi => by rw [hno i] at hi; cases hi
  running := fun _ => hstate
  closing := fun t ht => by rw [hc t] at ht; cases ht
  single := fun t _ ht => by rw [hc t] at ht; cases ht
  stopped := fun _ _ hnone => absurd hnone hr

/-- Where a run is closed down, the session is to be stopping. -/
theorem published_of_closing {t : TaskId} (hstate : s.state = .stopping) (hr : s.running = none)
    (hno : ∀ i, s.starts i = false) (ht : s.closes t = true)
    (honly : ∀ u, s.closes u = true → u = t) : s.Published where
  starting := fun i hi => by rw [hno i] at hi; cases hi
  running := fun hrun => absurd hr hrun
  closing := fun _ _ => ⟨hstate, hr⟩
  single := fun u v hu hv => (honly u hu).trans (honly v hv).symm
  stopped := fun _ hc => by rw [hc t] at ht; cases ht

theorem published_fresh (config : SessionConfig) (link : Link) :
    (fresh config link).Published :=
  published_at_rest rfl rfl (fun _ => rfl) (closes_fresh config link)

/-- Where nothing is published, the state goes on to tell. -/
theorem Published.of_eq (h : s.Published) (hstate : s'.state = s.state)
    (hr : s'.running = s.running) (hstarts : ∀ i, s'.starts i = s.starts i)
    (hcloses : ∀ t, s'.closes t = s.closes t) : s'.Published where
  starting := fun i hi => by
    rw [hstate, hr]
    exact h.starting i ((hstarts i).symm.trans hi)
  running := by
    rw [hstate, hr]
    exact h.running
  closing := fun t ht => by
    rw [hstate, hr]
    exact h.closing t ((hcloses t).symm.trans ht)
  single := fun t u ht hu =>
    h.single t u ((hcloses t).symm.trans ht) ((hcloses u).symm.trans hu)
  stopped := fun hs hc hnone => by
    rw [hstate]
    exact h.stopped (fun i => (hstarts i).symm.trans (hs i))
      (fun t => (hcloses t).symm.trans (hc t)) (hr ▸ hnone)

/-- Nobody closes a run down while somebody starts the session. -/
theorem Published.closes_of_starts (h : s.Published) {i : ControlId} (hi : s.starts i = true)
    (t : TaskId) : s.closes t = false := by
  refine Bool.eq_false_iff.mpr fun ht => ?_
  have hstate := (h.starting i hi).1
  rw [(h.closing t ht).1] at hstate
  cases hstate

/-- **Without an overlap, what is published next is in order**, and goes on to tell. -/
theorem Published.publishes (h : s.Published) (hp : Publishes s s')
    (hcalm : ∀ i t, s'.starts i = true → s'.closes t = false) :
    s'.Published ∧ (s'.state = s.state ∨ s.state.leadsTo s'.state = true) := by
  cases hp with
  | keeps hstate hrunning hstarts hcloses =>
    exact ⟨h.of_eq hstate hrunning hstarts hcloses, Or.inl hstate⟩
  | begins i hr hno hstate hr' hi hcloses =>
    have hclosed : ∀ t, s'.closes t = false := fun t => hcalm i t hi
    have hstopped : s.state = .stopped :=
      h.stopped hno (fun t => (hcloses t).symm.trans (hclosed t)) hr
    exact ⟨published_of_starting hi hstate hr' hclosed, Or.inr (by rw [hstopped, hstate]; rfl)⟩
  | fails i hi hstate hr' hno hcloses =>
    have hclosed : ∀ t, s'.closes t = false := fun t =>
      (hcloses t).trans (h.closes_of_starts hi t)
    refine ⟨published_at_rest hstate hr' hno hclosed, Or.inr ?_⟩
    rw [(h.starting i hi).1, hstate]
    rfl
  | installs i hi hstate hr' hno hcloses =>
    have hclosed : ∀ t, s'.closes t = false := fun t =>
      (hcloses t).trans (h.closes_of_starts hi t)
    refine ⟨published_of_running hstate hr' hno hclosed, Or.inr ?_⟩
    rw [(h.starting i hi).1, hstate]
    rfl
  | takes t hr hstate hr' hno ht hcloses =>
    have honly : ∀ u, s'.closes u = true → u = t := fun u hu =>
      (hcloses u hu).resolve_right fun hu' => hr (h.closing u hu').2
    refine ⟨published_of_closing hstate hr' hno ht honly, Or.inr ?_⟩
    rw [h.running hr, hstate]
    rfl
  | ends t ht hstate hr' hstarts hcloses =>
    obtain ⟨hstopping, hnone⟩ := h.closing t ht
    have hclosed : ∀ u, s'.closes u = false := fun u => Bool.eq_false_iff.mpr fun hu => by
      obtain ⟨hne, hu'⟩ := hcloses u hu
      exact hne (h.single u t hu' ht)
    have hno : ∀ i, s'.starts i = false := fun i => Bool.eq_false_iff.mpr fun hi => by
      rw [h.closes_of_starts ((hstarts i).symm.trans hi) t] at ht
      cases ht
    refine ⟨published_at_rest hstate (hr'.trans hnone) hno hclosed, Or.inr ?_⟩
    rw [hstopping, hstate]
    rfl

/-- **An overlap begins out of order**: with a start that is published while a run is
closed down. -/
theorem Published.out_of_order (h : s.Published) (hp : Publishes s s') {i : ControlId}
    {t : TaskId} (hs : s'.starts i = true) (hc : s'.closes t = true) :
    s'.state ≠ s.state ∧ s.state.leadsTo s'.state = false := by
  have not_both : ∀ {j u}, s.starts j = true → s.closes u ≠ true := fun hj hu =>
    Bool.false_ne_true ((h.closes_of_starts hj _).symm.trans hu)
  have nobody : (∀ j, s'.starts j = false) → False := fun hno =>
    Bool.false_ne_true ((hno i).symm.trans hs)
  cases hp with
  | keeps _ _ hstarts hcloses =>
    exact absurd ((hcloses t).symm.trans hc) (not_both ((hstarts i).symm.trans hs))
  | begins j _ _ hstate _ _ hcloses =>
    rw [hstate, (h.closing t ((hcloses t).symm.trans hc)).1]
    exact ⟨by decide, rfl⟩
  | fails _ _ _ _ hno => exact (nobody hno).elim
  | installs _ _ _ _ hno => exact (nobody hno).elim
  | takes _ _ _ _ hno => exact (nobody hno).elim
  | ends u hu _ _ hstarts => exact absurd hu (not_both ((hstarts i).symm.trans hs))

/-! ### Histories -/

/-- Without an overlap, the published state tells; and without one the states that were
published are in order. -/
theorem published_of_history {config : SessionConfig} {link : Link}
    {past : List (Session × Occurrence)} (h : History (fresh config link) past s) :
    (s.inOrder past = true ↔ ∀ v ∈ s :: past.map Prod.fst, v.overlaps = false) ∧
      ((∀ v ∈ s :: past.map Prod.fst, v.overlaps = false) → s.Published) := by
  have nodup_controls : ∀ {v past}, History (fresh config link) past v → v.controls.keys.Nodup :=
    fun h => h.invariant (P := fun v => v.controls.keys.Nodup) nodup_controls_happens
      List.nodup_nil
  induction h with
  | nil =>
    refine ⟨⟨fun _ v hv => ?_, fun _ => rfl⟩, fun _ => published_fresh config link⟩
    rw [List.mem_singleton.mp hv]
    rfl
  | @cons v s past o hv ho ih =>
    obtain ⟨horder, hpublished⟩ := ih
    have hp : Publishes v s := publishes_happens ho (lifecycle_of_history hv)
    have hs : History (fresh config link) ((v, o) :: past) s := .cons hv ho
    rw [List.map_cons, List.forall_mem_cons]
    have goes_on : s.overlaps = false → (∀ w ∈ v :: past.map Prod.fst, w.overlaps = false) →
        s.Published ∧ (s.state = v.state ∨ v.state.leadsTo s.state = true) := fun hno hcalm =>
      (hpublished hcalm).publishes hp fun _ t hi => closes_eq_false hno hi t
    refine ⟨⟨fun h => ?_, fun ⟨hno, hcalm⟩ => ?_⟩, fun ⟨hno, hcalm⟩ => (goes_on hno hcalm).1⟩
    · rw [inOrder, Bool.and_eq_true, Bool.or_eq_true, decide_eq_true_eq] at h
      have hcalm := horder.mp h.2
      refine ⟨Bool.eq_false_iff.mpr fun hover => ?_, hcalm⟩
      obtain ⟨i, t, hi, ht⟩ :=
        exists_of_overlaps (nodup_controls hs) (sound_of_history hs).runs hover
      obtain ⟨hne, hnot⟩ := (hpublished hcalm).out_of_order hp hi ht
      rcases h.1 with heq | hleads
      · exact hne heq
      · rw [hnot] at hleads
        cases hleads
    · rw [inOrder, Bool.and_eq_true, Bool.or_eq_true, decide_eq_true_eq]
      exact ⟨(goes_on hno hcalm).2, horder.mpr hcalm⟩

/-- **The published states are in order, and tell whether there is an installed run,
exactly as long as no start overlaps a teardown.**  Without an overlap, a session that
nobody starts or closes down is started when there is an installed run, and stopped when
there is none; an overlap always begins with a state out of order. -/
theorem in_order_iff {config : SessionConfig} {link : Link}
    {past : List (Session × Occurrence)} (h : History (fresh config link) past s) :
    (s.inOrder past = true ↔ ∀ v ∈ s :: past.map Prod.fst, v.overlaps = false) ∧
      (s.inOrder past = true → s.isStarting = false → s.isTearingDown = false →
        (s.state = .started ↔ s.running ≠ none) ∧ (s.running = none → s.state = .stopped)) := by
  obtain ⟨horder, hpublished⟩ := published_of_history h
  refine ⟨horder, fun hin hstart htear => ?_⟩
  have hp := hpublished (horder.mp hin)
  have hstopped : s.running = none → s.state = .stopped := by
    refine hp.stopped (fun i => ?_) fun t => ?_
    · exact Bool.eq_false_iff.mpr fun hs => by rw [isStarting_of_starts hs] at hstart; cases hstart
    · exact Bool.eq_false_iff.mpr fun hc => by rw [isTearingDown_of_closes hc] at htear; cases htear
  refine ⟨⟨fun hs hr => ?_, hp.running⟩, hstopped⟩
  rw [hstopped hr] at hs
  cases hs

theorem in_order_iff_firstStart :
    ∃ past s, History (fresh {} (.fresh "" none [])) past s ∧
      (∀ v ∈ s :: past.map Prod.fst, v.overlaps = false) ∧
      (s.state = .started ↔ s.running ≠ none) := by
  obtain ⟨past, s, h, hin, hstart, htear⟩ := exists_history (fresh {} (.fresh "" none []))
    firstStart (fun past s => s.inOrder past = true ∧ s.isStarting = false ∧
      s.isTearingDown = false) (by decide +kernel)
  obtain ⟨horder, hrest⟩ := in_order_iff h
  exact ⟨past, s, h, horder.mp hin, (hrest hin hstart htear).1⟩

/-- A stop whose closing of the link waits for the receive of the reader, and a start that
begins meanwhile and goes all the way through before the stop does. -/
def startWhileStopping : List Cue :=
  firstStart ++ List.replicate 3 (.move (.reader 1) 0) ++
    .input .stop :: List.replicate 4 (.move (.control 2) 0) ++
    .input .start :: List.replicate 2 (.move (.control 3) 0) ++
    [.move (.reader 1) 0, .move (.control 2) 0] ++ List.replicate 3 (.move (.control 3) 0) ++
    [.move (.reader 2) 0, .move (.control 3) 0, .move (.scanner 1) 0, .move (.writer 1) 0,
      .move (.control 2) 0]

/-- **A session at rest can publish that it is stopped with an installed run.** -/
theorem exists_stopped_running :
    ∃ past s, History (fresh {} (.fresh "" none [])) past s ∧
      (s.inOrder past = false ∧ s.controls.keys = [] ∧ s.isTearingDown = false ∧
        s.state = .stopped ∧ s.running = some 2) :=
  exists_history (fresh {} (.fresh "" none [])) startWhileStopping _ (by decide +kernel)

end Session

end ZoneBus
