import ZoneBus.Proofs.Session.Publishing

/-!
# Starts that overlap a teardown

A start may begin while the run before it is still being closed down; then the
states that the two publish get mixed up.  Where that does not happen, the
published state tells what the session does: an installed run means started, and
stopped means that there is neither an installed run nor one about to be.

## Main definitions

* `Session.overlaps` — a start and a teardown are under way at once.
* `Session.Orderly` — what holds as long as that does not happen.

## Main results

* `Session.orderly_happens` — whatever happens in a session without an overlap
  keeps it orderly.
* `Session.quiet_of_stopped` — an orderly session that publishes that it is stopped
  is quiet.
-/

namespace ZoneBus

/-! ### What is under way -/

/-- Whether a task of a run is closing the run down. -/
def Run.isTearingDown (run : Run) : Bool :=
  (match run.reader with
    | .faulting (.closing _) => true
    | _ => false) ||
  (match run.writer with
    | .faulting (.closing _) => true
    | _ => false)

namespace Session

/-- Whether a start is under way. -/
def isStarting (s : Session) : Bool := s.controls.values.any Control.isStarting

/-- Whether a teardown is under way, by a stop or by a fault. -/
def isTearingDown (s : Session) : Bool :=
  s.controls.values.any Control.isStopping || s.runs.values.any Run.isTearingDown

/-- Whether a start and a teardown are under way at once. -/
def overlaps (s : Session) : Bool := s.isStarting && s.isTearingDown

theorem isStarting_of_starts {s : Session} {i : ControlId} (h : s.starts i = true) :
    s.isStarting = true := by
  obtain ⟨phase, hf, hp⟩ := starts_iff.mp h
  exact Directory.any_values_of_find? hf hp

theorem isTearingDown_of_closes {s : Session} {t : TaskId} (h : s.closes t = true) :
    s.isTearingDown = true := by
  have run_tearing : ∀ {r run}, s.runs.find? r = some run → run.isTearingDown = true →
      s.isTearingDown = true := by
    intro r run hr ht
    rw [isTearingDown, Directory.any_values_of_find? hr ht, Bool.or_true]
  have task : (s.teardownOf? t).any Teardown.isClosing = true → s.isTearingDown = true := by
    intro h
    obtain ⟨teardown, ht, hc⟩ := (Option.any_eq_true _ _).mp h
    cases teardown with
    | locking => cases hc
    | closing c =>
      rcases teardownOf?_cases ht with ⟨r, run, _, hr, hw⟩ | ⟨r, run, _, hr, hw⟩
      · exact run_tearing hr (by rw [Run.isTearingDown, hw]; rfl)
      · exact run_tearing hr (by rw [Run.isTearingDown, hw]; exact Bool.or_true _)
  cases t with
  | control i =>
    obtain ⟨phase, hf, hp⟩ := (Option.any_eq_true _ _).mp h
    rw [isTearingDown, Directory.any_values_of_find? hf hp, Bool.true_or]
  | reader r => exact task h
  | writer r => exact task h
  | scanner => cases h
  | caller => cases h

/-- Without an overlap, a start and a teardown are not both under way. -/
theorem closes_eq_false {s : Session} (hcalm : s.overlaps = false) {i : ControlId}
    (hs : s.starts i = true) (t : TaskId) : s.closes t = false := by
  rw [Bool.eq_false_iff]
  intro hc
  rw [overlaps, isStarting_of_starts hs, isTearingDown_of_closes hc] at hcalm
  cases hcalm

/-! ### What is published -/

/-- What holds as long as no start overlaps a teardown. -/
structure Orderly (s : Session) : Prop where
  /-- A start under way is published. -/
  starting : ∀ i, s.starts i = true → s.state = .starting
  /-- An installed run is published. -/
  started : s.running ≠ none → s.state = .started
  /-- A run that is closed down is not installed any more. -/
  tearingDown : ∀ t, s.closes t = true → s.running = none

theorem closes_fresh (config : SessionConfig) (link : Link) (t : TaskId) :
    (fresh config link).closes t = false := by
  cases t <;> rfl

theorem orderly_fresh (config : SessionConfig) (link : Link) : (fresh config link).Orderly where
  starting := fun _ h => by cases h
  started := fun h => absurd rfl h
  tearingDown := fun _ _ => rfl

/-- **Whatever happens without an overlap keeps a session orderly.** -/
theorem orderly_happens {s s' : Session} {o : Occurrence} (ho : Happens s o s')
    (h : s.Orderly) (hl : s.Lifecycle) (hcalm : s.overlaps = false) : s'.Orderly := by
  have nobody : ∀ {v : Session} {i}, (∀ j, v.starts j = false) → v.starts i ≠ true :=
    fun hno hs => Bool.false_ne_true ((hno _).symm.trans hs)
  cases publishes_happens ho hl with
  | keeps hstate hrunning hstarts hcloses =>
    exact {
      starting := fun i hi => by
        rw [hstate]
        exact h.starting i ((hstarts i).symm.trans hi)
      started := fun hr => by
        rw [hstate]
        exact h.started (hrunning ▸ hr)
      tearingDown := fun t ht => by
        rw [hrunning]
        exact h.tearingDown t ((hcloses t).symm.trans ht) }
  | begins i _ _ hstate hr =>
    exact ⟨fun _ _ => hstate, fun hr' => absurd hr hr', fun _ _ => hr⟩
  | fails i _ _ hr hno =>
    exact ⟨fun _ hs => absurd hs (nobody hno), fun hr' => absurd hr hr', fun _ _ => hr⟩
  -- this is where an overlap does harm: a run is installed while one is closed down
  | installs i hi hstate _ hno hcloses =>
    refine ⟨fun _ hs => absurd hs (nobody hno), fun _ => hstate, fun t ht => ?_⟩
    rw [hcloses t, closes_eq_false hcalm hi t] at ht
    cases ht
  | takes t _ _ hr hno =>
    exact ⟨fun _ hs => absurd hs (nobody hno), fun hr' => absurd hr hr', fun _ _ => hr⟩
  | ends t ht _ hr hstarts =>
    have hnone : s'.running = none := hr.trans (h.tearingDown t ht)
    refine ⟨fun i hi => ?_, fun hr' => absurd hnone hr', fun _ _ => hnone⟩
    rw [closes_eq_false hcalm ((hstarts i).symm.trans hi) t] at ht
    cases ht

/-- As long as no start overlaps a teardown, a session is orderly. -/
theorem orderly_of_history {config : SessionConfig} {link : Link} {s : Session}
    {past : List (Session × Occurrence)} (h : History (fresh config link) past s)
    (hcalm : ∀ v ∈ past.map Prod.fst, v.overlaps = false) : s.Orderly := by
  induction h with
  | nil => exact orderly_fresh config link
  | cons h ho ih =>
    rw [List.map_cons, List.forall_mem_cons] at hcalm
    exact orderly_happens ho (ih hcalm.2) (lifecycle_of_history h) hcalm.1

/-- **An orderly session that publishes that it is stopped is quiet.** -/
theorem quiet_of_stopped {s : Session} (h : s.Orderly) (hl : s.Lifecycle)
    (hs : s.state = .stopped) : s.Quiet := by
  refine hl.quiet ?_ fun i r hi => ?_
  · by_contra hr
    have := h.started hr
    rw [hs] at this; cases this
  · have := h.starting i (starts_iff.mpr ⟨_, hi, rfl⟩)
    rw [hs] at this; cases this

end Session

end ZoneBus
