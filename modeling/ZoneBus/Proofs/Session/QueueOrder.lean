import ZoneBus.Proofs.Session.FarEnd

/-!
# What passes through the queue

Frames come into the queue at the end of the tier of their priority and are taken by writers
from the front of it, and nothing else happens to them as long as no stop and no fault takes
the installed run away.  So in each tier what came in is what was taken and what is still
there, in the same order; and while the first tier has frames, the second one gives none up.

## Main definitions

* `Moment.EndsRun` — a stop or a fault takes the installed run away.
* `Moment.queued`, `Moment.entered` — what comes into the queue, and into a tier of it.
* `Moment.taken`, `Moment.takenFrom` — what a writer takes from the queue, and from a tier.

## Main results

* `Session.extends_of_other`, `taken_of_writer` — who fills the queue, and who takes from it.
* `Session.passes_of_happens` — what passes through a tier in one move.
* `Session.passed_of_history` — **each tier is first in, first out.**
* `Session.high_of_taken` — whatever waits in the first tier goes before the second.
* `Session.pushed_of_history`, `pushed_perm` — what waits was pushed, and what was pushed came
  into the queue.
-/

namespace ZoneBus

namespace Session

variable {s s' v : Session} {r : RunId} {run : Run} {o : Occurrence} {m : Session × List Notice}
  {config : SessionConfig} {link : Link} {before later : List (Session × Occurrence)}

/-- A stop or a fault takes the installed run away. -/
def Moment.EndsRun (m : Moment) : Prop := m.before.running ≠ none ∧ m.after.running = none

/-- The frames that come into the queue, with their priorities. -/
def Moment.queued (m : Moment) : List (Priority × OutboundFrame) :=
  m.before.queue.added m.after.queue

/-- The frames that come into a tier of the queue. -/
def Moment.entered (p : Priority) (m : Moment) : List OutboundFrame := SendQueue.tier p m.queued

/-- The frame that a writer takes from the queue. -/
def Moment.taken (m : Moment) : List OutboundFrame :=
  match m.what with
  | .move (.writer r) => m.popped r
  | _ => []

/-- The frame that a writer takes from a tier: from the second one only when the first one is
empty. -/
def Moment.takenFrom (p : Priority) (m : Moment) : List OutboundFrame :=
  if p = .low ↔ m.before.queue.high = [] then m.taken else []

/-! ### Who fills the queue, and who takes from it -/

/-- Starts, stops and faults leave the queue alone, open it again, or take the installed run
away. -/
theorem queue_governs (h : Governs s o s') :
    s'.queue = s.queue ∨ s'.queue = s.queue.reopen ∨ s.running ≠ none ∧ s'.running = none := by
  cases h with
  | asksStart | asksStop | refuses | stopJoins => exact Or.inl rfl
  | startBegins | startFails | startEnds | stopEnds =>
    rw [enter_fst]
    exact Or.inl rfl
  | spawns => exact Or.inr (Or.inl rfl)
  | stopBegins _ _ hr =>
    refine Or.inr (Or.inr ⟨by rw [hr]; exact Option.some_ne_none _, ?_⟩)
    rw [takenDown_eq]
    rfl
  | @faultBegins t cause r _ _ hr =>
    obtain ⟨runs, he⟩ := putTeardown_eq (s.takenDown t r (.connection cause)) t
      (.closing s.link.nextCall)
    refine Or.inr (Or.inr ⟨by rw [hr]; exact Option.some_ne_none _, ?_⟩)
    rw [he, takenDown_eq]
  | @faultLate t =>
    obtain ⟨runs, he⟩ := exitTask_eq (s.releaseLifecycle t) t
    rw [he]
    exact Or.inl rfl
  | @faultEnds t =>
    obtain ⟨runs, he⟩ := exitTask_eq (s.enter .stopped).1 t
    rw [he, enter_fst]
    exact Or.inl rfl

/-- **Whoever is no writer only fills the queue**, unless it takes the installed run away. -/
theorem extends_of_other (h : Happens s o s') (ho : ∀ r, o ≠ .move (.writer r))
    (hkept : ¬(⟨s, o, s'⟩ : Moment).EndsRun) : ∃ items, s.queue.Extends s'.queue items := by
  cases deed_of_happens h with
  | notes => exact absurd rfl (ho _)
  | writes => exact absurd rfl (ho _)
  | looks => exact s.exists_extends_scan
  | minor _ hm => exact extends_of_minors hm
  | governs link _ _ hg =>
    refine ⟨[], ?_⟩
    rcases queue_governs hg with hq | hq | hends
    · exact SendQueue.extends_of_eq (by rw [hq]) (by rw [hq])
    · exact SendQueue.extends_of_eq (by rw [hq]; rfl) (by rw [hq]; rfl)
    · exact absurd hends hkept

/-- A task that reacts to a fault leaves the queue alone, or takes the installed run away. -/
theorem queue_teardown {t : TaskId} {teardown : Teardown} (h : s.TeardownWay t teardown s') :
    s'.queue = s.queue ∨ s.running ≠ none ∧ s'.running = none := by
  cases h with
  | late =>
    obtain ⟨runs, he⟩ := exitTask_eq (s.releaseLifecycle t) t
    rw [he]
    exact Or.inl rfl
  | @takes cause r _ hr =>
    obtain ⟨runs, he⟩ := putTeardown_eq (s.takenDown t r (.connection cause)) t
      (.closing s.link.nextCall)
    refine Or.inr ⟨by rw [hr]; exact Option.some_ne_none _, ?_⟩
    rw [he, takenDown_eq]
  | waits => exact Or.inl rfl
  | @ends c link =>
    obtain ⟨runs, he⟩ := exitTask_eq (Session.enter { s with link := link } .stopped).1 t
    rw [he, enter_fst]
    exact Or.inl rfl

/-- **A writer takes the first frame of the queue, or leaves it alone**, unless it takes the
installed run away. -/
theorem taken_of_writer (hr : s.runs.find? r = some run) (hm : m ∈ s.writerMoves r run)
    (hkept : ¬(⟨s, .move (.writer r), m.1⟩ : Moment).EndsRun) :
    (∃ frame, s.queue.tryPop = some (frame, m.1.queue) ∧
      (⟨s, .move (.writer r), m.1⟩ : Moment).taken = [frame]) ∨
    m.1.queue = s.queue ∧ (⟨s, .move (.writer r), m.1⟩ : Moment).taken = [] := by
  have hway := writerWay_of_mem hm
  generalize m.1 = s' at hway hkept ⊢
  have hof : (⟨s, .move (.writer r), s'⟩ : Moment).isOf r = true := decide_eq_true rfl
  have hw : s.writer? r = some run.writer := by rw [writer?, hr]; rfl
  generalize run.writer = phase at hway hw
  have hnone : phase ≠ .popping ∨ s'.writer? r = some .exited →
      (⟨s, .move (.writer r), s'⟩ : Moment).taken = [] := by
    intro h
    show (⟨s, .move (.writer r), s'⟩ : Moment).popped r = []
    refine if_neg fun hpops => ?_
    rcases h with hne | hexit
    · exact hne (Option.some.inj (hw.symm.trans hpops.2.1))
    · exact hpops.2.2 hexit
  cases hway with
  | leaves => exact Or.inr ⟨rfl, hnone (Or.inr (writer?_setWriter hr _))⟩
  | @takes frame queue _ hp =>
    have hafter := writer?_setWriter (s := { s with queue := queue }) hr (.checking frame)
    refine Or.inl ⟨frame, hp, ?_⟩
    show Moment.popped r _ = [frame]
    rw [Moment.popped, if_pos ⟨hof, hw, by rw [hafter]; simp⟩]
    dsimp only
    rw [hp]
    rfl
  | reacts hway =>
    rcases queue_teardown hway with hq | hends
    · exact Or.inr ⟨hq, hnone (Or.inl (by simp))⟩
    · exact absurd hends hkept
  | _ => exact Or.inr ⟨rfl, hnone (Or.inl (by simp))⟩

/-! ### First in, first out -/

theorem taken_other (ho : ∀ r, o ≠ .move (.writer r)) : (⟨s, o, s'⟩ : Moment).taken = [] := by
  unfold Moment.taken
  dsimp only
  split
  · exact absurd rfl (ho _)
  · rfl

theorem takenFrom_of_nil {mo : Moment} (h : mo.taken = []) (p : Priority) :
    mo.takenFrom p = [] := by
  rw [Moment.takenFrom, h, ite_self]

/-- **What passes through a tier in one move**: a writer takes the first frame, or others put
some at the end. -/
theorem passes_of_happens (h : Happens s o s') (hkept : ¬(⟨s, o, s'⟩ : Moment).EndsRun)
    (p : Priority) :
    s.queue.ofPriority p ++ (⟨s, o, s'⟩ : Moment).entered p =
      (⟨s, o, s'⟩ : Moment).takenFrom p ++ s'.queue.ofPriority p := by
  have filled : ∀ {items}, s.queue.Extends s'.queue items →
      (⟨s, o, s'⟩ : Moment).taken = [] →
      s.queue.ofPriority p ++ (⟨s, o, s'⟩ : Moment).entered p =
        (⟨s, o, s'⟩ : Moment).takenFrom p ++ s'.queue.ofPriority p := by
    intro items hext htaken
    rw [takenFrom_of_nil htaken, Moment.entered, Moment.queued, hext.tier_added, hext.ofPriority]
    rfl
  by_cases ho : ∃ r, o = .move (.writer r)
  · obtain ⟨r, rfl⟩ := ho
    obtain ⟨hm⟩ := id h
    rw [moves] at hm
    split at hm
    · next run hr =>
      rcases taken_of_writer hr hm hkept with ⟨frame, hp, htaken⟩ | ⟨hq, htaken⟩
      · dsimp only at hp htaken
        have hadded : (⟨s, .move (.writer r), s'⟩ : Moment).entered p = [] := by
          rw [Moment.entered, Moment.queued, (SendQueue.sheds_of_tryPop hp).added]
          rfl
        rw [hadded, List.append_nil, Moment.takenFrom, htaken]
        rcases SendQueue.tiers_of_tryPop hp with ⟨hhigh, hlow⟩ | ⟨hhigh, hhigh', hlow⟩
        · cases p <;> simp [SendQueue.ofPriority, hhigh, hlow]
        · cases p <;> simp [SendQueue.ofPriority, hhigh, hhigh', hlow]
      · exact filled (SendQueue.extends_of_eq (congrArg _ hq) (congrArg _ hq)) htaken
    · simp at hm
  · have ho' : ∀ r, o ≠ .move (.writer r) := fun r he => ho ⟨r, he⟩
    obtain ⟨items, hext⟩ := extends_of_other h ho' hkept
    exact filled hext (taken_other ho')

/-- **Each tier is first in, first out**, as long as no stop and no fault takes the installed
run away: what was there and what came in is what was taken and what is there still, in the
same order. -/
theorem passed_of_history (h : History v later s)
    (hkept : ∀ m ∈ moments later s, ¬m.EndsRun) (p : Priority) :
    v.queue.ofPriority p ++ gather (Moment.entered p) (moments later s) =
      gather (Moment.takenFrom p) (moments later s) ++ s.queue.ofPriority p := by
  induction h with
  | nil => rw [moments, gather, gather, List.append_nil, List.nil_append]
  | @cons w s later o h ho ih =>
    rw [moments, List.forall_mem_cons] at hkept
    rw [moments, gather, gather, ← List.append_assoc, ih hkept.2, List.append_assoc,
      passes_of_happens ho hkept.1, List.append_assoc]

/-- Whoever takes a frame pops it. -/
theorem tryPop_of_taken (h : Happens s o s') (hkept : ¬(⟨s, o, s'⟩ : Moment).EndsRun)
    {frame : OutboundFrame} (ht : frame ∈ (⟨s, o, s'⟩ : Moment).taken) :
    s.queue.tryPop = some (frame, s'.queue) := by
  by_cases ho : ∃ r, o = .move (.writer r)
  · obtain ⟨r, rfl⟩ := ho
    obtain ⟨hm⟩ := id h
    rw [moves] at hm
    split at hm
    · next run hr =>
      rcases taken_of_writer hr hm hkept with ⟨first, hp, htaken⟩ | ⟨_, htaken⟩
      · rw [htaken] at ht
        obtain rfl := List.mem_singleton.mp ht
        exact hp
      · rw [htaken] at ht
        cases ht
    · simp at hm
  · rw [taken_other fun r he => ho ⟨r, he⟩] at ht
    cases ht

/-- **Whatever waits in the first tier goes before the second**: when a writer takes a frame
meanwhile, it takes the first one of the first tier, and the second tier stays. -/
theorem high_of_taken (h : Happens s o s') (hkept : ¬(⟨s, o, s'⟩ : Moment).EndsRun)
    {frame : OutboundFrame} (ht : frame ∈ (⟨s, o, s'⟩ : Moment).taken)
    (hhigh : s.queue.high ≠ []) :
    s.queue.high = frame :: s'.queue.high ∧ s'.queue.low = s.queue.low :=
  (SendQueue.tiers_of_tryPop (tryPop_of_taken h hkept ht)).resolve_right fun hlow => hhigh hlow.1

/-! ### What was pushed -/

/-- **Whatever waits in a tier was pushed with its priority.** -/
theorem pushed_of_history (h : History (fresh config link) before s) {frame : OutboundFrame}
    {p : Priority} (hf : frame ∈ s.queue.ofPriority p) :
    (p, frame) ∈ (trail frame.id before s).pushed := by
  induction h with
  | nil => cases p <;> cases hf
  | @cons w s before o h ho ih =>
    rw [trail, Trail.after]
    rcases extends_or_sheds (sound_of_history h).runs ho with ⟨items, hext⟩ | hsheds
    · rw [hext.ofPriority, List.mem_append] at hf
      rcases hf with hf | hf
      · exact List.mem_append_right _ (ih hf)
      · rw [← hext.tier_added, SendQueue.mem_tier] at hf
        exact List.mem_append_left _ (List.mem_filter.mpr ⟨hf, decide_eq_true rfl⟩)
    · refine List.mem_append_right _ (ih ?_)
      cases p with
      | high => exact hsheds.1.subset hf
      | low => exact hsheds.2.subset hf

/-- The same holds of whatever waited in a tier before. -/
theorem pushed_of_moments (hv : History (fresh config link) before v) (h : History v later s)
    {mo : Moment} (hm : mo ∈ moments later s) {frame : OutboundFrame} {p : Priority}
    (hf : frame ∈ mo.before.queue.ofPriority p) :
    (p, frame) ∈ (trail frame.id (later ++ before) s).pushed := by
  induction h with
  | nil => cases hm
  | @cons w s later o h ho ih =>
    rcases List.mem_cons.mp hm with rfl | hm
    · exact List.mem_append_right _ (pushed_of_history (hv.trans h) hf)
    · exact List.mem_append_right _ (ih hm)

/-- **What is pushed under a number is what comes into the queue under it**, after what was
pushed before. -/
theorem pushed_perm (before : List (Session × Occurrence)) (h : History v later s)
    (id : RequestId) : (trail id (later ++ before) s).pushed.Perm
      (framesOf id (gather Moment.queued (moments later s)) ++ (trail id before v).pushed) := by
  induction h with
  | nil => exact List.Perm.refl _
  | @cons w s later o h ho ih =>
    rw [moments, gather, framesOf, List.filter_append]
    -- the latest come first on the trail, and last in the queue
    refine (List.Perm.append_left _ ih).trans ?_
    rw [← List.append_assoc]
    exact List.perm_append_comm.append_right _

end Session

end ZoneBus
