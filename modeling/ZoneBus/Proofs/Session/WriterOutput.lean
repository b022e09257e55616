import ZoneBus.Proofs.Session.CallOwnership

/-!
# What a writer puts on the line

A writer takes one frame after the other from the queue.  When the request of a frame has
not ended, it has the link write the frame, and notes that it was written before it takes
the next one.  Nobody else touches its call, so what the line took in its moves is made of
the frames that it began to write, in that order, and only the last of them can be there in
part: while it is written, or when the writer will not write any more.

## Main definitions

* `Session.Apart` — no two tasks wait for the same call.
* `Session.gather` — everything of a kind in a history, in order.
* `Session.popped`, `looked`, `noted`, `poured` — what the writer of a run took from the
  queue, looked up in the table, noted as written, and put on the line.
* `Session.Output`, `Session.Output.Fits` — what a writer has done, and whether it can be
  where it is.

## Main results

* `Session.apart_of_history` — every call has one task at most.
* `Session.writer?_of_happens` — writers come further by their own moves.
* `Session.fits_of_history` — **what a writer put on the line is what it began to write.**
-/

namespace ZoneBus

/-- What a call that writes has left to write. -/
def LinkPhase.left? : LinkPhase → Option Bytes
  | .begun (.send bytes) => some bytes
  | .sendTurn bytes => some bytes
  | .writing rest => some rest
  | _ => none

namespace Link

variable {l l' : Link} {c : CallId} {phase : LinkPhase} {events : List LinkEvent}

/-- **What a call that sends does**: the line takes a front part of what is left, and the
call goes on with the rest or ends, well only when there is no rest. -/
theorem Deed.left {rest : Bytes} (hd : Deed l c phase l' events) (h : phase.left? = some rest) :
    ∃ rest', rest = l.growth l' ++ rest' ∧
      (∀ phase', l'.calls.find? c = some phase' → phase'.left? = some rest') ∧
      (.finished c .done ∈ events → rest' = []) := by
  have goes : ∀ {l'} {phase' : LinkPhase}, l'.line = l.line → l'.calls = l.calls.put c phase' →
      phase'.left? = some rest → ∃ rest', rest = l.growth l' ++ rest' ∧
        (∀ phase', l'.calls.find? c = some phase' → phase'.left? = some rest') ∧
        (LinkEvent.finished c .done ∈ [] → rest' = []) := fun hline hcalls hleft => by
    refine ⟨rest, by rw [growth_of_eq (by rw [hline])]; rfl, fun phase' hf => ?_,
      fun hm => by cases hm⟩
    rw [hcalls, Directory.find?_put, if_pos rfl] at hf
    exact Option.some.inj hf ▸ hleft
  cases phase with
  | begun call =>
    cases call with
    | send bytes =>
      cases hd with
      | asksSend => exact goes rfl rfl h
      | givesUp _ hp => simp at hp
    | _ => cases h
  | sendTurn bytes =>
    cases hd with
    | getsWriter => exact goes rfl rfl h
    | lacksWriter =>
      have hno : l.growth (l.abort c) = [] := growth_of_eq rfl
      refine ⟨rest, by rw [hno]; rfl, fun phase' hf => ?_, fun hm => by simp at hm⟩
      rw [find?_abort_self] at hf
      cases hf
    | givesUp _ hp => simp at hp
  | writing left =>
    cases h
    obtain ⟨rest', hrest, hgoes, hdone⟩ := hd.writing
    exact ⟨rest', hrest, fun phase' hf => by rw [hgoes phase' hf]; rfl, hdone⟩
  | _ => cases h

end Link

namespace Session

variable {s s' s'' v : Session} {t u : TaskId} {r : RunId} {run : Run} {c : CallId}
  {o : Occurrence} {m : Session × List Notice}

/-! ### Every call has one task -/

/-- Every call under way has one task that waits for it at most, and only writers wait for
calls that send. -/
structure Apart (s : Session) : Prop where
  /-- Tasks wait for calls that have begun. -/
  begun : ∀ t c, s.call? t = some c → c < s.link.nextCall
  /-- No two tasks wait for the same one. -/
  alone : ∀ t u c, s.call? t = some c → s.call? u = some c → t = u
  /-- Only writers wait for calls that send. -/
  senders : ∀ t c phase, s.call? t = some c → s.link.calls.find? c = some phase →
    phase.kind = .sending → ∃ r, t = .writer r

/-- Going on with the calls that there are. -/
theorem Apart.of_keeps (h : s.Apart) (hk : s.link.Keeps s'.link)
    (hcall : ∀ u, s'.call? u = s.call? u ∨ s'.call? u = none) : s'.Apart := by
  have before : ∀ {u c}, s'.call? u = some c → s.call? u = some c := fun {u c} hc => by
    rcases hcall u with he | he
    · rwa [he] at hc
    · rw [he] at hc
      cases hc
  refine ⟨fun t c hc => ?_, fun t u c hc hc' => h.alone t u c (before hc) (before hc'),
    fun t c phase' hc hf hkind => ?_⟩
  · exact Nat.lt_of_lt_of_le (h.begun t c (before hc)) hk.1
  · obtain ⟨phase, hf, he⟩ := hk.2 c (h.begun t c (before hc)) phase' hf
    exact h.senders t c phase (before hc) hf (he.trans hkind)

theorem Apart.of_deals (h : s.Apart) (hd : Deals t s s') : s'.Apart := by
  have keeps : s.link.Keeps s'.link → (s'.call? t = s.call? t ∨ s'.call? t = none) → s'.Apart :=
    fun hk ht => h.of_keeps hk fun u => by
      by_cases hu : u = t
      · exact hu ▸ ht
      · exact hd.others u hu
  cases hd.own with
  | rests _ hlink hnone => exact keeps (hlink ▸ .refl _) (Or.inr hnone)
  | waits ht hm ht' => exact keeps (Link.keeps_of_mem_moves hm) (Or.inl (ht'.trans ht.symm))
  | ends _ hm _ hnone => exact keeps (Link.keeps_of_mem_moves hm) (Or.inr hnone)
  | drops _ hlink hnone => exact keeps (hlink ▸ Link.keeps_abort _ _) (Or.inr hnone)
  | begins call ht hlink ht' hsends =>
    -- the others wait for calls that began before
    have before : ∀ {u c}, u ≠ t → s'.call? u = some c →
        s.call? u = some c ∧ c < s.link.nextCall := fun {u c} hu hc => by
      rcases hd.others u hu with he | he
      · exact ⟨he ▸ hc, h.begun u c (he ▸ hc)⟩
      · rw [he] at hc
        cases hc
    have new : ∀ {u c}, u = t → s'.call? u = some c → c = s.link.nextCall := fun hu hc => by
      rw [hu, ht'] at hc
      exact (Option.some.inj hc).symm
    have hnext : s'.link.nextCall = s.link.nextCall + 1 := by rw [hlink]; rfl
    refine ⟨fun u c hc => ?_, fun u u' c hc hc' => ?_, fun u c phase hc hf hkind => ?_⟩
    · by_cases hu : u = t
      · rw [new hu hc, hnext]
        exact Nat.lt_succ_self _
      · exact hnext ▸ Nat.lt_succ_of_lt (before hu hc).2
    · by_cases hu : u = t
      · by_cases hu' : u' = t
        · exact hu.trans hu'.symm
        · exact absurd (new hu hc) (Nat.ne_of_lt (before hu' hc').2)
      · by_cases hu' : u' = t
        · exact absurd (new hu' hc') (Nat.ne_of_lt (before hu hc).2)
        · exact h.alone u u' c (before hu hc).1 (before hu' hc').1
    · rw [hlink] at hf
      by_cases hu : u = t
      · obtain rfl := new hu hc
        rw [Link.find?_begin, Option.some.injEq] at hf
        subst hf
        exact hu ▸ hsends hkind
      · obtain ⟨hc, hlt⟩ := before hu hc
        obtain ⟨phase', hf', he⟩ := (Link.keeps_begin s.link call).2 c hlt phase hf
        exact h.senders u c phase' hc hf' (he.trans hkind)

theorem apart_happens {o : Occurrence} (ho : Happens s o s') (h : s.Apart) : s'.Apart := by
  cases ho with
  | move hm => exact h.of_deals (deals_of_move hm)
  | input input =>
    obtain ⟨⟨hcalls, hnext⟩, hcall⟩ := s.call?_apply input
    exact h.of_keeps (Link.keeps_of_calls_eq hnext hcalls) hcall

theorem apart_fresh (config : SessionConfig) (link : Link) : (fresh config link).Apart := by
  have none : ∀ t, (fresh config link).call? t = none := fun t => by cases t <;> rfl
  refine ⟨fun t c hc => ?_, fun t u c hc => ?_, fun t c phase hc => ?_⟩
  · rw [none t] at hc
    cases hc
  · rw [none t] at hc
    cases hc
  · rw [none t] at hc
    cases hc

theorem apart_of_history {config : SessionConfig} {link : Link} {past : List (Session × Occurrence)}
    (h : History (fresh config link) past s) : s.Apart :=
  h.invariant apart_happens (apart_fresh config link)

/-- **Where a call that another task waits for has come to stays as it is.** -/
theorem Deals.find?_calls (hd : Deals t s s') (h : s.Apart) (hu : s.call? u = some c)
    (hne : u ≠ t) : s'.link.calls.find? c = s.link.calls.find? c := by
  have other : ∀ {d}, s.call? t = some d → c ≠ d := fun {d} ht he =>
    hne (h.alone u t c hu (he ▸ ht))
  have moved : ∀ {d events}, s.call? t = some d → (s'.link, events) ∈ s.link.moves d →
      s'.link.calls.find? c = s.link.calls.find? c := fun ht hm => by
    obtain ⟨phase, _, hdeed⟩ := Link.exists_deed hm
    exact hdeed.other c (other ht)
  cases hd.own with
  | rests _ hlink _ => rw [hlink]
  | begins call _ hlink _ _ =>
    have hlt := h.begun u c hu
    rw [hlink, Link.find?_calls_begin, if_neg (Nat.ne_of_gt hlt)]
  | waits ht hm _ => exact moved ht hm
  | ends ht hm _ _ => exact moved ht hm
  | drops ht hlink _ =>
    rw [hlink]
    show (s.link.calls.erase _).find? c = _
    rw [Directory.find?_erase, if_neg (other ht).symm]

/-- **Only writers add to the line**, when it comes to tasks. -/
theorem Deals.growth_eq_nil (hd : Deals t s s') (h : s.Apart) (ht : ∀ r, t ≠ .writer r) :
    s.link.growth s'.link = [] := by
  have moved : ∀ {d events}, s.call? t = some d → (s'.link, events) ∈ s.link.moves d →
      s.link.growth s'.link = [] := fun {d events} hcall hm => by
    obtain ⟨phase, hf, hdeed⟩ := Link.exists_deed hm
    refine hdeed.growth_eq_nil fun rest he => ?_
    obtain ⟨r, hr⟩ := h.senders t d phase hcall hf (he ▸ rfl)
    exact ht r hr
  cases hd.own with
  | rests _ hlink _ => exact Link.growth_of_eq (by rw [hlink])
  | begins _ _ hlink _ _ => exact Link.growth_of_eq (by rw [hlink]; rfl)
  | waits hcall hm _ => exact moved hcall hm
  | ends hcall hm _ _ => exact moved hcall hm
  | drops _ hlink _ => exact Link.growth_of_eq (by rw [hlink]; rfl)

/-! ### Whose move takes a writer further -/

/-- How far the writer of a run has come. -/
def writer? (s : Session) (r : RunId) : Option WriterPhase := (s.runs.find? r).map Run.writer

theorem writer?_congr (h : s'.runs = s.runs) : s'.writer? r = s.writer? r := by
  rw [writer?, writer?, h]

theorem writer?_modifyRun {r' : RunId} {f : Run → Run}
    (h : r' ≠ r ∨ ∀ run, (f run).writer = run.writer) :
    (s.modifyRun r' f).writer? r = s.writer? r := by
  rw [writer?, writer?, find?_modifyRun]
  split
  · next he =>
    subst he
    rw [Option.map_map]
    exact congrArg (Option.map · _) (funext (h.resolve_left (not_not.mpr rfl)))
  · rfl

theorem writer?_setWriter (hr : s.runs.find? r = some run) (phase : WriterPhase) :
    (s.setWriter r phase).writer? r = some phase := by
  rw [writer?, setWriter, find?_modifyRun_self hr]
  rfl

theorem writer?_minor (h : Minor s s') : s'.writer? r = s.writer? r := by
  cases h with
  | aside => exact writer?_congr rfl
  | skips t =>
    rw [writer?, writer?, find?_scanFrom, Option.map_map]
    rfl
  | reads f _ _ hkeep _ => exact writer?_modifyRun (Or.inr fun run => (hkeep run).2)
  | queues => exact writer?_congr rfl
  | enqueues target message priority _ =>
    obtain ⟨_, _, _, _, he⟩ := s.trafficOnly_enqueue target message priority
    exact writer?_congr (by rw [he])
  | withdraws => exact writer?_congr rfl
  | resolves => exact writer?_congr rfl

theorem writer?_minors (h : Minors s s') : s'.writer? r = s.writer? r := by
  induction h with
  | refl => rfl
  | tail _ hm ih => exact (writer?_minor hm).trans ih

theorem writer?_writes {r' : RunId} (h : Writes r' s s') (hne : r' ≠ r) :
    s'.writer? r = s.writer? r := by
  cases h with
  | pops => exact writer?_modifyRun (Or.inl hne)
  | sends => exact writer?_modifyRun (Or.inl hne)
  | drops => exact writer?_modifyRun (Or.inl hne)
  | writes => exact writer?_modifyRun (Or.inl hne)
  | breaks => exact writer?_modifyRun (Or.inl hne)
  | leaves => exact writer?_modifyRun (Or.inl hne)

theorem writer?_putTeardown (s : Session) (teardown : Teardown) (ht : t ≠ .writer r) :
    (s.putTeardown t teardown).writer? r = s.writer? r := by
  cases t with
  | reader r' => exact writer?_modifyRun (Or.inr fun _ => rfl)
  | writer r' => exact writer?_modifyRun (Or.inl fun he => ht (congrArg _ he))
  | _ => rfl

theorem writer?_exitTask (s : Session) (ht : t ≠ .writer r) :
    (s.exitTask t).writer? r = s.writer? r := by
  cases t with
  | reader r' => exact writer?_modifyRun (Or.inr fun _ => rfl)
  | writer r' => exact writer?_modifyRun (Or.inl fun he => ht (congrArg _ he))
  | _ => rfl

theorem writer?_takenDown (s : Session) (t : TaskId) (r' : RunId) (error : SessionError) :
    (s.takenDown t r' error).writer? r = s.writer? r := by
  have hmod : (s.modifyRun r' fun run => { run with cancelled := true }).writer? r = s.writer? r :=
    writer?_modifyRun (Or.inr fun _ => rfl)
  rw [takenDown_eq]
  exact hmod

/-- Starts, stops and faults take no writer further but that of the fault. -/
theorem writer?_governs (hl : s.Lifecycle) (h : Governs s o s') (ho : o ≠ .move (.writer r)) :
    s'.writer? r = s.writer? r ∨ s.writer? r = none ∧ s'.writer? r = some .popping := by
  have mover : ∀ {t}, o = .move t → t ≠ .writer r := fun he ht => ho (by rw [he, ht])
  cases h with
  | asksStart => exact Or.inl rfl
  | asksStop => exact Or.inl rfl
  | refuses => exact Or.inl rfl
  | startBegins => rw [enter_fst]; exact Or.inl rfl
  | startFails => rw [enter_fst]; exact Or.inl rfl
  | spawns =>
    have hput : ((spawn s).2.runs.find? r) =
        if s.runIds.given + 1 = r then some (.fresh s.now) else s.runs.find? r :=
      Directory.find?_put _ _ _ _
    by_cases he : s.runIds.given + 1 = r
    · refine Or.inr ⟨?_, ?_⟩
      · rw [writer?, ← he, hl.find?_next_run]
        rfl
      · show ((spawn s).2.runs.find? r).map Run.writer = _
        rw [hput, if_pos he]
        rfl
    · refine Or.inl ?_
      show ((spawn s).2.runs.find? r).map Run.writer = _
      rw [hput, if_neg he]
      rfl
  | startEnds => rw [enter_fst]; exact Or.inl rfl
  | @stopBegins i r' =>
    exact Or.inl (writer?_takenDown s (.control i) r' .cancelled)
  | stopJoins => exact Or.inl rfl
  | stopEnds => rw [enter_fst]; exact Or.inl rfl
  | faultBegins =>
    exact Or.inl ((writer?_putTeardown _ _ (mover rfl)).trans (writer?_takenDown _ _ _ _))
  | @faultLate t =>
    exact Or.inl (writer?_exitTask (s.releaseLifecycle t) (mover rfl))
  | faultEnds =>
    rw [enter_fst]
    exact Or.inl (writer?_exitTask { s with state := .stopped } (mover rfl))

/-- **Writers come further by their own moves**, apart from new ones, which begin by waiting
for a frame. -/
theorem writer?_of_happens (hl : s.Lifecycle) (h : Happens s o s') (ho : o ≠ .move (.writer r)) :
    s'.writer? r = s.writer? r ∨ s.writer? r = none ∧ s'.writer? r = some .popping := by
  have other : ∀ {r'}, o = .move (.writer r') → r' ≠ r := fun he hr => ho (by rw [he, hr])
  cases deed_of_happens h with
  | @notes r' run frame _ _ =>
    exact Or.inl (writer?_modifyRun (s := (s.noteWritten frame).1) (Or.inl (other rfl)))
  | @writes v r' link lock hw _ =>
    have hv : v.writer? r = s.writer? r := writer?_writes hw (other rfl)
    exact Or.inl hv
  | looks next _ _ =>
    have hscan : s.scan.writer? r = s.writer? r := writer?_congr s.runs_scan
    exact Or.inl ((writer?_modifyRun (f := fun run => { run with nextScan := next run })
      (Or.inr fun _ => rfl)).trans hscan)
  | minor _ hm => exact Or.inl (writer?_minors hm)
  | governs link _ _ hg =>
    exact writer?_governs (s := { s with link := link }) (hl.withLink link) hg ho

/-! ### What is told of a writer -/

/-- Everything of a kind in some moments, in the order in which it came. -/
def gather {α : Type} (pick : Moment → List α) : List Moment → List α
  | [] => []
  | m :: earlier => gather pick earlier ++ pick m

/-- Whether the writer of a run moves. -/
def Moment.isOf (r : RunId) (m : Moment) : Bool :=
  match m.what with
  | .move (.writer r') => decide (r' = r)
  | _ => false

theorem isOf_eq_false (ho : o ≠ .move (.writer r)) : (⟨s, o, s'⟩ : Moment).isOf r = false := by
  unfold Moment.isOf
  dsimp only
  split
  · exact decide_eq_false fun he => ho (by rw [he])
  · rfl

/-- The frame that the writer of a run takes from the queue. -/
def Moment.popped (r : RunId) (m : Moment) : List OutboundFrame :=
  if m.isOf r = true ∧ m.before.writer? r = some .popping ∧ m.after.writer? r ≠ some .exited then
    (m.before.queue.tryPop.map Prod.fst).toList
  else []

/-- The frame that the writer of a run looks up, and whether its request is pending. -/
def Moment.looked (r : RunId) (m : Moment) : List (OutboundFrame × Bool) :=
  if m.isOf r = true then
    (((m.before.writer? r).bind WriterPhase.checked?).map fun frame =>
      (frame, m.before.pending.contains frame.id)).toList
  else []

/-- The frame that the writer of a run notes as written. -/
def Moment.noted (r : RunId) (m : Moment) : List OutboundFrame :=
  ((m.before.marked? m.what).toList.filter fun e => decide (e.1 = r)).map Prod.snd

/-- The bytes that the line takes in a move of the writer of a run. -/
def Moment.poured (r : RunId) (m : Moment) : Bytes :=
  if m.isOf r = true then m.before.link.growth m.after.link else []

/-- Those among the frames looked up whose requests were pending. -/
def stillPending (looked : List (OutboundFrame × Bool)) : List OutboundFrame :=
  (looked.filter Prod.snd).map Prod.fst

/-- What the writer of a run has done. -/
structure Output where
  /-- The frames that it began to write, since their requests were pending. -/
  begun : List OutboundFrame
  /-- The frames that it noted as written. -/
  noted : List OutboundFrame
  /-- The bytes that it put on the line. -/
  poured : Bytes

/-- What a writer has done after it did something more. -/
def Output.add (out : Output) (begun noted : List OutboundFrame) (poured : Bytes) : Output :=
  ⟨out.begun ++ begun, out.noted ++ noted, out.poured ++ poured⟩

theorem Output.add_nil (out : Output) : out.add [] [] [] = out := by
  rw [add, List.append_nil, List.append_nil, List.append_nil]

/-- What the writer of a run has done in some moments. -/
def output (r : RunId) (ms : List Moment) : Output where
  begun := stillPending (gather (Moment.looked r) ms)
  noted := gather (Moment.noted r) ms
  poured := gather (Moment.poured r) ms

variable {ms : List Moment}

/-- What is noted is noted by the writer of the run. -/
theorem marked?_writer {r' : RunId} {frame : OutboundFrame} (h : s.marked? o = some (r', frame)) :
    o = .move (.writer r') := by
  unfold marked? at h
  split at h
  · obtain ⟨run, _, hframe⟩ := Option.bind_eq_some_iff.mp h
    split at hframe
    · cases hframe
      rfl
    · cases hframe
  · cases h

theorem noted_other (ho : o ≠ .move (.writer r)) : (⟨s, o, s'⟩ : Moment).noted r = [] := by
  rw [Moment.noted, List.map_eq_nil_iff, List.filter_eq_nil_iff]
  rintro ⟨r', frame⟩ he hr
  obtain rfl : r' = r := of_decide_eq_true hr
  exact ho (marked?_writer (Option.mem_toList.mp he))

/-- What others do adds nothing. -/
theorem output_other (ho : o ≠ .move (.writer r)) :
    output r (⟨s, o, s'⟩ :: ms) = output r ms := by
  have hof : (⟨s, o, s'⟩ : Moment).isOf r = false := isOf_eq_false ho
  have hlooked : (⟨s, o, s'⟩ : Moment).looked r = [] := by
    rw [Moment.looked, hof, if_neg Bool.false_ne_true]
  have hpoured : (⟨s, o, s'⟩ : Moment).poured r = [] := by
    rw [Moment.poured, hof, if_neg Bool.false_ne_true]
  rw [output, gather, gather, gather, hlooked, noted_other ho, hpoured, List.append_nil,
    List.append_nil, List.append_nil]
  rfl

/-- What a writer does in a phase, and with what its move adds to the line. -/
theorem output_own (hr : s.runs.find? r = some run) :
    output r (⟨s, .move (.writer r), s'⟩ :: ms) =
      (output r ms).add (run.writer.checked?.filter fun frame =>
          s.pending.contains frame.id).toList
        (match run.writer with
          | .marking frame => [frame]
          | _ => [])
        (s.link.growth s'.link) := by
  have hof : (⟨s, .move (.writer r), s'⟩ : Moment).isOf r = true := decide_eq_true rfl
  have hwriter : s.writer? r = some run.writer := by rw [writer?, hr]; rfl
  have hbegun : stillPending ((⟨s, .move (.writer r), s'⟩ : Moment).looked r) =
      (run.writer.checked?.filter fun frame => s.pending.contains frame.id).toList := by
    rw [Moment.looked, if_pos hof]
    dsimp only
    rw [hwriter, Option.bind_some]
    cases run.writer.checked? with
    | none => rfl
    | some frame =>
      cases hc : s.pending.contains frame.id <;> simp [stillPending, hc, Option.filter]
  have hnoted : (⟨s, .move (.writer r), s'⟩ : Moment).noted r =
      match run.writer with
      | .marking frame => [frame]
      | _ => [] := by
    rw [Moment.noted]
    dsimp only
    rw [marked?, hr, Option.bind_some]
    cases run.writer <;> simp
  have hpoured : (⟨s, .move (.writer r), s'⟩ : Moment).poured r = s.link.growth s'.link := by
    rw [Moment.poured, if_pos hof]
  rw [output, gather, gather, gather, hnoted, hpoured, stillPending, List.filter_append,
    List.map_append]
  rw [← hbegun]
  rfl

/-! ### What a writer has done, and where it is -/

namespace Output

/-- Everything that was begun was written and noted. -/
def Whole (out : Output) : Prop :=
  out.noted = out.begun ∧ out.poured = out.begun.flatMap OutboundFrame.bytes

/-- A frame was begun last, of which this is left to write; the others were written and
noted. -/
def Cut (out : Output) (frame : OutboundFrame) (rest : Bytes) : Prop :=
  out.begun = out.noted ++ [frame] ∧ ∃ front, frame.bytes = front ++ rest ∧
    out.poured = out.noted.flatMap OutboundFrame.bytes ++ front

/-- Everything was written and noted, but perhaps for a frame that was begun last. -/
def Ended (out : Output) : Prop := out.Whole ∨ ∃ frame rest, out.Cut frame rest

/-- Whether a writer that has done this can be in a phase, or not be there yet. -/
def Fits (out : Output) (l : Link) : Option WriterPhase → Prop
  | none => out = ⟨[], [], []⟩
  | some .popping => out.Whole
  | some (.checking _) => out.Whole
  | some (.sending frame c) => ∃ rest, out.Cut frame rest ∧
      ∀ phase, l.calls.find? c = some phase → phase.left? = some rest
  | some (.marking frame) => out.Cut frame []
  | some (.faulting teardown) => out.Ended ∧ ∀ c phase, teardown.call? = some c →
      l.calls.find? c = some phase → phase.kind = .closing
  | some .exited => out.Ended

section

variable {out : Output} {frame : OutboundFrame} {rest rest' more : Bytes}

/-- When everything was written, a frame is begun of which all is left to write. -/
theorem Whole.begin (h : out.Whole) (frame : OutboundFrame) :
    (out.add [frame] [] []).Cut frame frame.bytes := by
  obtain ⟨hnoted, hpoured⟩ := h
  refine ⟨?_, [], rfl, ?_⟩
  · show out.begun ++ [frame] = (out.noted ++ []) ++ [frame]
    rw [List.append_nil, hnoted]
  · show out.poured ++ [] = (out.noted ++ []).flatMap OutboundFrame.bytes ++ []
    rw [List.append_nil, List.append_nil, List.append_nil, hpoured, hnoted]

/-- What the line takes is a front part of what is left. -/
theorem Cut.pour (h : out.Cut frame rest) (hrest : rest = more ++ rest') :
    (out.add [] [] more).Cut frame rest' := by
  obtain ⟨hbegun, front, hbytes, hpoured⟩ := h
  refine ⟨?_, front ++ more, by rw [hbytes, hrest, List.append_assoc], ?_⟩
  · show out.begun ++ [] = (out.noted ++ []) ++ [frame]
    rw [List.append_nil, List.append_nil, hbegun]
  · show out.poured ++ more = (out.noted ++ []).flatMap _ ++ _
    rw [List.append_nil, hpoured, List.append_assoc]

/-- When nothing of it is left, the frame is noted, and everything was written. -/
theorem Cut.note (h : out.Cut frame []) : (out.add [] [frame] []).Whole := by
  obtain ⟨hbegun, front, hbytes, hpoured⟩ := h
  refine ⟨?_, ?_⟩
  · show out.noted ++ [frame] = out.begun ++ []
    rw [List.append_nil, hbegun]
  · show out.poured ++ [] = (out.begun ++ []).flatMap _
    rw [List.append_nil, List.append_nil, hpoured, hbegun, List.flatMap_append,
      List.flatMap_singleton, hbytes, List.append_nil]

end

end Output

section Own

variable {out : Output} {phase : WriterPhase}

/-- A move by which nothing is begun, noted or added to the line. -/
theorem fits_idle (hline : s.link.growth s'.link = []) (hw : s'.writer? r = some phase)
    (h : out.Fits s'.link (some phase)) :
    (out.add [] [] (s.link.growth s'.link)).Fits s'.link (s'.writer? r) := by
  rwa [hline, Output.add_nil, hw]

/-- A writer that reacts to a fault adds nothing to the line. -/
theorem fits_teardown {teardown : Teardown} (ha : s.Apart)
    (ht : s.teardownOf? (.writer r) = some teardown) (hway : s.TeardownWay (.writer r) teardown s')
    (h : out.Fits s.link (some (.faulting teardown))) :
    (out.add [] [] (s.link.growth s'.link)).Fits s'.link (s'.writer? r) := by
  obtain ⟨run, hr, hph⟩ := teardownOf?_writer.mp ht
  obtain ⟨hended, hkind⟩ := h
  -- the call of the writer closes the link, and this puts nothing on the line
  have still : ∀ {c link events}, teardown = .closing c → (link, events) ∈ s.link.moves c →
      s.link.growth link = [] := by
    rintro c link events rfl hmem
    obtain ⟨phase, hf, hdeed⟩ := Link.exists_deed hmem
    refine hdeed.growth_eq_nil fun rest he => ?_
    have hclosing := hkind c phase rfl hf
    rw [he] at hclosing
    cases hclosing
  cases hway with
  | late => exact fits_idle (Link.growth_of_eq rfl) (writer?_setWriter hr _) hended
  | @takes cause r' =>
    have hlink : ((s.takenDown (.writer r) r' (.connection cause)).putTeardown (.writer r)
        (.closing s.link.nextCall)).link = (s.link.begin .close).2 := by
      show (s.takenDown (.writer r) r' (.connection cause)).link = _
      rw [takenDown_eq]
    obtain ⟨run', hr', _⟩ := teardownOf?_writer.mp
      ((teardownOf?_takenDown (.writer r) r' (.connection cause) (.writer r)).trans ht)
    refine fits_idle ?_ (writer?_setWriter hr' _) ⟨hended, fun c phase hc hf => ?_⟩
    · rw [hlink]
      exact Link.growth_of_eq rfl
    · obtain rfl := Option.some.inj hc
      rw [hlink] at hf
      obtain rfl := Option.some.inj ((Link.find?_begin s.link .close).symm.trans hf)
      rfl
  | @waits c link events hmem =>
    have hw : Session.writer? { s with link := link } r = some (.faulting (.closing c)) := by
      rw [writer?, hr, Option.map_some, hph]
    refine fits_idle (still rfl hmem) hw ⟨hended, fun d phase' hd hf' => ?_⟩
    obtain rfl := Option.some.inj hd
    have hcall : s.call? (.writer r) = some c := by
      rw [call?_writer hr, hph]
      rfl
    obtain ⟨phase, hf, he⟩ :=
      (Link.keeps_of_mem_moves hmem).2 c (ha.begun _ c hcall) phase' hf'
    exact he.symm.trans (hkind c phase rfl hf)
  | @ends c link events _ hmem =>
    rw [enter_fst]
    exact fits_idle (still rfl hmem)
      (writer?_setWriter (s := { s with link := link, state := .stopped }) hr .exited) hended

/-- What the line takes while a frame is written comes to its front part. -/
theorem Output.Fits.pours {frame : OutboundFrame} {link : Link} {events : List LinkEvent}
    (h : out.Fits s.link (some (.sending frame c))) (hmem : (link, events) ∈ s.link.moves c) :
    ∃ rest, (out.add [] [] (s.link.growth link)).Cut frame rest ∧
      (∀ phase, link.calls.find? c = some phase → phase.left? = some rest) ∧
      (resultOf? c events = some .done → rest = []) := by
  obtain ⟨rest, hcut, hleft⟩ := h
  obtain ⟨phase, hf, hdeed⟩ := Link.exists_deed hmem
  obtain ⟨rest', hrest, hgoes, hdone⟩ := hdeed.left (hleft phase hf)
  exact ⟨rest', hcut.pour hrest, hgoes, fun hres => hdone (finished_of_resultOf? hres)⟩

/-- The frames that a writer begins, which has one in hand: that one when its request has not
ended. -/
theorem begun_of_checking (s : Session) (frame : OutboundFrame) :
    ((WriterPhase.checking frame).checked?.filter fun f => s.pending.contains f.id).toList =
      if s.pending.contains frame.id then [frame] else [] := by
  cases hc : s.pending.contains frame.id with
  | true => simp [WriterPhase.checked?, hc]
  | false => simp [WriterPhase.checked?, hc]

/-- A frame that a writer begins to write is not there yet. -/
theorem fits_begins {frame : OutboundFrame} (hr : s.runs.find? r = some run) (h : out.Whole) :
    (out.add [frame] [] (s.link.growth (s.link.begin (.send frame.bytes)).2)).Fits
      (s.link.begin (.send frame.bytes)).2
      (((s.beginLink (.send frame.bytes)).2.setWriter r
        (.sending frame s.link.nextCall)).writer? r) := by
  have hno : s.link.growth (s.link.begin (.send frame.bytes)).2 = [] := Link.growth_of_eq rfl
  rw [writer?_setWriter (s := (s.beginLink (.send frame.bytes)).2) hr, hno]
  refine ⟨frame.bytes, Output.Whole.begin h frame, fun phase hf => ?_⟩
  obtain rfl := Option.some.inj ((Link.find?_begin s.link (.send frame.bytes)).symm.trans hf)
  rfl

/-- **What the writer does in one move keeps its account.** -/
theorem fits_own (ha : s.Apart) (hr : s.runs.find? r = some run) (hm : m ∈ s.writerMoves r run)
    (h : (output r ms).Fits s.link (some run.writer)) :
    (output r (⟨s, .move (.writer r), m.1⟩ :: ms)).Fits m.1.link (m.1.writer? r) := by
  have hway := writerWay_of_mem hm
  rw [output_own hr]
  generalize output r ms = out at h ⊢
  generalize m.1 = s' at hway ⊢
  generalize hph : run.writer = phase at hway h ⊢
  cases hway with
  | leaves => exact fits_idle (Link.growth_of_eq rfl) (writer?_setWriter hr _) (Or.inl h)
  | @takes frame queue =>
    exact fits_idle (Link.growth_of_eq rfl)
      (writer?_setWriter (s := { s with queue := queue }) hr (.checking frame)) h
  | @begins frame hc =>
    rw [begun_of_checking, if_pos hc]
    exact fits_begins hr h
  | @skips frame hc =>
    rw [begun_of_checking, if_neg (Bool.not_eq_true _ ▸ hc)]
    exact fits_idle (Link.growth_of_eq rfl) (writer?_setWriter hr _) h
  | @drops frame c =>
    obtain ⟨rest, hcut, _⟩ := h
    have hended : out.Ended := Or.inr ⟨frame, rest, hcut⟩
    exact fits_idle (Link.growth_of_eq rfl) (writer?_setWriter (s := s.abortLink c) hr _) hended
  | @waits frame c link events hmem =>
    obtain ⟨rest, hcut, hgoes, _⟩ := h.pours hmem
    have hw : Session.writer? { s with link := link } r = some (.sending frame c) := by
      rw [writer?, hr, Option.map_some, hph]
    rw [hw]
    exact ⟨rest, hcut, hgoes⟩
  | @writes frame c link events hmem hres =>
    obtain ⟨rest, hcut, _, hdone⟩ := h.pours hmem
    obtain rfl := hdone hres
    rw [writer?_setWriter (s := { s with link := link }) hr]
    exact hcut
  | @ends frame c link events _ hmem =>
    obtain ⟨rest, hcut, _⟩ := h.pours hmem
    rw [writer?_setWriter (s := { s with link := link }) hr]
    exact Or.inr ⟨frame, rest, hcut⟩
  | @breaks frame c link events error hmem =>
    obtain ⟨rest, hcut, _⟩ := h.pours hmem
    have hw : ((Session.setWriter { s with link := link } r
        (.faulting (.locking error))).queueLifecycle (.writer r)).writer? r =
        some (.faulting (.locking error)) := writer?_setWriter (s := { s with link := link }) hr _
    rw [hw]
    exact ⟨Or.inr ⟨frame, rest, hcut⟩, fun _ _ hc => by cases hc⟩
  | @notes frame =>
    have hno : s.link.growth s.link = [] := Link.growth_of_eq rfl
    rw [writer?_setWriter (s := (s.noteWritten frame).1) hr]
    show (out.add [] [frame] (s.link.growth s.link)).Whole
    rw [hno]
    exact Output.Cut.note h
  | reacts hway => exact fits_teardown ha (teardownOf?_writer.mpr ⟨run, hr, hph⟩) hway h

end Own

/-- **A writer goes on with the frame that it writes**, and notes it in the end, unless its run
is to end or the link fails. -/
theorem writer?_sending {frame : OutboundFrame} (hr : s.runs.find? r = some run)
    (hm : m ∈ s.writerMoves r run) (hph : run.writer = .sending frame c)
    (h : (output r ms).Fits s.link (some run.writer)) :
    m.1.writer? r = some (.sending frame c) ∨ m.1.writer? r = some (.marking frame) ∨
      run.cancelled = true ∨ ∃ events error, (m.1.link, events) ∈ s.link.moves c ∧
        resultOf? c events = some (.failed error) := by
  have hway := writerWay_of_mem hm
  generalize m.1 = s' at hway ⊢
  rw [hph] at hway h
  obtain ⟨rest, _, hleft⟩ := h
  cases hway with
  | drops hc => exact Or.inr (Or.inr (Or.inl hc))
  | @waits _ _ link events hmem =>
    refine Or.inl ?_
    rw [writer?, hr, Option.map_some, hph]
  | @writes _ _ link =>
    exact Or.inr (Or.inl (writer?_setWriter (s := { s with link := link }) hr _))
  | ends hmem hres hend =>
    rcases hend with ⟨hc, _⟩ | ⟨bytes, rfl⟩
    · exact Or.inr (Or.inr (Or.inl hc))
    · obtain ⟨phase, hf, hdeed⟩ := Link.exists_deed hmem
      obtain ⟨most, rfl⟩ := hdeed.reading_of_received (finished_of_resultOf? hres)
      cases hleft _ hf
  | breaks hmem hres => exact Or.inr (Or.inr (Or.inr ⟨_, _, hmem, hres⟩))

/-- **Whatever happens keeps the account of a writer.** -/
theorem fits_happens (ho : Happens s o s') (hl : s.Lifecycle) (ha : s.Apart)
    (h : (output r ms).Fits s.link (s.writer? r)) :
    (output r (⟨s, o, s'⟩ :: ms)).Fits s'.link (s'.writer? r) := by
  by_cases hown : o = .move (.writer r)
  · subst hown
    obtain ⟨hm⟩ := ho
    rw [moves] at hm
    split at hm
    · next run hr =>
      rw [writer?, hr] at h
      exact fits_own ha hr hm h
    · simp at hm
  · rw [output_other hown]
    -- its call is where it was
    have hcalls : ∀ c, s.call? (.writer r) = some c →
        s'.link.calls.find? c = s.link.calls.find? c := fun c hc => by
      cases ho with
      | @move _ t _ hm =>
        exact (deals_of_move hm).find?_calls ha hc fun he => hown (by rw [← he])
      | input input => rw [(s.call?_apply input).1.1]
    have hcall : ∀ {phase}, s.writer? r = some phase → s.call? (.writer r) = phase.call? := by
      intro phase hw
      obtain ⟨run, hr, rfl⟩ := Option.map_eq_some_iff.mp hw
      exact call?_writer hr
    rcases writer?_of_happens hl ho hown with hw | ⟨hnone, hw⟩
    · rw [hw]
      cases hphase : s.writer? r with
      | none => rwa [hphase] at h
      | some phase =>
        rw [hphase] at h
        cases phase with
        | sending frame c =>
          obtain ⟨rest, hcut, hleft⟩ := h
          exact ⟨rest, hcut, fun phase hf => hleft phase (hcalls c (hcall hphase) ▸ hf)⟩
        | faulting teardown =>
          obtain ⟨hended, hkind⟩ := h
          refine ⟨hended, fun c phase hc hf => hkind c phase hc ?_⟩
          rw [← hcalls c ((hcall hphase).trans hc)]
          exact hf
        | _ => exact h
    · rw [hnone] at h
      rw [hw]
      have hnothing : output r ms = ⟨[], [], []⟩ := h
      rw [hnothing]
      exact ⟨rfl, rfl⟩

variable {config : SessionConfig} {link : Link} {before later : List (Session × Occurrence)}

/-- **What a writer put on the line is what it began to write**, since a time when it was not
there yet, and where it is tells how much of the last frame is there. -/
theorem fits_of_history (hv : History (fresh config link) before v) (hnew : v.writer? r = none)
    (h : History v later s) : (output r (moments later s)).Fits s.link (s.writer? r) := by
  induction h with
  | nil =>
    rw [hnew]
    exact rfl
  | cons h ho ih =>
    have hpast := hv.trans h
    exact fits_happens ho (lifecycle_of_history hpast) (apart_of_history hpast) ih

/-! ### What a writer takes -/

/-- A writer that reacts to a fault goes on with that, or has ended. -/
theorem writer?_teardown {teardown : Teardown} (ht : s.teardownOf? (.writer r) = some teardown)
    (hway : s.TeardownWay (.writer r) teardown s') :
    s'.writer? r = some .exited ∨ ∃ teardown', s'.writer? r = some (.faulting teardown') := by
  obtain ⟨run, hr, hph⟩ := teardownOf?_writer.mp ht
  cases hway with
  | late => exact Or.inl (writer?_setWriter hr _)
  | @takes cause r' =>
    obtain ⟨run', hr', _⟩ := teardownOf?_writer.mp
      ((teardownOf?_takenDown (.writer r) r' (.connection cause) (.writer r)).trans ht)
    exact Or.inr ⟨_, writer?_setWriter hr' _⟩
  | @waits c =>
    refine Or.inr ⟨.closing c, ?_⟩
    rw [writer?, hr, Option.map_some, hph]
  | @ends _ link =>
    rw [enter_fst]
    exact Or.inl (writer?_setWriter (s := { s with link := link, state := .stopped }) hr _)

/-- A writer that waits for a frame takes the first of the queue or ends, and no other comes
to look a frame up. -/
theorem writer?_own (hr : s.runs.find? r = some run) (hm : m ∈ s.writerMoves r run) :
    (run.writer = .popping ∧ (m.1.writer? r = some .exited ∨
      ∃ frame, s.queue.tryPop = some (frame, m.1.queue) ∧
        m.1.writer? r = some (.checking frame))) ∨
    run.writer ≠ .popping ∧ (m.1.writer? r).bind WriterPhase.checked? = none := by
  have hway := writerWay_of_mem hm
  generalize m.1 = s' at hway ⊢
  generalize hph : run.writer = phase at hway ⊢
  have looks : ∀ {phase phase' : WriterPhase}, phase ≠ .popping → s'.writer? r = some phase' →
      phase'.checked? = none →
      phase ≠ .popping ∧ (s'.writer? r).bind WriterPhase.checked? = none := by
    intro phase phase' hne hw hnone
    exact ⟨hne, by rw [hw, Option.bind_some, hnone]⟩
  cases hway with
  | leaves => exact Or.inl ⟨rfl, Or.inl (writer?_setWriter hr _)⟩
  | @takes frame queue _ hp =>
    refine Or.inl ⟨rfl, Or.inr ⟨frame, hp, ?_⟩⟩
    exact writer?_setWriter (s := { s with queue := queue }) hr _
  | begins => exact Or.inr (looks (by simp) (writer?_setWriter hr _) rfl)
  | skips => exact Or.inr (looks (by simp) (writer?_setWriter hr _) rfl)
  | drops => exact Or.inr (looks (by simp) (writer?_setWriter hr _) rfl)
  | @waits frame c link =>
    have hw : Session.writer? { s with link := link } r = some (.sending frame c) := by
      rw [writer?, hr, Option.map_some, hph]
    exact Or.inr (looks (by simp) hw rfl)
  | writes => exact Or.inr (looks (by simp) (writer?_setWriter hr _) rfl)
  | ends => exact Or.inr (looks (by simp) (writer?_setWriter hr _) rfl)
  | breaks => exact Or.inr (looks (by simp) (writer?_setWriter hr _) rfl)
  | notes => exact Or.inr (looks (by simp) (writer?_setWriter hr _) rfl)
  | reacts hway =>
    rcases writer?_teardown (teardownOf?_writer.mpr ⟨run, hr, hph⟩) hway with hw | ⟨_, hw⟩
    · exact Or.inr (looks (by simp) hw rfl)
    · exact Or.inr (looks (by simp) hw rfl)

/-- **What a writer takes it looks up**: what it took from the queue is what it looked up, and
what it is about to look up. -/
theorem popped_of_history (hv : History (fresh config link) before v) (hnew : v.writer? r = none)
    (h : History v later s) :
    gather (Moment.popped r) (moments later s) =
      (gather (Moment.looked r) (moments later s)).map Prod.fst ++
        ((s.writer? r).bind WriterPhase.checked?).toList := by
  induction h with
  | nil =>
    rw [hnew]
    rfl
  | @cons w s later o h ho ih =>
    rw [moments, gather, gather, List.map_append, ih]
    by_cases hown : o = .move (.writer r)
    · subst hown
      have hof : (⟨w, .move (.writer r), s⟩ : Moment).isOf r = true := decide_eq_true rfl
      rw [Moment.popped, Moment.looked, if_pos hof]
      obtain ⟨hm⟩ := ho
      rw [moves] at hm
      split at hm
      · next run hr =>
        have hw : w.writer? r = some run.writer := by rw [writer?, hr]; rfl
        rcases writer?_own hr hm with ⟨hph, hexit | ⟨frame, hp, hafter⟩⟩ | ⟨hph, hafter⟩
        · rw [if_neg fun hne => hne.2.2 hexit]
          dsimp only at hexit ⊢
          rw [hw, hph, hexit]
          rfl
        · dsimp only at hp hafter ⊢
          rw [if_pos ⟨hof, by rw [hw, hph], by rw [hafter]; simp⟩, hp, hw, hph, hafter]
          simp [WriterPhase.checked?]
        · dsimp only at hafter ⊢
          rw [if_neg fun hne => hph (Option.some.inj (hw.symm.trans hne.2.1)), hafter, hw]
          cases hc : run.writer.checked? <;> simp [hc]
      · simp at hm
    · have hof : (⟨w, o, s⟩ : Moment).isOf r = false := isOf_eq_false hown
      rw [Moment.popped, Moment.looked, hof]
      have hsame : ((s.writer? r).bind WriterPhase.checked?) =
          ((w.writer? r).bind WriterPhase.checked?) := by
        rcases writer?_of_happens (lifecycle_of_history (hv.trans h)) ho hown with hw | ⟨hnone, hw⟩
        · rw [hw]
        · rw [hw, hnone]
          rfl
      rw [hsame]
      simp

end Session

end ZoneBus
