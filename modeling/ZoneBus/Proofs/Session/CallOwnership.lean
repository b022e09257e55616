import ZoneBus.Proofs.Link.Writing
import ZoneBus.Proofs.Session.Inbound
import ZoneBus.Proofs.Session.Publishing
import ZoneBus.Proofs.Session.Written

/-!
# Which task a call belongs to

A task that needs the link begins a call, and waits for it before it does anything else.
It moves this call on, drops it, or finds that it has ended; it does nothing to the calls
of others.  So where a call has come to is the affair of the task alone that waits for it.

## Main definitions

* `Session.call?` — the call of the link that a task waits for.
* `Session.Dealing`, `Session.Deals` — what the move of a task does to the calls of the
  link, and that it leaves the others what they wait for.

## Main results

* `Session.deals_of_move` — **a task does nothing to the calls of others.**
* `Session.call?_apply` — what is done from outside does nothing to any call.
-/

namespace ZoneBus

/-! ### The call of a task -/

/-- The call that a reaction to a fault waits for. -/
def Teardown.call? : Teardown → Option CallId
  | .locking _ => none
  | .closing c => some c

/-- The call that a reader waits for. -/
def ReaderPhase.call? : ReaderPhase → Option CallId
  | .receiving c => some c
  | .faulting teardown => teardown.call?
  | _ => none

/-- The call that a writer waits for. -/
def WriterPhase.call? : WriterPhase → Option CallId
  | .sending _ c => some c
  | .faulting teardown => teardown.call?
  | _ => none

/-- The call that a start or a stop waits for. -/
def Control.call? : Control → Option CallId
  | .opening c => some c
  | .closing _ c => some c
  | _ => none

namespace Session

/-- The call of the link that a task waits for. -/
def call? (s : Session) : TaskId → Option CallId
  | .control i => (s.controls.find? i).bind Control.call?
  | .reader r => (s.runs.find? r).bind fun run => run.reader.call?
  | .writer r => (s.runs.find? r).bind fun run => run.writer.call?
  | .scanner _ => none
  | .caller _ => none

variable {s s' s'' v : Session} {t u : TaskId} {r : RunId} {i : ControlId} {run : Run} {c : CallId}
  {f : Run → Run} {m : Session × List Notice}

theorem call?_congr (hcontrols : s'.controls = s.controls) (hruns : s'.runs = s.runs)
    (u : TaskId) : s'.call? u = s.call? u := by
  cases u with
  | control i => rw [call?, call?, hcontrols]
  | reader r => rw [call?, call?, hruns]
  | writer r => rw [call?, call?, hruns]
  | scanner r => rfl
  | caller i => rfl

/-- Where nothing is done to a task, it waits for the same call. -/
theorem call?_modifyRun (hreader : u ≠ .reader r ∨ ∀ run, (f run).reader = run.reader)
    (hwriter : u ≠ .writer r ∨ ∀ run, (f run).writer = run.writer) :
    (s.modifyRun r f).call? u = s.call? u := by
  have picked : ∀ {r'} {pick : Run → Option CallId}, (r = r' → ∀ run, pick (f run) = pick run) →
      ((s.modifyRun r f).runs.find? r').bind pick = (s.runs.find? r').bind pick := by
    intro r' pick hp
    rw [find?_modifyRun]
    split
    · next he =>
      subst he
      rw [Option.bind_map]
      exact congrArg _ (funext (hp rfl))
    · rfl
  cases u with
  | control i => rfl
  | reader r' =>
    refine picked fun he run => ?_
    rw [hreader.resolve_left (not_not.mpr (he ▸ rfl))]
  | writer r' =>
    refine picked fun he run => ?_
    rw [hwriter.resolve_left (not_not.mpr (he ▸ rfl))]
  | scanner r => rfl
  | caller i => rfl

theorem call?_reader (hr : s.runs.find? r = some run) : s.call? (.reader r) = run.reader.call? := by
  rw [call?, hr, Option.bind_some]

theorem call?_writer (hr : s.runs.find? r = some run) : s.call? (.writer r) = run.writer.call? := by
  rw [call?, hr, Option.bind_some]

theorem call?_control {phase : Control} (hi : s.controls.find? i = some phase) :
    s.call? (.control i) = phase.call? := by
  rw [call?, hi, Option.bind_some]

theorem find?_modifyRun_self (hr : s.runs.find? r = some run) :
    (s.modifyRun r f).runs.find? r = some (f run) := by
  rw [find?_modifyRun, if_pos rfl, hr, Option.map_some]

theorem call?_of_teardown {teardown : Teardown} (h : s.teardownOf? t = some teardown) :
    s.call? t = teardown.call? := by
  rcases teardownOf?_cases h with ⟨r, run, rfl, hr, hph⟩ | ⟨r, run, rfl, hr, hph⟩
  · rw [call?_reader hr, hph]
    rfl
  · rw [call?_writer hr, hph]
    rfl

/-! ### What a task does -/

/-- What the move of a task does to the calls of the link. -/
inductive Dealing (t : TaskId) (s s' : Session) : Prop where
  /-- Nothing: it waits for none. -/
  | rests : s.call? t = none → s'.link = s.link → s'.call? t = none → Dealing t s s'
  /-- It begins a call, and waits for it; only writers send, and what they send is a
  frame. -/
  | begins (call : LinkCall) : s.call? t = none → s'.link = (s.link.begin call).2 →
      s'.call? t = some s.link.nextCall →
      (call.kind = .sending → ∃ r, t = .writer r) → Dealing t s s'
  /-- Its call goes on. -/
  | waits {c : CallId} {events : List LinkEvent} : s.call? t = some c →
      (s'.link, events) ∈ s.link.moves c → s'.call? t = some c → Dealing t s s'
  /-- Its call ends. -/
  | ends {c : CallId} {events : List LinkEvent} {result : LinkResult} : s.call? t = some c →
      (s'.link, events) ∈ s.link.moves c → resultOf? c events = some result →
      s'.call? t = none → Dealing t s s'
  /-- It drops its call. -/
  | drops {c : CallId} : s.call? t = some c → s'.link = s.link.abort c → s'.call? t = none →
      Dealing t s s'

/-- What the move of a task does to the calls of the link, and that the others wait for no
other call than before. -/
structure Deals (t : TaskId) (s s' : Session) : Prop where
  /-- What it does. -/
  own : Dealing t s s'
  /-- What the others wait for. -/
  others : ∀ u, u ≠ t → s'.call? u = s.call? u ∨ s'.call? u = none

/-- The link, the runs and the calls that start and stop stay as they are. -/
structure TasksStay (s s' : Session) : Prop where
  /-- The link. -/
  link : s'.link = s.link
  /-- The runs. -/
  runs : s'.runs = s.runs
  /-- The calls that start and stop. -/
  controls : s'.controls = s.controls

namespace TasksStay

theorem refl (s : Session) : TasksStay s s := ⟨rfl, rfl, rfl⟩

theorem trans (h : TasksStay s s') (h' : TasksStay s' s'') : TasksStay s s'' :=
  ⟨h'.link.trans h.link, h'.runs.trans h.runs, h'.controls.trans h.controls⟩

theorem call?_eq (h : TasksStay s s') (u : TaskId) : s'.call? u = s.call? u :=
  call?_congr h.controls h.runs u

theorem of_traffic (h : s.TrafficOnly s') : TasksStay s s' := by
  obtain ⟨_, _, _, _, rfl⟩ := h
  exact ⟨rfl, rfl, rfl⟩

/-- Who waits for no call, and does nothing to the others, deals with nobody. -/
theorem deals (h : TasksStay s s') (ht : s.call? t = none) : Deals t s s' :=
  ⟨.rests ht h.link ((h.call?_eq t).trans ht), fun u _ => Or.inl (h.call?_eq u)⟩

end TasksStay

/-- Handling what was read touches no task. -/
theorem tasksStay_handle (s : Session) (result : FrameResult) :
    TasksStay s (s.handle result).1 := by
  obtain ⟨v, buffers, hv, hhandled⟩ := s.trafficOnly_handle result
  have hstored : TasksStay v { v with buffers := buffers } := ⟨rfl, rfl, rfl⟩
  exact (TasksStay.of_traffic hv).trans (hstored.trans (.of_traffic hhandled))

/-! ### Readers and writers -/

/-- A reader changes its phase, and nothing about other tasks. -/
theorem deals_reader (hr : s.runs.find? r = some run) (hruns : s'.runs = (s.modifyRun r f).runs)
    (hcontrols : s'.controls = s.controls) (hf : ∀ run, (f run).writer = run.writer)
    (own : s.call? (.reader r) = run.reader.call? → s'.call? (.reader r) = (f run).reader.call? →
      Dealing (.reader r) s s') : Deals (.reader r) s s' := by
  have hsame : ∀ u, s'.call? u = (s.modifyRun r f).call? u := call?_congr hcontrols hruns
  refine ⟨own (call?_reader hr) ?_, fun u hu => Or.inl ?_⟩
  · rw [hsame, call?_reader (find?_modifyRun_self hr)]
  · rw [hsame, call?_modifyRun (Or.inl hu) (Or.inr hf)]

/-- A writer changes its phase, and nothing about other tasks. -/
theorem deals_writer {phase : WriterPhase} (hr : s.runs.find? r = some run)
    (hruns : s'.runs = (s.setWriter r phase).runs) (hcontrols : s'.controls = s.controls)
    (own : s.call? (.writer r) = run.writer.call? → s'.call? (.writer r) = phase.call? →
      Dealing (.writer r) s s') : Deals (.writer r) s s' := by
  have hsame : ∀ u, s'.call? u = (s.setWriter r phase).call? u := call?_congr hcontrols hruns
  refine ⟨own (call?_writer hr) ?_, fun u hu => Or.inl ?_⟩
  · rw [hsame, setWriter, call?_writer (find?_modifyRun_self hr)]
  · exact (hsame u).trans (call?_modifyRun (f := fun run => { run with writer := phase })
      (Or.inr fun _ => rfl) (Or.inl hu))

/-- A call goes on, and nothing else happens. -/
theorem deals_waits {link : Link} {events : List LinkEvent} (ht : s.call? t = some c)
    (hm : (link, events) ∈ s.link.moves c) : Deals t s { s with link := link } :=
  ⟨.waits ht hm ((call?_congr rfl rfl t).trans ht), fun u _ => Or.inl (call?_congr rfl rfl u)⟩

/-! ### The reaction to a fault -/

theorem call?_exitTask {teardown : Teardown} (h : s.teardownOf? t = some teardown) :
    (s.exitTask t).call? t = none := by
  rcases teardownOf?_cases h with ⟨r, run, rfl, hr, _⟩ | ⟨r, run, rfl, hr, _⟩
  · exact call?_reader (find?_modifyRun_self hr)
  · exact call?_writer (find?_modifyRun_self hr)

theorem call?_putTeardown {teardown teardown' : Teardown} (h : s.teardownOf? t = some teardown) :
    (s.putTeardown t teardown').call? t = teardown'.call? := by
  rcases teardownOf?_cases h with ⟨r, run, rfl, hr, _⟩ | ⟨r, run, rfl, hr, _⟩
  · exact call?_reader (find?_modifyRun_self hr)
  · exact call?_writer (find?_modifyRun_self hr)

theorem call?_exitTask_of_ne (s : Session) (hu : u ≠ t) : (s.exitTask t).call? u = s.call? u := by
  cases t with
  | reader r => exact call?_modifyRun (Or.inl hu) (Or.inr fun _ => rfl)
  | writer r => exact call?_modifyRun (Or.inr fun _ => rfl) (Or.inl hu)
  | control i => rfl
  | scanner r => rfl
  | caller i => rfl

theorem call?_putTeardown_of_ne (s : Session) (teardown : Teardown) (hu : u ≠ t) :
    (s.putTeardown t teardown).call? u = s.call? u := by
  cases t with
  | reader r => exact call?_modifyRun (Or.inl hu) (Or.inr fun _ => rfl)
  | writer r => exact call?_modifyRun (Or.inr fun _ => rfl) (Or.inl hu)
  | control i => rfl
  | scanner r => rfl
  | caller i => rfl

/-- Taking a run away only stops its tasks, which still wait for what they waited for. -/
theorem call?_takenDown (s : Session) (t : TaskId) (r : RunId) (error : SessionError)
    (u : TaskId) : (s.takenDown t r error).call? u = s.call? u := by
  rw [takenDown_eq]
  exact (call?_congr rfl rfl u).trans (call?_modifyRun (s := s) (r := r)
    (f := fun run => { run with cancelled := true }) (Or.inr fun _ => rfl) (Or.inr fun _ => rfl))

/-- The ways of a task that reacts to a fault. -/
theorem deals_teardown {teardown : Teardown} (ht : s.teardownOf? t = some teardown)
    (h : s.TeardownWay t teardown s') : Deals t s s' := by
  have hcall := call?_of_teardown ht
  cases h with
  | late _ _ =>
    obtain ⟨runs, he⟩ := exitTask_eq (s.releaseLifecycle t) t
    refine ⟨.rests hcall (by rw [he]; rfl) (call?_exitTask ht), fun u hu => Or.inl ?_⟩
    exact call?_exitTask_of_ne (s.releaseLifecycle t) hu
  | @takes cause r _ _ =>
    have ht' := (teardownOf?_takenDown t r (.connection cause) t).trans ht
    obtain ⟨runs, he⟩ := putTeardown_eq (s.takenDown t r (.connection cause)) t
      (.closing s.link.nextCall)
    refine ⟨.begins .close hcall ?_ (call?_putTeardown ht') (fun hk => by cases hk),
      fun u hu => Or.inl ?_⟩
    · rw [he, takenDown_eq]
    · rw [call?_putTeardown_of_ne _ _ hu, call?_takenDown]
  | waits hmem => exact deals_waits hcall hmem
  | @ends c link events _ hmem hres =>
    rw [enter_fst]
    have ht' : Session.teardownOf? { s with link := link, state := .stopped } t =
        some (.closing c) := by
      rw [← ht]
      exact teardownOf?_congr rfl t
    obtain ⟨runs, he⟩ := exitTask_eq { s with link := link, state := .stopped } t
    refine ⟨.ends hcall (by rw [he]; exact hmem) hres (call?_exitTask ht'), fun u hu => Or.inl ?_⟩
    rw [call?_exitTask_of_ne _ hu]
    exact call?_congr rfl rfl u

/-! ### Every task -/

theorem deals_of_reader (hr : s.runs.find? r = some run) (h : m ∈ s.readerMoves r run) :
    Deals (.reader r) s m.1 := by
  have hway := readerWay_of_mem h
  generalize m.1 = s' at hway ⊢
  -- outside of its call the reader deals with nobody
  have rests : ∀ {f : Run → Run} {s' : Session}, run.reader.call? = none →
      s'.runs = (s.modifyRun r f).runs → s'.controls = s.controls → s'.link = s.link →
      (∀ run, (f run).writer = run.writer) → (f run).reader.call? = none →
      Deals (.reader r) s s' :=
    fun hnone hruns hcontrols hlink hf hnone' =>
      deals_reader hr hruns hcontrols hf fun hcall hcall' =>
        .rests (hcall.trans hnone) hlink (hcall'.trans hnone')
  -- its call ends
  have ends : ∀ {f : Run → Run} {s' : Session} {c : CallId} {events : List LinkEvent}
      {result : LinkResult}, run.reader.call? = some c → (s'.link, events) ∈ s.link.moves c →
      resultOf? c events = some result → s'.runs = (s.modifyRun r f).runs →
      s'.controls = s.controls → (∀ run, (f run).writer = run.writer) →
      (f run).reader.call? = none → Deals (.reader r) s s' :=
    fun hsome hmem hres hruns hcontrols hf hnone =>
      deals_reader hr hruns hcontrols hf fun hcall hcall' =>
        .ends (hcall.trans hsome) hmem hres (hcall'.trans hnone)
  generalize hph : run.reader = phase at hway rests ends
  cases hway with
  | wakes => exact rests rfl rfl rfl rfl (fun _ => rfl) rfl
  | leaves => exact rests rfl rfl rfl rfl (fun _ => rfl) rfl
  | listens =>
    refine deals_reader hr rfl rfl (fun _ => rfl) fun hcall hcall' => ?_
    exact .begins (.receive s.config.readBufferSize) (by rw [hcall, hph]; rfl) rfl hcall'
      fun hk => by cases hk
  | drops =>
    refine deals_reader hr rfl rfl (fun _ => rfl) fun hcall hcall' => ?_
    exact .drops (by rw [hcall, hph]; rfl) rfl hcall'
  | waits hmem => exact deals_waits (by rw [call?_reader hr, hph]; rfl) hmem
  | @reads _ _ _ bytes hmem hres =>
    exact ends
      (f := fun run => { run with reader := .handling, decoder := run.decoder.extend bytes })
      rfl hmem hres rfl rfl (fun _ => rfl) rfl
  | ends hmem hres =>
    exact ends (f := fun run => { run with reader := .exited })
      rfl hmem hres rfl rfl (fun _ => rfl) rfl
  | @breaks _ _ _ error hmem hres =>
    exact ends (f := fun run => { run with reader := .faulting (.locking error) })
      rfl hmem hres rfl rfl (fun _ => rfl) rfl
  | rests => exact rests rfl rfl rfl rfl (fun _ => rfl) rfl
  | @handles result decoder =>
    have hstay := tasksStay_handle (s.modifyRun r fun run => { run with decoder := decoder }) result
    refine rests rfl hstay.runs hstay.controls hstay.link (fun _ => rfl) ?_
    rw [hph]
    rfl
  | reacts hway => exact deals_teardown (teardownOf?_reader.mpr ⟨run, hr, hph⟩) hway

theorem deals_of_writer (hr : s.runs.find? r = some run) (h : m ∈ s.writerMoves r run) :
    Deals (.writer r) s m.1 := by
  have hway := writerWay_of_mem h
  generalize m.1 = s' at hway ⊢
  -- outside of its call the writer deals with nobody
  have rests : ∀ {phase : WriterPhase} {s' : Session}, run.writer.call? = none →
      s'.runs = (s.setWriter r phase).runs → s'.controls = s.controls → s'.link = s.link →
      phase.call? = none → Deals (.writer r) s s' :=
    fun hnone hruns hcontrols hlink hnone' => deals_writer hr hruns hcontrols fun hcall hcall' =>
      .rests (hcall.trans hnone) hlink (hcall'.trans hnone')
  -- its call ends
  have ends : ∀ {phase : WriterPhase} {s' : Session} {c : CallId} {events : List LinkEvent}
      {result : LinkResult}, run.writer.call? = some c → (s'.link, events) ∈ s.link.moves c →
      resultOf? c events = some result → s'.runs = (s.setWriter r phase).runs →
      s'.controls = s.controls → phase.call? = none → Deals (.writer r) s s' :=
    fun hsome hmem hres hruns hcontrols hnone =>
      deals_writer hr hruns hcontrols fun hcall hcall' =>
        .ends (hcall.trans hsome) hmem hres (hcall'.trans hnone)
  generalize hph : run.writer = phase at hway rests ends
  cases hway with
  | leaves | takes | skips | notes => exact rests rfl rfl rfl rfl rfl
  | begins =>
    refine deals_writer hr rfl rfl fun hcall hcall' => ?_
    exact .begins (.send _) (by rw [hcall, hph]; rfl) rfl hcall' fun _ => ⟨r, rfl⟩
  | drops =>
    refine deals_writer hr rfl rfl fun hcall hcall' => ?_
    exact .drops (by rw [hcall, hph]; rfl) rfl hcall'
  | waits hmem => exact deals_waits (by rw [call?_writer hr, hph]; rfl) hmem
  | writes hmem hres | ends hmem hres | breaks hmem hres => exact ends rfl hmem hres rfl rfl rfl
  | reacts hway => exact deals_teardown (teardownOf?_writer.mpr ⟨run, hr, hph⟩) hway

/-- A call that starts or stops changes how far it has come, and other tasks wait for what
they waited for. -/
theorem deals_control {phase phase' : Control} (hi : s.controls.find? i = some phase)
    (hcontrols : s'.controls = s.controls.put i phase')
    (hruns : ∀ u, (∀ j, u ≠ .control j) → s'.call? u = s.call? u ∨ s'.call? u = none)
    (own : s.call? (.control i) = phase.call? → s'.call? (.control i) = phase'.call? →
      Dealing (.control i) s s') : Deals (.control i) s s' := by
  refine ⟨own (call?_control hi) (call?_control ?_), fun u hu => ?_⟩
  · rw [hcontrols, Directory.find?_put, if_pos rfl]
  · cases u with
    | control j =>
      refine Or.inl ?_
      have hne : i ≠ j := fun he => hu (congrArg TaskId.control he.symm)
      rw [call?, call?, hcontrols, Directory.find?_put, if_neg hne]
    | _ => exact hruns _ (by simp)

/-- A call that starts or stops ends. -/
theorem deals_endControl (failure : Option SessionError)
    (own : (s.endControl i failure).1.call? (.control i) = none →
      Dealing (.control i) v (s.endControl i failure).1)
    (hcontrols : s.controls = v.controls) (hruns : s.runs = v.runs) :
    Deals (.control i) v (s.endControl i failure).1 := by
  have herased : ∀ j, (s.endControl i failure).1.controls.find? j =
      if i = j then none else v.controls.find? j := fun j => by
    show (s.controls.erase i).find? j = _
    rw [Directory.find?_erase, hcontrols]
  refine ⟨own ?_, fun u hu => ?_⟩
  · rw [call?, herased, if_pos rfl, Option.bind_none]
  · cases u with
    | control j =>
      have hne : i ≠ j := fun he => hu (congrArg TaskId.control he.symm)
      exact Or.inl (by rw [call?, call?, herased, if_neg hne])
    | reader r => exact Or.inl (by rw [call?, call?, ← hruns]; rfl)
    | writer r => exact Or.inl (by rw [call?, call?, ← hruns]; rfl)
    | scanner r => exact Or.inl rfl
    | caller i => exact Or.inl rfl

/-- What no task of a run waits for. -/
theorem call?_of_runs (hruns : s'.runs = s.runs) (hu : ∀ j, u ≠ .control j) :
    s'.call? u = s.call? u := by
  cases u with
  | control j => exact absurd rfl (hu j)
  | reader r => rw [call?, call?, hruns]
  | writer r => rw [call?, call?, hruns]
  | scanner r => rfl
  | caller i => rfl

/-- The tasks of a new run wait for no call. -/
theorem call?_spawn (hruns : s'.runs = s.spawn.2.runs) (hu : ∀ j, u ≠ .control j) :
    s'.call? u = s.call? u ∨ s'.call? u = none := by
  rw [call?_of_runs hruns hu]
  have spawned : ∀ {r'} {pick : Run → Option CallId}, pick (.fresh s.now) = none →
      ((s.runs.put (s.runIds.given + 1) (.fresh s.now)).find? r').bind pick =
        (s.runs.find? r').bind pick ∨
      ((s.runs.put (s.runIds.given + 1) (.fresh s.now)).find? r').bind pick = none := by
    intro r' pick hp
    rw [Directory.find?_put]
    split
    · exact Or.inr hp
    · exact Or.inl rfl
  cases u with
  | control j => exact absurd rfl (hu j)
  | reader r => exact spawned rfl
  | writer r => exact spawned rfl
  | scanner r => exact Or.inl rfl
  | caller i => exact Or.inl rfl

/-- A stop begins to close the link of the run that it takes away. -/
theorem deals_takenDown (hi : s.controls.find? i = some .stopTurn) (r : RunId) :
    Deals (.control i) s
      ((s.takenDown (.control i) r .cancelled).setControl i (.closing r s.link.nextCall)) := by
  have htaken := takenDown_eq s (.control i) r .cancelled
  have hput : ((s.takenDown (.control i) r .cancelled).setControl i
      (.closing r s.link.nextCall)).controls = s.controls.put i (.closing r s.link.nextCall) := by
    rw [htaken]
    rfl
  refine deals_control hi hput (fun u hu => Or.inl ?_) fun hcall hcall' =>
    .begins .close hcall (by rw [htaken]; rfl) hcall' fun hk => by cases hk
  rw [← call?_takenDown s (.control i) r .cancelled u]
  exact call?_of_runs rfl hu

theorem deals_of_control {phase : Control} (hi : s.controls.find? i = some phase)
    (h : m ∈ s.controlMoves i phase) : Deals (.control i) s m.1 := by
  have hway := controlWay_of_mem h
  have hcall := call?_control hi
  have same : ∀ {s' : Session}, s'.runs = s.runs → ∀ u, (∀ j, u ≠ .control j) →
      s'.call? u = s.call? u ∨ s'.call? u = none := fun hruns u hu =>
    Or.inl (call?_of_runs hruns hu)
  generalize m.1 = s' at hway ⊢
  cases hway with
  | refuses | rests => exact deals_endControl _ (fun hnone => .rests hcall rfl hnone) rfl rfl
  | begins =>
    rw [enter_fst]
    refine deals_control hi rfl (same rfl) fun hcall hcall' => ?_
    exact .begins .open hcall rfl hcall' fun hk => by cases hk
  | opening hmem | closing hmem => exact deals_waits hcall hmem
  | fails hmem hres =>
    rw [enter_fst]
    exact deals_endControl _ (fun hnone => .ends hcall hmem hres hnone) rfl rfl
  | spawns hmem hres =>
    exact deals_control hi rfl (fun u hu => call?_spawn rfl hu) fun hcall hcall' =>
      .ends hcall hmem hres hcall'
  | installs | joins =>
    rw [enter_fst]
    exact deals_endControl _ (fun hnone => .rests hcall rfl hnone) rfl rfl
  | takes => exact deals_takenDown hi _
  | closes hmem hres =>
    exact deals_control hi rfl (same rfl) fun hcall hcall' => .ends hcall hmem hres hcall'

/-- Callers touch no task. -/
theorem tasksStay_caller {j : CallerId} {phase : CallPhase} (h : m ∈ s.callerMoves j phase) :
    TasksStay s m.1 := by
  have aside : ∀ {v : Session}, s.TrafficOnly v → ∀ callers,
      TasksStay s { v with callers := callers } := fun hv callers =>
    have hstay := TasksStay.of_traffic hv
    ⟨hstay.link, hstay.runs, hstay.controls⟩
  cases callerWay_of_mem h with
  | ends | waits => exact aside (.refl s) _
  | @sends target priority p _ _ _ _ heq =>
    have hs := s.trafficOnly_send target (.setData p) priority
    rw [heq] at hs
    exact aside hs _
  | @fails target priority p _ made _ _ heq =>
    have hs := s.trafficOnly_send target (.setData p) priority
    rw [heq] at hs
    exact aside (hs.trans (trafficOnly_cancelAll made _)) _
  | @withdraws id => exact aside (s.trafficOnly_withdraw id .cancelled) _

theorem deals_of_scanner (h : m ∈ s.scannerMoves r run) : Deals (.scanner r) s m.1 := by
  have deals : ∀ {v : Session} {f : Run → Run}, TasksStay s v →
      (∀ run, (f run).reader = run.reader ∧ (f run).writer = run.writer) →
      Deals (.scanner r) s (v.modifyRun r f) := fun hv hf => by
    refine ⟨.rests rfl hv.link rfl, fun u _ => Or.inl ?_⟩
    rw [call?_modifyRun (Or.inr fun run => (hf run).1) (Or.inr fun run => (hf run).2)]
    exact hv.call?_eq u
  rw [scannerMoves] at h
  split at h
  · rw [List.mem_append] at h
    rcases h with h | h
    · split at h
      · rw [List.mem_singleton] at h
        subst h
        exact deals (.refl s) fun _ => ⟨rfl, rfl⟩
      · simp at h
    · split at h
      · rw [List.mem_singleton] at h
        subst h
        exact deals (.of_traffic s.trafficOnly_scan) fun _ => ⟨rfl, rfl⟩
      · simp at h
  · simp at h

/-- **A task does nothing to the calls of others.** -/
theorem deals_of_move (h : m ∈ s.moves t) : Deals t s m.1 := by
  cases t with
  | control i =>
    rw [moves] at h
    split at h
    · next hi => exact deals_of_control hi h
    · simp at h
  | reader r =>
    rw [moves] at h
    split at h
    · next hr => exact deals_of_reader hr h
    · simp at h
  | writer r =>
    rw [moves] at h
    split at h
    · next hr => exact deals_of_writer hr h
    · simp at h
  | scanner r =>
    rw [moves] at h
    split at h
    · exact deals_of_scanner h
    · simp at h
  | caller i =>
    rw [moves] at h
    split at h
    · exact (tasksStay_caller h).deals rfl
    · simp at h

/-! ### From outside -/

/-- A call that starts or stops waits for its turn first. -/
theorem call?_beginControl (s : Session) {phase : Control} (hp : phase.call? = none)
    (u : TaskId) :
    (s.beginControl phase).2.call? u = s.call? u ∨ (s.beginControl phase).2.call? u = none := by
  cases u with
  | control j =>
    show ((s.controls.put (s.controlIds.given + 1) phase).find? j).bind _ = _ ∨
      ((s.controls.put (s.controlIds.given + 1) phase).find? j).bind _ = _
    rw [Directory.find?_put]
    split
    · exact Or.inr hp
    · exact Or.inl rfl
  | _ => exact Or.inl rfl

/-- A caller that sends touches no task. -/
theorem tasksStay_beginSend (s : Session) (j : CallerId) (target : Address) (message : Message)
    (priority : Priority) (phase : RequestId → CallPhase) :
    TasksStay s (s.beginSend j target message priority phase).1 := by
  have hs := TasksStay.of_traffic (s.trafficOnly_send target message priority)
  rw [beginSend]
  split
  · next heq =>
    rw [heq] at hs
    exact ⟨hs.link, hs.runs, hs.controls⟩
  · next heq =>
    rw [heq] at hs
    exact ⟨hs.link, hs.runs, hs.controls⟩

/-- When a scanner looks next does not matter to the calls. -/
theorem call?_scanFrom (s : Session) (t : Instant) (u : TaskId) :
    (s.scanFrom t).call? u = s.call? u := by
  have picked : ∀ {r} {pick : Run → Option CallId}, (∀ run next,
      pick { run with nextScan := next } = pick run) →
      ((s.scanFrom t).runs.find? r).bind pick = (s.runs.find? r).bind pick := by
    intro r pick hp
    rw [find?_scanFrom, Option.bind_map]
    exact congrArg _ (funext fun run => hp run _)
  cases u with
  | reader r => exact picked fun _ _ => rfl
  | writer r => exact picked fun _ _ => rfl
  | _ => rfl

/-- What is done from outside does nothing to the calls, and nobody waits for another call
than before. -/
theorem call?_apply (s : Session) (input : Input) :
    ((s.apply input).link.calls = s.link.calls ∧
      (s.apply input).link.nextCall = s.link.nextCall) ∧
    ∀ u, (s.apply input).call? u = s.call? u ∨ (s.apply input).call? u = none := by
  have stays : ∀ {s'}, TasksStay s s' → (s'.link.calls = s.link.calls ∧
      s'.link.nextCall = s.link.nextCall) ∧ ∀ u, s'.call? u = s.call? u ∨ s'.call? u = none :=
    fun h => ⟨⟨by rw [h.link], by rw [h.link]⟩, fun u => Or.inl (h.call?_eq u)⟩
  cases input with
  | start => exact ⟨⟨rfl, rfl⟩, s.call?_beginControl rfl⟩
  | stop => exact ⟨⟨rfl, rfl⟩, s.call?_beginControl rfl⟩
  | send target message priority =>
    exact stays (.of_traffic (s.trafficOnly_send target message priority))
  | cancel id => exact stays (.of_traffic (s.trafficOnly_withdraw id .cancelled))
  | await j id => exact stays ⟨rfl, rfl, rfl⟩
  | event j target path id priority => exact stays (s.tasksStay_beginSend ..)
  | read j target path refresh =>
    rw [apply, beginRead]
    split
    · exact stays ⟨rfl, rfl, rfl⟩
    · exact stays (s.tasksStay_beginSend ..)
  | write j target path value priority =>
    rw [apply, beginWrite]
    split
    · exact stays ⟨rfl, rfl, rfl⟩
    · exact stays ⟨rfl, rfl, rfl⟩
  | subscribe target path => exact stays ⟨rfl, rfl, rfl⟩
  | unsubscribe id => exact stays ⟨rfl, rfl, rfl⟩
  | forget target path => exact stays ⟨rfl, rfl, rfl⟩
  | farEnd line connects => exact ⟨⟨rfl, rfl⟩, fun u => Or.inl (call?_congr rfl rfl u)⟩
  | pass t => exact stays ⟨rfl, rfl, rfl⟩
  | skipScans t => exact ⟨⟨rfl, rfl⟩, fun u => Or.inl (s.call?_scanFrom t u)⟩

end Session

end ZoneBus
