import ZoneBus.Proofs.Session.TaskMoves

/-!
# Whatever happens is a change

Every move of every task, and everything done from outside, is one of the
elementary changes of a session or made of several.

## Main results

* `Session.deed_of_happens` — whatever happens, by who does it.
* `Session.happens_cases` — whatever happens notes a written frame, or is everyday
  work, or is one change of a start, a stop or a fault.
-/

namespace ZoneBus

namespace Session

/-! ### Moves are changes -/

theorem minor_link (s : Session) {link : Link} (h : s.link.Keeps link) :
    Minor s { s with link := link } :=
  .aside link s.callers s.buffers s.subscriptions s.now h (Nat.le_refl _)

theorem minor_callers (s : Session) (callers : Directory CallerId CallPhase) :
    Minor s { s with callers := callers } :=
  .aside s.link callers s.buffers s.subscriptions s.now (.refl _) (Nat.le_refl _)

theorem minor_buffers (s : Session) (buffers : BufferStore) :
    Minor s { s with buffers := buffers } :=
  .aside s.link s.callers buffers s.subscriptions s.now (.refl _) (Nat.le_refl _)

theorem Governs.deed {s s' : Session} {o : Occurrence} (h : Governs s o s')
    (hun : s.Unmarked o s') : Deed s o s' :=
  .governs s.link hun (.refl _) h

/-! ### The reader -/

/-- What came out of the decoder of a run is taken. -/
theorem minors_handle {s : Session} {r : RunId} {run : Run} (hr : s.runs.find? r = some run)
    (ha : run.hasExited = false) (result : FrameResult) : Minors s (s.handle result).1 := by
  -- a packet is acknowledged, then stored, and may complete a value that is waited for
  have packet : ∀ source p, Minors s (s.acceptPacket source p).1 := by
    intro source p
    have hack : Minors s (s.acknowledge source) := by
      rw [acknowledge]
      split
      · exact .single (.enqueues _ _ _ (Or.inr ⟨r, run, hr, ha⟩))
      · exact .refl
    rw [acceptPacket]
    dsimp only
    split
    · exact .tail hack (minor_buffers _ _)
    · split
      · exact .tail hack (minor_buffers _ _)
      · exact .tail (.tail hack (minor_buffers _ _)) (.resolves _ _ (by simp))
  unfold handle
  split
  · exact .refl
  · split
    · exact .refl
    · next e _ =>
      rw [dispatch]
      split
      · split
        · split
          · exact .refl
          · exact .single (.resolves _ _ (by simp))
        · exact packet _ _
        · exact .refl
      · exact .refl

/-- A task that reacts to a fault notes nothing, begins nothing and looks at nothing. -/
theorem unmarked_of_teardown {s : Session} {t : TaskId} {teardown : Teardown}
    (h : s.teardownOf? t = some teardown) (s' : Session) : s.Unmarked (.move t) s' := by
  rcases teardownOf?_cases h with ⟨r, run, rfl, _, _⟩ | ⟨r, run, rfl, hr, hph⟩
  · exact ⟨rfl, rfl, rfl⟩
  · refine ⟨?_, ?_, rfl⟩
    · rw [marked?, hr, Option.bind_some, hph]
    · rw [begun?, hr, Option.bind_some, hph]

theorem teardown_deed {s s' : Session} {t : TaskId} {teardown : Teardown}
    (ht : s.teardownOf? t = some teardown) (h : s.TeardownWay t teardown s') :
    Deed s (.move t) s' := by
  have hun := unmarked_of_teardown ht
  cases h with
  | late hl hr => exact (Governs.faultLate ht hl hr).deed (hun _)
  | takes hl hr => exact (Governs.faultBegins ht hl hr).deed (hun _)
  | waits hmem => exact .minor (hun _) (.single (minor_link s (Link.keeps_of_mem_moves hmem)))
  | @ends c link events _ hmem _ =>
    refine .governs link (hun _) (Link.keeps_of_mem_moves hmem) (.faultEnds (c := c) ?_)
    cases t <;> exact ht

/-- The reader of a run. -/
theorem reader_deed {s : Session} {r : RunId} {run : Run} {m : Session × List Notice}
    (hr : s.runs.find? r = some run) (h : m ∈ s.readerMoves r run) :
    Deed s (.move (.reader r)) m.1 := by
  have hway := readerWay_of_mem h
  have does : ∀ {s'}, Minors s s' → Deed s (.move (.reader r)) s' := .minor ⟨rfl, rfl, rfl⟩
  have alive : run.reader ≠ .exited → run.hasExited = false := by
    intro hne
    exact decide_eq_false fun he => hne he.1
  have kept : ∀ {c link events}, (link, events) ∈ s.link.moves c → s.link.Keeps link :=
    Link.keeps_of_mem_moves
  -- everything but the teardown sets the phase of the reader
  have sets : ∀ phase : ReaderPhase, run.reader ≠ .exited →
      (∀ teardown, run.reader ≠ .faulting teardown) →
      (∀ c, phase ≠ .faulting (.closing c)) → Minor s (s.setReader r phase) :=
    fun phase hne hnf hp =>
      .reads (fun run => { run with reader := phase }) hr (alive hne) (fun _ => ⟨rfl, rfl⟩)
        (Or.inr ⟨hnf, hp⟩)
  generalize m.1 = s' at hway ⊢
  generalize hph : run.reader = phase at hway
  cases hway with
  | wakes => exact does (.single (sets .idle (by simp [hph]) (by simp [hph]) (by simp)))
  | leaves => exact does (.single (sets .exited (by simp [hph]) (by simp [hph]) (by simp)))
  | listens =>
    refine does (.tail (.single (sets (.receiving s.link.nextCall) (by simp [hph])
      (by simp [hph]) (by simp))) ?_)
    exact minor_link _ (Link.keeps_begin s.link _)
  | @drops c =>
    have leave := sets .exited (by simp [hph]) (by simp [hph]) (by simp)
    exact does (.tail (.single leave) (minor_link _ (Link.keeps_abort s.link c)))
  | waits hmem => exact does (.single (minor_link s (kept hmem)))
  | @reads c link _ bytes hmem =>
    refine does (.tail (.single (.reads (fun run =>
      { run with reader := .handling, decoder := run.decoder.extend bytes }) hr
      (alive (by simp [hph])) (fun _ => ⟨rfl, rfl⟩) (Or.inr ⟨by simp [hph], by simp⟩))) ?_)
    exact minor_link _ (kept hmem)
  | ends hmem =>
    have leave := sets .exited (by simp [hph]) (by simp [hph]) (by simp)
    exact does (.tail (.single leave) (minor_link _ (kept hmem)))
  | @breaks _ _ _ error hmem =>
    refine does (.tail (.tail (.single (sets (.faulting (.locking error))
      (by simp [hph]) (by simp [hph]) (by simp))) (.queues (.reader r))) ?_)
    exact minor_link _ (kept hmem)
  | @rests decoder =>
    exact does (.single (.reads (fun run => { run with reader := .idle, decoder := decoder })
      hr (alive (by simp [hph])) (fun _ => ⟨rfl, rfl⟩) (Or.inr ⟨by simp [hph], by simp⟩)))
  | @handles result decoder =>
    have decodes : Minor s (s.modifyRun r fun run => { run with decoder := decoder }) :=
      .reads _ hr (alive (by simp [hph])) (fun _ => ⟨rfl, rfl⟩) (Or.inl rfl)
    have hr' : (s.modifyRun r fun run => { run with decoder := decoder }).runs.find? r =
        some { run with decoder := decoder } := by
      rw [find?_modifyRun, if_pos rfl, hr]; rfl
    have ha : ({ run with decoder := decoder } : Run).hasExited = false :=
      alive (by simp [hph])
    exact does (.trans (.single decodes) (minors_handle hr' ha result))
  | reacts hway => exact teardown_deed (teardownOf?_reader.mpr ⟨run, hr, hph⟩) hway

/-! ### The writer -/

/-- The writer of a run. -/
theorem writer_deed {s : Session} {r : RunId} {run : Run} {m : Session × List Notice}
    (hr : s.runs.find? r = some run) (h : m ∈ s.writerMoves r run) :
    Deed s (.move (.writer r)) m.1 := by
  have hway := writerWay_of_mem h
  have kept : ∀ {c link events}, (link, events) ∈ s.link.moves c → s.link.Keeps link :=
    Link.keeps_of_mem_moves
  generalize m.1 = s' at hway ⊢
  generalize hph : run.writer = phase at hway
  cases hway with
  | leaves hc => exact .writes _ _ (.leaves hr (Or.inl hph) (hc.imp_right Or.inl)) .refl
  | takes _ hp => exact .writes _ _ (.pops hr hph hp) .refl
  | begins hc => exact .writes _ _ (.sends hr hph hc) .refl
  | skips hc => exact .writes _ _ (.drops hr hph hc) .refl
  | @drops frame c hc =>
    exact .writes _ s.lifecycleLock (.leaves hr (Or.inr ⟨frame, c, hph⟩) (Or.inl hc))
      (.single (minor_link _ (Link.keeps_abort s.link c)))
  | waits hmem =>
    refine .minor ⟨?_, ?_, rfl⟩ (.single (minor_link _ (kept hmem)))
    · rw [marked?, hr, Option.bind_some, hph]
    · rw [begun?, hr, Option.bind_some, hph]
  | writes hmem _ =>
    exact .writes _ s.lifecycleLock (.writes hr hph) (.single (minor_link _ (kept hmem)))
  | @ends frame c _ _ _ hmem hres hend =>
    refine .writes _ s.lifecycleLock (.leaves hr (Or.inr ⟨frame, c, hph⟩) ?_)
      (.single (minor_link _ (kept hmem)))
    rcases hend with ⟨hc, _⟩ | ⟨bytes, rfl⟩
    · exact Or.inl hc
    · exact Or.inr (Or.inr ⟨frame, c, _, _, bytes, hph, hmem, hres⟩)
  | @breaks _ _ link _ error hmem _ =>
    refine .writes link (s.lifecycleLock ++ [.writer r]) (.breaks error hr hph) ?_
    exact .tail (.single (.queues (.writer r))) (minor_link _ (kept hmem))
  | notes => exact .notes hr hph
  | reacts hway => exact teardown_deed (teardownOf?_writer.mpr ⟨run, hr, hph⟩) hway

/-! ### The scanner, and the calls -/

/-- The scanner of a run. -/
theorem scanner_deed {s : Session} {r : RunId} {run : Run} {m : Session × List Notice}
    (hr : s.runs.find? r = some run) (h : m ∈ s.scannerMoves r run) :
    Deed s (.move (.scanner r)) m.1 := by
  rw [scannerMoves] at h
  cases hph : run.scanner with
  | waiting =>
    have ha : run.hasExited = false := decide_eq_false fun he => by simp [hph] at he
    rw [hph] at h
    rw [List.mem_append] at h
    rcases h with h | h
    · split at h
      · rw [List.mem_singleton] at h
        subst h
        refine .minor ⟨rfl, rfl, ?_⟩ (.single (.reads _ hr ha (fun _ => ⟨rfl, rfl⟩) (Or.inl rfl)))
        -- a scanner that ends has not looked
        rw [expiries, find?_modifyRun, if_pos rfl, hr]
        exact if_neg (by simp)
      · simp at h
    · split at h
      · rw [List.mem_singleton] at h
        subst h
        exact .looks _ hr hph
      · simp at h
  | exited =>
    rw [hph] at h
    simp at h

/-- The calls that start and stop. -/
theorem control_deed {s : Session} {i : ControlId} {phase : Control}
    {m : Session × List Notice} (hi : s.controls.find? i = some phase)
    (h : m ∈ s.controlMoves i phase) : Deed s (.move (.control i)) m.1 := by
  have hway := controlWay_of_mem h
  have hun : ∀ s', s.Unmarked (.move (.control i)) s' := fun _ => ⟨rfl, rfl, rfl⟩
  have kept : ∀ {c link events}, (link, events) ∈ s.link.moves c → s.link.Keeps link :=
    Link.keeps_of_mem_moves
  generalize m.1 = s' at hway ⊢
  cases hway with
  | refuses hlock hr => exact (Governs.refuses _ (Or.inl hi)).deed (hun _)
  | begins hlock hr => exact (Governs.startBegins hi hlock hr).deed (hun _)
  | opening hmem | closing hmem => exact .minor (hun _) (.single (minor_link s (kept hmem)))
  | fails hmem => exact .governs _ (hun _) (kept hmem) (.startFails _ hi)
  | spawns hmem => exact .governs _ (hun _) (kept hmem) (.spawns hi)
  | installs => exact (Governs.startEnds hi).deed (hun _)
  | rests => exact (Governs.refuses _ (Or.inr hi)).deed (hun _)
  | takes hlock hr => exact (Governs.stopBegins hi hlock hr).deed (hun _)
  | closes hmem => exact .governs _ (hun _) (kept hmem) (.stopJoins hi)
  | joins => exact (Governs.stopEnds hi).deed (hun _)

/-! ### Callers -/

theorem minors_send (s : Session) (target : Address) (message : Message) (priority : Priority) :
    Minors s (s.send target message priority).2 := by
  rw [send]
  split
  · next hs => exact .single (.enqueues _ _ _ (Or.inl hs))
  · exact .refl

theorem minors_cancelAll (ids : List RequestId) (s : Session) : Minors s (s.cancelAll ids) := by
  induction ids generalizing s with
  | nil => exact .refl
  | cons id ids ih => exact .head (.withdraws id) (ih _)

theorem minors_beginSend (s : Session) (i : CallerId) (target : Address) (message : Message)
    (priority : Priority) (phase : RequestId → CallPhase) :
    Minors s (s.beginSend i target message priority phase).1 := by
  rw [beginSend]
  have hs := s.minors_send target message priority
  split
  · next heq =>
    rw [heq] at hs
    exact .tail hs (minor_callers _ _)
  · next heq =>
    rw [heq] at hs
    exact .tail hs (minor_callers _ _)

/-- The callers that wait. -/
theorem minors_caller {s : Session} {i : CallerId} {phase : CallPhase}
    {m : Session × List Notice} (h : m ∈ s.callerMoves i phase) : Minors s m.1 := by
  cases callerWay_of_mem h with
  | ends | waits => exact .single (minor_callers _ _)
  | @sends target priority p _ _ _ _ heq =>
    have hs := s.minors_send target (.setData p) priority
    rw [heq] at hs
    exact .tail hs (minor_callers _ _)
  | @fails target priority p _ made _ _ heq =>
    have hs := s.minors_send target (.setData p) priority
    rw [heq] at hs
    exact .tail (.trans hs (minors_cancelAll made _)) (minor_callers _ _)
  | @withdraws id => exact .tail (.single (.withdraws id)) (minor_callers _ _)

/-! ### Whatever happens -/

/-- What is done from outside. -/
theorem input_deed (s : Session) (i : Input) : Deed s (.input i) (s.apply i) := by
  have does : ∀ {i s'}, Minors s s' → Deed s (.input i) s' := .minor ⟨rfl, rfl, rfl⟩
  cases i with
  | start => exact Governs.asksStart.deed ⟨rfl, rfl, rfl⟩
  | stop => exact Governs.asksStop.deed ⟨rfl, rfl, rfl⟩
  | send target message priority => exact does (s.minors_send target message priority)
  | cancel id => exact does (.single (.withdraws id))
  | await i id => exact does (.single (minor_callers _ _))
  | event i target path id priority => exact does (s.minors_beginSend _ _ _ _ _)
  | read i target path refresh =>
    rw [apply, beginRead]
    split
    · exact does (.single (minor_callers _ _))
    · exact does (s.minors_beginSend _ _ _ _ _)
  | write i target path value priority =>
    rw [apply, beginWrite]
    split
    · exact does (.single (minor_callers _ _))
    · exact does (.single (minor_callers _ _))
  | subscribe target path =>
    exact does (.single (.aside s.link s.callers s.buffers _ s.now (.refl _) (Nat.le_refl _)))
  | unsubscribe id =>
    exact does (.single (.aside s.link s.callers s.buffers _ s.now (.refl _) (Nat.le_refl _)))
  | forget target path => exact does (.single (minor_buffers _ _))
  | farEnd line connects =>
    exact does (.single (minor_link _ (Link.keeps_of_calls_eq rfl rfl)))
  | pass t =>
    exact does (.single
      (.aside s.link s.callers s.buffers s.subscriptions _ (.refl _) (Nat.le_max_left _ _)))
  | skipScans t => exact does (.single (.skips t))

/-- **Whatever happens, by who does it.** -/
theorem deed_of_happens {s s' : Session} {o : Occurrence} (h : Happens s o s') : Deed s o s' := by
  cases h with
  | input i => exact s.input_deed i
  | @move _ t _ h =>
    cases t with
    | control i =>
      rw [moves] at h
      split at h
      · next hi => exact control_deed hi h
      · simp at h
    | reader r =>
      rw [moves] at h
      split at h
      · next hr => exact reader_deed hr h
      · simp at h
    | writer r =>
      rw [moves] at h
      split at h
      · next hr => exact writer_deed hr h
      · simp at h
    | scanner r =>
      rw [moves] at h
      split at h
      · next hr => exact scanner_deed hr h
      · simp at h
    | caller i =>
      rw [moves] at h
      split at h
      · exact .minor ⟨rfl, rfl, rfl⟩ (minors_caller h)
      · simp at h

/-- A writer that does something else notes nothing. -/
theorem marked?_of_writes {s s' : Session} {r : RunId} (h : Writes r s s') :
    s.marked? (.move (.writer r)) = none := by
  have phase : ∀ {run : Run}, s.runs.find? r = some run →
      (∀ frame, run.writer ≠ .marking frame) → s.marked? (.move (.writer r)) = none := by
    intro run hr hne
    rw [marked?, hr, Option.bind_some]
    split
    · next frame hph => exact absurd hph (hne frame)
    · rfl
  cases h with
  | pops hr hph => exact phase hr (by rw [hph]; simp)
  | sends hr hph => exact phase hr (by rw [hph]; simp)
  | drops hr hph => exact phase hr (by rw [hph]; simp)
  | writes hr hph => exact phase hr (by rw [hph]; simp)
  | breaks _ hr hph => exact phase hr (by rw [hph]; simp)
  | leaves hr hph =>
    rcases hph with hph | ⟨_, _, hph⟩
    · exact phase hr (by rw [hph]; simp)
    · exact phase hr (by rw [hph]; simp)

theorem Minors.worked {s s' : Session} (h : Minors s s') : Worked s s' :=
  Relation.ReflTransGen.mono (fun _ _ => .minor) _ _ h

/-- **Whatever happens notes a written frame, or is everyday work, or one change of a
start, a stop or a fault.** -/
theorem happens_cases {s s' : Session} {o : Occurrence} (h : Happens s o s') :
    (∃ r run frame, s.marked? o = some (r, frame) ∧ s.runs.find? r = some run ∧
      run.writer = .marking frame ∧ s' = (s.noteWritten frame).1.setWriter r .popping) ∨
    (s.marked? o = none ∧ s.Changes o s') := by
  cases deed_of_happens h with
  | @notes r run frame hr hph =>
    refine Or.inl ⟨r, run, frame, ?_, hr, hph, rfl⟩
    rw [marked?, hr, Option.bind_some, hph]
  | writes link lock hw hmore =>
    exact Or.inr ⟨marked?_of_writes hw, Or.inl (.head (.writer hw) (Minors.worked hmore))⟩
  | @looks r run next hr hph =>
    have ha : run.hasExited = false := decide_eq_false fun he => by simp [hph] at he
    have hr' : s.scan.runs.find? r = some run := by
      rw [runs_scan]
      exact hr
    refine Or.inr ⟨rfl, Or.inl (.tail (.single .scans) (.minor ?_))⟩
    exact .reads _ hr' ha (fun _ => ⟨rfl, rfl⟩) (Or.inl rfl)
  | minor hun hmore => exact Or.inr ⟨hun.1, Or.inl (Minors.worked hmore)⟩
  | governs link hun hk hg => exact Or.inr ⟨hun.1, Or.inr ⟨link, hk, hg⟩⟩

end Session

end ZoneBus
