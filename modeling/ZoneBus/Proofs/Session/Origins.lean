import ZoneBus.Proofs.Session.CallerEffects
import ZoneBus.Proofs.Session.Retries

/-!
# Where a frame comes from

Every frame that is on its way, or waits to be sent once more, was made when a message was
asked for: by a caller who sends, asks for a value or goes on with the packets of one, or by
a reader that acknowledges a packet.  It holds that message, from this session to whom it
was asked to go, and its bytes are those of the message.

## Main definitions

* `Session.asked?` — the message that is asked for when something happens, and for whom.
* `Session.Holds` — a frame is on its way, or registered.
* `Session.Born` — a frame is made of what is asked for.

## Main results

* `Session.born_of_happens` — a frame that is new is made of what is asked for.
* `Session.born_of_history` — **every frame was made of what was asked for at some moment.**
-/

namespace ZoneBus

namespace Session

variable {s s' s'' v : Session} {t : TaskId} {r : RunId} {i : ControlId} {run : Run}
  {o : Occurrence} {m : Session × List Notice} {frame : OutboundFrame}

/-- The message that may be asked for when something happens, and for whom. -/
def asked? (s : Session) : Occurrence → Option (Address × Message)
  | .input (.send target message _) => some (target, message)
  | .input (.event _ target path id priority) => some (target, .event (.plain path id priority))
  | .input (.read _ target path _) => some (target, .requestData (.stored path))
  | .move (.caller i) =>
    match s.callers.find? i with
    | some (.writing target _ (p :: _) _) => some (target, .setData p)
    | _ => none
  | .move (.reader r) => (s.heard? (.move (.reader r))).map fun e => (e.source, .handshake .data)
  | _ => none

/-- A frame is queued, in the hand of a writer, or that of a registered request. -/
def Holds (s : Session) (frame : OutboundFrame) : Prop :=
  frame ∈ s.ahead ∨ frame ∈ s.inFlight ∨
    ∃ id request, s.pending.requests.find? id = some request ∧ request.frame = frame

/-- A frame is made of a message for somebody, and its bytes are those of the message. -/
def Makes (s : Session) (target : Address) (message : Message) (frame : OutboundFrame) : Prop :=
  frame.envelope = ⟨target, s.config.localAddress, message⟩ ∧
    frame.envelope.encode = .ok frame.bytes

/-- A frame is made of what is asked for when something happens. -/
def Born (s : Session) (o : Occurrence) (frame : OutboundFrame) : Prop :=
  ∃ target message, s.asked? o = some (target, message) ∧ s.Makes target message frame

/-- No frame comes up. -/
def Loses (s s' : Session) : Prop := ∀ frame, s'.Holds frame → s.Holds frame

/-! ### Most things bring no frame up -/

theorem Loses.trans (h : Loses s s') (h' : Loses s' s'') : Loses s s'' :=
  fun frame hf => h frame (h' frame hf)

theorem Loses.of_eq (hqueue : s'.queue = s.queue) (hruns : s'.runs = s.runs)
    (hpending : s'.pending = s.pending) : Loses s s' := by
  intro frame hf
  unfold Holds ahead inFlight at hf ⊢
  rwa [hqueue, hruns, hpending] at hf

theorem Recedes.loses (h : Recedes s s') : Loses s s' := by
  rintro frame (hf | hf | ⟨id, request, hr, rfl⟩)
  · exact Or.inl (h.ahead.subset hf)
  · exact Or.inr (Or.inl (h.inFlight.subset hf))
  · exact Or.inr (Or.inr ⟨id, request, h.registered id request hr, rfl⟩)

theorem loses_writes (hn : s.runs.keys.Nodup) (h : Writes r s s') : Loses s s' := by
  rcases writes_cases hn h with ⟨begun, link, runs, _, rfl, _, hahead, hflight⟩ | ⟨_, hrecedes⟩
  · rintro frame (hf | hf | hf)
    · exact Or.inl (hahead.symm.subset (List.mem_cons_of_mem _ hf))
    · rcases List.mem_cons.mp (hflight.subset hf) with rfl | hf
      · exact Or.inl (hahead.symm.subset List.mem_cons_self)
      · exact Or.inr (Or.inl hf)
    · exact Or.inr (Or.inr hf)
  · exact hrecedes.loses

/-- A look at the deadlines queues frames of registered requests only. -/
theorem loses_scan (ht : TableOk s.pending) : Loses s s.scan := by
  rintro frame (hf | hf | ⟨id, request, hr, rfl⟩)
  · obtain ⟨items, _, hperm, hitems⟩ := s.ahead_scan
    rcases List.mem_append.mp (hperm.subset hf) with hf | hf
    · rcases hitems with rfl | ⟨_, rfl⟩
      · have hmem : frame ∈ resends (s.pending.expire s.now).results := by
          rw [resends_eq]
          exact hf
        exact Or.inr (Or.inr (registered_of_mem_resends ht.once hmem))
      · cases hf
    · exact Or.inl hf
  · unfold inFlight at hf
    rw [runs_scan] at hf
    exact Or.inr (Or.inl hf)
  · obtain ⟨request', hr', ⟨_, rfl⟩ | ⟨_, he, _⟩⟩ := registered_scan ht hr
    · exact Or.inr (Or.inr ⟨id, request, hr', rfl⟩)
    · refine Or.inr (Or.inr ⟨id, request', hr', ?_⟩)
      rw [(expired?_spec he).1]

theorem loses_noteWritten (s : Session) (written : OutboundFrame) :
    Loses s (s.noteWritten written).1 := by
  rintro frame (hf | hf | ⟨id, request, hr, rfl⟩)
  · exact Or.inl hf
  · exact Or.inr (Or.inl hf)
  · obtain ⟨request', hr', ⟨_, rfl⟩ | ⟨_, _, rfl⟩⟩ := find?_markWritten hr
    · exact Or.inr (Or.inr ⟨id, request, hr', rfl⟩)
    · exact Or.inr (Or.inr ⟨id, request', hr', rfl⟩)

theorem loses_setWriter (s : Session) (r : RunId) {phase : WriterPhase} (h : phase.hand? = none) :
    Loses s (s.setWriter r phase) :=
  (Recedes.setWriter s r h).loses

theorem loses_modifyRun (s : Session) (r : RunId) {f : Run → Run}
    (h : ∀ run, (f run).writer = run.writer) : Loses s (s.modifyRun r f) :=
  (Recedes.modifyRun s r fun run => Or.inl (h run)).loses

/-- Without a number given to a request, none is made. -/
theorem loses_minors (h : Minors s s') (hg : s'.requestIds.given ≤ s.requestIds.given) :
    Loses s s' := by
  have grows : ∀ {v w : Session}, Minors v w → v.requestIds.given ≤ w.requestIds.given :=
    fun h => (keepsBooks_worked (Minors.worked h)).2.1
  induction h with
  | refl => exact fun _ hf => hf
  | @tail v w hv hm ih =>
    have hle := grows (.single hm)
    refine (ih (Nat.le_trans hle hg)).trans ?_
    rcases minor_cases hm with ⟨hrecedes, _⟩ | ⟨target, message, priority, bytes, queue, _, rfl⟩
    · exact hrecedes.loses
    · have hnext : v.requestIds.given + 1 ≤ s.requestIds.given := hg
      exact absurd (Nat.le_trans hnext (grows hv)) (Nat.not_succ_le_self _)

theorem loses_deed (hn : s.runs.keys.Nodup) (ht : TableOk s.pending) (h : Deed s o s')
    (hg : s'.requestIds = s.requestIds) : Loses s s' := by
  cases h with
  | @notes r run written _ _ =>
    exact (s.loses_noteWritten written).trans (loses_setWriter _ r rfl)
  | @writes v r link lock hw _ =>
    exact (loses_writes hn hw).trans (.of_eq rfl rfl rfl)
  | @looks r _ next _ _ =>
    exact (loses_scan ht).trans (loses_modifyRun s.scan r fun _ => rfl)
  | minor _ hm => exact loses_minors hm (Nat.le_of_eq (congrArg Counter.given hg))
  | governs link _ _ hg =>
    have hlink : Loses s { s with link := link } := .of_eq rfl rfl rfl
    exact hlink.trans (recedes_governs hg).loses

/-! ### What is made of a message -/

/-- Every frame that comes up is made of a message for somebody. -/
def MakesOnly (s : Session) (target : Address) (message : Message) (s' : Session) : Prop :=
  ∀ frame, s'.Holds frame → s.Holds frame ∨ s.Makes target message frame

variable {target : Address} {message : Message} {priority : Priority}

theorem MakesOnly.loses (h : s.MakesOnly target message s') (h' : Loses s' s'') :
    s.MakesOnly target message s'' :=
  fun frame hf => h frame (h' frame hf)

theorem MakesOnly.of_loses (hconfig : v.config = s.config) (h : Loses s v)
    (h' : v.MakesOnly target message s') : s.MakesOnly target message s' := by
  intro frame hf
  unfold MakesOnly Makes at h'
  rw [hconfig] at h'
  exact (h' frame hf).imp_left (h frame)

theorem makesOnly_enqueue (s : Session) (target : Address) (message : Message)
    (priority : Priority) : s.MakesOnly target message (s.enqueue target message priority).2 := by
  intro frame hf
  rcases s.enqueue_cases target message priority with
    ⟨e, he⟩ | ⟨bytes, hbytes, ⟨queue, hp, he⟩ | ⟨_, he⟩⟩
  · rw [he] at hf
    exact Or.inl hf
  · rw [he] at hf
    -- the new frame is queued, and that of the new request
    rcases hf with hf | hf | ⟨id, request, hr, rfl⟩
    · rcases List.mem_append.mp hf with hq | hh
      · rw [(SendQueue.push_spec hp).1.mem_iff, List.mem_cons] at hq
        rcases hq with rfl | hq
        · exact Or.inr ⟨rfl, hbytes⟩
        · exact Or.inl (Or.inl (List.mem_append_left _ hq))
      · exact Or.inl (Or.inl (List.mem_append_right _ hh))
    · exact Or.inl (Or.inr (Or.inl hf))
    · have hput : (s.pending.requests.put (s.requestIds.given + 1)
          (s.newRequest target message priority bytes)).find? id = some request := hr
      rw [Directory.find?_put] at hput
      split at hput
      · obtain rfl := Option.some.inj hput
        exact Or.inr ⟨rfl, hbytes⟩
      · exact Or.inl (Or.inr (Or.inr ⟨id, request, hput, rfl⟩))
  · rw [he] at hf
    have hrefused : Recedes s ((s.registered (s.newRequest target message priority bytes)).withdraw
        (s.requestIds.given + 1) .cancelled).2 := recedes_refused rfl
    exact Or.inl (hrefused.loses frame hf)

theorem makesOnly_send (s : Session) (target : Address) (message : Message) (priority : Priority) :
    s.MakesOnly target message (s.send target message priority).2 := by
  unfold send
  split
  · exact s.makesOnly_enqueue target message priority
  · exact fun _ hf => Or.inl hf

theorem loses_cancelAll (ids : List RequestId) : ∀ s : Session, Loses s (s.cancelAll ids) := by
  induction ids with
  | nil => exact fun s _ hf => hf
  | cons id ids ih => exact fun s => (Recedes.withdraw s id).loses.trans (ih _)

theorem makesOnly_acknowledge (s : Session) (source : Address) :
    s.MakesOnly source (.handshake .data) (s.acknowledge source) := by
  rcases s.acknowledge_eq source with he | he
  · rw [he]
    exact fun _ hf => Or.inl hf
  · rw [he]
    exact s.makesOnly_enqueue source _ _

theorem makesOnly_acceptPacket (s : Session) (source : Address) (p : Packet) :
    s.MakesOnly source (.handshake .data) (s.acceptPacket source p).1 := by
  refine (s.makesOnly_acknowledge source).loses ?_
  rcases s.acceptPacket_cases source p with ⟨buffers, he⟩ | ⟨value, buffers, _, he⟩
  · rw [he]
    exact .of_eq rfl rfl rfl
  · rw [he]
    have hstored : Loses (s.acknowledge source) { s.acknowledge source with buffers := buffers } :=
      .of_eq rfl rfl rfl
    exact hstored.trans (Recedes.resolve _ _ _).loses

/-! ### Who asks for what -/

/-- What happens is that no frame comes up, or that a message is asked for, of which every
new frame is made. -/
def Yields (s : Session) (o : Occurrence) (s' : Session) : Prop :=
  Loses s s' ∨ ∃ target message, s.asked? o = some (target, message) ∧
    s.MakesOnly target message s'

theorem yields_reader (hr : s.runs.find? r = some run) (hn : s.runs.keys.Nodup)
    (ht : TableOk s.pending) (hm : m ∈ s.readerMoves r run) :
    s.Yields (.move (.reader r)) m.1 := by
  by_cases hph : run.reader = .handling
  · have hway := readerWay_of_mem hm
    generalize m.1 = s' at hway ⊢
    rw [hph] at hway
    cases hway with
    | rests => exact Or.inl (loses_modifyRun s r fun _ => rfl)
    | @handles result decoder hnext =>
      -- what is heard is handled after the decoder has let it go
      have hdecoded : Loses s (s.modifyRun r fun run => { run with decoder := decoder }) :=
        loses_modifyRun s r fun _ => rfl
      generalize hv : (s.modifyRun r fun run => { run with decoder := decoder }) = v at hdecoded ⊢
      rcases v.handle_cases result with
        he | ⟨e, kind, _, _, _, he⟩ | ⟨e, packet, ⟨frame, rfl, hframe, _⟩, _, he⟩
      · rw [he]
        exact Or.inl hdecoded
      · rw [he]
        exact Or.inl (hdecoded.trans (Recedes.resolve _ _ _).loses)
      · rw [he]
        have hheard : s.heard? (.move (.reader r)) = some e := by
          rw [heard?, inbound?, hr, Option.bind_some, hph]
          dsimp only
          rw [hnext]
          dsimp only
          rw [hframe]
          rfl
        refine Or.inr ⟨e.source, .handshake .data, ?_, ?_⟩
        · rw [asked?, hheard]
          rfl
        · exact .of_loses (by rw [← hv]; rfl) hdecoded (v.makesOnly_acceptPacket e.source packet)
  · exact Or.inl (loses_deed hn ht (reader_deed hr hm) (asides_reader hph hm).requestIds)

theorem loses_scanner (ht : TableOk s.pending)
    (hm : m ∈ s.scannerMoves r run) : Loses s m.1 := by
  rw [scannerMoves] at hm
  split at hm
  · rw [List.mem_append] at hm
    rcases hm with hm | hm
    · split at hm
      · rw [List.mem_singleton] at hm
        subst hm
        exact loses_modifyRun s r fun _ => rfl
      · simp at hm
    · split at hm
      · rw [List.mem_singleton] at hm
        subst hm
        exact (loses_scan ht).trans (loses_modifyRun s.scan r fun _ => rfl)
      · simp at hm
  · simp at hm

theorem yields_caller {j : CallerId} {phase : CallPhase} (hj : s.callers.find? j = some phase)
    (hm : m ∈ s.callerMoves j phase) : s.Yields (.move (.caller j)) m.1 := by
  cases callerWay_of_mem hm with
  | ends | waits => exact Or.inl (.of_eq rfl rfl rfl)
  | @sends target priority p _ _ _ _ hsend =>
    have hmade := s.makesOnly_send target (.setData p) priority
    rw [hsend] at hmade
    refine Or.inr ⟨target, .setData p, ?_, hmade.loses (.of_eq rfl rfl rfl)⟩
    rw [asked?, hj]
  | @fails target priority p _ made error v hsend =>
    have hmade := s.makesOnly_send target (.setData p) priority
    rw [hsend] at hmade
    have hended : Loses (v.cancelAll made) ((v.cancelAll made).endCall j (.failed error)).1 :=
      .of_eq rfl rfl rfl
    refine Or.inr ⟨target, .setData p, ?_, hmade.loses ((loses_cancelAll made v).trans hended)⟩
    rw [asked?, hj]
  | @withdraws id => exact Or.inl ((Recedes.withdraw s id).loses.trans (.of_eq rfl rfl rfl))

theorem yields_beginSend (s : Session) (j : CallerId) (target : Address) (message : Message)
    (priority : Priority) (phase : RequestId → CallPhase) :
    s.MakesOnly target message (s.beginSend j target message priority phase).1 := by
  have hmade := s.makesOnly_send target message priority
  rw [beginSend]
  split
  · next v hsend =>
    rw [hsend] at hmade
    exact hmade.loses (.of_eq rfl rfl rfl)
  · next v hsend =>
    rw [hsend] at hmade
    exact hmade.loses (.of_eq rfl rfl rfl)

theorem yields_input (hn : s.runs.keys.Nodup) (ht : TableOk s.pending) (input : Input) :
    s.Yields (.input input) (s.apply input) := by
  have still : (s.apply input).requestIds = s.requestIds →
      s.Yields (.input input) (s.apply input) :=
    fun h => Or.inl (loses_deed hn ht (s.input_deed input) h)
  cases input with
  | send target message priority =>
    exact Or.inr ⟨target, message, rfl, s.makesOnly_send target message priority⟩
  | event j target path id priority =>
    exact Or.inr ⟨target, .event (.plain path id priority), rfl, s.yields_beginSend j target _ _ _⟩
  | read j target path refresh =>
    rw [apply, beginRead]
    split
    · exact Or.inl (.of_eq rfl rfl rfl)
    · exact Or.inr ⟨target, .requestData (.stored path), rfl, s.yields_beginSend j target _ _ _⟩
  | write j target path value priority =>
    refine still ?_
    rw [apply, beginWrite]
    split <;> rfl
  | _ => exact still rfl

/-- **Where a new frame comes from**: it is made of what is asked for when it comes up. -/
theorem born_of_happens (hn : s.runs.keys.Nodup) (ht : TableOk s.pending) (h : Happens s o s')
    (hf : s'.Holds frame) : s.Holds frame ∨ s.Born o frame := by
  have yields : s.Yields o s' := by
    have hdeed := deed_of_happens h
    cases h with
    | input input => exact yields_input hn ht input
    | @move _ t _ hm =>
      cases t with
      | control i =>
        refine Or.inl (loses_deed hn ht hdeed ?_)
        rw [moves] at hm
        split at hm
        · exact (asides_control i _ _ hm).requestIds
        · simp at hm
      | reader r =>
        rw [moves] at hm
        split at hm
        · next hr => exact yields_reader hr hn ht hm
        · simp at hm
      | writer r =>
        refine Or.inl (loses_deed hn ht hdeed ?_)
        rw [moves] at hm
        split at hm
        · next hr => exact (noted_writer hr hm).1
        · simp at hm
      | scanner r =>
        rw [moves] at hm
        split at hm
        · exact Or.inl (loses_scanner ht hm)
        · simp at hm
      | caller j =>
        rw [moves] at hm
        split at hm
        · next hj => exact yields_caller hj hm
        · simp at hm
  rcases yields with hloses | ⟨target, message, hasked, hmade⟩
  · exact Or.inl (hloses frame hf)
  · exact (hmade frame hf).imp_right fun hmakes => ⟨target, message, hasked, hmakes⟩

/-- **Every frame was made of what was asked for at some moment.** -/
theorem born_of_history {config : SessionConfig} {link : Link} {past : List (Session × Occurrence)}
    (h : History (fresh config link) past s) (hf : s.Holds frame) :
    ∃ e ∈ past, e.1.Born e.2 frame := by
  induction h with
  | nil =>
    rcases hf with hf | hf | ⟨id, request, hr, _⟩
    · cases hf
    · cases hf
    · cases hr
  | cons h ho ih =>
    rcases born_of_happens (sound_of_history h).runs (tableOk_of_history h) ho hf with hf | hborn
    · obtain ⟨e, he, hborn⟩ := ih hf
      exact ⟨e, List.mem_cons_of_mem _ he, hborn⟩
    · exact ⟨_, List.mem_cons_self, hborn⟩

end Session

end ZoneBus
