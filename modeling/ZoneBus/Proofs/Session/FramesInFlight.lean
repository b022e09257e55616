import Mathlib.Data.List.Perm.Subperm
import ZoneBus.Proofs.Directory.Values
import ZoneBus.Proofs.Session.Frames

/-!
# Frames ahead and in flight

A frame is ahead as long as no writer has begun to write it: while it is queued, and
while a writer is about to check whether its request has ended.  It is in flight while
it is written, and until that is noted.  Several runs can have a writer each, so both
are counted over all of them.

Apart from a message that is queued, a look at the deadlines, a writer that begins to
write and one that notes what it wrote, nothing that happens makes either of them more,
registers anything, or tells of a request that it timed out.

## Main definitions

* `Session.ahead`, `Session.inFlight` — the frames before and after a writer begins.
* `Session.TimedOut` — it was told of a request that it timed out.
* `Session.Recedes` — nothing comes up.

## Main results

* `Session.minor_cases`, `writes_cases`, `recedes_governs` — what the changes of a
  session do to the frames.
-/

namespace ZoneBus

namespace WriterPhase

/-- The frame that a writer is about to check. -/
def checked? : WriterPhase → Option OutboundFrame
  | checking frame => some frame
  | _ => none

/-- The frame that a writer writes, or has written and not noted yet. -/
def sent? : WriterPhase → Option OutboundFrame
  | sending frame _ => some frame
  | marking frame => some frame
  | _ => none

theorem hand?_of_checked? {phase : WriterPhase} {frame : OutboundFrame}
    (h : phase.checked? = some frame) : phase.hand? = some frame := by
  cases phase with
  | checking f => exact h
  | _ => cases h

theorem hand?_of_sent? {phase : WriterPhase} {frame : OutboundFrame}
    (h : phase.sent? = some frame) : phase.hand? = some frame := by
  cases phase with
  | sending f c => exact h
  | marking f => exact h
  | _ => cases h

/-- Empty hands neither check nor send. -/
theorem checked?_of_hand {phase : WriterPhase} (h : phase.hand? = none) :
    phase.checked? = none ∧ phase.sent? = none := by
  constructor
  · refine Option.eq_none_iff_forall_ne_some.mpr fun frame hf => ?_
    rw [hand?_of_checked? hf] at h
    cases h
  · refine Option.eq_none_iff_forall_ne_some.mpr fun frame hf => ?_
    rw [hand?_of_sent? hf] at h
    cases h

end WriterPhase

namespace Session

/-- The frames that no writer has begun to write. -/
def ahead (s : Session) : List OutboundFrame :=
  s.queue.toList ++ s.runs.values.filterMap fun run => run.writer.checked?

/-- The frames that are being written, or were and are not noted yet. -/
def inFlight (s : Session) : List OutboundFrame :=
  s.runs.values.filterMap fun run => run.writer.sent?

/-- It was told of a request that it timed out. -/
def TimedOut (s : Session) (id : RequestId) : Prop :=
  ∃ attempts, (id, .failure (.timeout attempts)) ∈ s.delivered

/-- Nothing comes up: no frame, no request, and no news of a timeout. -/
structure Recedes (s s' : Session) : Prop where
  /-- The settings stay. -/
  config : s'.config = s.config
  /-- Time does not go back. -/
  now : s.now ≤ s'.now
  /-- Neither do the numbers. -/
  given : s.requestIds.given ≤ s'.requestIds.given
  /-- Runs with different numbers keep them. -/
  runs : s.runs.keys.Nodup → s'.runs.keys.Nodup
  /-- Nothing comes into the queue. -/
  queue : s.queue.Sheds s'.queue
  /-- No frame comes to those that wait to be written. -/
  ahead : List.Subperm s'.ahead s.ahead
  /-- No frame comes to those that are written. -/
  inFlight : List.Subperm s'.inFlight s.inFlight
  /-- Whoever is registered was, with the same entry. -/
  registered : ∀ id r, s'.pending.requests.find? id = some r →
    s.pending.requests.find? id = some r
  /-- Whoever timed out had. -/
  timedOut : ∀ id, s'.TimedOut id → s.TimedOut id

theorem keys_setWriter (s : Session) (r : RunId) (phase : WriterPhase) :
    (s.setWriter r phase).runs.keys = s.runs.keys :=
  Directory.keys_modify s.runs r _

namespace Recedes

variable {s s' s'' : Session}

theorem trans (h : Recedes s s') (h' : Recedes s' s'') : Recedes s s'' where
  config := h'.config.trans h.config
  now := Nat.le_trans h.now h'.now
  given := Nat.le_trans h.given h'.given
  runs := h'.runs ∘ h.runs
  queue := h.queue.trans h'.queue
  ahead := h'.ahead.trans h.ahead
  inFlight := h'.inFlight.trans h.inFlight
  registered := fun id r hf => h.registered id r (h'.registered id r hf)
  timedOut := fun id ht => h.timedOut id (h'.timedOut id ht)

/-- The runs, the queue, the table and the outcomes are all that matters. -/
theorem of_eq (hc : s'.config = s.config) (hn : s.now ≤ s'.now)
    (hi : s'.requestIds = s.requestIds) (hq : s'.queue = s.queue) (hr : s'.runs = s.runs)
    (hp : s'.pending = s.pending) (hd : s'.delivered = s.delivered) : Recedes s s' where
  config := hc
  now := hn
  given := Nat.le_of_eq (congrArg Counter.given hi.symm)
  runs := fun h => by rwa [hr]
  queue := by
    rw [hq]
    exact .refl _
  ahead := by
    unfold Session.ahead
    rw [hq, hr]
  inFlight := by
    unfold Session.inFlight
    rw [hr]
  registered := fun id r hf => by rwa [hp] at hf
  timedOut := fun id ht => by
    unfold TimedOut at ht ⊢
    rwa [hd] at ht

theorem refl (s : Session) : Recedes s s := of_eq rfl (Nat.le_refl _) rfl rfl rfl rfl rfl

/-- The runs change, and their writers take nothing into their hands. -/
theorem of_runs {runs : Directory RunId Run} (hk : runs.keys = s.runs.keys)
    (hc : (runs.values.filterMap fun run => run.writer.checked?).Sublist
      (s.runs.values.filterMap fun run => run.writer.checked?))
    (hs : (runs.values.filterMap fun run => run.writer.sent?).Sublist
      (s.runs.values.filterMap fun run => run.writer.sent?)) :
    Recedes s { s with runs := runs } where
  config := rfl
  now := Nat.le_refl _
  given := Nat.le_refl _
  runs := fun h => by rwa [hk]
  queue := .refl _
  ahead := ((List.Sublist.refl s.queue.toList).append hc).subperm
  inFlight := hs.subperm
  registered := fun _ _ hf => hf
  timedOut := fun _ ht => ht

theorem modifyRun (s : Session) (r : RunId) {f : Run → Run}
    (hf : ∀ run, (f run).writer = run.writer ∨ (f run).writer.hand? = none) :
    Recedes s (s.modifyRun r f) := by
  refine of_runs (Directory.keys_modify s.runs r f)
    (Directory.picked_modify_sublist (fun run => ?_) s.runs r)
    (Directory.picked_modify_sublist (fun run => ?_) s.runs r)
  · rcases hf run with he | he
    · exact Or.inl (by rw [he])
    · exact Or.inr (WriterPhase.checked?_of_hand he).1
  · rcases hf run with he | he
    · exact Or.inl (by rw [he])
    · exact Or.inr (WriterPhase.checked?_of_hand he).2

theorem setWriter (s : Session) (r : RunId) {phase : WriterPhase} (h : phase.hand? = none) :
    Recedes s (s.setWriter r phase) :=
  modifyRun s r fun _ => Or.inr h

theorem putTeardown (s : Session) (t : TaskId) (teardown : Teardown) :
    Recedes s (s.putTeardown t teardown) := by
  cases t with
  | reader r => exact modifyRun s r fun _ => Or.inl rfl
  | writer r => exact setWriter s r rfl
  | control i => exact refl s
  | scanner r => exact refl s
  | caller i => exact refl s

theorem exitTask (s : Session) (t : TaskId) : Recedes s (s.exitTask t) := by
  cases t with
  | reader r => exact modifyRun s r fun _ => Or.inl rfl
  | writer r => exact setWriter s r rfl
  | control i => exact refl s
  | scanner r => exact refl s
  | caller i => exact refl s

theorem withdraw (s : Session) (id : RequestId) : Recedes s (s.withdraw id .cancelled).2 where
  config := rfl
  now := Nat.le_refl _
  given := Nat.le_refl _
  runs := fun h => h
  queue := .refl _
  ahead := List.Subperm.refl _
  inFlight := List.Subperm.refl _
  registered := fun _ _ hf => (find?_of_cancel hf).2
  timedOut := fun j ht => by
    obtain ⟨attempts, hm⟩ := ht
    rcases mem_delivered_of_withdraw hm with hm | he
    · exact ⟨attempts, hm⟩
    · cases he

theorem resolve (s : Session) (key : ReplyKey) (reply : Reply) :
    Recedes s (s.resolve key reply) where
  config := rfl
  now := Nat.le_refl _
  given := Nat.le_refl _
  runs := fun h => h
  queue := .refl _
  ahead := List.Subperm.refl _
  inFlight := List.Subperm.refl _
  registered := fun _ _ hf => find?_of_resolve hf
  timedOut := fun j ht => by
    obtain ⟨attempts, hm⟩ := ht
    have hm' : (j, .failure (.timeout attempts)) ∈
        s.delivered ++ outcomesOf (s.pending.resolve key reply).2.1 := hm
    refine ⟨attempts, (List.mem_append.mp hm').resolve_right fun hm => ?_⟩
    -- an answer tells of a success
    rw [PendingTable.resolve] at hm
    split at hm
    · cases hm
    · cases hm
    · split at hm
      · rw [outcomesOf_single, List.mem_singleton] at hm
        cases hm
      · cases hm

theorem takenDown (s : Session) (t : TaskId) (r : RunId) (error : SessionError)
    (herror : ∀ attempts, error ≠ .timeout attempts) : Recedes s (s.takenDown t r error) := by
  rw [takenDown_eq]
  have hruns := modifyRun s r (f := fun run => { run with cancelled := true }) fun _ => Or.inl rfl
  refine ⟨rfl, Nat.le_refl _, Nat.le_refl _, hruns.runs, SendQueue.sheds_close _, ?_,
    hruns.inFlight, fun id req hf => ?_, ?_⟩
  · refine List.Subperm.trans ?_ hruns.ahead
    unfold Session.ahead
    rw [(SendQueue.toList_close _).1]
    exact (List.sublist_append_right _ _).subperm
  · cases hf
  · rintro id ⟨attempts, hm⟩
    refine ⟨attempts, (List.mem_append.mp hm).resolve_right fun hm => ?_⟩
    obtain ⟨j, _, he⟩ := List.mem_map.mp hm
    obtain ⟨_, he⟩ := Prod.mk.inj he
    exact herror attempts (Outcome.failure.inj he)

end Recedes

/-! ### What is done for callers, and by readers -/

theorem recedes_scanFrom (s : Session) (t : Instant) : Recedes s (s.scanFrom t) := by
  refine .of_runs (List.map_map ..) ?_ ?_
  · exact Directory.picked_map_sublist fun _ _ => Or.inl rfl
  · exact Directory.picked_map_sublist fun _ _ => Or.inl rfl

/-- A message that finds the queue closed is registered and withdrawn at once. -/
theorem recedes_refused {s : Session} {request : PendingRequest}
    (hid : request.frame.id = s.requestIds.given + 1) :
    Recedes s ((s.registered request).withdraw (s.requestIds.given + 1) .cancelled).2 where
  config := rfl
  now := Nat.le_refl _
  given := Nat.le_succ _
  runs := fun h => h
  queue := .refl _
  ahead := List.Subperm.refl _
  inFlight := List.Subperm.refl _
  registered := fun id r hf => by
    obtain ⟨hne, hf⟩ := find?_of_cancel hf
    have hput : (s.pending.requests.put request.frame.id request).find? id = some r := hf
    rw [Directory.find?_put, hid, if_neg hne] at hput
    exact hput
  timedOut := fun id ht => by
    obtain ⟨attempts, hm⟩ := ht
    rcases mem_delivered_of_withdraw hm with hm | he
    · refine ⟨attempts, (List.mem_append.mp hm).resolve_right fun hm => ?_⟩
      -- registering tells of nobody
      have hm' : (id, .failure (.timeout attempts)) ∈
          outcomesOf (s.pending.insert request).1 := hm
      rw [PendingTable.insert] at hm'
      dsimp only at hm'
      split at hm'
      · cases hm'
      · cases hm'
    · cases he

/-- **What is done for callers and by readers**: nothing comes up and the queue stays, or
a message is registered and queued. -/
theorem minor_cases {s s' : Session} (h : Minor s s') :
    (Recedes s s' ∧ s'.queue = s.queue) ∨
      ∃ target message priority bytes queue,
        let request := s.newRequest target message priority bytes
        s.queue.push priority request.frame = some queue ∧
          s' = { s.registered request with queue := queue } := by
  cases h with
  | aside link callers buffers subscriptions now _ hnow =>
    exact Or.inl ⟨.of_eq rfl hnow rfl rfl rfl rfl rfl, rfl⟩
  | skips t => exact Or.inl ⟨recedes_scanFrom s t, rfl⟩
  | @reads r run f _ _ hkeep _ =>
    exact Or.inl ⟨.modifyRun s r fun run => Or.inl (hkeep run).2, rfl⟩
  | queues t => exact Or.inl ⟨.of_eq rfl (Nat.le_refl _) rfl rfl rfl rfl rfl, rfl⟩
  | enqueues target message priority _ =>
    rcases s.enqueue_cases target message priority with
      ⟨e, he⟩ | ⟨bytes, _, ⟨queue, hp, he⟩ | ⟨_, he⟩⟩
    · rw [he]
      exact Or.inl ⟨.refl s, rfl⟩
    · rw [he]
      exact Or.inr ⟨target, message, priority, bytes, queue, hp, rfl⟩
    · rw [he]
      exact Or.inl ⟨recedes_refused rfl, rfl⟩
  | withdraws id => exact Or.inl ⟨.withdraw s id, rfl⟩
  | resolves key reply _ => exact Or.inl ⟨.resolve s key reply, rfl⟩

/-- Runs keep their different numbers. -/
theorem nodup_runs_minor {s s' : Session} (h : Minor s s') (hn : s.runs.keys.Nodup) :
    s'.runs.keys.Nodup := by
  rcases minor_cases h with ⟨hr, _⟩ | ⟨_, _, _, _, _, _, rfl⟩
  · exact hr.runs hn
  · exact hn

/-- What is done for callers and by readers only puts frames into the queue. -/
theorem extends_of_minors {s s' : Session} (h : Minors s s') :
    ∃ items, s.queue.Extends s'.queue items := by
  induction h with
  | refl => exact ⟨[], SendQueue.extends_of_eq rfl rfl⟩
  | tail _ hm ih =>
    obtain ⟨items, hext⟩ := ih
    rcases minor_cases hm with ⟨_, hq⟩ | ⟨_, _, _, _, _, hp, rfl⟩
    · rw [hq]
      exact ⟨items, hext⟩
    · exact ⟨_, hext.trans (SendQueue.extends_push hp)⟩

/-! ### What writers do -/

/-- With different numbers, the hands of one writer change and those of the others stay. -/
theorem exists_hands_perm {s : Session} {r : RunId} {run : Run} (hn : s.runs.keys.Nodup)
    (hr : s.runs.find? r = some run) (phase : WriterPhase) :
    ∃ waiting sent,
      s.ahead.Perm (run.writer.checked?.toList ++ waiting) ∧
      (s.setWriter r phase).ahead.Perm (phase.checked?.toList ++ waiting) ∧
      s.inFlight.Perm (run.writer.sent?.toList ++ sent) ∧
      (s.setWriter r phase).inFlight.Perm (phase.sent?.toList ++ sent) := by
  obtain ⟨rest, hold, hnew⟩ :=
    Directory.exists_values_perm (fun run : Run => { run with writer := phase }) hn hr
  -- what is picked out of the runs is picked out of one of them and the rest
  have picked : ∀ {runs : List Run} {run : Run} (pick : WriterPhase → Option OutboundFrame),
      runs.Perm (run :: rest) → (runs.filterMap fun run => pick run.writer).Perm
        ((pick run.writer).toList ++ rest.filterMap fun run => pick run.writer) := by
    intro runs run pick h
    refine (h.filterMap _).trans ?_
    rw [List.filterMap_cons]
    cases pick run.writer <;> exact List.Perm.refl _
  have front : ∀ {queued found rest : List OutboundFrame} {one : Option OutboundFrame},
      found.Perm (one.toList ++ rest) →
      (queued ++ found).Perm (one.toList ++ (queued ++ rest)) := by
    intro queued found rest one h
    calc
      (queued ++ found).Perm (queued ++ (one.toList ++ rest)) := List.Perm.append_left queued h
      _ = (queued ++ one.toList) ++ rest := (List.append_assoc ..).symm
      List.Perm _ ((one.toList ++ queued) ++ rest) := List.perm_append_comm.append_right rest
      _ = one.toList ++ (queued ++ rest) := List.append_assoc ..
  refine ⟨s.queue.toList ++ rest.filterMap fun run : Run => run.writer.checked?,
    rest.filterMap fun run : Run => run.writer.sent?, ?_, ?_, ?_, ?_⟩
  · exact front (picked WriterPhase.checked? hold)
  · exact front (picked WriterPhase.checked? hnew)
  · exact picked WriterPhase.sent? hold
  · exact picked WriterPhase.sent? hnew

/-- **What a writer does**: it begins to write a frame, or nothing comes up. -/
theorem writes_cases {s s' : Session} {r : RunId} (hn : s.runs.keys.Nodup)
    (h : Writes r s s') :
    (∃ frame link runs, s.begun? (.move (.writer r)) = some frame ∧
      s' = { s with link := link, runs := runs } ∧ runs.keys = s.runs.keys ∧
      s.ahead.Perm (frame :: s'.ahead) ∧ s'.inFlight.Perm (frame :: s.inFlight)) ∨
    s.begun? (.move (.writer r)) = none ∧ Recedes s s' := by
  have begins : ∀ {run : Run}, s.runs.find? r = some run →
      (∀ frame, run.writer ≠ .checking frame) → s.begun? (.move (.writer r)) = none := by
    intro run hr hne
    rw [begun?, hr, Option.bind_some]
    split
    · next frame hph => exact absurd hph (hne frame)
    · rfl
  have keeps : ∀ {phase : WriterPhase}, s.runs.keys.Nodup →
      (s.setWriter r phase).runs.keys.Nodup := by
    intro phase h
    rwa [keys_setWriter]
  cases h with
  | @pops run frame queue hr hph hp =>
    refine Or.inr ⟨begins hr (by rw [hph]; simp), ?_⟩
    -- the frame goes from the front of the queue into the hand
    obtain ⟨waiting, sent, hold, hnew, hsent, hsent'⟩ :=
      exists_hands_perm (s := { s with queue := queue }) hn hr (.checking frame)
    rw [hph] at hold hsent
    have hahead : s.ahead = frame :: { s with queue := queue }.ahead := by
      unfold ahead
      rw [(SendQueue.toList_of_tryPop hp).1]
      rfl
    refine ⟨rfl, Nat.le_refl _, Nat.le_refl _, keeps, SendQueue.sheds_of_tryPop hp, ?_, ?_,
      fun _ _ hf => hf, fun _ ht => ht⟩
    · rw [hahead]
      exact (hnew.trans (hold.symm.cons frame)).subperm
    · exact (hsent'.trans hsent.symm).subperm
  | @sends run frame hr hph hc =>
    obtain ⟨waiting, sent, hold, hnew, hsent, hsent'⟩ :=
      exists_hands_perm (s := (s.beginLink (.send frame.bytes)).2) hn hr
        (.sending frame s.link.nextCall)
    rw [hph] at hold hsent
    refine Or.inl ⟨frame, _, _, ?_, rfl, keys_setWriter s r _, ?_, ?_⟩
    · rw [begun?, hr, Option.bind_some, hph]
      exact if_pos hc
    · exact hold.trans (hnew.symm.cons frame)
    · exact hsent'.trans (hsent.symm.cons frame)
  | @drops run frame hr hph hc =>
    refine Or.inr ⟨?_, .setWriter s r rfl⟩
    rw [begun?, hr, Option.bind_some, hph]
    exact if_neg (by rw [hc]; simp)
  | @writes run frame c hr hph =>
    refine Or.inr ⟨begins hr (by rw [hph]; simp), ?_⟩
    -- the frame stays in flight until it is noted
    obtain ⟨waiting, sent, hold, hnew, hsent, hsent'⟩ := exists_hands_perm hn hr (.marking frame)
    rw [hph] at hold hsent
    refine ⟨rfl, Nat.le_refl _, Nat.le_refl _, keeps, .refl _, ?_, ?_, fun _ _ hf => hf,
      fun _ ht => ht⟩
    · exact (hnew.trans hold.symm).subperm
    · exact (hsent'.trans hsent.symm).subperm
  | breaks cause hr hph =>
    exact Or.inr ⟨begins hr (by rw [hph]; simp), .setWriter s r rfl⟩
  | leaves hr hph _ =>
    refine Or.inr ⟨begins hr ?_, .setWriter s r rfl⟩
    rcases hph with hph | ⟨_, _, hph⟩ <;> rw [hph] <;> simp

/-! ### Starts, stops and faults -/

/-- **Starts, stops and faults bring nothing up.** -/
theorem recedes_governs {s s' : Session} {o : Occurrence} (h : Governs s o s') :
    Recedes s s' := by
  cases h with
  | asksStart => exact .of_eq rfl (Nat.le_refl _) rfl rfl rfl rfl rfl
  | asksStop => exact .of_eq rfl (Nat.le_refl _) rfl rfl rfl rfl rfl
  | refuses => exact .of_eq rfl (Nat.le_refl _) rfl rfl rfl rfl rfl
  | startBegins => rw [enter_fst]; exact .of_eq rfl (Nat.le_refl _) rfl rfl rfl rfl rfl
  | startFails => rw [enter_fst]; exact .of_eq rfl (Nat.le_refl _) rfl rfl rfl rfl rfl
  | spawns =>
    -- the queue takes items again, and there are none
    refine ⟨rfl, Nat.le_refl _, Nat.le_refl _, fun h => Directory.nodup_keys_put h _ _, .refl _,
      ?_, ?_, fun _ _ hf => hf, fun _ ht => ht⟩
    · exact ((List.Sublist.refl s.queue.toList).append
        (Directory.picked_put_sublist rfl s.runs _)).subperm
    · exact (Directory.picked_put_sublist rfl s.runs _).subperm
  | startEnds => rw [enter_fst]; exact .of_eq rfl (Nat.le_refl _) rfl rfl rfl rfl rfl
  | @stopBegins i r =>
    have htaken := Recedes.takenDown s (.control i) r .cancelled (by simp)
    exact htaken.trans (.of_eq rfl (Nat.le_refl _) rfl rfl rfl rfl rfl)
  | stopJoins => exact .of_eq rfl (Nat.le_refl _) rfl rfl rfl rfl rfl
  | stopEnds => rw [enter_fst]; exact .of_eq rfl (Nat.le_refl _) rfl rfl rfl rfl rfl
  | @faultBegins t cause r =>
    have htaken := Recedes.takenDown s t r (.connection cause) (by simp)
    exact htaken.trans (.putTeardown _ _ _)
  | @faultLate t =>
    have hfree : Recedes s (s.releaseLifecycle t) :=
      .of_eq rfl (Nat.le_refl _) rfl rfl rfl rfl rfl
    exact hfree.trans (.exitTask _ _)
  | faultEnds =>
    rw [enter_fst]
    have hstops : Recedes s { s with state := .stopped } :=
      .of_eq rfl (Nat.le_refl _) rfl rfl rfl rfl rfl
    exact hstops.trans (.exitTask _ _)

end Session

end ZoneBus
