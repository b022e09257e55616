import ZoneBus.Proofs.Session.Acknowledging
import ZoneBus.Proofs.Session.Correlation

/-!
# What becomes of an acknowledgement

An acknowledgement that the session queues is a request like any other, but nothing answers
it.  So it is pushed once and never again, and ends when it is noted as written, unless
somebody withdraws it before.  It is urgent, and the urgent frames are taken in the order in
which they came, before any other; so the acknowledgements go out in the order of the packets.

## Main definitions

* `Session.ackFrames` — the frames of the acknowledgements that the session queued.
* `Session.acksAmong` — the acknowledgements among some frames.
* `Session.Acknowledges` — what becomes of them, from the packets to the line.

## Main results

* `Session.once_of_acks` — an acknowledgement is pushed once, and never sent again.
* `Session.settled_of_acks` — none gets lost.
* `Session.packets_acknowledged` — **one acknowledgement for each packet, in order.**
-/

namespace ZoneBus

/-- What is among the members of another list is picked out of a list in order, when each of
them occurs once. -/
theorem filter_mem_of_sublist {α : Type} [DecidableEq α] {picked all : List α}
    (h : picked.Sublist all) (hone : ∀ a ∈ picked, all.count a ≤ 1) :
    all.filter (fun a => decide (a ∈ picked)) = picked := by
  have hnodup : (all.filter fun a => decide (a ∈ picked)).Nodup := by
    rw [List.nodup_iff_count_le_one]
    intro a
    by_cases ha : a ∈ picked
    · exact Nat.le_trans (List.filter_sublist.count_le a) (hone a ha)
    · refine Nat.le_trans (Nat.le_of_eq (List.count_eq_zero.mpr fun hm => ha ?_)) (Nat.zero_le 1)
      exact of_decide_eq_true (List.mem_filter.mp hm).2
  have hsub : picked.Sublist (all.filter fun a => decide (a ∈ picked)) := by
    have hpicked := h.filter fun a => decide (a ∈ picked)
    rwa [List.filter_eq_self.mpr fun a ha => decide_eq_true ha] at hpicked
  refine (hsub.eq_of_length_le (List.Nodup.subperm hnodup fun a ha => ?_).length_le).symm
  exact of_decide_eq_true (List.mem_filter.mp ha).2

namespace Session

variable {s s' v : Session} {r : RunId} {run : Run} {o : Occurrence} {m : Moment}
  {ms : List Moment} {e : Priority × OutboundFrame} {frame : OutboundFrame}
  {config : SessionConfig} {link : Link} {before later : List (Session × Occurrence)}

/-- The frames of the acknowledgements that the session queued itself in some moments. -/
def ackFrames (ms : List Moment) : List OutboundFrame := (gather Moment.acks ms).map Prod.snd

/-- The acknowledgements that the session queued itself among some frames. -/
def acksAmong (ms : List Moment) (frames : List OutboundFrame) : List OutboundFrame :=
  frames.filter fun frame => decide (frame ∈ ackFrames ms)

/-! ### Everything of a kind -/

theorem gather_entered (p : Priority) (ms : List Moment) :
    gather (Moment.entered p) ms = SendQueue.tier p (gather Moment.queued ms) := by
  induction ms with
  | nil => rfl
  | cons m ms ih =>
    rw [gather, gather, ih, SendQueue.tier_append]
    rfl

theorem acks_sublist (ms : List Moment) :
    (gather Moment.acks ms).Sublist (gather Moment.queued ms) := by
  refine gather_sublist (fun m => ?_) ms
  rw [Moment.acks]
  split
  · exact List.filter_sublist
  · exact List.nil_sublist _

theorem message_of_acks (he : e ∈ gather Moment.acks ms) :
    e.2.envelope.message = .handshake .data := by
  obtain ⟨m, _, he⟩ := exists_of_gather he
  rw [Moment.acks] at he
  split at he
  · exact of_decide_eq_true (List.mem_filter.mp he).2
  · cases he

/-! ### Once -/

/-- **An acknowledgement is pushed once, and never sent again**; so it is written once at most. -/
theorem once_of_acks (hv : History (fresh config link) before v) (h : History v later s)
    (he : e ∈ gather Moment.acks (moments later s)) :
    let t := trail e.2.id (later ++ before) s
    t.pushed = [e] ∧ t.resent = [] ∧ t.begun.length ≤ 1 ∧ t.written.length ≤ 1 := by
  intro t
  obtain ⟨frame, priority, hid, hacc⟩ := accounted_of_history (hv.trans h) e.2.id
  have hmem : e ∈ t.pushed := by
    refine (pushed_perm before h e.2.id).mem_iff.mpr (List.mem_append_left _ ?_)
    exact List.mem_filter.mpr ⟨(acks_sublist _).subset he, decide_eq_true rfl⟩
  have hkey : frame.key? = none := by
    obtain rfl := hacc.pushed e hmem
    exact key?_eq_none (message_of_acks he)
  have hresent := hacc.keyless hkey
  have hpushed := hacc.spent
  rw [hresent] at hpushed
  obtain ⟨hwritten, hbegun⟩ := hacc.length_le
  refine ⟨?_, hresent, Nat.le_trans hbegun hpushed,
    Nat.le_trans hwritten (Nat.le_trans hbegun hpushed)⟩
  obtain ⟨first, hone⟩ := List.length_eq_one_iff.mp
    (Nat.le_antisymm hpushed (List.length_pos_of_mem hmem))
  change t.pushed = [first] at hone
  rw [hone] at hmem ⊢
  rw [List.mem_singleton.mp hmem]

/-- Whatever else has the number of an acknowledgement is that acknowledgement. -/
theorem eq_of_acks (hv : History (fresh config link) before v) (h : History v later s)
    (he : e ∈ gather Moment.acks (moments later s)) {p : Priority} (hid : frame.id = e.2.id)
    (hf : (p, frame) ∈ (trail frame.id (later ++ before) s).pushed) : (p, frame) = e := by
  rw [hid, (once_of_acks hv h he).1] at hf
  exact List.mem_singleton.mp hf

/-- An acknowledgement occurs once among the frames of a tier. -/
theorem count_entered_le (hv : History (fresh config link) before v) (h : History v later s)
    (he : e ∈ gather Moment.acks (moments later s)) (p : Priority) :
    (gather (Moment.entered p) (moments later s)).count e.2 ≤ 1 := by
  have hone : (framesOf e.2.id (gather Moment.queued (moments later s))).length ≤ 1 := by
    have hlength := (pushed_perm before h e.2.id).length_eq
    rw [(once_of_acks hv h he).1, List.length_append, List.length_singleton] at hlength
    omega
  have hsub : (SendQueue.tier p (gather Moment.queued (moments later s))).Sublist
      ((gather Moment.queued (moments later s)).map Prod.snd) := List.filter_sublist.map _
  rw [gather_entered]
  calc
    _ ≤ ((gather Moment.queued (moments later s)).map Prod.snd).count e.2 := hsub.count_le _
    _ ≤ (copiesOf ((gather Moment.queued (moments later s)).map Prod.snd) e.2.id).length := by
      rw [copiesOf, ← List.countP_eq_length_filter]
      refine List.countP_mono_left fun f _ hf => decide_eq_true ?_
      rw [eq_of_beq hf]
    _ ≤ 1 := by rwa [length_framesOf]

/-! ### In order -/

section Quiet

variable (hv : History (fresh config link) before v) (hvacant : v.Vacant)
  (hack : config.acknowledgeData = true) (h : History v later s) (hcalm : Calm later s)

include hv hvacant hack h hcalm

/-- All acknowledgements are urgent. -/
theorem priority_of_acks (he : e ∈ gather Moment.acks (moments later s)) : e.1 = .high := by
  have hmem := List.mem_map_of_mem (f := fun e => (e.1, e.2.envelope)) he
  rw [(acked_of_history hv hvacant hack h hcalm).1, List.mem_map] at hmem
  obtain ⟨_, _, he⟩ := hmem
  exact (congrArg Prod.fst he).symm

theorem mem_ackFrames_iff : frame ∈ ackFrames (moments later s) ↔
    (.high, frame) ∈ gather Moment.acks (moments later s) := by
  rw [ackFrames, List.mem_map]
  constructor
  · rintro ⟨⟨p, f⟩, he, rfl⟩
    obtain rfl : p = .high := priority_of_acks hv hvacant hack h hcalm he
    exact he
  · exact fun he => ⟨_, he, rfl⟩

/-- Among the urgent frames that come into the queue are the acknowledgements, in their order. -/
theorem acksAmong_entered :
    acksAmong (moments later s) (gather (Moment.entered .high) (moments later s)) =
      ackFrames (moments later s) := by
  refine filter_mem_of_sublist ?_ fun frame hf => ?_
  · have hall : SendQueue.tier .high (gather Moment.acks (moments later s)) =
        ackFrames (moments later s) := by
      refine congrArg _ (List.filter_eq_self.mpr fun e he => decide_eq_true ?_)
      exact priority_of_acks hv hvacant hack h hcalm he
    rw [gather_entered, ← hall]
    exact ((acks_sublist _).filter _).map _
  · exact count_entered_le hv h ((mem_ackFrames_iff hv hvacant hack h hcalm).mp hf) .high

/-- None was there before. -/
theorem acksAmong_old : acksAmong (moments later s) v.queue.high = [] := by
  rw [acksAmong, List.filter_eq_nil_iff]
  intro frame hold hf
  have he := (mem_ackFrames_iff hv hvacant hack h hcalm).mp (of_decide_eq_true hf)
  have hnew := ((acked_of_history hv hvacant hack h hcalm).2.2 _ he).1
  have hknown := known_of_history hv frame (Or.inl (List.mem_append_left _ hold))
  exact Nat.not_lt.mpr hknown hnew

/-- None waits among the other frames. -/
theorem high_of_waiting (hm : m ∈ moments later s) (hf : frame ∈ ackFrames (moments later s))
    (hq : frame ∈ m.before.queue.toList) : frame ∈ m.before.queue.high := by
  refine (List.mem_append.mp hq).resolve_right fun hlow => ?_
  have he := eq_of_acks hv h ((mem_ackFrames_iff hv hvacant hack h hcalm).mp hf) rfl
    (pushed_of_moments (p := .low) hv h hm hlow)
  cases he

/-- None is taken from among the other frames. -/
theorem acksAmong_taken (hm : m ∈ moments later s) :
    acksAmong (moments later s) (m.takenFrom .high) = acksAmong (moments later s) m.taken := by
  obtain ⟨_, _, _, ho, hkept⟩ := solo_of_moments hv hvacant h hcalm hm
  rw [Moment.takenFrom]
  split
  · rfl
  · next hnot =>
    have hempty : m.before.queue.high = [] :=
      Decidable.byContradiction fun hne => hnot (iff_of_false (by decide) hne)
    symm
    show (m.taken).filter _ = []
    rw [List.filter_eq_nil_iff]
    intro frame ht hf
    have hp := tryPop_of_taken ho hkept ht
    have hq : frame ∈ m.before.queue.toList := by
      rw [(SendQueue.toList_of_tryPop hp).1]
      exact List.mem_cons_self
    have hhigh := high_of_waiting hv hvacant hack h hcalm hm (of_decide_eq_true hf) hq
    rw [hempty] at hhigh
    cases hhigh

/-- **The acknowledgements are taken in the order in which they were queued**, and those that
were not are still waiting. -/
theorem acks_in_order : ackFrames (moments later s) =
    acksAmong (moments later s) (gather Moment.taken (moments later s)) ++
      acksAmong (moments later s) s.queue.high := by
  have hkept : ∀ m ∈ moments later s, ¬m.EndsRun := fun m hm => by
    obtain ⟨_, _, _, _, hkept⟩ := solo_of_moments hv hvacant h hcalm hm
    exact hkept
  have htaken : acksAmong (moments later s) (gather (Moment.takenFrom .high) (moments later s)) =
      acksAmong (moments later s) (gather Moment.taken (moments later s)) := by
    rw [acksAmong, acksAmong, ← gather_filter, ← gather_filter]
    exact gather_congr fun m hm => acksAmong_taken hv hvacant hack h hcalm hm
  calc
    ackFrames (moments later s) =
        acksAmong (moments later s) v.queue.high ++
          acksAmong (moments later s) (gather (Moment.entered .high) (moments later s)) := by
      rw [acksAmong_old hv hvacant hack h hcalm, acksAmong_entered hv hvacant hack h hcalm]
      rfl
    _ = acksAmong (moments later s) (v.queue.high ++
          gather (Moment.entered .high) (moments later s)) := (List.filter_append ..).symm
    _ = acksAmong (moments later s) (gather (Moment.takenFrom .high) (moments later s) ++
          s.queue.high) := congrArg _ (passed_of_history h hkept .high)
    _ = acksAmong (moments later s) (gather (Moment.takenFrom .high) (moments later s)) ++
          acksAmong (moments later s) s.queue.high := List.filter_append ..
    _ = _ := by rw [htaken]

end Quiet

/-! ### None gets lost -/

/-- What a writer notes as written is on the trail of its number. -/
theorem written_of_noted (before : List (Session × Occurrence)) (h : History v later s)
    (hf : frame ∈ gather (Moment.noted r) (moments later s)) :
    ∃ t, (t, frame) ∈ (trail frame.id (later ++ before) s).written := by
  induction h with
  | nil => cases hf
  | @cons w s later o h ho ih =>
    rcases List.mem_append.mp hf with hf | hf
    · obtain ⟨t, ht⟩ := ih hf
      exact ⟨t, List.mem_append_right _ ht⟩
    · obtain ⟨⟨r', f⟩, he, rfl⟩ := List.mem_map.mp hf
      refine ⟨w.now, List.mem_append_left _ (List.mem_filter.mpr ⟨?_, decide_eq_true rfl⟩)⟩
      exact List.mem_map.mpr ⟨(r', f), (List.mem_filter.mp he).1, rfl⟩

/-- A request that expects no answer and ended well was noted as written. -/
theorem noted_of_success (hv : History (fresh config link) before v) (h : History v later s)
    {id : Nat} {reply : Reply} (hnew : v.requestIds.given < id)
    (hkeyless : ∀ w ∈ s :: later.map Prod.fst, ∀ req,
      w.pending.requests.find? id = some req → req.key = none)
    (hm : (id, .success reply) ∈ s.delivered) :
    ∃ r frame, frame.id = id ∧ frame ∈ gather (Moment.noted r) (moments later s) := by
  induction h with
  | nil =>
    have hmem := (ledger_of_history hv).mem_iff.mp
      (List.mem_append_right _ (List.mem_map_of_mem (f := Prod.fst) hm))
    rw [List.mem_range'_1] at hmem
    omega
  | @cons w s later o h ho ih =>
    have hw := hv.trans h
    by_cases hold : (id, .success reply) ∈ w.delivered
    · obtain ⟨r, frame, hid, hf⟩ := ih (fun w' hw' => hkeyless w' (List.mem_cons_of_mem _ hw')) hold
      exact ⟨r, frame, hid, List.mem_append_left _ hf⟩
    · have hkey := hkeyless w (List.mem_cons_of_mem _ List.mem_cons_self)
      rcases tells_of_happens ho with
        ⟨_, hmute⟩ | ⟨r, result, decoder, rfl, _, rfl⟩ | ⟨r, run, f, rfl, hr, hph, rfl⟩
      · exact absurd (hmute id reply hm) hold
      · -- an answer ends a request that expects one
        have hl : w.Ledger := ledger_of_history hw
        have ht : TableOk w.pending := tableOk_of_history hw
        obtain ⟨_, req, _, hf, hcase⟩ := reply_of_handle
          (s := w.modifyRun r fun run => { run with decoder := decoder }) hl ht hm hold
        have hnone := hkey req hf
        rcases hcase with ⟨_, _, _, _, hsome⟩ | ⟨_, _, _, _, _, hsome⟩
        · rw [hnone] at hsome
          cases hsome
        · rw [hnone] at hsome
          cases hsome
      · obtain ⟨_, rfl, _⟩ := reply_of_noteWritten hm hold
        refine ⟨r, f, rfl, List.mem_append_right _ ?_⟩
        have hmarked : w.marked? (.move (.writer r)) = some (r, f) := by
          rw [marked?, hr, Option.bind_some, hph]
        rw [Moment.noted]
        dsimp only
        rw [hmarked]
        simp

/-- A packet is heard by the reader of a run that goes on. -/
theorem run_of_packet {e : Envelope} (h : s.packetHeard? o = some e) :
    ∃ r run, s.runs.find? r = some run ∧ run.hasExited = false := by
  have hin : ∃ result, s.inbound? o = some result := by
    cases hin : s.inbound? o with
    | none =>
      rw [packetHeard?, heard?, hin] at h
      cases h
    | some result => exact ⟨result, rfl⟩
  obtain ⟨result, hin⟩ := hin
  rw [inbound?.eq_def] at hin
  split at hin
  · next r =>
    obtain ⟨run, hr, hnext⟩ := Option.bind_eq_some_iff.mp hin
    refine ⟨r, run, hr, decide_eq_false fun hexited => ?_⟩
    rw [hexited.1] at hnext
    cases hnext
  · cases hin

/-- The entry of an acknowledgement has its frame, and expects no answer. -/
theorem entry_of_acks (hv : History (fresh config link) before v) (h : History v later s)
    (he : e ∈ gather Moment.acks (moments later s)) {w : Session}
    (hw : w ∈ s :: later.map Prod.fst) {req : PendingRequest}
    (hf : w.pending.requests.find? e.2.id = some req) : req.frame = e.2 ∧ req.key = none := by
  have hw' : w ∈ s :: (later ++ before).map Prod.fst := by
    rw [List.map_append]
    exact (List.mem_cons.mp hw).elim (fun he => he ▸ List.mem_cons_self) fun hw =>
      List.mem_cons_of_mem _ (List.mem_append_left _ hw)
  obtain ⟨hpushed, hkey⟩ := pushed_of_registered (hv.trans h) hw' hf
  rw [(once_of_acks hv h he).1] at hpushed
  have hframe : req.frame = e.2 := congrArg Prod.snd (List.mem_singleton.mp hpushed)
  exact ⟨hframe, by rw [hkey, hframe, key?_eq_none (message_of_acks he)]⟩

/-- Once an acknowledgement was queued, the run is there. -/
theorem live_of_acks (hv : History (fresh config link) before v) (hvacant : v.Vacant)
    (hack : config.acknowledgeData = true) (h : History v later s) (hcalm : Calm later s)
    (he : e ∈ gather Moment.acks (moments later s)) :
    (s.runs.find? (v.runIds.given + 1)).map Run.cancelled = some false := by
  induction h with
  | nil => cases he
  | @cons w s later o h ho ih =>
    have hsolo := solo_of_history hv hvacant h hcalm.tail
    have hthere : ∃ run, w.runs.find? (v.runIds.given + 1) = some run := by
      rcases List.mem_append.mp he with he | he
      · obtain ⟨run, hr, _⟩ := Option.map_eq_some_iff.mp (ih hcalm.tail he)
        exact ⟨run, hr⟩
      · rcases acks_of_calm hv hvacant hack h ho hcalm with ⟨_, hnone⟩ | ⟨heard, _, hpackets, _⟩
        · rw [hnone] at he
          cases he
        · have hheard : heard ∈ (w.packetHeard? o).toList := by
            show heard ∈ (⟨w, o, s⟩ : Moment).packets
            rw [hpackets]
            exact List.mem_singleton_self _
          obtain ⟨r, run, hr, hx⟩ := run_of_packet (Option.mem_toList.mp hheard)
          exact ⟨run, (hsolo.eq_of_run hr hx).1 ▸ hr⟩
    obtain ⟨run, hr⟩ := hthere
    exact (solo_of_history hv hvacant (h.cons ho) hcalm).stays
      (lifecycle_of_history (hv.trans h)) ho hr

section Quiet

variable (hv : History (fresh config link) before v) (hvacant : v.Vacant)
  (hack : config.acknowledgeData = true) (h : History v later s) (hcalm : Calm later s)

include hv hvacant hack h hcalm

/-- **No acknowledgement gets lost**: it was noted as written, or it is queued or in the hand of
the writer, or its request ended with a failure. -/
theorem settled_of_acks (he : e ∈ gather Moment.acks (moments later s)) :
    e.2 ∈ gather (Moment.noted (v.runIds.given + 1)) (moments later s) ∨
      s.copies (v.runIds.given + 1) e.2.id = [e.2] ∨
      ∃ error, s.EndedWith e.2.id (.failure error) := by
  obtain ⟨hnew, hgiven⟩ := (acked_of_history hv hvacant hack h hcalm).2.2 e he
  have hl : s.Ledger := ledger_of_history (hv.trans h)
  rcases hl.open_or_ended (Nat.lt_of_le_of_lt (Nat.zero_le _) hnew) hgiven with
    hopen | ⟨outcome, hended⟩
  · -- its one copy is queued, or in the hand of the writer
    obtain ⟨req, hf⟩ := mem_keys_of_open hopen
    obtain ⟨hframe, hkey⟩ := entry_of_acks hv h he List.mem_cons_self hf
    obtain ⟨run, hr, hcancelled⟩ :=
      Option.map_eq_some_iff.mp (live_of_acks hv hvacant hack h hcalm he)
    have hserving := (solo_of_history hv hvacant h hcalm).serves run hr hcancelled
    have hplaced := hserving.placed fun teardown hph => by
      have hreacts := teardownOf?_writer.mpr ⟨run, hr, hph⟩
      rw [hcalm.noFault s List.mem_cons_self] at hreacts
      cases hreacts
    refine Or.inr (Or.inl ?_)
    rw [copies, hr, Option.bind_some]
    rcases hplaced e.2.id req hf with ⟨_, hcopies⟩ | ⟨hsome, _⟩
    · rw [hcopies, hframe]
    · rw [hkey] at hsome
      cases hsome
  · cases outcome with
    | failure error => exact Or.inr (Or.inr ⟨error, hended⟩)
    | success reply =>
      have hm : (e.2.id, .success reply) ∈ s.delivered :=
        mem_delivered_iff.mpr (by rw [hended.2]; exact List.mem_singleton_self _)
      obtain ⟨r, f, hid, hf⟩ := noted_of_success hv h hnew
        (fun w hw req hreq => (entry_of_acks hv h he hw hreq).2) hm
      -- the frame that was noted is that of the acknowledgement, and the writer is that of the run
      obtain ⟨t, hwritten⟩ := written_of_noted before h hf
      obtain ⟨frame, priority, _, hacc⟩ := accounted_of_history (hv.trans h) e.2.id
      rw [hid] at hwritten
      have hpushed : e = (priority, frame) :=
        hacc.pushed e (by rw [(once_of_acks hv h he).1]; exact List.mem_singleton_self _)
      have hsame : f = e.2 := by
        rw [hpushed]
        exact (hacc.written _ hwritten).1
      subst hsame
      obtain ⟨m, hm, hnoted⟩ := exists_of_gather hf
      obtain ⟨_, _, hsolo, ho, _⟩ := solo_of_moments hv hvacant h hcalm hm
      have hwriter : m.what = .move (.writer r) := by
        by_contra hother
        rw [show m.noted r = [] from noted_other hother] at hnoted
        cases hnoted
      rw [hwriter] at ho
      rw [← hsolo.eq_writer ho]
      exact Or.inl hf

end Quiet

/-! ### From the packets to the line -/

/-- What becomes of the acknowledgements that a session queues itself, while it goes on with a
run. -/
structure Acknowledges (r : RunId) (before later : List (Session × Occurrence)) (s : Session) :
    Prop where
  /-- There is one for each packet, in the same order; it is urgent, and for whoever sent the
  packet. -/
  oneEach : (gather Moment.acks (moments later s)).map (fun e => (e.1, e.2.envelope)) =
    (gather Moment.packets (moments later s)).map fun e => (.high, s.ackFor e)
  /-- No two have the same number. -/
  distinct : (gather Moment.acks (moments later s)).Pairwise fun e e' => e.2.id < e'.2.id
  /-- Each is pushed once and never sent again, and is written once at most. -/
  once : ∀ e ∈ gather Moment.acks (moments later s),
    let t := trail e.2.id (later ++ before) s
    t.pushed = [e] ∧ t.resent = [] ∧ t.begun.length ≤ 1 ∧ t.written.length ≤ 1
  /-- They are taken from the queue in this order, and those that are not are still waiting. -/
  taken : ackFrames (moments later s) =
    acksAmong (moments later s) (gather Moment.taken (moments later s)) ++
      acksAmong (moments later s) s.queue.high
  /-- While one waits, nothing is taken that is not urgent. -/
  first : ∀ m ∈ moments later s, ∀ frame ∈ m.taken,
    (∃ ack ∈ ackFrames (moments later s), ack ∈ m.before.queue.toList) →
      m.before.queue.high = frame :: m.after.queue.high ∧
        m.after.queue.low = m.before.queue.low
  /-- The line takes whole frames and a part of one more, and the acknowledgements among them
  are in this order. -/
  line : ∃ complete part, (output r (moments later s)).Splits (s.writer? r) complete part ∧
    gather Moment.added (moments later s) = complete.flatMap OutboundFrame.bytes ++ part ∧
    (acksAmong (moments later s) complete).Sublist (ackFrames (moments later s))
  /-- None gets lost: each was noted as written, or is queued or in the hand of the writer, or
  its request ended with a failure. -/
  settled : ∀ e ∈ gather Moment.acks (moments later s),
    e.2 ∈ (output r (moments later s)).noted ∨ s.copies r e.2.id = [e.2] ∨
      ∃ error, s.EndedWith e.2.id (.failure error)

/-- What the writer of a run begins to write it took from the queue, in this order. -/
theorem begun_sublist (hv : History (fresh config link) before v) (hnew : v.writer? r = none)
    (h : History v later s) :
    (output r (moments later s)).begun.Sublist (gather (Moment.popped r) (moments later s)) := by
  rw [popped_of_history hv hnew h]
  exact (List.filter_sublist.map _).trans (List.sublist_append_left _ _)

theorem taken_eq_popped (hsolo : m.before.Solo r) (ho : Happens m.before m.what m.after) :
    m.taken = m.popped r := by
  by_cases hwriter : ∃ r', m.what = .move (.writer r')
  · obtain ⟨r', hwriter⟩ := hwriter
    rw [hwriter] at ho
    rw [Moment.taken, hwriter, ← hsolo.eq_writer ho]
  · have hother : m.what ≠ .move (.writer r) := fun he => hwriter ⟨r, he⟩
    rw [show m.taken = [] from taken_other fun r' he => hwriter ⟨r', he⟩, Moment.popped,
      if_neg fun hof => hother (isOf_iff.mp hof.1)]

/-- **One acknowledgement for each packet, in order.**  Packets are acknowledged, every earlier
run of a session has ended, and from then on nobody asks for a stop and no task meets an error
of the link.  Whatever the far end sends and whatever callers do, the acknowledgements that the
tasks of the session queue are those of the packets for the session or for everybody that its
reader hears, one for each, in the order in which they are heard; it makes no difference what
the packet is a part of, and whether it has its place there.  Each acknowledgement is pushed
once and never sent again.  They are taken from the queue in that order, and reach the line in
that order; while one waits, the writer takes no frame that is not urgent.  And none gets lost:
until it is noted as written, it is queued or in the hand of the writer, unless its request
ends with a failure before. -/
theorem packets_acknowledged (hack : config.acknowledgeData = true)
    (hv : History (fresh config link) before v) (hvacant : v.Vacant) (h : History v later s)
    (hcalm : Calm later s) : Acknowledges (v.runIds.given + 1) before later s := by
  obtain ⟨honeEach, hdistinct, _⟩ := acked_of_history hv hvacant hack h hcalm
  have htaken := acks_in_order hv hvacant hack h hcalm
  have hnew : v.writer? (v.runIds.given + 1) = none := by
    rw [writer?, (lifecycle_of_history hv).find?_next_run]
    rfl
  exact {
    oneEach := honeEach
    distinct := hdistinct
    once := fun e he => once_of_acks hv h he
    taken := htaken
    first := fun m hm frame hf hwaits => by
      obtain ⟨ack, hack', hq⟩ := hwaits
      obtain ⟨_, _, _, ho, hkept⟩ := solo_of_moments hv hvacant h hcalm hm
      have hhigh := high_of_waiting hv hvacant hack h hcalm hm hack' hq
      exact high_of_taken ho hkept hf (List.ne_nil_of_mem hhigh)
    line := by
      obtain ⟨complete, part, hsplits⟩ := (fits_of_history hv hnew h).splits
      refine ⟨complete, part, hsplits, ?_, ?_⟩
      · rw [← hsplits.poured]
        refine gather_congr fun m hm => ?_
        obtain ⟨past, hpast, hsolo, ho, _⟩ := solo_of_moments hv hvacant h hcalm hm
        refine added_eq_poured ho (apart_of_history (hv.trans hpast)) fun r' hr' => ?_
        rw [hr'] at ho
        exact hsolo.eq_writer ho
      · have hpopped : gather (Moment.popped (v.runIds.given + 1)) (moments later s) =
            gather Moment.taken (moments later s) := gather_congr fun m hm => by
          obtain ⟨_, _, hsolo, ho, _⟩ := solo_of_moments hv hvacant h hcalm hm
          exact (taken_eq_popped hsolo ho).symm
        have hsub := hsplits.complete_sublist.trans (begun_sublist hv hnew h)
        rw [hpopped] at hsub
        rw [htaken]
        exact (hsub.filter _).trans (List.sublist_append_left _ _)
    settled := fun e he => settled_of_acks hv hvacant hack h hcalm he }

/-- The frames of three packets: one for the session, one for another device, and one for
everybody that has no place in a transfer. -/
def threePackets : List Bytes :=
  [(Address.external, Packet.mk .root .root 0 1 [1, 2]),
    (.controllerAt 3, ⟨.root, .root, 0, 1, [3]⟩),
    (.allControllers, ⟨.root, .root, 1, 2, [4]⟩)].map fun e =>
    match (Envelope.mk e.1 (.controllerAt 2) (.setData e.2)).encode with
    | .ok bytes => bytes
    | .error _ => []

/-- An event waits while the packets come in; then everything is written. -/
def packetsBeforeEvent : List Cue :=
  firstStart ++ [.input (.send (.controllerAt 1) (.event (.plain .root 7 .low)) .low),
    .input (.farEnd { Line.fresh none with inbound := [.data threePackets.flatten] } [])] ++
    List.replicate 8 (.move (.reader 1) 0) ++ List.replicate 18 (.move (.writer 1) 0)

theorem packets_acknowledged_beforeEvent : ∃ past s,
    History (fresh {} (.fresh "" none [])) past s ∧ Calm past s ∧ Acknowledges 1 [] past s ∧
      (gather Moment.packets (moments past s)).map Envelope.target = [.external, .allControllers] ∧
      (output 1 (moments past s)).noted.map OutboundFrame.id = [2, 3, 1] := by
  obtain ⟨past, s, h, hstop, hfault, htargets, hnoted⟩ := exists_history
    (fresh {} (.fresh "" none [])) packetsBeforeEvent
    (fun past s => (∀ e ∈ past, e.2.isStop = false) ∧
      (∀ v ∈ s :: past.map Prod.fst, ∀ run ∈ v.runs.values, faults run = false) ∧
      (gather Moment.packets (moments past s)).map Envelope.target = [.external, .allControllers] ∧
      (output 1 (moments past s)).noted.map OutboundFrame.id = [2, 3, 1]) (by decide +kernel)
  have hcalm := calm_of_check hstop hfault
  have hack : ({} : SessionConfig).acknowledgeData = true := rfl
  exact ⟨past, s, h, hcalm, packets_acknowledged hack (.nil _)
    (vacant_fresh {} (.fresh "" none [])) h hcalm, htargets, hnoted⟩

end Session

end ZoneBus
