import ZoneBus.Proofs.Session.SingleRun
import ZoneBus.Proofs.Session.Subscribers

/-!
# Who acknowledges a packet

A reader that hears a packet for this session or for everybody queues an acknowledgement of it,
before it looks at the packet any closer; so it does not matter whether the packet has its
place in a transfer, or where it is to go.  No other task queues one: looks at the deadlines
push frames that expect an answer, and an acknowledgement expects none.

## Main definitions

* `Session.packetHeard?` — the message with a packet for this session that is heard.
* `Session.ackFor` — what is sent for it.
* `Moment.acks` — the acknowledgements that a task of the session queues.
* `Session.QueuesAck` — an acknowledgement is queued for the packet that is heard.

## Main results

* `Session.queuesAck_reader` — what a reader queues.
* `Session.acks_of_happens`, `acks_of_calm` — **who queues an acknowledgement, and which one.**
* `Session.acked_of_history` — **one for each packet**, in order, and no two alike.
-/

namespace ZoneBus

namespace Session

variable {s s' v : Session} {r : RunId} {run : Run} {o : Occurrence} {e : Envelope}
  {config : SessionConfig} {link : Link} {before later : List (Session × Occurrence)}

/-- The message with a packet for this session, or for everybody, that is heard when something
happens. -/
def packetHeard? (s : Session) (o : Occurrence) : Option Envelope :=
  (s.heard? o).filter fun e => (s.packet? e).isSome

/-- What is sent for a message with a packet: its acknowledgement, to whoever sent it. -/
def ackFor (s : Session) (e : Envelope) : Envelope :=
  ⟨e.source, s.config.localAddress, .handshake .data⟩

/-- The messages with packets for this session that are heard in a moment. -/
def Moment.packets (m : Moment) : List Envelope := (m.before.packetHeard? m.what).toList

/-- Whether a task of the session moves, and not one of a caller. -/
def Moment.isOwn (m : Moment) : Bool :=
  match m.what with
  | .move (.caller _) => false
  | .move _ => true
  | .input _ => false

/-- The acknowledgements that a task of the session queues, with their priorities. -/
def Moment.acks (m : Moment) : List (Priority × OutboundFrame) :=
  if m.isOwn then m.queued.filter fun e => decide (e.2.envelope.message = .handshake .data) else []

/-! ### What a reader queues -/

/-- Unless it brings a packet for this session, what is heard leaves the queue alone. -/
theorem queue_handle {result : FrameResult}
    (h : ∀ frame e, result = .ok frame → Envelope.ofFrame frame = .ok e → s.packet? e = none) :
    (s.handle result).1.queue = s.queue := by
  rcases s.handle_cases result with he | ⟨_, _, _, _, _, he⟩ | ⟨e, p, ⟨frame, hr, hf, hfor⟩, hp, _⟩
  · rw [he]
  · rw [he]
    rfl
  · have hpacket : s.packet? e = some p := by
      rw [packet?, hp]
      exact if_pos hfor
    rw [h frame e hr hf] at hpacket
    cases hpacket

/-- A packet for this session is acknowledged, and nothing else is queued for it. -/
theorem queue_handle_of_packet {frame : Frame} (hf : Envelope.ofFrame frame = .ok e)
    (h : (s.packet? e).isSome = true) :
    (s.handle (.ok frame)).1.queue = (s.acknowledge e.source).queue := by
  obtain ⟨p, hp⟩ := Option.isSome_iff_exists.mp h
  have hhandle : (s.handle (.ok frame)).1 = (s.acceptPacket e.source p).1 := by
    rw [packet?] at hp
    split at hp
    · next p' hmessage =>
      split at hp
      · next hfor =>
        obtain rfl := Option.some.inj hp
        simp only [handle, hf, dispatch, if_pos hfor, hmessage]
      · cases hp
    · cases hp
  rw [hhandle]
  rcases s.acceptPacket_cases e.source p with ⟨buffers, he⟩ | ⟨value, buffers, _, he⟩
  · rw [he]
  · rw [he]
    rfl

/-- An acknowledgement is urgent, has the next number, and is always queued while frames are
taken. -/
theorem extends_acknowledge (hack : s.config.acknowledgeData = true)
    (hopen : s.queue.closed = false) (source : Address) : ∃ bytes,
      s.queue.Extends (s.acknowledge source).queue [(.high, ⟨s.requestIds.given + 1,
        ⟨source, s.config.localAddress, .handshake .data⟩, bytes⟩)] := by
  have hshort : Envelope.frameLength (Message.handshake .data).layout ≤ maxFrameLength := by decide
  have hwrites : ∃ bytes,
      (⟨source, s.config.localAddress, .handshake .data⟩ : Envelope).encode = .ok bytes :=
    ⟨_, Envelope.encode_eq_ok_iff.mpr ⟨⟨trivial, hshort⟩, rfl⟩⟩
  rw [acknowledge, if_pos hack]
  rcases s.enqueue_cases source (.handshake .data) .high with
    ⟨e, he⟩ | ⟨bytes, _, ⟨queue, hp, he⟩ | ⟨hp, _⟩⟩
  · obtain ⟨bytes, hbytes⟩ := hwrites
    rw [enqueue] at he
    simp only [hbytes] at he
    split at he <;> cases he
  · rw [he]
    exact ⟨bytes, SendQueue.extends_push hp⟩
  · rw [SendQueue.push_eq_none_iff, hopen] at hp
    cases hp

/-- An acknowledgement is queued for the packet that is heard, if there is one, and nothing
else. -/
def QueuesAck (s : Session) (o : Occurrence) (s' : Session) : Prop :=
  (s.packetHeard? o = none ∧ s.queue.Extends s'.queue []) ∨
    ∃ e bytes, s.packetHeard? o = some e ∧
      s.queue.Extends s'.queue [(.high, ⟨s.requestIds.given + 1, s.ackFor e, bytes⟩)]

/-- Whoever hears nothing queues nothing. -/
theorem queuesAck_of_deaf (hin : s.inbound? o = none) (hq : s'.queue = s.queue) :
    s.QueuesAck o s' := by
  refine Or.inl ⟨?_, SendQueue.extends_of_eq (by rw [hq]) (by rw [hq])⟩
  rw [packetHeard?, heard?, hin]
  rfl

/-- The message of a packet that is heard is that of the frame that came in. -/
theorem frame_of_packetHeard {result : FrameResult} (hin : s.inbound? o = some result)
    (h : s.packetHeard? o = some e) :
    ∃ frame, result = .ok frame ∧ Envelope.ofFrame frame = .ok e ∧
      (s.packet? e).isSome = true := by
  rw [packetHeard?, Option.filter_eq_some_iff] at h
  obtain ⟨hheard, hsome⟩ := h
  rw [heard?, hin] at hheard
  split at hheard
  · next frame hresult =>
    obtain rfl := Option.some.inj hresult
    refine ⟨frame, rfl, ?_, hsome⟩
    cases hf : Envelope.ofFrame frame with
    | error _ =>
      rw [hf] at hheard
      cases hheard
    | ok e' =>
      rw [hf] at hheard
      rw [Option.some.inj hheard]
  · cases hheard

/-- What comes in is acknowledged when it is a packet. -/
theorem queuesAck_handle {result : FrameResult} {decoder : Decoder}
    (hin : s.inbound? o = some result) (hack : s.config.acknowledgeData = true)
    (hopen : s.queue.closed = false) :
    s.QueuesAck o
      ((s.modifyRun r fun run => { run with decoder := decoder }).handle result).1 := by
  generalize hv : (s.modifyRun r fun run => { run with decoder := decoder }) = v
  have hqueue : v.queue = s.queue := by rw [← hv]; rfl
  have hpacket : v.packet? = s.packet? := by rw [← hv]; rfl
  have hconfig : v.config = s.config := by rw [← hv]; rfl
  have hgiven : v.requestIds = s.requestIds := by rw [← hv]; rfl
  cases hheard : s.packetHeard? o with
  | none =>
    have hsame : (v.handle result).1.queue = s.queue := by
      refine (queue_handle fun frame e hresult hf => ?_).trans hqueue
      rw [packetHeard?, heard?, hin, hresult] at hheard
      dsimp only at hheard
      rw [hf] at hheard
      rw [hpacket]
      exact Option.not_isSome_iff_eq_none.mp (Option.filter_eq_none_iff.mp hheard e rfl)
    exact Or.inl ⟨hheard, SendQueue.extends_of_eq (by rw [hsame]) (by rw [hsame])⟩
  | some e =>
    obtain ⟨frame, rfl, hf, hsome⟩ := frame_of_packetHeard hin hheard
    rw [← hpacket] at hsome
    obtain ⟨bytes, hext⟩ := extends_acknowledge (s := v) (by rw [hconfig]; exact hack)
      (by rw [hqueue]; exact hopen) e.source
    rw [← queue_handle_of_packet hf hsome, hqueue, hgiven, hconfig] at hext
    exact Or.inr ⟨e, bytes, hheard, hext⟩

/-- A reader queues an acknowledgement for a packet that it hears, and nothing else. -/
theorem queuesAck_reader (ho : Happens s (.move (.reader r)) s')
    (hkept : ¬(⟨s, .move (.reader r), s'⟩ : Moment).EndsRun)
    (hack : s.config.acknowledgeData = true) (hopen : ∀ run, s.runs.find? r = some run →
      run.hasExited = false → s.queue.closed = false) :
    s.QueuesAck (.move (.reader r)) s' := by
  obtain ⟨hm⟩ := ho
  rw [moves] at hm
  split at hm
  · next run hr =>
    have hway := readerWay_of_mem hm
    dsimp only at hway
    have hin : run.reader = .handling →
        s.inbound? (.move (.reader r)) = run.decoder.next.1 := fun hph => by
      rw [inbound?, hr, Option.bind_some, hph]
    have hdeaf : run.reader ≠ .handling → s.inbound? (.move (.reader r)) = none := fun hph => by
      rw [inbound?, hr, Option.bind_some]
      split
      · next he => exact absurd he hph
      · rfl
    have hlive : run.reader = .handling → run.hasExited = false :=
      fun hph => decide_eq_false fun hexited => by
        rw [hph] at hexited
        cases hexited.1
    generalize run.reader = phase at hway hin hdeaf hlive
    cases hway with
    | rests hnext => exact queuesAck_of_deaf (by rw [hin rfl, hnext]) rfl
    | handles hnext =>
      exact queuesAck_handle (by rw [hin rfl, hnext]) hack (hopen run hr (hlive rfl))
    | reacts hway =>
      rcases queue_teardown hway with hq | hends
      · exact queuesAck_of_deaf (hdeaf (by simp)) hq
      · exact absurd hends hkept
    | _ => exact queuesAck_of_deaf (hdeaf (by simp)) rfl
  · simp at hm

/-! ### What the others queue -/

/-- Without a number given to a request, nothing is queued for callers or by readers. -/
theorem queue_minors (h : Minors s s') (hg : s'.requestIds.given ≤ s.requestIds.given) :
    s'.queue = s.queue := by
  have grows : ∀ {v w : Session}, Minors v w → v.requestIds.given ≤ w.requestIds.given :=
    fun h => (keepsBooks_worked (Minors.worked h)).2.1
  induction h with
  | refl => rfl
  | @tail v w hv hm ih =>
    rcases minor_cases hm with ⟨_, hq⟩ | ⟨target, message, priority, bytes, queue, _, rfl⟩
    · exact hq.trans (ih (Nat.le_trans (grows (.single hm)) hg))
    · have hnext : v.requestIds.given + 1 ≤ s.requestIds.given := hg
      exact absurd (Nat.le_trans hnext (grows hv)) (Nat.not_succ_le_self _)

/-- A call that starts or stops queues nothing. -/
theorem added_control {i : ControlId} (ho : Happens s (.move (.control i)) s')
    (hkept : ¬(⟨s, .move (.control i), s'⟩ : Moment).EndsRun) :
    s.queue.added s'.queue = [] := by
  have same : s'.queue.high = s.queue.high → s'.queue.low = s.queue.low →
      s.queue.added s'.queue = [] := fun hhigh hlow =>
    List.perm_nil.mp (SendQueue.extends_of_eq hhigh hlow).added_perm
  have hids : s'.requestIds = s.requestIds := by
    obtain ⟨hm⟩ := id ho
    rw [moves] at hm
    split at hm
    · exact (asides_control i _ _ hm).requestIds
    · simp at hm
  cases deed_of_happens ho with
  | minor _ hm =>
    have hq := queue_minors hm (Nat.le_of_eq (congrArg Counter.given hids))
    exact same (by rw [hq]) (by rw [hq])
  | governs link _ _ hg =>
    rcases queue_governs hg with hq | hq | hends
    · exact same (by rw [hq]) (by rw [hq])
    · exact same (by rw [hq]; rfl) (by rw [hq]; rfl)
    · exact absurd hends hkept

/-- A writer queues nothing. -/
theorem added_writer (ho : Happens s (.move (.writer r)) s')
    (hkept : ¬(⟨s, .move (.writer r), s'⟩ : Moment).EndsRun) :
    s.queue.added s'.queue = [] := by
  obtain ⟨hm⟩ := ho
  rw [moves] at hm
  split at hm
  · next run hr =>
    rcases taken_of_writer hr hm hkept with ⟨frame, hp, _⟩ | ⟨hq, _⟩
    · exact (SendQueue.sheds_of_tryPop hp).added
    · dsimp only at hq
      rw [hq, SendQueue.added_self]
  · simp at hm

/-- What is sent once more expects an answer. -/
theorem key_of_requeued (hv : History (fresh config link) before s)
    {e : Priority × OutboundFrame} (he : e ∈ s.requeued) : e.2.key?.isSome = true := by
  obtain ⟨frame, priority, hid, hacc⟩ := accounted_of_history hv e.2.id
  have hmine : e ∈ framesOf frame.id s.requeued :=
    List.mem_filter.mpr ⟨he, decide_eq_true hid.symm⟩
  rcases hacc.requeued (tableOk_of_history hv) with ⟨hnil, _⟩ | ⟨hone, req, hf, hover, _⟩
  · rw [hnil] at hmine
    cases hmine
  · rw [hone] at hmine
    obtain rfl := List.mem_singleton.mp hmine
    exact ((hacc.registered req hf).of_overdue hover).1

/-- A scanner queues frames that expect an answer, and no others. -/
theorem key_of_scanner (hv : History (fresh config link) before s)
    (ho : Happens s (.move (.scanner r)) s') :
    ∀ e ∈ s.queue.added s'.queue, e.2.key?.isSome = true := by
  have hqueue : s'.queue = s.queue ∨ s'.queue = s.scan.queue := by
    obtain ⟨hm⟩ := ho
    rw [moves] at hm
    split at hm
    · rw [scannerMoves] at hm
      split at hm
      · rcases List.mem_append.mp hm with hm | hm
        · split at hm
          · cases List.mem_singleton.mp hm
            exact Or.inl rfl
          · simp at hm
        · split at hm
          · cases List.mem_singleton.mp hm
            exact Or.inr rfl
          · simp at hm
      · simp at hm
    · simp at hm
  intro e he
  rcases hqueue with hq | hq
  · rw [hq, SendQueue.added_self] at he
    cases he
  · rw [hq] at he
    obtain ⟨items, hperm, _, hitems⟩ := s.ahead_scan
    rcases hitems with rfl | ⟨_, rfl⟩
    · exact key_of_requeued hv (hperm.mem_iff.mpr he)
    · exact absurd (hperm.mem_iff.mpr he) List.not_mem_nil

/-! ### Who acknowledges, and what -/

/-- The frame of an acknowledgement has no key. -/
theorem key?_eq_none {frame : OutboundFrame} (h : frame.envelope.message = .handshake .data) :
    frame.key? = none := by
  rw [OutboundFrame.key?, h]
  exact ite_self none

/-- **Who queues an acknowledgement, and which one**: as long as the run goes on and its queue
is open, the reader that hears a packet queues one, with the next number, and nobody else
does. -/
theorem acks_of_happens (hv : History (fresh config link) before s) (ho : Happens s o s')
    (hkept : ¬(⟨s, o, s'⟩ : Moment).EndsRun) (hack : s.config.acknowledgeData = true)
    (hopen : ∀ r run, s.runs.find? r = some run → run.hasExited = false →
      s.queue.closed = false) :
    let m : Moment := ⟨s, o, s'⟩
    (m.packets = [] ∧ m.acks = []) ∨
      ∃ e frame, m.packets = [e] ∧ m.acks = [(.high, frame)] ∧ frame.envelope = s.ackFor e ∧
        frame.id = s.requestIds.given + 1 ∧ frame.id ≤ s'.requestIds.given := by
  intro m
  have deaf : s.packetHeard? o = none → m.packets = [] := fun h => by
    rw [Moment.packets, h]
    rfl
  have silent : (∀ e ∈ s.queue.added s'.queue, e.2.envelope.message ≠ .handshake .data) →
      m.acks = [] := fun h => by
    rw [Moment.acks, List.filter_eq_nil_iff.mpr fun e he => by simpa using h e he, ite_self]
  have nothing : s.queue.added s'.queue = [] → m.acks = [] := fun h => silent fun e he => by
    rw [h] at he
    cases he
  cases o with
  | input i => exact Or.inl ⟨deaf rfl, rfl⟩
  | move t =>
    cases t with
    | caller i => exact Or.inl ⟨deaf rfl, rfl⟩
    | control i => exact Or.inl ⟨deaf rfl, nothing (added_control ho hkept)⟩
    | writer r => exact Or.inl ⟨deaf rfl, nothing (added_writer ho hkept)⟩
    | scanner r =>
      refine Or.inl ⟨deaf rfl, silent fun e he hmessage => ?_⟩
      have hkey := key_of_scanner hv ho e he
      rw [key?_eq_none hmessage] at hkey
      cases hkey
    | reader r =>
      rcases queuesAck_reader ho hkept hack (hopen r) with ⟨hnone, hext⟩ | ⟨e, bytes, hheard, hext⟩
      · exact Or.inl ⟨deaf hnone, nothing (List.perm_nil.mp hext.added_perm)⟩
      · have hadded := List.perm_singleton.mp hext.added_perm
        refine Or.inr ⟨e, ⟨s.requestIds.given + 1, s.ackFor e, bytes⟩,
          by rw [Moment.packets, hheard]; rfl, ?_, rfl, rfl, ?_⟩
        · show m.queued.filter _ = _
          rw [Moment.queued, hadded]
          rfl
        · -- whatever is queued has a number that was given out
          refine known_of_history (hv.cons ho) _ (Or.inl ?_)
          rw [hext.toList_perm.mem_iff]
          exact List.mem_cons_self

/-- That is so at every moment, as long as nobody ends the run. -/
theorem acks_of_calm (hv : History (fresh config link) before v) (hvacant : v.Vacant)
    (hack : config.acknowledgeData = true) (h : History v later s) (ho : Happens s o s')
    (hcalm : Calm ((s, o) :: later) s') :
    let m : Moment := ⟨s, o, s'⟩
    (m.packets = [] ∧ m.acks = []) ∨
      ∃ e frame, m.packets = [e] ∧ m.acks = [(.high, frame)] ∧ frame.envelope = s.ackFor e ∧
        frame.id = s.requestIds.given + 1 ∧ frame.id ≤ s'.requestIds.given := by
  have hs := hv.trans h
  have hsolo := solo_of_history hv hvacant h hcalm.tail
  have hfault := hcalm.noFault s (List.mem_cons_of_mem _ List.mem_cons_self)
  refine acks_of_happens hs ho (hsolo.not_endsRun hs ho hfault) ?_
    fun r run hr hx => (hsolo.eq_of_run hr hx).2.2
  rw [config_of_history hs]
  exact hack

/-- **One for each packet**: what the session queues itself are acknowledgements of the packets
that are heard, one for each and in their order, all of them urgent, with numbers of which
each is greater than those before. -/
theorem acked_of_history (hv : History (fresh config link) before v) (hvacant : v.Vacant)
    (hack : config.acknowledgeData = true) (h : History v later s) (hcalm : Calm later s) :
    let own := gather Moment.acks (moments later s)
    own.map (fun e => (e.1, e.2.envelope)) =
        (gather Moment.packets (moments later s)).map (fun e => (.high, s.ackFor e)) ∧
      own.Pairwise (fun e e' => e.2.id < e'.2.id) ∧
      ∀ e ∈ own, v.requestIds.given < e.2.id ∧ e.2.id ≤ s.requestIds.given := by
  induction h with
  | nil => exact ⟨rfl, .nil, fun _ he => by cases he⟩
  | @cons w s later o h ho ih =>
    obtain ⟨hmap, hids, hrange⟩ := ih hcalm.tail
    have hfor : s.ackFor = w.ackFor := by
      funext e
      rw [ackFor, ackFor, config_happens ho]
    have hgrows := (keepsBooks_happens ho).2.1
    intro own
    have hold : own = gather Moment.acks (moments later w) ++ (⟨w, o, s⟩ : Moment).acks := rfl
    rw [hold, moments, gather, List.map_append, List.map_append, hfor, hmap]
    rcases acks_of_calm hv hvacant hack h ho hcalm with
      ⟨hpackets, hacks⟩ | ⟨e, frame, hpackets, hacks, hframe, hid, hle⟩
    · rw [hpackets, hacks, List.append_nil]
      exact ⟨rfl, hids, fun e he => ⟨(hrange e he).1, Nat.le_trans (hrange e he).2 hgrows⟩⟩
    · rw [hpackets, hacks]
      refine ⟨by simp [hframe], ?_, fun e' he => ?_⟩
      · refine List.pairwise_append.mpr ⟨hids, List.pairwise_singleton _ _, fun e' he f hf => ?_⟩
        obtain rfl := List.mem_singleton.mp hf
        rw [hid]
        exact Nat.lt_succ_of_le (hrange e' he).2
      · rcases List.mem_append.mp he with he | he
        · exact ⟨(hrange e' he).1, Nat.le_trans (hrange e' he).2 hgrows⟩
        · obtain rfl := List.mem_singleton.mp he
          rw [hid] at hle ⊢
          exact ⟨Nat.lt_succ_of_le (History.keepsBooks h).2.1, hle⟩

end Session

end ZoneBus
