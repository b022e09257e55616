import ZoneBus.Proofs.Session.ReplySources

/-!
# What one message ends

A message that a reader takes may end a request with a reply, and a packet is acknowledged
before: when the queue is closed, the request for that acknowledgement ends at once.  But
then nothing else is registered, so nothing is left that a reply could end.

## Main definitions

* `Session.Drained` — whatever is registered, the queue is open.
* `Session.Taken` — a message for this session comes out of the decoder.

## Main results

* `Session.drained_of_history` — nothing is registered while the queue is closed.
* `Session.handle_cases` — what is done with what came out of the decoder.
* `Session.reply_of_handle` — which request ends with a reply, and by which message.
* `Session.told_of_handle` — **what is taken ends one request at most.**
-/

namespace ZoneBus

namespace Session

variable {s s' : Session}

/-! ### Nothing is registered while the queue is closed -/

/-- Whatever is registered, the queue is open. -/
def Drained (s : Session) : Prop :=
  ∀ id r, s.pending.requests.find? id = some r → s.queue.closed = false

theorem Drained.of_sub (h : s.Drained) (hq : s'.queue.closed = s.queue.closed)
    (hsub : ∀ id r, s'.pending.requests.find? id = some r →
      ∃ r', s.pending.requests.find? id = some r') : s'.Drained := by
  intro id r hf
  obtain ⟨r', hf'⟩ := hsub id r hf
  exact hq.trans (h id r' hf')

theorem Drained.of_eq (h : s.Drained) (hq : s'.queue.closed = s.queue.closed)
    (hp : s'.pending = s.pending) : s'.Drained := by
  refine h.of_sub hq fun id r hf => ⟨r, ?_⟩
  rwa [hp] at hf

theorem Drained.withdraw (h : s.Drained) (id : RequestId) (error : SessionError) :
    (s.withdraw id error).2.Drained :=
  h.of_sub rfl fun _ r hf => ⟨r, (find?_of_cancel hf).2⟩

/-- What is found after a message was to go out was found before, or is its request. -/
theorem find?_of_enqueue {target : Address} {message : Message} {priority : Priority}
    {id : RequestId} {r : PendingRequest}
    (hf : (s.enqueue target message priority).2.pending.requests.find? id = some r) :
    s.pending.requests.find? id = some r ∨
      s.queue.closed = false ∧ id = s.requestIds.given + 1 ∧
        ∃ bytes, r = s.newRequest target message priority bytes := by
  have hinsert : ∀ {bytes}, (s.registered (s.newRequest target message priority
      bytes)).pending.requests.find? id = some r →
      (s.requestIds.given + 1 = id ∧ r = s.newRequest target message priority bytes) ∨
        s.requestIds.given + 1 ≠ id ∧ s.pending.requests.find? id = some r := by
    intro bytes hf
    change (s.pending.requests.put (s.requestIds.given + 1) _).find? id = some r at hf
    rw [Directory.find?_put] at hf
    split at hf
    · next he => exact Or.inl ⟨he, (Option.some.inj hf).symm⟩
    · next hne => exact Or.inr ⟨hne, hf⟩
  rcases s.enqueue_cases target message priority with
    ⟨e, he⟩ | ⟨bytes, _, ⟨queue, hpush, he⟩ | ⟨_, he⟩⟩
  · rw [he] at hf
    exact Or.inl hf
  · rw [he] at hf
    rcases hinsert hf with ⟨hid, hr⟩ | ⟨_, hf⟩
    · refine Or.inr ⟨?_, hid.symm, bytes, hr⟩
      cases hc : s.queue.closed with
      | false => rfl
      | true =>
        rw [SendQueue.push_eq_none_iff.mpr hc] at hpush
        cases hpush
    · exact Or.inl hf
  · rw [he] at hf
    -- the request has ended already
    obtain ⟨hne, hf⟩ := find?_of_cancel hf
    rcases hinsert hf with ⟨hid, _⟩ | ⟨_, hf⟩
    · exact absurd hid hne
    · exact Or.inl hf

theorem closed_enqueue (s : Session) (target : Address) (message : Message)
    (priority : Priority) :
    (s.enqueue target message priority).2.queue.closed = s.queue.closed := by
  rcases s.enqueue_cases target message priority with
    ⟨e, he⟩ | ⟨bytes, _, ⟨queue, hpush, he⟩ | ⟨_, he⟩⟩
  · rw [he]
  · rw [he]
    exact (SendQueue.push_spec hpush).2
  · rw [he]
    rfl

theorem Drained.enqueue (h : s.Drained) (target : Address) (message : Message)
    (priority : Priority) : (s.enqueue target message priority).2.Drained := by
  intro id r hf
  rw [closed_enqueue]
  rcases find?_of_enqueue hf with hf | ⟨hopen, _⟩
  · exact h id r hf
  · exact hopen

theorem Drained.scan (h : s.Drained) (hl : s.Ledger) : s.scan.Drained := by
  intro id r hf
  cases hc : s.queue.closed with
  | false => exact (scan_of_open hc).2.2.1
  | true =>
    obtain ⟨_, hleft, _⟩ := scan_of_closed hc
    obtain ⟨hf, _⟩ := hleft id r hf
    rw [PendingTable.find?_expire hl.keys_nodup, Option.bind_eq_some_iff] at hf
    obtain ⟨r', hf, _⟩ := hf
    rw [h id r' hf] at hc
    cases hc

theorem drained_works (hl : s.Ledger) (h : s.Drained) (hw : Works s s') : s'.Drained := by
  cases hw with
  | minor hw =>
    cases hw with
    | aside => exact h.of_eq rfl rfl
    | skips => exact h.of_eq rfl rfl
    | reads => exact h.of_eq rfl rfl
    | queues => exact h.of_eq rfl rfl
    | enqueues target message priority _ => exact h.enqueue target message priority
    | withdraws id => exact h.withdraw id .cancelled
    | resolves key reply _ => exact h.of_sub rfl fun _ r hf => ⟨r, find?_of_resolve hf⟩
  | writer hw =>
    cases hw with
    | pops _ _ hp => exact h.of_eq (SendQueue.toList_of_tryPop hp).2 rfl
    | sends => exact h.of_eq rfl rfl
    | drops => exact h.of_eq rfl rfl
    | writes => exact h.of_eq rfl rfl
    | breaks => exact h.of_eq rfl rfl
    | leaves => exact h.of_eq rfl rfl
  | scans => exact h.scan hl

theorem drained_worked (hl : s.Ledger) (h : s.Drained) (hw : Worked s s') : s'.Drained := by
  induction hw with
  | refl => exact h
  | tail hv hw ih => exact drained_works ((keepsBooks_worked hv).1 hl) ih hw

/-- Taking a run away leaves nothing registered. -/
theorem drained_takenDown (s : Session) (t : TaskId) (r : RunId) (error : SessionError) :
    (s.takenDown t r error).Drained := by
  intro id r' hf
  rw [takenDown_eq] at hf
  cases hf

theorem drained_governs {o : Occurrence} (h : s.Drained) (hg : Governs s o s') : s'.Drained := by
  cases hg with
  | asksStart => exact h.of_eq rfl rfl
  | asksStop => exact h.of_eq rfl rfl
  | refuses => exact h.of_eq rfl rfl
  | startBegins => rw [enter_fst]; exact h.of_eq rfl rfl
  | startFails => rw [enter_fst]; exact h.of_eq rfl rfl
  | spawns => exact fun _ _ _ => rfl
  | startEnds => rw [enter_fst]; exact h.of_eq rfl rfl
  | @stopBegins i r => exact (drained_takenDown s (.control i) r .cancelled).of_eq rfl rfl
  | stopJoins => exact h.of_eq rfl rfl
  | stopEnds => rw [enter_fst]; exact h.of_eq rfl rfl
  | @faultBegins t cause r =>
    obtain ⟨runs, hput⟩ := putTeardown_eq (s.takenDown t r (.connection cause)) t
      (.closing s.link.nextCall)
    rw [hput]
    exact (drained_takenDown s t r (.connection cause)).of_eq rfl rfl
  | @faultLate t =>
    obtain ⟨runs, hexit⟩ := exitTask_eq (s.releaseLifecycle t) t
    rw [hexit]
    exact h.of_eq rfl rfl
  | @faultEnds t =>
    obtain ⟨runs, hexit⟩ := exitTask_eq (s.enter .stopped).1 t
    rw [hexit, enter_fst]
    exact h.of_eq rfl rfl

theorem drained_happens {o : Occurrence} (hl : s.Ledger) (h : s.Drained) (ho : Happens s o s') :
    s'.Drained := by
  rcases happens_cases ho with ⟨r, run, frame, _, _, _, rfl⟩ | ⟨_, hw | ⟨link, _, hg⟩⟩
  · refine h.of_sub rfl fun id r' hf => ?_
    obtain ⟨r₀, hf, _⟩ := find?_markWritten hf
    exact ⟨r₀, hf⟩
  · exact drained_worked hl h hw
  · exact drained_governs (s := { s with link := link }) (h.of_eq rfl rfl) hg

/-- **Nothing is registered while the queue is closed.** -/
theorem drained_of_history {config : SessionConfig} {link : Link}
    {past : List (Session × Occurrence)} (h : History (fresh config link) past s) : s.Drained := by
  induction h with
  | nil => exact fun _ _ _ => rfl
  | cons h ho ih => exact drained_happens (ledger_of_history h) ih ho

/-! ### A reply -/

/-- A reply ends one request, which waited for it, or none. -/
theorem settled_resolve {t : PendingTable} (ht : TableOk t) (key : ReplyKey) (reply : Reply) :
    (t.resolve key reply).2.1 = [] ∨
      ∃ id r, (t.resolve key reply).2.1 = [⟨id, .outcome (.success reply)⟩] ∧
        t.requests.find? id = some r ∧ r.key = some key := by
  cases hline : t.line key with
  | nil => exact Or.inl (PendingTable.resolve_of_empty hline reply).1
  | cons id rest =>
    obtain ⟨r, hr, hkey⟩ := ht.lined.registered key id (by rw [hline]; exact List.mem_cons_self)
    exact Or.inr ⟨id, r, by rw [PendingTable.resolve_of_front ht.lined hline], hr, hkey⟩

/-- Who ends with a reply waited for it. -/
theorem reply_of_resolve (ht : TableOk s.pending) {key : ReplyKey} {reply reply' : Reply}
    {id : RequestId} (hm : (id, .success reply') ∈ (s.resolve key reply).delivered)
    (hnot : (id, .success reply') ∉ s.delivered) :
    reply' = reply ∧ ∃ r, s.pending.requests.find? id = some r ∧ r.key = some key := by
  have hm : (id, .success reply') ∈ s.delivered ++ outcomesOf (s.pending.resolve key reply).2.1 :=
    hm
  have hm := (List.mem_append.mp hm).resolve_left hnot
  rcases settled_resolve ht key reply with hnone | ⟨j, r, hone, hr, hkey⟩
  · rw [hnone] at hm
    cases hm
  · rw [hone, outcomesOf_single, List.mem_singleton] at hm
    obtain ⟨rfl, he⟩ := Prod.mk.inj hm
    exact ⟨Outcome.success.inj he, r, hr, hkey⟩

/-! ### A packet is acknowledged -/

theorem acknowledge_eq (s : Session) (source : Address) :
    s.acknowledge source = s ∨
      s.acknowledge source = (s.enqueue source (.handshake .data) .high).2 := by
  unfold acknowledge
  split
  · exact Or.inr rfl
  · exact Or.inl rfl

theorem trafficOnly_acknowledge (s : Session) (source : Address) :
    s.TrafficOnly (s.acknowledge source) := by
  rcases s.acknowledge_eq source with he | he
  · rw [he]
    exact .refl s
  · rw [he]
    exact s.trafficOnly_enqueue _ _ _

theorem tableOk_acknowledge (hl : s.Ledger) (ht : TableOk s.pending) (source : Address) :
    TableOk (s.acknowledge source).pending := by
  rcases s.acknowledge_eq source with he | he
  · rw [he]
    exact ht
  · rw [he]
    exact tableOk_posted (b := s.books) ht (posted_enqueue hl _ _ _)

/-- Nothing waits for an answer to an acknowledgement. -/
theorem find?_of_acknowledge {source : Address} {id : RequestId} {r : PendingRequest}
    {key : ReplyKey} (hf : (s.acknowledge source).pending.requests.find? id = some r)
    (hkey : r.key = some key) : s.pending.requests.find? id = some r := by
  rcases s.acknowledge_eq source with he | he
  · rwa [he] at hf
  · rw [he] at hf
    rcases find?_of_enqueue hf with hf | ⟨_, _, bytes, rfl⟩
    · exact hf
    · have hnone : ReplyKey.ofRequest? source (.handshake .data) = none := by
        unfold ReplyKey.ofRequest?
        split <;> rfl
      have hkey : ReplyKey.ofRequest? source (.handshake .data) = some key := hkey
      rw [hnone] at hkey
      cases hkey

/-- When the request for the acknowledgement ends at once, no other is registered. -/
theorem told_of_acknowledge (h : s.Drained) (source : Address) :
    (s.acknowledge source).delivered = s.delivered ∨
      (∃ e, (s.acknowledge source).delivered = s.delivered ++ [e]) ∧
        ∀ id, (s.acknowledge source).pending.requests.find? id = none := by
  rcases s.acknowledge_eq source with he | he
  · exact Or.inl (by rw [he])
  · rw [he]
    have hdrained := h.enqueue source (.handshake .data) .high
    have hclosed := s.closed_enqueue source (.handshake .data) .high
    rcases s.enqueue_cases source (.handshake .data) .high with
      ⟨e, he⟩ | ⟨bytes, _, ⟨queue, _, he⟩ | ⟨hpush, he⟩⟩
    · exact Or.inl (by rw [he])
    · refine Or.inl ?_
      rw [he]
      exact delivered_registered s _
    · rw [SendQueue.push_eq_none_iff] at hpush
      have hnone : ∀ id, (s.enqueue source (.handshake .data) .high).2.pending.requests.find? id =
          none := by
        intro id
        cases hf : (s.enqueue source (.handshake .data) .high).2.pending.requests.find? id with
        | none => rfl
        | some r =>
          have hopen := hdrained id r hf
          rw [hclosed, hpush] at hopen
          cases hopen
      generalize s.newRequest source (.handshake .data) .high bytes = request at he
      rw [he] at hnone ⊢
      have hdel :
          ((s.registered request).withdraw (s.requestIds.given + 1) .cancelled).2.delivered =
            s.delivered ++ outcomesOf
              ((s.registered request).pending.cancel (s.requestIds.given + 1) .cancelled).2.1 := by
        rw [← delivered_registered s request]
        rfl
      rw [PendingTable.cancel] at hdel
      split at hdel
      · exact Or.inl (by rw [hdel]; exact List.append_nil _)
      · exact Or.inr ⟨⟨_, hdel⟩, hnone⟩

/-! ### What one message ends -/

/-- What a packet does, after it was acknowledged: it is stored, and when it completes a value,
that ends a request. -/
theorem acceptPacket_cases (s : Session) (source : Address) (p : Packet) :
    (∃ buffers, (s.acceptPacket source p).1 = { s.acknowledge source with buffers := buffers }) ∨
      ∃ value buffers,
        s.buffers.writePacket s.now source p.valuePath p.number p.count p.data =
          (.ok (some value), buffers) ∧
        (s.acceptPacket source p).1 =
          ({ s.acknowledge source with buffers := buffers } : Session).resolve
            (.data source p.valuePath) (.data value) := by
  obtain ⟨_, _, _, _, hack⟩ := s.trafficOnly_acknowledge source
  have hbuffers : (s.acknowledge source).buffers = s.buffers := by rw [hack]
  have hnow : (s.acknowledge source).now = s.now := by rw [hack]
  rw [acceptPacket]
  dsimp only
  rw [hbuffers, hnow]
  split
  · next buffers _ => exact Or.inl ⟨buffers, rfl⟩
  · next completed buffers hw =>
    cases completed with
    | none => exact Or.inl ⟨buffers, rfl⟩
    | some value => exact Or.inr ⟨value, buffers, hw, rfl⟩

/-- The message in what came out of the decoder, when it is for this session or for
everybody. -/
def Taken (s : Session) (result : FrameResult) (e : Envelope) : Prop :=
  ∃ frame, result = .ok frame ∧ Envelope.ofFrame frame = .ok e ∧ s.isFor e = true

/-- What is taken is a handshake that may end a request, or a packet, or nothing is done. -/
theorem handle_cases (s : Session) (result : FrameResult) :
    (s.handle result).1 = s ∨
    (∃ e kind, s.Taken result e ∧ e.message = .handshake kind ∧ kind ≠ .data ∧
      (s.handle result).1 = s.resolve (.handshake e.source) (.ack kind)) ∨
    ∃ e packet, s.Taken result e ∧ e.message = .setData packet ∧
      (s.handle result).1 = (s.acceptPacket e.source packet).1 := by
  unfold handle
  split
  · exact Or.inl rfl
  · next frame =>
    split
    · exact Or.inl rfl
    · next e he =>
      rw [dispatch]
      split
      · next hfor =>
        split
        · next kind hkind =>
          rw [ReplyKey.ofHandshake?]
          split
          · exact Or.inl rfl
          · next key hkey =>
            split at hkey
            · cases hkey
            · next hdata =>
              obtain rfl := Option.some.inj hkey
              exact Or.inr (Or.inl ⟨e, kind, ⟨frame, rfl, he, hfor⟩, hkind, hdata, rfl⟩)
        · next packet hpacket =>
          exact Or.inr (Or.inr ⟨e, packet, ⟨frame, rfl, he, hfor⟩, hpacket, rfl⟩)
        · exact Or.inl rfl
      · exact Or.inl rfl

/-- Handling what was read touches requests, frames and values. -/
theorem trafficOnly_handle (s : Session) (result : FrameResult) :
    ∃ v buffers, s.TrafficOnly v ∧
      Session.TrafficOnly { v with buffers := buffers } (s.handle result).1 := by
  rcases s.handle_cases result with he | ⟨e, kind, _, _, _, he⟩ | ⟨e, packet, _, _, he⟩
  · rw [he]
    exact ⟨s, s.buffers, .refl s, .refl s⟩
  · rw [he]
    exact ⟨s, s.buffers, .refl s, s.trafficOnly_resolve _ _⟩
  · have hack := s.trafficOnly_acknowledge e.source
    rw [he]
    rcases s.acceptPacket_cases e.source packet with ⟨buffers, he⟩ | ⟨value, buffers, _, he⟩
    · rw [he]
      exact ⟨_, buffers, hack, .refl _⟩
    · rw [he]
      exact ⟨_, buffers, hack, trafficOnly_resolve _ _ _⟩

theorem mute_acknowledge (s : Session) (source : Address) : Mute s (s.acknowledge source) := by
  rcases s.acknowledge_eq source with he | he
  · rw [he]
    exact .refl s
  · rw [he]
    exact mute_enqueue s _ _ _

/-- **Which request ends with a reply, and by which message**: a handshake for this session
or for everybody that does not acknowledge data, and the request waits for one of its
sender; or a packet that completes a value, and the request waits for that value. -/
theorem reply_of_handle (hl : s.Ledger) (ht : TableOk s.pending) {result : FrameResult}
    {id : RequestId} {reply : Reply} (hm : (id, .success reply) ∈ (s.handle result).1.delivered)
    (hnot : (id, .success reply) ∉ s.delivered) :
    ∃ e r, s.Taken result e ∧ s.pending.requests.find? id = some r ∧
      ((∃ kind, e.message = .handshake kind ∧ kind ≠ .data ∧ reply = .ack kind ∧
          r.key = some (.handshake e.source)) ∨
        ∃ packet value, e.message = .setData packet ∧
          s.buffers.writePacket s.now e.source packet.valuePath packet.number packet.count
            packet.data = (.ok (some value), (s.handle result).1.buffers) ∧
          reply = .data value ∧ r.key = some (.data e.source packet.valuePath)) := by
  rcases s.handle_cases result with
    hs | ⟨e, kind, htaken, hkind, hdata, hs⟩ | ⟨e, packet, htaken, hpacket, hs⟩
  · rw [hs] at hm
    exact absurd hm hnot
  · rw [hs] at hm
    obtain ⟨rfl, r, hr, hkey⟩ := reply_of_resolve ht hm hnot
    exact ⟨e, r, htaken, hr, Or.inl ⟨kind, hkind, hdata, rfl, hkey⟩⟩
  · rw [hs] at hm ⊢
    have hnot' : (id, .success reply) ∉ (s.acknowledge e.source).delivered :=
      fun h => hnot (s.mute_acknowledge e.source id reply h)
    rcases s.acceptPacket_cases e.source packet with ⟨buffers, hs⟩ | ⟨value, buffers, hw, hs⟩
    · rw [hs] at hm
      exact absurd hm hnot'
    · rw [hs] at hm ⊢
      obtain ⟨rfl, r, hr, hkey⟩ := reply_of_resolve
        (s := { s.acknowledge e.source with buffers := buffers })
        (tableOk_acknowledge hl ht e.source) hm hnot'
      exact ⟨e, r, htaken, find?_of_acknowledge hr hkey,
        Or.inr ⟨packet, value, hpacket, hw, rfl, hkey⟩⟩

/-- An answer ends one request at most. -/
theorem told_of_resolve (ht : TableOk s.pending) (key : ReplyKey) (reply : Reply) :
    ∃ told, (s.resolve key reply).delivered = s.delivered ++ told ∧ told.length ≤ 1 := by
  refine ⟨outcomesOf (s.pending.resolve key reply).2.1, rfl, ?_⟩
  rcases settled_resolve ht key reply with hnone | ⟨id, r, hone, _⟩
  · rw [hnone]
    exact Nat.zero_le _
  · rw [hone]
    exact Nat.le_refl _

/-- A packet ends one request at most: the one for its acknowledgement, when the queue is
closed, or the one that asks for the value. -/
theorem told_of_acceptPacket (hl : s.Ledger) (ht : TableOk s.pending) (h : s.Drained)
    (source : Address) (p : Packet) :
    ∃ told, (s.acceptPacket source p).1.delivered = s.delivered ++ told ∧ told.length ≤ 1 := by
  have hack : ∃ told, (s.acknowledge source).delivered = s.delivered ++ told ∧
      told.length ≤ 1 := by
    rcases told_of_acknowledge h source with hdel | ⟨⟨e, hdel⟩, _⟩
    · exact ⟨[], by rw [hdel, List.append_nil], Nat.zero_le _⟩
    · exact ⟨[e], hdel, Nat.le_refl _⟩
  rcases s.acceptPacket_cases source p with ⟨buffers, hs⟩ | ⟨value, buffers, _, hs⟩
  · rw [hs]
    exact hack
  · rw [hs]
    have ht' := tableOk_acknowledge hl ht source
    rcases told_of_acknowledge h source with hdel | ⟨_, hempty⟩
    · obtain ⟨told, htold, hle⟩ := told_of_resolve
        (s := { s.acknowledge source with buffers := buffers }) ht' (.data source p.valuePath)
        (.data value)
      exact ⟨told, by rw [htold, ← hdel], hle⟩
    · -- nobody is left for the value to end
      rcases settled_resolve ht' (.data source p.valuePath) (.data value) with
        hnone | ⟨id, r, _, hr, _⟩
      · obtain ⟨told, hdel, hle⟩ := hack
        refine ⟨told, ?_, hle⟩
        show (s.acknowledge source).delivered ++ outcomesOf
          ((s.acknowledge source).pending.resolve (.data source p.valuePath) (.data value)).2.1 = _
        rw [hnone, hdel]
        exact List.append_nil _
      · rw [hempty] at hr
        cases hr

/-- **What is taken ends one request at most.** -/
theorem told_of_handle (hl : s.Ledger) (ht : TableOk s.pending) (h : s.Drained)
    (result : FrameResult) :
    ∃ told, (s.handle result).1.delivered = s.delivered ++ told ∧ told.length ≤ 1 := by
  rcases s.handle_cases result with
    hs | ⟨e, kind, _, _, _, hs⟩ | ⟨e, packet, _, _, hs⟩
  · exact ⟨[], by rw [hs, List.append_nil], Nat.zero_le _⟩
  · rw [hs]
    exact told_of_resolve ht _ _
  · rw [hs]
    exact told_of_acceptPacket hl ht h e.source packet

end Session

end ZoneBus
