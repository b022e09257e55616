import ZoneBus.Proofs.Session.Answers
import ZoneBus.Proofs.Session.Inbound
import ZoneBus.Proofs.Session.Outcomes
import ZoneBus.Proofs.Session.Written

/-!
# Every reply is due

Frames carry no numbers, so a session has to guess which request an answer belongs to.  It
never guesses outside of what the answer can mean: whoever is told of a reply had asked
for it, and what he asked is answered by what came, from the device that he asked.  The
guess goes through the table, whose keys are made of a request when it is registered and
of an answer when it comes; what was registered under a number keeps its frame, so the
message of the frame is still the one that was sent.

## Main definitions

* `Session.Moment.Sends` — a message is sent for a caller.
* `Session.Moment.Hears` — a message for this session is taken.
* `Session.Warrant` — what entitles a request to a reply.

## Main results

* `Session.envelope_of_sends` — the message registered under a number is the one that was
  sent under it.
* `Session.warrant_of_happens` — what happens when a request ends with a reply.
* `Session.replies_are_due` — **every reply is due, and what is taken ends one request at
  most.**
-/

namespace ZoneBus

namespace ReplyKey

/-- Handshakes answer events. -/
theorem event_of_ofRequest? {target peer : Address} {message : Message}
    (h : ofRequest? target message = some (.handshake peer)) :
    target = peer ∧ peer.isBroadcast = false ∧ ∃ event, message = .event event := by
  unfold ofRequest? at h
  split at h
  · cases h
  · next hsingle =>
    split at h
    · obtain rfl := handshake.inj (Option.some.inj h)
      exact ⟨rfl, Bool.eq_false_iff.mpr hsingle, _, rfl⟩
    · cases h
    · cases h

/-- Values answer requests for them. -/
theorem requestData_of_ofRequest? {target peer : Address} {message : Message} {path : Path}
    (h : ofRequest? target message = some (.data peer path)) :
    target = peer ∧ peer.isBroadcast = false ∧
      ∃ query : DataRequest, message = .requestData query ∧ query.targetPath = path := by
  unfold ofRequest? at h
  split at h
  · cases h
  · next hsingle =>
    split at h
    · cases h
    · obtain ⟨rfl, rfl⟩ := data.inj (Option.some.inj h)
      exact ⟨rfl, Bool.eq_false_iff.mpr hsingle, _, rfl, rfl⟩
    · cases h

end ReplyKey

namespace Session

/-- A message is sent for a caller, and gets a number. -/
def Moment.Sends (m : Moment) (target : Address) (message : Message) (id : RequestId) : Prop :=
  ∃ priority callers, (m.before.send target message priority).1 = .ok id ∧
    m.after = { (m.before.send target message priority).2 with callers := callers }

/-- A message is taken that is addressed to this session or to everybody. -/
def Moment.Hears (m : Moment) (e : Envelope) : Prop :=
  m.before.heard? m.what = some e ∧
    (e.target = m.before.config.localAddress ∨ e.target.isBroadcast = true)

/-- What entitles a request to a reply, at a moment with others before it. -/
inductive Warrant (earlier : List Moment) (m : Moment) (request : PendingRequest) :
    Reply → Prop where
  /-- It is an event, and its target, which is one device, sent a handshake that does not
  acknowledge data. -/
  | ack {e : Envelope} {kind : HandshakeKind} {event : Event} :
      m.Hears e → e.message = .handshake kind → kind ≠ .data →
      request.frame.envelope.message = .event event →
      request.frame.envelope.target = e.source → e.source.isBroadcast = false →
      Warrant earlier m request (.ack kind)
  /-- It asks for the value at a path, and its target, which is one device, sent the packet
  that completed the value at that path. -/
  | data {e : Envelope} {packet : Packet} {value : Bytes} {query : DataRequest} :
      m.Hears e → e.message = .setData packet →
      m.before.buffers.writePacket m.before.now e.source packet.valuePath packet.number
        packet.count packet.data = (.ok (some value), m.after.buffers) →
      request.frame.envelope.message = .requestData query →
      query.targetPath = packet.valuePath →
      request.frame.envelope.target = e.source → e.source.isBroadcast = false →
      Warrant earlier m request (.data value)
  /-- No answer belongs to it, and its frame was written. -/
  | sent : request.key = none → WrittenOut earlier request.frame →
      Warrant earlier m request .sent

variable {config : SessionConfig} {link : Link} {s s' : Session}
  {past : List (Session × Occurrence)}

/-! ### The message under a number -/

/-- What was ever registered under a number has one frame. -/
theorem frame_of_history (h : History (fresh config link) past s) {id : RequestId} {v : Session}
    (hv : v ∈ s :: past.map Prod.fst) {r r' : PendingRequest}
    (hr : s.pending.requests.find? id = some r) (hr' : v.pending.requests.find? id = some r') :
    r.frame = r'.frame := by
  obtain ⟨frame, priority, rfl, hacc⟩ := accounted_of_history h id
  obtain ⟨_, hframe⟩ := Prod.mk.inj (hacc.pushed _ (pushed_of_registered h hv hr').1)
  exact (hacc.registered r hr).sameFrame.trans hframe.symm

/-- What is found under the number of a message that was just sent is its request. -/
theorem envelope_of_send {target : Address} {message : Message} {priority : Priority}
    {id : RequestId} {r : PendingRequest} (hl : s.Ledger)
    (hok : (s.send target message priority).1 = .ok id)
    (hr : (s.send target message priority).2.pending.requests.find? id = some r) :
    r.frame.envelope = ⟨target, s.config.localAddress, message⟩ := by
  have hid := (send_ok hok).1
  unfold send at hr
  split at hr
  · rcases find?_of_enqueue hr with hr | ⟨_, _, bytes, rfl⟩
    · exact absurd (hl.le_of_find? hr).2 (by rw [hid]; exact Nat.not_succ_le_self _)
    · rfl
  · exact absurd (hl.le_of_find? hr).2 (by rw [hid]; exact Nat.not_succ_le_self _)

/-- **The message registered under a number is the one that was sent under it.** -/
theorem envelope_of_sends (h : History (fresh config link) past s) {b : Moment}
    (hb : b ∈ moments past s) {target : Address} {message : Message} {id : RequestId}
    (hsends : b.Sends target message id) {r : PendingRequest}
    (hr : s.pending.requests.find? id = some r) :
    r.frame.envelope = ⟨target, config.localAddress, message⟩ := by
  obtain ⟨later, earlier, he⟩ := List.append_of_mem hb
  obtain ⟨hb, past', past'', h', _, h''⟩ := h.exists_of_moments he
  obtain ⟨priority, callers, hok, hafter⟩ := hsends
  have hl := (keepsBooks_happens hb).1 (ledger_of_history h')
  have hconfig : b.before.config = config.sanitized := config_of_history h'
  cases hf : b.after.pending.requests.find? id with
  | some r' =>
    have hv : b.after ∈ s :: (past'' ++ (b.before, b.what) :: past').map Prod.fst := by
      rw [List.map_append, ← List.cons_append]
      exact List.mem_append_left _ h''.mem_start
    rw [frame_of_history ((History.cons h' hb).trans h'') hv hr hf]
    rw [hafter] at hf
    rw [envelope_of_send (ledger_of_history h') hok hf, hconfig]
    rfl
  | none =>
    -- the request ended at once, so it is not found later either
    obtain ⟨hid, hgiven⟩ := send_ok hok
    have hle : id ≤ b.after.requestIds.given := by
      rw [hafter, hid]
      exact Nat.le_of_eq hgiven.symm
    rcases hl.open_or_ended (by rw [hid]; exact Nat.le_add_left 1 _) hle with ho | ⟨outcome, he⟩
    · obtain ⟨r', hr'⟩ := mem_keys_of_open ho
      rw [hf] at hr'
      cases hr'
    · have hgone := (he.of_history hl h'').1
      rw [Bool.eq_false_iff] at hgone
      exact absurd (Directory.contains_iff_mem_keys.mpr (Directory.mem_keys_of_find? hr)) hgone

/-! ### What happens when a request ends with a reply -/

theorem Ledger.open_of_find? (h : s.Ledger) {id : RequestId} {r : PendingRequest}
    (hr : s.pending.requests.find? id = some r) : s.Open id := by
  have hmem := Directory.mem_keys_of_find? hr
  refine ⟨Directory.contains_iff_mem_keys.mpr hmem, outcomes_eq_nil fun hm => ?_⟩
  exact (List.nodup_append.mp h.nodup).2.2 id hmem id hm rfl

/-- Noting that a frame was written ends its request, when no answer belongs to it. -/
theorem reply_of_noteWritten {frame : OutboundFrame} {id : RequestId} {reply : Reply}
    (hm : (id, .success reply) ∈ (s.noteWritten frame).1.delivered)
    (hnot : (id, .success reply) ∉ s.delivered) :
    reply = .sent ∧ id = frame.id ∧
      ∃ r, s.pending.requests.find? frame.id = some r ∧ r.key = none := by
  have hm : (id, .success reply) ∈ s.delivered ++ outcomesOf
      (s.pending.markWritten frame.id s.now s.config.requestTimeout).2.1 := hm
  have hm := (List.mem_append.mp hm).resolve_left hnot
  rw [PendingTable.markWritten] at hm
  split at hm
  · cases hm
  · next r hr =>
    split at hm
    · cases hm
    · next hkey =>
      rw [outcomesOf_single, List.mem_singleton] at hm
      obtain ⟨rfl, he⟩ := Prod.mk.inj hm
      exact ⟨Outcome.success.inj he, rfl, r, hr, hkey⟩

/-- A writer writes the frame of the request that is registered under its number. -/
theorem frame_of_sending (h : History (fresh config link) past s) {frame : OutboundFrame}
    (hf : frame ∈ s.inFlight) {r : PendingRequest}
    (hr : s.pending.requests.find? frame.id = some r) : r.frame = frame := by
  obtain ⟨f, _, hid, hacc⟩ := accounted_of_history h frame.id
  have hsame := hacc.same frame (Or.inr hf) hid.symm
  rw [hsame]
  exact (hacc.registered r (by rw [hid]; exact hr)).sameFrame

/-- **What happens when a request ends with a reply.** -/
theorem warrant_of_happens {o : Occurrence} (h : History (fresh config link) past s)
    (ho : Happens s o s') {id : RequestId} {reply : Reply}
    (hm : (id, .success reply) ∈ s'.delivered) (hnot : (id, .success reply) ∉ s.delivered) :
    ∃ request, s.pending.requests.find? id = some request ∧
      Warrant (moments past s) ⟨s, o, s'⟩ request reply := by
  have hkeyed : ∀ {r}, s.pending.requests.find? id = some r → r.key = r.frame.key? :=
    fun hr => (pushed_of_registered h List.mem_cons_self hr).2
  rcases tells_of_happens ho with
    ⟨_, hmute⟩ | ⟨r, result, decoder, rfl, hin, rfl⟩ | ⟨r, run, frame, rfl, hr, hph, rfl⟩
  · exact absurd (hmute id reply hm) hnot
  · -- the reader has only changed its decoder before it handles what it took
    have hl : s.Ledger := ledger_of_history h
    have ht : TableOk s.pending := tableOk_of_history h
    obtain ⟨e, request, ⟨frame, rfl, he, hfor⟩, hr, hcase⟩ := reply_of_handle
      (s := s.modifyRun r fun run => { run with decoder := decoder }) hl ht hm hnot
    have hheard : s.heard? (.move (.reader r)) = some e := by
      rw [heard?, hin]
      show (Envelope.ofFrame frame).toOption = some e
      rw [he]
      rfl
    have hfor : e.target = s.config.localAddress ∨ e.target.isBroadcast = true := by
      rwa [isFor, Bool.or_eq_true, decide_eq_true_eq] at hfor
    refine ⟨request, hr, ?_⟩
    rcases hcase with ⟨kind, hkind, hdata, rfl, hkey⟩ | ⟨packet, value, hpacket, hw, rfl, hkey⟩
    · obtain ⟨htarget, hsingle, event, hevent⟩ :=
        ReplyKey.event_of_ofRequest? ((hkeyed hr).symm.trans hkey)
      exact .ack ⟨hheard, hfor⟩ hkind hdata hevent htarget hsingle
    · obtain ⟨htarget, hsingle, query, hquery, hpath⟩ :=
        ReplyKey.requestData_of_ofRequest? ((hkeyed hr).symm.trans hkey)
      exact .data ⟨hheard, hfor⟩ hpacket hw hquery hpath htarget hsingle
  · obtain ⟨rfl, rfl, request, hreq, hkey⟩ := reply_of_noteWritten hm hnot
    refine ⟨request, hreq, .sent hkey ?_⟩
    have hmem : run ∈ s.runs.values :=
      List.mem_map.mpr ⟨(r, run), Directory.mem_entries_of_find? hr, rfl⟩
    have hflight : frame ∈ s.inFlight := List.mem_filterMap.mpr ⟨run, hmem, by rw [hph]; rfl⟩
    rw [frame_of_sending h hflight hreq]
    exact writtenOut_of_marking h hr hph

/-- Whoever was told was told at some moment. -/
theorem History.exists_told (h : History (fresh config link) past s) {id : RequestId}
    {outcome : Outcome} (hm : (id, outcome) ∈ s.delivered) :
    ∃ later m earlier, moments past s = later ++ m :: earlier ∧
      (id, outcome) ∈ m.after.delivered ∧ (id, outcome) ∉ m.before.delivered := by
  induction h with
  | nil => cases hm
  | @cons v s past o h ho ih =>
    by_cases hv : (id, outcome) ∈ v.delivered
    · obtain ⟨later, m, earlier, he, hm⟩ := ih hv
      exact ⟨⟨v, o, s⟩ :: later, m, earlier, by rw [moments, he, List.cons_append], hm⟩
    · exact ⟨[], ⟨v, o, s⟩, moments past v, rfl, hm, hv⟩

/-- **Every reply is due.**  In every history, a request that has ended with a reply did so
at one moment.  It was registered then, with the message that was sent under its number if
it was sent for a caller, and was entitled to its reply:

* an event to one device to the kind of a handshake other than that for data, which this
  device sent to the session or to everybody, and which was taken at that moment;
* a request for the value at a path of one device to the value that was completed by a
  packet for this path, which this device sent to the session or to everybody, and which
  was taken at that moment;
* a request that no answer belongs to, to the news that it was sent, after the link had
  written its frame.

And whatever is taken at a moment ends one request at most. -/
theorem replies_are_due (h : History (fresh config link) past s) :
    (∀ id reply, s.EndedWith id (.success reply) →
      ∃ later m earlier request, moments past s = later ++ m :: earlier ∧
        m.before.Open id ∧ m.after.EndedWith id (.success reply) ∧
        m.before.pending.requests.find? id = some request ∧
        (∀ b ∈ earlier, ∀ target message, b.Sends target message id →
          request.frame.envelope = ⟨target, config.localAddress, message⟩) ∧
        Warrant earlier m request reply) ∧
    ∀ m ∈ moments past s, (m.before.inbound? m.what).isSome = true →
      ∃ told, m.after.delivered = m.before.delivered ++ told ∧ told.length ≤ 1 := by
  refine ⟨fun id reply hend => ?_, fun m hm hin => ?_⟩
  · have hm : (id, .success reply) ∈ s.delivered :=
      mem_delivered_iff.mpr (by rw [hend.2]; exact List.mem_singleton_self _)
    obtain ⟨later, m, earlier, he, hafter, hbefore⟩ := h.exists_told hm
    obtain ⟨ho, past', _, h', rfl, _⟩ := h.exists_of_moments he
    obtain ⟨request, hr, hwarrant⟩ := warrant_of_happens h' ho hafter hbefore
    have hl := ledger_of_history h'
    exact ⟨later, m, _, request, he, hl.open_of_find? hr,
      ((keepsBooks_happens ho).1 hl).endedWith_of_mem hafter, hr,
      fun b hb target message hsends => envelope_of_sends h' hb hsends hr, hwarrant⟩
  · obtain ⟨later, earlier, he⟩ := List.append_of_mem hm
    obtain ⟨ho, past', _, h', _⟩ := h.exists_of_moments he
    rcases tells_of_happens ho with
      ⟨hnone, _⟩ | ⟨r, result, decoder, _, _, hs⟩ | ⟨r, run, frame, hw, _⟩
    · rw [hnone] at hin
      cases hin
    · have hl : m.before.Ledger := ledger_of_history h'
      have ht : TableOk m.before.pending := tableOk_of_history h'
      rw [hs]
      exact told_of_handle (s := m.before.modifyRun r fun run => { run with decoder := decoder })
        hl ht ((drained_of_history h').of_eq rfl rfl) result
    · rw [hw] at hin
      cases hin

/-- A device sends a value of two bytes in one packet. -/
def wholeValue : Bytes :=
  match (Envelope.mk .external (.controllerAt 2)
    (.setData ⟨.root, .root, 0, 1, [1, 2]⟩)).encode with
  | .ok bytes => bytes
  | .error _ => []

/-- An event, a request for a value and a packet are sent to two devices and written; one
device acknowledges the event, the other sends the value. -/
def answered : List Cue :=
  firstStart ++
    [.input (.send (.controllerAt 1) (.event (.plain .root 7 .low)) .low),
      .input (.send (.controllerAt 2) (.requestData (.stored .root)) .low),
      .input (.send (.controllerAt 1) (.setData ⟨.root, .root, 0, 1, [3]⟩) .low)] ++
    List.replicate 18 (.move (.writer 1) 0) ++
    [.input (.farEnd { Line.fresh none with
      inbound := [.data (acknowledgement ++ wholeValue)] } [])] ++
    List.replicate 6 (.move (.reader 1) 0)

theorem replies_are_due_answered : ∃ past s, History (fresh {} (.fresh "" none [])) past s ∧
    s.EndedWith 1 (.success (.ack .command)) ∧ s.EndedWith 2 (.success (.data [1, 2])) ∧
      s.EndedWith 3 (.success .sent) ∧
      (∃ later m earlier request, moments past s = later ++ m :: earlier ∧ m.before.Open 1 ∧
        Warrant earlier m request (.ack .command)) ∧
      (∃ later m earlier request, moments past s = later ++ m :: earlier ∧ m.before.Open 2 ∧
        Warrant earlier m request (.data [1, 2])) ∧
      ∃ later m earlier request, moments past s = later ++ m :: earlier ∧ m.before.Open 3 ∧
        Warrant earlier m request .sent := by
  obtain ⟨past, s, h, hevent, hquery, hpacket⟩ := exists_history (fresh {} (.fresh "" none []))
    answered (fun _ s => s.EndedWith 1 (.success (.ack .command)) ∧
      s.EndedWith 2 (.success (.data [1, 2])) ∧ s.EndedWith 3 (.success .sent))
    (by decide +kernel)
  have due : ∀ {id reply}, s.EndedWith id (.success reply) →
      ∃ later m earlier request, moments past s = later ++ m :: earlier ∧ m.before.Open id ∧
        Warrant earlier m request reply := by
    intro id reply hend
    obtain ⟨later, m, earlier, request, he, hopen, _, _, _, hwarrant⟩ :=
      (replies_are_due h).1 id reply hend
    exact ⟨later, m, earlier, request, he, hopen, hwarrant⟩
  exact ⟨past, s, h, hevent, hquery, hpacket, due hevent, due hquery, due hpacket⟩

end Session

end ZoneBus
