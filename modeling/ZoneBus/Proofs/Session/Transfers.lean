import ZoneBus.Proofs.Session.FarEnd
import ZoneBus.Proofs.Transfer.Mixing

/-!
# Transfers at once

Several callers may write values to one path of somebody at once.  Each queues its packets
one at a time, so the writer may take packets of one between those of another; urgent ones
overtake the rest, and a packet may be sent again later.  A packet says which one it is of
how many, and not whose.  So the far end, which puts together what comes in sequence, never
publishes anything else than packets of values that were written, as many as each of these
values has; but it may publish the first packet of one value and the second one of another,
when both values have as many packets.

## Main definitions

* `Session.written` — the values that were to be written to a path of somebody.
* `Session.OnlyWrites` — nobody sends a packet for the path by hand.
* `Session.packetsFor` — the packets for a path of somebody in what a decoder gave.
* `Session.toWrite`, `Session.WritesValues` — the packets that a caller is to send yet, and
  that they are packets of what was to be written.

## Main results

* `Session.toWrite_of_happens` — how a caller comes to have packets to send.
* `Session.writesValues_of_history` — **callers send packets of what was to be written.**
* `Session.published_mixed` — **what the far end publishes is made of the values that were
  written, and is one of them unless two of them have as many packets.**
-/

namespace ZoneBus

namespace Session

variable {s s' v : Session} {r : RunId} {o : Occurrence} {frame : OutboundFrame}
  {config : SessionConfig} {link : Link} {before later past : List (Session × Occurrence)}
  {target : Address} {path : Path} {value : Bytes} {p : Packet}

/-! ### What was to be written -/

/-- The value that something is to write to a path of somebody, if any. -/
def writes? (target : Address) (path : Path) : Occurrence → Option Bytes
  | .input (.write _ target' path' value _) =>
    if target' = target ∧ path' = path then some value else none
  | _ => none

/-- The values that were to be written to a path of somebody, the latest first. -/
def written (past : List (Session × Occurrence)) (target : Address) (path : Path) : List Bytes :=
  past.filterMap fun e => writes? target path e.2

/-- Nobody sent by hand what is read as a packet for a path of somebody. -/
def OnlyWrites (past : List (Session × Occurrence)) (target : Address) (path : Path) : Prop :=
  ∀ e ∈ past, ∀ message priority, e.2 = .input (.send target message priority) →
    ∀ source p, Envelope.ofFrame (Envelope.layout ⟨target, source, message⟩) =
      .ok ⟨target, source, .setData p⟩ → p.valuePath ≠ path

/-- Whether a message is sent by hand. -/
def byHand : Occurrence → Bool
  | .input (.send ..) => true
  | _ => false

theorem onlyWrites_of_byHand (h : (past.any fun e => byHand e.2) = false) :
    OnlyWrites past target path := by
  intro e he message priority hsend
  have hnot := List.any_eq_false.mp h e he
  rw [hsend] at hnot
  exact absurd rfl hnot

theorem mem_written : value ∈ written past target path ↔
    ∃ e ∈ past, ∃ i priority, e.2 = .input (.write i target path value priority) := by
  rw [written, List.mem_filterMap]
  refine exists_congr fun e => and_congr_right fun _ => ?_
  constructor
  · intro h
    unfold writes? at h
    split at h
    · next i target' path' value' priority he =>
      split at h
      · next hplace =>
        obtain ⟨rfl, rfl⟩ := hplace
        cases h
        exact ⟨i, priority, he⟩
      · cases h
    · cases h
  · rintro ⟨i, priority, he⟩
    rw [he, writes?, if_pos ⟨rfl, rfl⟩]

theorem mem_written_cons (e : Session × Occurrence) (h : value ∈ written past target path) :
    value ∈ written (e :: past) target path :=
  ((List.sublist_cons_self e past).filterMap _).subset h

/-! ### Who has packets to write -/

/-- The packets that are to be sent yet in a phase of a call, and to whom. -/
def toWrite? : CallPhase → Option (Address × List Packet)
  | .writing target _ rest _ => some (target, rest)
  | _ => none

/-- The packets that a caller is to send yet, and to whom. -/
def toWrite (s : Session) (i : CallerId) : Option (Address × List Packet) :=
  (s.callers.find? i).bind toWrite?

section ToWrite

variable {i j : CallerId} {phase : CallPhase} {left : Address × List Packet}

theorem toWrite_congr (h : s'.callers = s.callers) : s'.toWrite i = s.toWrite i := by
  rw [toWrite, h, toWrite]

/-- Who has packets to send had them before, or has just come to have them. -/
theorem toWrite_beginCall (h : (s.beginCall j phase).toWrite i = some left) :
    s.toWrite i = some left ∨ j = i ∧ toWrite? phase = some left := by
  rw [toWrite, beginCall, Directory.find?_put] at h
  split at h
  · next hij => exact Or.inr ⟨hij, h⟩
  · exact Or.inl h

theorem toWrite_endCall {result : CallResult} (h : (s.endCall j result).1.toWrite i = some left) :
    s.toWrite i = some left := by
  rw [toWrite, endCall, Directory.find?_erase] at h
  split at h
  · cases h
  · exact h

theorem toWrite_beginSend {receiver : Address} {message : Message} {priority : Priority}
    {phase : RequestId → CallPhase} (hphase : ∀ id, toWrite? (phase id) = none)
    (h : (s.beginSend j receiver message priority phase).1.toWrite i = some left) :
    s.toWrite i = some left := by
  have hcallers := (s.trafficOnly_send receiver message priority).callers
  rw [beginSend] at h
  split at h
  · next id v hsend =>
    rw [hsend] at hcallers
    rw [← toWrite_congr hcallers]
    refine (toWrite_beginCall h).resolve_right fun hid => ?_
    rw [hphase id] at hid
    cases hid.2
  · next error v hsend =>
    rw [hsend] at hcallers
    rw [← toWrite_congr hcallers]
    exact toWrite_endCall h

/-- A caller that moves has sent its next packet, or has nothing to send any more. -/
theorem toWrite_caller {m : Session × List Notice} (hj : s.callers.find? j = some phase)
    (hm : m ∈ s.callerMoves j phase) (h : m.1.toWrite i = some left) :
    s.toWrite i = some left ∨ ∃ p, s.toWrite i = some (left.1, p :: left.2) := by
  cases callerWay_of_mem hm with
  | ends => exact Or.inl (toWrite_endCall h)
  | waits =>
    refine Or.inl ((toWrite_beginCall h).resolve_right ?_)
    exact fun he => by cases he.2
  | @sends target priority p _ _ _ _ hsend =>
    have hcallers := (s.trafficOnly_send target (.setData p) priority).callers
    rw [hsend] at hcallers
    rcases toWrite_beginCall h with hother | ⟨rfl, he⟩
    · exact Or.inl ((toWrite_congr hcallers).symm.trans hother)
    · cases he
      refine Or.inr ⟨p, ?_⟩
      rw [toWrite, hj]
      rfl
  | @fails target priority p _ made _ v hsend =>
    have hcallers := (s.trafficOnly_send target (.setData p) priority).callers
    rw [hsend] at hcallers
    rw [← toWrite_congr ((trafficOnly_cancelAll made v).callers.trans hcallers)]
    exact Or.inl (toWrite_endCall h)
  | withdraws =>
    refine Or.inl ((toWrite_beginCall h).resolve_right ?_)
    exact fun he => by cases he.2

/-- Who is new has all the packets of its value to send. -/
theorem toWrite_apply {input : Input} (h : (s.apply input).toWrite i = some left) :
    s.toWrite i = some left ∨ ∃ path value priority,
      input = .write i left.1 path value priority ∧ transfer path .root value = .ok left.2 := by
  cases input with
  | send target message priority =>
    exact Or.inl ((toWrite_congr (s.trafficOnly_send target message priority).callers).symm.trans h)
  | await j id =>
    refine Or.inl ((toWrite_beginCall h).resolve_right ?_)
    exact fun he => by cases he.2
  | event j target path id priority => exact Or.inl (toWrite_beginSend (fun _ => rfl) h)
  | read j target path refresh =>
    rw [apply, beginRead] at h
    split at h
    · exact Or.inl (toWrite_endCall h)
    · exact Or.inl (toWrite_beginSend (fun _ => rfl) h)
  | write j target path value priority =>
    rw [apply, beginWrite] at h
    split at h
    · exact Or.inl (toWrite_endCall h)
    · next packets hpackets =>
      rcases toWrite_beginCall h with hother | ⟨rfl, he⟩
      · exact Or.inl hother
      · cases he
        exact Or.inr ⟨path, value, priority, rfl, hpackets⟩
  | _ => exact Or.inl h

/-- **How a caller comes to have packets to send**: it had one more, or it is new. -/
theorem toWrite_of_happens (ho : Happens s o s') (h : s'.toWrite i = some left) :
    s.toWrite i = some left ∨ (∃ p, s.toWrite i = some (left.1, p :: left.2)) ∨
      ∃ path value priority, o = .input (.write i left.1 path value priority) ∧
        transfer path .root value = .ok left.2 := by
  cases ho with
  | input input =>
    rcases toWrite_apply h with hold | ⟨path, value, priority, rfl, hpackets⟩
    · exact Or.inl hold
    · exact Or.inr (Or.inr ⟨path, value, priority, rfl, hpackets⟩)
  | @move _ t _ hm =>
    by_cases ht : ∃ j, t = .caller j
    · obtain ⟨j, rfl⟩ := ht
      rw [moves] at hm
      split at hm
      · next hj => exact (toWrite_caller hj hm h).imp_right Or.inl
      · simp at hm
    · have hcallers := callers_of_move hm fun j he => ht ⟨j, he⟩
      exact Or.inl ((toWrite_congr hcallers).symm.trans h)

end ToWrite

/-! ### What is sent of the values -/

/-- Callers who write have packets of what was to be written. -/
def WritesValues (past : List (Session × Occurrence)) (s : Session) : Prop :=
  ∀ i target rest, s.toWrite i = some (target, rest) → ∃ path value packets,
    value ∈ written past target path ∧ transfer path .root value = .ok packets ∧ rest <:+ packets

theorem WritesValues.cons (h : WritesValues past s) (e : Session × Occurrence) :
    WritesValues (e :: past) s := by
  intro i target rest hw
  obtain ⟨path, value, packets, hvalue, hpackets, hrest⟩ := h i target rest hw
  exact ⟨path, value, packets, mem_written_cons e hvalue, hpackets, hrest⟩

/-- **Callers send packets of what was to be written.** -/
theorem writesValues_of_history (h : History (fresh config link) past s) :
    WritesValues past s := by
  induction h with
  | nil =>
    intro i target rest hw
    cases hw
  | @cons v w past o h ho ih =>
    intro i target rest hw
    rcases toWrite_of_happens ho hw with hold | ⟨p, hmore⟩ | ⟨path, value, priority, rfl, hpackets⟩
    · exact ih.cons (v, o) i target rest hold
    · obtain ⟨path, value, packets, hvalue, hpackets, hrest⟩ := ih.cons (v, o) i target _ hmore
      exact ⟨path, value, packets, hvalue, hpackets, (List.suffix_cons p rest).trans hrest⟩
    · refine ⟨path, value, rest, mem_written.mpr ?_, hpackets, List.suffix_rfl⟩
      exact ⟨_, List.mem_cons_self, i, priority, rfl⟩

/-- So it was before everything that happened. -/
theorem writesValues_of_mem (h : History (fresh config link) past s) {e : Session × Occurrence}
    (he : e ∈ past) : WritesValues past e.1 := by
  induction h with
  | nil => cases he
  | cons h ho ih =>
    rcases List.mem_cons.mp he with rfl | he
    · exact (writesValues_of_history h).cons _
    · exact (ih he).cons _

/-- A frame that is read as a packet is made of the next one that a caller is to send, or of
what was sent by hand. -/
theorem Born.packet {source : Address} (h : s.Born o frame)
    (hread : Envelope.ofFrame frame.envelope.layout = .ok ⟨target, source, .setData p⟩) :
    (∃ i rest, s.toWrite i = some (target, p :: rest)) ∨
      ∃ message priority, o = .input (.send target message priority) ∧
        Envelope.ofFrame (Envelope.layout ⟨target, source, message⟩) =
          .ok ⟨target, source, .setData p⟩ := by
  obtain ⟨receiver, message, hasked, hframe, hencode⟩ := h
  have hwritable := (Envelope.encode_eq_ok_iff.mp hencode).1.1
  have hlayout := (Envelope.ofFrame_eq_ok_iff.mp hread).2
  rw [hframe] at hread hwritable hlayout
  obtain rfl : receiver = target := congrArg Frame.target hlayout
  obtain rfl : s.config.localAddress = source := congrArg Frame.source hlayout
  -- canonical messages are read as they are
  have same : message.Canonical → message = .setData p := by
    intro hcanonical
    have hback := Envelope.ofFrame_eq_ok_iff.mpr ⟨⟨hcanonical, hwritable⟩, rfl⟩
    rw [hread] at hback
    exact (congrArg Envelope.message (Except.ok.inj hback)).symm
  unfold asked? at hasked
  split at hasked
  · next priority =>
    cases hasked
    exact Or.inr ⟨_, priority, rfl, hread⟩
  · cases hasked
    cases same trivial
  · cases hasked
    cases same trivial
  · next i =>
    split at hasked
    · next receiver' priority q rest made hi =>
      cases hasked
      cases same trivial
      refine Or.inl ⟨i, rest, ?_⟩
      rw [toWrite, hi]
      rfl
    · cases hasked
  · obtain ⟨e, _, he⟩ := Option.map_eq_some_iff.mp hasked
    cases he
    cases same trivial
  · cases hasked

/-- **A frame that is read as a packet for a path brings a part of a value** that was to be
written there, when nobody sends such packets by hand. -/
theorem Born.partOf {source : Address} {e : Session × Occurrence}
    (h : History (fresh config link) past s) (honly : OnlyWrites past target path)
    (he : e ∈ past) (hborn : e.1.Born e.2 frame)
    (hread : Envelope.ofFrame frame.envelope.layout = .ok ⟨target, source, .setData p⟩)
    (hpath : p.valuePath = path) :
    ∃ value ∈ written past target path, ∀ time, (p.fragment time).PartOf value := by
  rcases hborn.packet hread with ⟨i, rest, hw⟩ | ⟨message, priority, hsend, hread⟩
  · obtain ⟨path', value, packets, hvalue, hpackets, hrest⟩ :=
      writesValues_of_mem h he i target _ hw
    have hpart := partOf_of_mem_transfer hpackets (hrest.subset List.mem_cons_self)
    obtain ⟨_, htarget, hsource⟩ := hpart 0
    rw [Packet.valuePath, hsource, htarget] at hpath
    subst hpath
    exact ⟨value, hvalue, fun time => (hpart time).1⟩
  · exact absurd hpath (honly e he message priority hsend source p hread)

/-! ### What is published -/

/-- The packet for a path of somebody that is in a result, if any. -/
def packetFor? (target : Address) (path : Path) (result : FrameResult) : Option Packet :=
  match result.bind Envelope.ofFrame with
  | .ok ⟨target', _, .setData p⟩ => if target' = target ∧ p.valuePath = path then some p else none
  | _ => none

/-- The packets for a path of somebody in what a decoder gave. -/
def packetsFor (target : Address) (path : Path) (results : List FrameResult) : List Packet :=
  results.filterMap (packetFor? target path)

theorem packetFor?_spec {result : FrameResult} (h : packetFor? target path result = some p) :
    ∃ source, result.bind Envelope.ofFrame = .ok ⟨target, source, .setData p⟩ ∧
      p.valuePath = path := by
  rw [packetFor?] at h
  split at h
  · next target' source p' hresult =>
    split at h
    · next hplace =>
      obtain ⟨rfl, hpath⟩ := hplace
      cases h
      exact ⟨source, hresult, hpath⟩
    · cases h
  · cases h

/-- **What the far end publishes** when it takes, at any times, the packets for a path that
it finds in what the writer of a run put on the line, and nobody sends such packets by hand:
it is made of values that were to be written to the path, by whomever and at whatever
priority, each of as many pieces as there are of them — the first piece of one, the second
piece of one, and so on.  So it is one of the values that were to be written, unless two
different ones have the same number of pieces, which then is two at least. -/
theorem published_mixed (hv : History (fresh config link) before v)
    (hnew : v.runs.find? r = none) (h : History v later s)
    (honly : OnlyWrites (later ++ before) target path) {calls : List Decoder.Call}
    (hcalls : Decoder.received calls = (output r (moments later s)).poured)
    (hdry : Decoder.fresh.EndsDry calls) (times : List Instant) {i : Nat}
    (hpublished : ((Buffer.fresh path).takeFragments (List.zipWith Packet.fragment
      (packetsFor target path (Decoder.fresh.run calls).1) times)).1[i]? =
        some (.ok (some value))) :
    let values := written (later ++ before) target path
    ∃ sources, (∀ source ∈ sources, source ∈ values ∧
        (chunks source).length = sources.length) ∧ value = mixed sources ∧
      (value ∈ values ∨ 2 ≤ sources.length ∧ ∃ a ∈ sources, ∃ b ∈ sources, a ≠ b) := by
  intro values
  have hnone : v.writer? r = none := by
    rw [writer?, hnew]
    rfl
  have hborn : ∀ frame ∈ (output r (moments later s)).begun,
      ∃ e ∈ later ++ before, e.1.Born e.2 frame := by
    intro frame hf
    exact born_of_popped hv h (mem_popped_of_begun hv hnone h hf)
  obtain ⟨complete, part, hsplits⟩ := (fits_of_history hv hnone h).splits
  have hresults := hsplits.results (fun frame hf => by
    obtain ⟨_, _, _, _, _, _, hbytes⟩ := hborn frame hf
    exact hbytes) hcalls hdry
  -- every packet is found in a frame that was born
  have hparts : ∀ a ∈ List.zipWith Packet.fragment
      (packetsFor target path (Decoder.fresh.run calls).1) times,
      ∃ value, value ∈ values ∧ a.PartOf value := by
    intro a ha
    rw [← List.map_uncurry_zip_eq_zipWith] at ha
    obtain ⟨⟨p, time⟩, hp, rfl⟩ := List.mem_map.mp ha
    obtain ⟨result, hresult, hfor⟩ := List.mem_filterMap.mp (List.of_mem_zip hp).1
    rw [hresults] at hresult
    obtain ⟨frame, hf, rfl⟩ := List.mem_map.mp hresult
    obtain ⟨source, hread, hpath⟩ := packetFor?_spec hfor
    obtain ⟨e, he, hb⟩ := hborn frame (hsplits.mem_begun hf)
    obtain ⟨value, hvalue, hpart⟩ := hb.partOf (hv.trans h) honly he hread hpath
    exact ⟨value, hvalue, hpart time⟩
  obtain ⟨sources, hne, hsources, rfl⟩ := Buffer.publishes_mixed hparts hpublished
  refine ⟨sources, hsources, rfl, ?_⟩
  refine (mixed_mem_or_differ hne fun source hs => (hsources source hs).2).imp_left fun hmem => ?_
  exact (hsources _ hmem).1

/-- Where the values of the following scripts go. -/
def somewhere : Path := ⟨[2, 0, 0], by decide⟩

/-- A value of two packets, filled with a byte. -/
def filled (b : UInt8) : Bytes := List.replicate 65 b

/-- The first packet of a value is written.  Then a value of one packet is urgent, and it
overtakes the second packet. -/
def cutIn : List Cue :=
  firstStart ++ [.input (.write 1 (.controllerAt 1) somewhere (filled 0xAA) .low),
    .move (.caller 1) 0] ++ List.replicate 6 (.move (.writer 1) 0) ++
    [.move (.caller 1) 0, .input (.write 2 (.controllerAt 1) somewhere [0xCC] .high),
      .move (.caller 2) 0] ++ List.replicate 12 (.move (.writer 1) 0)

/-- What a far end answers to the packets that it finds in some bytes. -/
def answers (bytes : Bytes) : List (Except BufferError (Option Bytes)) :=
  ((Buffer.fresh somewhere).takeFragments (List.zipWith Packet.fragment
    (packetsFor (.controllerAt 1) somewhere
      (Decoder.fresh.run (.extend bytes :: List.replicate 5 .next)).1) [0, 1, 2, 3])).1

/-- The urgent value is published, and the second packet of the other one is refused. -/
theorem published_mixed_cutIn : ∃ past s, History (fresh {} (.fresh "" none [])) past s ∧
    OnlyWrites past (.controllerAt 1) somewhere ∧
    written past (.controllerAt 1) somewhere = [[0xCC], filled 0xAA] ∧
    answers (output 1 (moments past s)).poured =
      [.ok none, .ok (some [0xCC]), .error (.noActiveWrite somewhere)] ∧
    ∃ sources, (∀ source ∈ sources, source ∈ written past (.controllerAt 1) somewhere ∧
      (chunks source).length = sources.length) ∧ [0xCC] = mixed sources := by
  obtain ⟨past, s, h, hhand, hwritten, hanswers, hdry⟩ := exists_history
    (fresh {} (.fresh "" none [])) cutIn
    (fun past s =>
      let poured := (output 1 (moments past s)).poured
      (past.any fun e => byHand e.2) = false ∧
        written past (.controllerAt 1) somewhere = [[0xCC], filled 0xAA] ∧
        answers poured = [.ok none, .ok (some [0xCC]), .error (.noActiveWrite somewhere)] ∧
        (Decoder.fresh.run (.extend poured :: List.replicate 4 .next)).2.next.1 = none)
    (by decide +kernel)
  have honly : OnlyWrites past (.controllerAt 1) somewhere := onlyWrites_of_byHand hhand
  obtain ⟨sources, hsources, hmixed, _⟩ := published_mixed (r := 1) (i := 1)
    (.nil (fresh {} (.fresh "" none []))) rfl h (by rwa [List.append_nil])
    (List.append_nil _) ⟨_, rfl, hdry⟩ [0, 1, 2, 3] (congrArg (fun as => as[1]?) hanswers)
  rw [List.append_nil] at hsources
  exact ⟨past, s, h, honly, hwritten, hanswers, sources, hsources, hmixed⟩

/-- Two values of two packets are written at once, a packet of one and a packet of the other
in turn. -/
def inTurns : List Cue :=
  firstStart ++ [.input (.write 1 (.controllerAt 1) somewhere (filled 0xAA) .low),
    .input (.write 2 (.controllerAt 1) somewhere (filled 0xBB) .low),
    .move (.caller 1) 0, .move (.caller 2) 0, .move (.caller 1) 0, .move (.caller 2) 0] ++
    List.replicate 24 (.move (.writer 1) 0)

/-- **Two values written at once can be mixed up**: the far end publishes the first packet
of one and the second packet of the other, which nobody wrote. -/
theorem exists_published_mixture : ∃ past s value,
    History (fresh {} (.fresh "" none [])) past s ∧
    OnlyWrites past (.controllerAt 1) somewhere ∧
    written past (.controllerAt 1) somewhere = [filled 0xBB, filled 0xAA] ∧
    answers (output 1 (moments past s)).poured =
      [.ok none, .ok none, .ok (some value), .error (.noActiveWrite somewhere)] ∧
    value ∉ written past (.controllerAt 1) somewhere := by
  obtain ⟨past, s, h, hhand, hwritten, hanswers⟩ := exists_history
    (fresh {} (.fresh "" none [])) inTurns
    (fun past s => (past.any fun e => byHand e.2) = false ∧
      written past (.controllerAt 1) somewhere = [filled 0xBB, filled 0xAA] ∧
      answers (output 1 (moments past s)).poured =
        [.ok none, .ok none, .ok (some (List.replicate 64 0xBB ++ [0xAA])),
          .error (.noActiveWrite somewhere)]) (by decide +kernel)
  refine ⟨past, s, _, h, onlyWrites_of_byHand hhand, hwritten, hanswers, ?_⟩
  rw [hwritten]
  decide

end Session

end ZoneBus
