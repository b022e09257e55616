import ZoneBus.Proofs.Frame.Streams
import ZoneBus.Proofs.Message.Envelopes
import ZoneBus.Proofs.Session.Origins
import ZoneBus.Proofs.Session.WriterOutput

/-!
# What the far end reads

The far end takes the bytes that the writer of a run put on the line, in pieces of any size,
and looks for frames in them.  It finds the frames that the writer took from the queue and
whose requests were pending when it looked them up, in the order in which it took them.
Only of the last one a part may be there, in which nothing is found; and the session tells
of the frames that are there as a whole, but perhaps for the last one.

Tasks of a run that was ended before may still be there, and a writer among them may get
hold of the line of a later run.  As long as only the writer of one run moves, what the line
takes is what this writer puts there.

## Main definitions

* `Session.Output.Splits` — what a writer put on the line, in whole frames and a part of one.
* `Session.Tells` — notices that the moves of a history can have come with.

## Main results

* `Session.born_of_popped` — whatever a writer takes was asked for before.
* `Session.Output.Fits.splits` — **only the last frame may be there in part.**
* `Session.Output.Splits.results` — the whole frames are found.
* `Session.far_end_reads` — **what the far end reads is what the writer took.**
-/

namespace ZoneBus

/-- Whether a writer can be in a phase when it has put a part of a frame on the line: it is
writing the frame, or it reacts to a fault, or it has ended. -/
def WriterPhase.leavesPart (frame : OutboundFrame) : WriterPhase → Prop
  | .sending frame' _ => frame' = frame
  | .faulting _ => True
  | .exited => True
  | _ => False

/-! ### Finding frames in whole ones and a part of one -/

/-- The bytes of messages, whole and in order, and a part of those of another one give the
frames of the messages. -/
theorem Scanner.feed_envelopes {frames : List OutboundFrame} {part rest : Bytes}
    (h : ∀ frame ∈ frames, frame.envelope.encode = .ok frame.bytes) (hrest : part = [] ∨
      ∃ frame : OutboundFrame, frame.envelope.encode = .ok frame.bytes ∧
        frame.bytes = part ++ rest ∧ rest ≠ []) (k : Nat) :
    (feed ⟨.outside, k⟩ (frames.flatMap OutboundFrame.bytes ++ part)).1 =
      frames.map fun frame => .ok frame.envelope.layout := by
  have short : ∀ {frame : OutboundFrame}, frame.envelope.encode = .ok frame.bytes →
      frame.envelope.layout.content.length ≤ maxFrameLength ∧
        frame.bytes = frame.envelope.layout.encode := by
    intro frame hf
    obtain ⟨⟨_, hle⟩, hbytes⟩ := Envelope.encode_eq_ok_iff.mp hf
    exact ⟨by rwa [Envelope.length_content_layout], hbytes⟩
  have hwhole : frames.flatMap OutboundFrame.bytes =
      ((frames.map fun frame => frame.envelope.layout).map Frame.encode).flatten := by
    rw [List.map_map, List.flatMap_def]
    refine congrArg List.flatten (List.map_congr_left fun frame hf => ?_)
    exact (short (h frame hf)).2
  have hall : ∀ f ∈ frames.map fun frame => frame.envelope.layout,
      f.content.length ≤ maxFrameLength := by
    intro f hf
    obtain ⟨frame, hframe, rfl⟩ := List.mem_map.mp hf
    exact (short (h frame hframe)).1
  rw [hwhole, feed_append, feed_encode_all k hall]
  have hpart : (feed ⟨.outside, k⟩ part).1 = [] := by
    rcases hrest with rfl | ⟨frame, hf, hcut, hne⟩
    · rfl
    · obtain ⟨hle, hbytes⟩ := short hf
      exact feed_encode_cut hle k (hbytes.symm.trans hcut) hne
  dsimp only
  rw [hpart, List.append_nil, List.map_map]
  rfl

namespace Session

variable {s s' v : Session} {r : RunId} {o : Occurrence} {frame : OutboundFrame}
  {config : SessionConfig} {link : Link} {before later past : List (Session × Occurrence)}

/-! ### Where the frames come from -/

/-- **Whatever a writer takes was made of what was asked for at some moment before.** -/
theorem born_of_popped (hv : History (fresh config link) before v) (h : History v later s)
    (hf : frame ∈ gather (Moment.popped r) (moments later s)) :
    ∃ e ∈ later ++ before, e.1.Born e.2 frame := by
  induction h with
  | nil => cases hf
  | @cons w s later o h ho ih =>
    rcases List.mem_append.mp hf with hf | hf
    · obtain ⟨e, he, hborn⟩ := ih hf
      exact ⟨e, List.mem_cons_of_mem _ he, hborn⟩
    · -- it was the first of the queue
      have hqueued : w.Holds frame := by
        rw [Moment.popped] at hf
        split at hf
        · obtain ⟨⟨first, queue⟩, hp, rfl⟩ := Option.map_eq_some_iff.mp (Option.mem_toList.mp hf)
          refine Or.inl (List.mem_append_left _ ?_)
          dsimp only at hp
          rw [(SendQueue.toList_of_tryPop hp).1]
          exact List.mem_cons_self
        · cases hf
      obtain ⟨e, he, hborn⟩ := born_of_history (hv.trans h) hqueued
      exact ⟨e, List.mem_cons_of_mem _ he, hborn⟩

/-! ### What is there of the last frame -/

/-- What a writer put on the line, in whole frames and a part of one: the whole ones are
those that it began to write, but for the last one when only a part of it is there.  All
but perhaps the last of them were noted as written. -/
structure Output.Splits (out : Output) (phase : Option WriterPhase)
    (complete : List OutboundFrame) (part : Bytes) : Prop where
  /-- The line took the whole frames, one after the other, and the part. -/
  poured : out.poured = complete.flatMap OutboundFrame.bytes ++ part
  /-- They are those that were begun, but for the one that is there in part. -/
  begun : out.begun = complete ∧ part = [] ∨
    ∃ frame, out.begun = complete ++ [frame] ∧ part <+: frame.bytes ∧ part ≠ frame.bytes ∧
      ∃ now, phase = some now ∧ now.leavesPart frame
  /-- They were noted as written, but perhaps for the last one. -/
  noted : complete = out.noted ∨ ∃ frame, complete = out.noted ++ [frame]

namespace Output

variable {out : Output} {phase : Option WriterPhase} {rest : Bytes} {l : Link}

theorem Whole.splits (h : out.Whole) : out.Splits phase out.begun [] where
  poured := h.2.trans (List.append_nil _).symm
  begun := Or.inl ⟨rfl, rfl⟩
  noted := Or.inl h.1.symm

theorem Cut.splits {now : WriterPhase} (h : out.Cut frame rest)
    (hnow : rest ≠ [] → now.leavesPart frame) :
    ∃ complete part, out.Splits (some now) complete part := by
  obtain ⟨hbegun, front, hbytes, hpoured⟩ := h
  by_cases hrest : rest = []
  · subst hrest
    rw [List.append_nil] at hbytes
    refine ⟨out.begun, [], ?_, Or.inl ⟨rfl, rfl⟩, Or.inr ⟨frame, hbegun⟩⟩
    rw [hbegun, hpoured, List.flatMap_append, List.flatMap_singleton, hbytes, List.append_nil]
  · refine ⟨out.noted, front, hpoured, Or.inr ⟨frame, hbegun, ?_, ?_, now, rfl, hnow hrest⟩,
      Or.inl rfl⟩
    · exact ⟨rest, hbytes.symm⟩
    · intro he
      rw [hbytes] at he
      exact hrest (List.self_eq_append_right.mp he)

theorem Ended.splits {now : WriterPhase} (h : out.Ended) (hnow : ∀ frame, now.leavesPart frame) :
    ∃ complete part, out.Splits (some now) complete part := by
  rcases h with h | ⟨frame, rest, h⟩
  · exact ⟨_, _, h.splits⟩
  · exact h.splits fun _ => hnow frame

/-- **Only the last frame may be there in part.** -/
theorem Fits.splits (h : out.Fits l phase) : ∃ complete part, out.Splits phase complete part := by
  cases phase with
  | none =>
    obtain rfl : out = ⟨[], [], []⟩ := h
    exact ⟨[], [], rfl, Or.inl ⟨rfl, rfl⟩, Or.inl rfl⟩
  | some now =>
    cases now with
    | popping => exact ⟨_, _, Whole.splits h⟩
    | checking frame => exact ⟨_, _, Whole.splits h⟩
    | sending frame c =>
      obtain ⟨rest, hcut, _⟩ := h
      exact hcut.splits fun _ => rfl
    | marking frame => exact Cut.splits h fun hne => absurd rfl hne
    | faulting teardown => exact h.1.splits fun _ => trivial
    | exited => exact Ended.splits h fun _ => trivial

namespace Splits

variable {complete : List OutboundFrame} {part : Bytes}

theorem complete_sublist (h : out.Splits phase complete part) : complete.Sublist out.begun := by
  rcases h.begun with ⟨he, _⟩ | ⟨last, he, _⟩
  · rw [he]
  · rw [he]
    exact List.sublist_append_left _ _

theorem mem_begun (h : out.Splits phase complete part) (hf : frame ∈ complete) :
    frame ∈ out.begun :=
  h.complete_sublist.subset hf

/-- **The whole frames are found in what was put on the line**, and nothing else, if all
have the bytes of their messages. -/
theorem results (h : out.Splits phase complete part)
    (hencode : ∀ frame ∈ out.begun, frame.envelope.encode = .ok frame.bytes)
    {calls : List Decoder.Call} (hcalls : Decoder.received calls = out.poured)
    (hdry : Decoder.fresh.EndsDry calls) :
    (Decoder.fresh.run calls).1 = complete.map fun frame => .ok frame.envelope.layout := by
  have hrest : ∃ rest, part = [] ∨ ∃ frame : OutboundFrame,
      frame.envelope.encode = .ok frame.bytes ∧ frame.bytes = part ++ rest ∧ rest ≠ [] := by
    rcases h.begun with ⟨_, hpart⟩ | ⟨last, he, ⟨rest, hbytes⟩, hne, _⟩
    · exact ⟨[], Or.inl hpart⟩
    · refine ⟨rest, Or.inr ⟨last, hencode last ?_, hbytes.symm, fun hnil => hne ?_⟩⟩
      · exact he ▸ List.mem_append_right _ (List.mem_singleton_self last)
      · rw [hnil, List.append_nil] at hbytes
        exact hbytes
  obtain ⟨rest, hrest⟩ := hrest
  rw [hdry.run_eq, hcalls, Decoder.drain_eq]
  show (Scanner.feed ⟨.outside, 0⟩ out.poured).1 = _
  rw [h.poured]
  exact Scanner.feed_envelopes (fun frame hf => hencode frame (h.mem_begun hf)) hrest 0

end Splits

end Output

/-! ### What is told, and what the line takes -/

/-- The bytes that the line takes in a move. -/
def Moment.added (m : Moment) : Bytes :=
  match m.what with
  | .move _ => m.before.link.growth m.after.link
  | .input _ => []

/-- Notices that the moves of a history can have come with. -/
def Tells (told : Moment → List Notice) (ms : List Moment) : Prop :=
  ∀ m ∈ ms, ∀ t, m.what = .move t → (m.after, told m) ∈ m.before.moves t

/-- The messages that are told to be written in a move. -/
def Moment.sent (told : Moment → List Notice) (m : Moment) : List Envelope :=
  match m.what with
  | .move _ => (told m).filterMap Notice.sent?
  | .input _ => []

/-- The messages that are told to be written when the writer of a run moves. -/
def Moment.sentBy (told : Moment → List Notice) (r : RunId) (m : Moment) : List Envelope :=
  if m.isOf r = true then (told m).filterMap Notice.sent? else []

theorem gather_congr {α : Type} {pick pick' : Moment → List α} {ms : List Moment}
    (h : ∀ m ∈ ms, pick m = pick' m) : gather pick ms = gather pick' ms := by
  induction ms with
  | nil => rfl
  | cons m ms ih =>
    rw [List.forall_mem_cons] at h
    rw [gather, gather, h.1, ih h.2]

theorem gather_map {α β : Type} (f : α → β) (pick : Moment → List α) (ms : List Moment) :
    gather (fun m => (pick m).map f) ms = (gather pick ms).map f := by
  induction ms with
  | nil => rfl
  | cons m ms ih => rw [gather, gather, ih, List.map_append]

theorem gather_sublist {α : Type} {pick pick' : Moment → List α}
    (h : ∀ m, (pick m).Sublist (pick' m)) (ms : List Moment) :
    (gather pick ms).Sublist (gather pick' ms) := by
  induction ms with
  | nil => exact List.Sublist.refl _
  | cons m ms ih => exact ih.append (h m)

theorem gather_filter {α : Type} (p : α → Bool) (pick : Moment → List α) (ms : List Moment) :
    gather (fun m => (pick m).filter p) ms = (gather pick ms).filter p := by
  induction ms with
  | nil => rfl
  | cons m ms ih => rw [gather, gather, ih, List.filter_append]

theorem exists_of_gather {α : Type} {a : α} {pick : Moment → List α} {ms : List Moment}
    (h : a ∈ gather pick ms) : ∃ m ∈ ms, a ∈ pick m := by
  induction ms with
  | nil => cases h
  | cons m ms ih =>
    rcases List.mem_append.mp h with h | h
    · obtain ⟨m', hm, ha⟩ := ih h
      exact ⟨m', List.mem_cons_of_mem _ hm, ha⟩
    · exact ⟨m, List.mem_cons_self, h⟩

theorem isOf_iff {m : Moment} : m.isOf r = true ↔ m.what = .move (.writer r) := by
  unfold Moment.isOf
  split
  · next r' he => simp [he]
  · next hne => exact iff_of_false Bool.false_ne_true (hne r)

variable {told : Moment → List Notice} {ms : List Moment} {m : Moment}

/-- What is told when the writer of a run moves is what it notes. -/
theorem sentBy_eq_noted (h : Tells told ms) (hm : m ∈ ms) :
    m.sentBy told r = (m.noted r).map fun frame => frame.envelope := by
  rw [Moment.sentBy]
  split
  · next hof =>
    have hwhat := isOf_iff.mp hof
    rw [sent_of_move (h m hm _ hwhat), Moment.noted, hwhat, List.map_map]
    refine congrArg (List.map _) (List.filter_eq_self.mpr fun e he => decide_eq_true ?_).symm
    obtain ⟨r', frame⟩ := e
    have hmarked := marked?_writer (Option.mem_toList.mp he)
    cases hmarked
    rfl
  · next hof =>
    have hother : m.noted r = [] := noted_other fun he => hof (isOf_iff.mpr he)
    rw [hother]
    rfl

/-- Nobody else tells of anything written, as long as no other writer moves. -/
theorem sent_eq_sentBy (h : Tells told ms) (hm : m ∈ ms)
    (halone : ∀ r', m.what = .move (.writer r') → r' = r) :
    m.sent told = m.sentBy told r := by
  rw [Moment.sentBy, Moment.sent]
  split
  · next t hwhat =>
    split
    · rfl
    · next hof =>
      rw [sent_of_move (h m hm t hwhat), List.map_eq_nil_iff]
      cases hmarked : m.before.marked? (.move t) with
      | none => rfl
      | some e =>
        obtain ⟨r', frame⟩ := e
        have hwriter := hwhat.trans (marked?_writer hmarked)
        rw [halone _ hwriter] at hwriter
        exact absurd (isOf_iff.mpr hwriter) hof
  · next input hwhat =>
    rw [if_neg fun hof => ?_]
    rw [isOf_iff, hwhat] at hof
    cases hof

/-- Nobody else adds to the line, as long as no other writer moves. -/
theorem added_eq_poured (ho : Happens m.before m.what m.after) (ha : m.before.Apart)
    (halone : ∀ r', m.what = .move (.writer r') → r' = r) : m.added = m.poured r := by
  rw [Moment.added, Moment.poured]
  split
  · next t hwhat =>
    split
    · rfl
    · next hof =>
      rw [hwhat] at ho
      cases ho with
      | move hmove =>
        refine (deals_of_move hmove).growth_eq_nil ha fun r' ht => hof (isOf_iff.mpr ?_)
        rw [ht] at hwhat
        rw [halone r' hwhat] at hwhat
        exact hwhat
  · next input hwhat =>
    rw [if_neg fun hof => ?_]
    rw [isOf_iff, hwhat] at hof
    cases hof

/-! ### Why a frame is left in part -/

/-- Why a writer may leave what it writes in part: its run is to end, since the session was
stopped or met a fault, or its call of the link fails. -/
def Moment.Breaks (r : RunId) (c : CallId) (m : Moment) : Prop :=
  (m.before.runs.find? r).map Run.cancelled = some true ∨
    ∃ events error, (m.after.link, events) ∈ m.before.link.moves c ∧
      resultOf? c events = some (.failed error)

theorem breaks_of_history (hv : History (fresh config link) before v)
    (hnew : v.writer? r = none) (h : History v later s) (hm : m ∈ moments later s) {c : CallId}
    (hof : m.isOf r = true) (hsending : m.before.writer? r = some (.sending frame c)) :
    m.after.writer? r = some (.sending frame c) ∨ m.after.writer? r = some (.marking frame) ∨
      m.Breaks r c := by
  obtain ⟨_, _, hsplit⟩ := List.append_of_mem hm
  obtain ⟨ho, past, _, hpast, _, _⟩ := h.exists_of_moments hsplit
  have hfits := fits_of_history hv hnew hpast
  rw [isOf_iff.mp hof] at ho
  obtain ⟨hmove⟩ := ho
  rw [moves] at hmove
  split at hmove
  · next run hr =>
    rw [writer?, hr, Option.map_some, Option.some.injEq] at hsending
    rw [writer?, hr, Option.map_some] at hfits
    rcases writer?_sending hr hmove hsending hfits with hw | hw | hcancelled | hfailed
    · exact Or.inl hw
    · exact Or.inr (Or.inl hw)
    · refine Or.inr (Or.inr (Or.inl ?_))
      rw [hr, Option.map_some, hcancelled]
    · exact Or.inr (Or.inr (Or.inr hfailed))
  · simp at hmove

/-! ### What the far end reads -/

theorem mem_popped_of_begun (hv : History (fresh config link) before v)
    (hnew : v.writer? r = none) (h : History v later s)
    (hf : frame ∈ (output r (moments later s)).begun) :
    frame ∈ gather (Moment.popped r) (moments later s) := by
  obtain ⟨e, he, rfl⟩ := List.mem_map.mp hf
  rw [popped_of_history hv hnew h]
  exact List.mem_append_left _ (List.mem_map_of_mem (List.mem_filter.mp he).1)

/-- **What the far end reads is what the writer took.**  Since a time before a run began,
the writer of the run looked up every frame that it took from the queue, in this order, but
for one that it is about to look up, and they have the bytes of their messages.  What it
put on the line are the bytes of whole frames, and a part of one more frame: these are the
frames whose requests were pending when it looked them up, in that order, and a part is
there only of the last one, which is still being written or never will be.  The writer goes
on with a frame until it is written, unless its run is to end or the link fails.

A far end that receives these bytes, in pieces of any size, and asks a fresh decoder for
results at any times until there is none, is given the frames of the whole ones and no
error; and when their messages are canonical, it finds these messages in them.

Whatever notices the moves came with, the messages told to be written when the writer moved
are those of the whole frames, but perhaps for the last one.  And as long as no writer of
another run moved, nothing else came to the line and nothing else was told to be written. -/
theorem far_end_reads (hv : History (fresh config link) before v) (hnew : v.runs.find? r = none)
    (h : History v later s) :
    let ms := moments later s
    let out := output r ms
    gather (Moment.popped r) ms =
        (gather (Moment.looked r) ms).map Prod.fst ++
          ((s.writer? r).bind WriterPhase.checked?).toList ∧
      (∀ frame ∈ gather (Moment.popped r) ms, frame.envelope.encode = .ok frame.bytes) ∧
      (∃ complete part, out.Splits (s.writer? r) complete part ∧
        ∀ calls, Decoder.received calls = out.poured → Decoder.fresh.EndsDry calls →
          (Decoder.fresh.run calls).1 = complete.map (fun frame => .ok frame.envelope.layout) ∧
          ((∀ frame ∈ complete, frame.envelope.message.Canonical) →
            (Decoder.fresh.run calls).1.map (fun result => result.bind Envelope.ofFrame) =
              complete.map fun frame => .ok frame.envelope)) ∧
      (∀ m ∈ ms, ∀ frame c, m.isOf r = true → m.before.writer? r = some (.sending frame c) →
        m.after.writer? r = some (.sending frame c) ∨
          m.after.writer? r = some (.marking frame) ∨ m.Breaks r c) ∧
      (∀ told, Tells told ms →
        gather (Moment.sentBy told r) ms = out.noted.map fun frame => frame.envelope) ∧
      ((∀ m ∈ ms, ∀ r', m.what = .move (.writer r') → r' = r) →
        gather Moment.added ms = out.poured ∧
        ∀ told, Tells told ms →
          gather (Moment.sent told) ms = out.noted.map fun frame => frame.envelope) := by
  intro ms out
  have hnone : v.writer? r = none := by
    rw [writer?, hnew]
    rfl
  have hencode : ∀ frame ∈ gather (Moment.popped r) ms,
      frame.envelope.encode = .ok frame.bytes := by
    intro frame hf
    obtain ⟨_, _, _, _, _, _, hbytes⟩ := born_of_popped hv h hf
    exact hbytes
  have hbegun : ∀ frame ∈ out.begun, frame.envelope.encode = .ok frame.bytes :=
    fun frame hf => hencode frame (mem_popped_of_begun hv hnone h hf)
  have hsentBy : ∀ told, Tells told ms →
      gather (Moment.sentBy told r) ms = out.noted.map fun frame => frame.envelope := by
    intro told htold
    rw [gather_congr fun m hm => sentBy_eq_noted htold hm]
    exact gather_map _ _ _
  refine ⟨popped_of_history hv hnone h, hencode, ?_,
    fun m hm frame c => breaks_of_history hv hnone h hm, hsentBy, fun halone => ⟨?_, ?_⟩⟩
  · obtain ⟨complete, part, hsplits⟩ := (fits_of_history hv hnone h).splits
    refine ⟨complete, part, hsplits, fun calls hcalls hdry => ?_⟩
    have hresults := hsplits.results hbegun hcalls hdry
    refine ⟨hresults, fun hcanonical => ?_⟩
    rw [hresults, List.map_map]
    refine List.map_congr_left fun frame hf => ?_
    have hencoded := hbegun frame (hsplits.mem_begun hf)
    have hwritable := (Envelope.encode_eq_ok_iff.mp hencoded).1.1
    exact Envelope.ofFrame_eq_ok_iff.mpr ⟨⟨hcanonical frame hf, hwritable⟩, rfl⟩
  · refine gather_congr fun m hm => ?_
    obtain ⟨_, _, hsplit⟩ := List.append_of_mem hm
    obtain ⟨ho, past, _, hpast, _, _⟩ := h.exists_of_moments hsplit
    exact added_eq_poured ho (apart_of_history (hv.trans hpast)) (halone m hm)
  · intro told htold
    rw [← hsentBy told htold]
    exact gather_congr fun m hm => sent_eq_sentBy htold hm (halone m hm)

/-- The line has room for a frame and five bytes.  Three events are queued; the first is
written and noted, the second is withdrawn while the writer holds it, and the third is being
written when the session is stopped. -/
def lastCutShort : List Cue :=
  firstStart ++ [.input (.send (.controllerAt 1) (.event (.plain .root 7 .low)) .low),
    .input (.send (.controllerAt 1) (.event (.plain .root 8 .low)) .low),
    .input (.send (.controllerAt 1) (.event (.plain .root 9 .low)) .low)] ++
    List.replicate 7 (.move (.writer 1) 0) ++ .input (.cancel 2) ::
    List.replicate 6 (.move (.writer 1) 0) ++
    [.input .stop, .move (.control 2) 0, .move (.writer 1) 0]

theorem far_end_reads_lastCutShort : ∃ past s,
    History (fresh {} (.fresh "" (some 24) [])) past s ∧
    (gather (Moment.popped 1) (moments past s)).map OutboundFrame.id = [1, 2, 3] ∧
    (output 1 (moments past s)).begun.map OutboundFrame.id = [1, 3] ∧
    ∃ complete part, (output 1 (moments past s)).Splits (some .exited) complete part ∧
      complete.map OutboundFrame.id = [1] ∧ part.length = 5 ∧
      (Decoder.fresh.run [.extend (output 1 (moments past s)).poured, .next, .next]).1 =
        complete.map fun frame => .ok frame.envelope.layout := by
  obtain ⟨past, s, h, hpopped, hids, hexited, hpoured, hall, hfirst, hdry⟩ := exists_history
    (fresh {} (.fresh "" (some 24) [])) lastCutShort
    (fun past s =>
      let out := output 1 (moments past s)
      (gather (Moment.popped 1) (moments past s)).map OutboundFrame.id = [1, 2, 3] ∧
        out.begun.map OutboundFrame.id = [1, 3] ∧ s.writer? 1 = some .exited ∧
        out.poured.length = 24 ∧ (out.begun.flatMap OutboundFrame.bytes).length = 38 ∧
        (out.begun.dropLast.flatMap OutboundFrame.bytes).length = 19 ∧
        (Decoder.fresh.run [.extend out.poured, .next]).2.next.1 = none) (by decide +kernel)
  obtain ⟨_, _, ⟨complete, part, hsplits, hreads⟩, _⟩ := far_end_reads (r := 1)
    (.nil (fresh {} (.fresh "" (some 24) []))) rfl h
  rw [hexited] at hsplits
  have hlength := congrArg List.length hsplits.poured
  rw [hpoured, List.length_append] at hlength
  refine ⟨past, s, h, hpopped, hids, complete, part, hsplits, ?_, ?_, ?_⟩
  · rcases hsplits.begun with ⟨he, hpart⟩ | ⟨last, he, _⟩
    · rw [← he, hall] at hlength
      omega
    · rw [he, List.map_append] at hids
      exact List.append_inj_left' hids rfl
  · rcases hsplits.begun with ⟨he, hpart⟩ | ⟨last, he, _⟩
    · rw [← he, hall] at hlength
      omega
    · rw [he, List.dropLast_concat] at hfirst
      omega
  · exact (hreads _ (List.append_nil _) ⟨_, rfl, hdry⟩).1

end Session

end ZoneBus
