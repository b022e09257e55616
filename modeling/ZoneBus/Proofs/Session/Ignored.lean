import ZoneBus.Proofs.Runs
import ZoneBus.Proofs.Session.Callbacks
import ZoneBus.Proofs.Session.Change

/-!
# What is ignored leaves no trace

A decoder gives frames and errors.  A session ignores the errors, the frames that are no
messages, the messages for others, and of those for itself everything but packets and the
handshakes that answer something: it tells its observers of them, and that is all.  So a
stream has the same effects with and without them, wherever they stand in it, whatever
callbacks do, and whatever happens in between.

## Main definitions

* `Message.isOnlyNoted`, `Session.ignores` — messages that are noted, and results of a
  decoder that have no effect.
* `Session.hear` — results are handled one after another.
* `Session.heeded` — the results without those that are ignored.
* `Session.handleTo` — a result is handled, with callbacks that may use the session.
* `Change`, `Hearing`, `Session.hearing` — results come, and other things happen.
* `Session.ReadsOut` — a reader handles all that it has, by its own moves.

## Main results

* `Session.handle_of_ignored` — what is ignored is told to the observers, and that is all.
* `Session.hearing_filter` — it makes no difference, whatever happens besides.
* `Session.readsOut` — a reader handles all results of its decoder, and nothing else.
* `Session.ignored_leave_no_trace` — **a stream has the same effects without what is
  ignored.**
-/

namespace ZoneBus

/-- Whether a message is only noted, even by the session that it is for: an event, a request
for data, a message of unknown type, or the handshake for a packet. -/
def Message.isOnlyNoted : Message → Bool
  | setData _ => false
  | handshake kind => decide (kind = .data)
  | event _ | requestData _ | unknown _ _ => true

/-- What observers of the traffic are told of what comes in. -/
def Notice.isObserved : Notice → Bool
  | received _ | issue (.decode _) => true
  | _ => false

/-- Something that may happen to a session.  Its settings stay. -/
structure Change where
  /-- What becomes of the session. -/
  run : Session → Session
  /-- The settings stay. -/
  config : ∀ s, (run s).config = s.config

/-- What a session meets. -/
inductive Hearing where
  /-- A result of a decoder, with callbacks that do these things. -/
  | result (r : FrameResult) (react : SubscriptionId → PathUpdate → Change)
  /-- Something else. -/
  | meanwhile (change : Change)

namespace Decoder

variable {d d' : Decoder}

theorem drain_of_next_none (h : d.next = (none, d')) : d.drain = ([], d') := by
  rw [next] at h
  rw [drain]
  split
  · next hscan =>
    rw [hscan] at h
    rw [(Prod.mk.inj h).2]
  · next hscan =>
    rw [hscan] at h
    cases h

theorem drain_of_next_some {r : FrameResult} (h : d.next = (some r, d')) :
    d.drain = (r :: d'.drain.1, d'.drain.2) := by
  rw [next] at h
  rw [drain]
  split
  · next hscan =>
    rw [hscan] at h
    cases h
  · next hscan =>
    rw [hscan] at h
    cases h
    rfl

end Decoder

namespace Session

variable {s v : Session} {r : RunId} {run : Run} {result : FrameResult} {react : Reaction}

/-! ### Runs are no concern of messages -/

theorem enqueue_modifyRun (s : Session) (r : RunId) (f : Run → Run) (target : Address)
    (message : Message) (priority : Priority) :
    (s.modifyRun r f).enqueue target message priority =
      ((s.enqueue target message priority).1,
        (s.enqueue target message priority).2.modifyRun r f) := by
  rw [enqueue, enqueue, show (s.modifyRun r f).config = s.config from rfl]
  cases Envelope.encode ⟨target, s.config.localAddress, message⟩ with
  | error e => rfl
  | ok bytes =>
    dsimp only [modifyRun, deliver]
    cases s.queue.push priority _ <;> rfl

theorem acknowledge_modifyRun (s : Session) (r : RunId) (f : Run → Run) (source : Address) :
    (s.modifyRun r f).acknowledge source = (s.acknowledge source).modifyRun r f := by
  rw [acknowledge, acknowledge, enqueue_modifyRun]
  exact (apply_ite (modifyRun · r f) (s.config.acknowledgeData = true) _ _).symm

theorem acceptPacket_modifyRun (s : Session) (r : RunId) (f : Run → Run) (source : Address)
    (p : Packet) : (s.modifyRun r f).acceptPacket source p =
      ((s.acceptPacket source p).1.modifyRun r f, (s.acceptPacket source p).2) := by
  rw [acceptPacket, acceptPacket, acknowledge_modifyRun]
  generalize s.acknowledge source = s
  dsimp only [modifyRun]
  cases s.buffers.writePacket s.now source p.valuePath p.number p.count p.data with
  | mk answer buffers =>
    cases answer with
    | error e => rfl
    | ok completed => cases completed <;> rfl

theorem dispatch_modifyRun (s : Session) (r : RunId) (f : Run → Run) (e : Envelope) :
    (s.modifyRun r f).dispatch e = ((s.dispatch e).1.modifyRun r f, (s.dispatch e).2) := by
  rw [dispatch, dispatch, show (s.modifyRun r f).isFor e = s.isFor e from rfl]
  split
  · cases e.message with
    | setData p =>
      dsimp only
      rw [acceptPacket_modifyRun]
    | handshake kind =>
      dsimp only
      split <;> rfl
    | event | requestData | unknown => rfl
  · rfl

/-- Messages are handled alike however far the readers and writers have come. -/
theorem handle_modifyRun (s : Session) (r : RunId) (f : Run → Run) (result : FrameResult) :
    (s.modifyRun r f).handle result =
      ((s.handle result).1.modifyRun r f, (s.handle result).2) := by
  unfold handle
  cases result with
  | error e => rfl
  | ok frame =>
    dsimp only
    cases Envelope.ofFrame frame with
    | error e => rfl
    | ok e => exact s.dispatch_modifyRun r f e

/-! ### What is ignored -/

/-- Whether a session ignores a result: an error, a frame that is no message, a message for
others, or one that is only noted. -/
def ignores (s : Session) : FrameResult → Bool
  | .error _ => true
  | .ok frame =>
    match Envelope.ofFrame frame with
    | .error _ => true
    | .ok e => !s.isFor e || e.message.isOnlyNoted

/-- Handles a result, with callbacks that may use the session. -/
def handleTo (react : Reaction) (s : Session) : FrameResult → List Callback × Session
  | .error _ => ([], s)
  | .ok frame =>
    match Envelope.ofFrame frame with
    | .error _ => ([], s)
    | .ok e => s.dispatchTo react e

/-- What is ignored depends on the settings alone. -/
theorem ignores_congr (h : v.config = s.config) (result : FrameResult) :
    v.ignores result = s.ignores result := by
  have hfor : v.isFor = s.isFor := by
    funext e
    rw [isFor, isFor, h]
  unfold ignores
  rw [hfor]

/-- A message for others, or one that is only noted, is noted. -/
theorem dispatch_of_ignored {e : Envelope} (h : (!s.isFor e || e.message.isOnlyNoted) = true) :
    s.dispatch e = (s, [.received e]) ∧ ∀ react, s.dispatchTo react e = ([], s) := by
  cases hfor : s.isFor e with
  | false =>
    have hskip : s.dispatch e = (s, [.received e]) := by
      rw [dispatch, hfor]
      rfl
    refine ⟨hskip, fun react => ?_⟩
    rw [dispatchTo, hfor, hskip]
    rfl
  | true =>
    rw [hfor, Bool.not_true, Bool.false_or] at h
    have hskip : s.dispatch e = (s, [.received e]) := by
      rw [dispatch, hfor, if_pos rfl]
      cases hm : e.message with
      | setData p =>
        rw [hm] at h
        cases h
      | handshake kind =>
        rw [hm, Message.isOnlyNoted, decide_eq_true_eq] at h
        rw [h]
        rfl
      | event | requestData | unknown => rfl
    refine ⟨hskip, fun react => ?_⟩
    rw [dispatchTo, hfor, if_pos rfl]
    cases hm : e.message with
    | setData p =>
      rw [hm] at h
      cases h
    | event | requestData | unknown | handshake => rw [hskip]

/-- **What is ignored is told to the observers, and changes nothing.** -/
theorem handle_of_ignored (h : s.ignores result = true) :
    (s.handle result).1 = s ∧ (∃ n, (s.handle result).2 = [n] ∧ n.isObserved = true) ∧
      ∀ react, s.handleTo react result = ([], s) := by
  cases result with
  | error e => exact ⟨rfl, ⟨_, rfl, rfl⟩, fun _ => rfl⟩
  | ok frame =>
    unfold ignores at h
    unfold handle handleTo
    dsimp only at h ⊢
    cases hframe : Envelope.ofFrame frame with
    | error e => exact ⟨rfl, ⟨_, rfl, rfl⟩, fun _ => rfl⟩
    | ok e =>
      rw [hframe] at h
      obtain ⟨hdispatch, hcalls⟩ := dispatch_of_ignored h
      dsimp only
      rw [hdispatch]
      exact ⟨rfl, ⟨_, rfl, rfl⟩, hcalls⟩

/-- With callbacks that leave the session alone, this is how results are handled, and the
callbacks are those that become known. -/
theorem handle_eq (s : Session) (result : FrameResult) :
    (s.handle result).1 = (s.handleTo .still result).2 ∧
      (s.handle result).2.filter Notice.isUpdate =
        (s.handleTo .still result).1.map Callback.notice := by
  unfold handle handleTo
  cases result with
  | error e => exact ⟨rfl, rfl⟩
  | ok frame =>
    dsimp only
    cases Envelope.ofFrame frame with
    | error e => exact ⟨rfl, rfl⟩
    | ok e => exact s.dispatch_eq e

/-! ### Settings stay -/

theorem config_acceptPacketTo (hreact : ∀ id u v, (react id u v).config = v.config)
    (s : Session) (source : Address) (p : Packet) :
    (s.acceptPacketTo react source p).2.config = s.config := by
  refine ((packetWay_acceptPacketTo react s source p).invariant
    (P := fun v => v.config = s.config) ?_ (fun id u v h => (hreact id u v).trans h)
    fun _ _ _ h => h).1
  obtain ⟨_, _, _, _, hack⟩ := s.trafficOnly_acknowledge source
  rw [hack]

theorem config_handle (s : Session) (result : FrameResult) :
    (s.handle result).1.config = s.config := by
  obtain ⟨v, buffers, ⟨_, _, _, _, hv⟩, ⟨_, _, _, _, hhandled⟩⟩ := s.trafficOnly_handle result
  rw [hhandled, hv]

theorem runs_handle (s : Session) (result : FrameResult) :
    (s.handle result).1.runs = s.runs := by
  obtain ⟨v, buffers, ⟨_, _, _, _, hv⟩, ⟨_, _, _, _, hhandled⟩⟩ := s.trafficOnly_handle result
  rw [hhandled, hv]

/-- Handling a result leaves the settings as they are, if the callbacks do. -/
theorem config_handleTo (hreact : ∀ id u v, (react id u v).config = v.config) (s : Session)
    (result : FrameResult) : (s.handleTo react result).2.config = s.config := by
  have hhandle := s.config_handle result
  unfold handle at hhandle
  unfold handleTo
  cases result with
  | error e => rfl
  | ok frame =>
    dsimp only at hhandle ⊢
    cases hframe : Envelope.ofFrame frame with
    | error e => rfl
    | ok e =>
      rw [hframe] at hhandle
      dsimp only at hhandle ⊢
      rw [dispatchTo]
      split
      · split
        · exact config_acceptPacketTo hreact s e.source _
        · exact hhandle
      · exact hhandle

/-! ### Among other things -/

/-- What a session does at a hearing; these callbacks run. -/
def hearing (s : Session) : Hearing → List Callback × Session
  | .result r react => s.handleTo (fun id update => (react id update).run) r
  | .meanwhile change => ([], change.run s)

/-- Whether a session ignores what it meets. -/
def passesOver (s : Session) : Hearing → Bool
  | .result r _ => s.ignores r
  | .meanwhile _ => false

/-- What is met leaves the settings as they are. -/
theorem config_hearing (s : Session) (h : Hearing) : (s.hearing h).2.config = s.config := by
  cases h with
  | result r react => exact config_handleTo (fun id update => (react id update).config) s r
  | meanwhile change => exact change.config s

/-- **What is ignored makes no difference**: the session is the same in the end, and the same
callbacks ran, each on the same session. -/
theorem hearing_filter (s : Session) (hearings : List Hearing) :
    let kept := hearings.filter fun h => !s.passesOver h
    (runOps hearing s hearings).2 = (runOps hearing s kept).2 ∧
      (runOps hearing s hearings).1.flatten = (runOps hearing s kept).1.flatten := by
  -- the settings are those of the beginning all along, so the same is ignored
  refine runOps_filter_idle (P := fun v => v.config = s.config) ?_ ?_ hearings s rfl
  · intro h v hv hskip
    rw [Bool.not_eq_false'] at hskip
    cases h with
    | result r react =>
      exact (handle_of_ignored ((ignores_congr hv r).trans hskip)).2.2 _
    | meanwhile change => cases hskip
  · exact fun h v hv => (v.config_hearing h).trans hv

/-! ### Reading -/

/-- Handles some results one after another, and tells of each. -/
def hear (s : Session) (results : List FrameResult) : List (List Notice) × Session :=
  runOps (fun s r => ((s.handle r).2, (s.handle r).1)) s results

/-- Results that come one after another, to callbacks that leave the session alone. -/
def plainly (r : FrameResult) : Hearing := .result r fun _ _ => ⟨fun s => s, fun _ => rfl⟩

theorem hear_cons (s : Session) (r : FrameResult) (rs : List FrameResult) :
    s.hear (r :: rs) =
      ((s.handle r).2 :: ((s.handle r).1.hear rs).1, ((s.handle r).1.hear rs).2) :=
  rfl

/-- With callbacks that leave the session alone, this is how results are handled one after
another. -/
theorem hear_eq (results : List FrameResult) : ∀ s : Session,
    (s.hear results).2 = (runOps hearing s (results.map plainly)).2 ∧
      (s.hear results).1.flatten.filter Notice.isUpdate =
        (runOps hearing s (results.map plainly)).1.flatten.map Callback.notice := by
  induction results with
  | nil => exact fun s => ⟨rfl, rfl⟩
  | cons r rs ih =>
    intro s
    obtain ⟨hend, hcalls⟩ := s.handle_eq r
    obtain ⟨hends, hmore⟩ := ih (s.handle r).1
    rw [hear_cons, List.map_cons, runOps_cons, hends, List.flatten_cons, List.filter_append,
      hmore, hcalls, List.flatten_cons, List.map_append, hend]
    exact ⟨rfl, rfl⟩

/-- The same results, without those that are ignored. -/
def heeded (s : Session) (results : List FrameResult) : List FrameResult :=
  results.filter fun r => !s.ignores r

theorem map_plainly_heeded (s : Session) (results : List FrameResult) :
    (s.heeded results).map plainly =
      (results.map plainly).filter fun h => !s.passesOver h := by
  rw [heeded, List.filter_map]
  rfl

/-- A reader handles what it has, result after result, by its own moves, until it is about
to read again. -/
inductive ReadsOut (r : RunId) : Session → List Notice → Session → Prop where
  /-- It is about to read. -/
  | dry {s : Session} {run : Run} : s.runs.find? r = some run → run.reader = .idle →
      ReadsOut r s [] s
  /-- It has one move only, and goes on. -/
  | more {s v s' : Session} {run : Run} {notices later : List Notice} :
      s.runs.find? r = some run → run.reader = .handling → s.moves (.reader r) = [(v, notices)] →
      ReadsOut r v later s' → ReadsOut r s (notices ++ later) s'

theorem hear_modifyRun (r : RunId) (f : Run → Run) (results : List FrameResult) :
    ∀ s : Session, (s.modifyRun r f).hear results =
      ((s.hear results).1, (s.hear results).2.modifyRun r f) := by
  induction results with
  | nil => exact fun s => rfl
  | cons result results ih =>
    intro s
    rw [hear_cons, hear_cons, handle_modifyRun, ih]

theorem modifyRun_modifyRun (s : Session) (r : RunId) (f g : Run → Run) :
    (s.modifyRun r f).modifyRun r g = s.modifyRun r fun run => g (f run) := by
  have hentries : ∀ entries : List (RunId × Run),
      (entries.map fun e => if e.1 = r then (e.1, f e.2) else e).map
          (fun e => if e.1 = r then (e.1, g e.2) else e) =
        entries.map fun e => if e.1 = r then (e.1, g (f e.2)) else e := by
    intro entries
    rw [List.map_map]
    refine List.map_congr_left fun e _ => ?_
    by_cases he : e.1 = r
    · rw [Function.comp_apply, if_pos he, if_pos he, if_pos he]
    · rw [Function.comp_apply, if_neg he, if_neg he, if_neg he]
  rw [modifyRun, modifyRun, modifyRun, Directory.modify, Directory.modify, Directory.modify,
    hentries]

/-- **A reader handles all results of its decoder**, one after another, and nothing else. -/
theorem readsOut (d : Decoder) : ∀ {s : Session} {run : Run}, s.runs.find? r = some run →
    run.reader = .handling → run.decoder = d →
    ReadsOut r s (s.hear d.drain.1).1.flatten ((s.hear d.drain.1).2.modifyRun r fun run =>
      { run with reader := .idle, decoder := d.drain.2 }) := by
  -- by induction along the results, as the decoder gives them
  induction d using Decoder.drain.induct with
  | case1 d scanner rest hscan =>
    rintro s run hr hreader rfl
    have hnext : run.decoder.next = (none, ⟨scanner, rest⟩) := by rw [Decoder.next, hscan]
    rw [Decoder.drain_of_next_none hnext]
    have hmoves : s.moves (.reader r) = [(s.modifyRun r fun run =>
        { run with reader := .idle, decoder := ⟨scanner, rest⟩ }, [])] := by
      rw [moves, hr]
      dsimp only
      rw [readerMoves, hreader]
      dsimp only
      rw [hnext]
    exact .more hr hreader hmoves (.dry (by rw [find?_modifyRun, if_pos rfl, hr]; rfl) rfl)
  | case2 d result scanner rest hscan rs d' hdrain ih =>
    rintro s run hr hreader rfl
    have hnext : run.decoder.next = (some result, ⟨scanner, rest⟩) := by
      rw [Decoder.next, hscan]
    rw [Decoder.drain_of_next_some hnext, hear_cons, List.flatten_cons]
    have hmoves : s.moves (.reader r) = [((s.handle result).1.modifyRun r fun run =>
        { run with decoder := ⟨scanner, rest⟩ }, (s.handle result).2)] := by
      rw [moves, hr]
      dsimp only
      rw [readerMoves, hreader]
      dsimp only
      rw [hnext]
      dsimp only
      rw [handle_modifyRun]
    refine .more hr hreader hmoves ?_
    have hfind : ((s.handle result).1.modifyRun r fun run =>
        { run with decoder := ⟨scanner, rest⟩ }).runs.find? r =
          some { run with decoder := ⟨scanner, rest⟩ } := by
      rw [find?_modifyRun, if_pos rfl, runs_handle, hr]
      rfl
    have hlater := ih hfind hreader rfl
    rwa [hear_modifyRun, modifyRun_modifyRun] at hlater

/-- **A stream has the same effects without what is ignored**: the session is the same in
every respect, with its values, its requests that wait and those that ended, its queue and
its subscriptions, and the same subscribers were told the same.  This is so for the results
of any decoder that receives any bytes, and these are what a reader handles; and it is so
whatever callbacks do and whatever happens between any results.  What is ignored is told to
the observers, and changes nothing. -/
theorem ignored_leave_no_trace (s : Session) :
    (∀ (d : Decoder) (stream : Bytes),
      let results := (d.extend stream).drain.1
      (s.hear results).2 = (s.hear (s.heeded results)).2 ∧
        (s.hear results).1.flatten.filter Notice.isUpdate =
          (s.hear (s.heeded results)).1.flatten.filter Notice.isUpdate ∧
        ∀ r run, s.runs.find? r = some run → run.reader = .handling →
          run.decoder = d.extend stream →
          ReadsOut r s (s.hear results).1.flatten ((s.hear results).2.modifyRun r fun run =>
            { run with reader := .idle, decoder := (d.extend stream).drain.2 })) ∧
      (∀ hearings : List Hearing,
        let kept := hearings.filter fun h => !s.passesOver h
        (runOps hearing s hearings).2 = (runOps hearing s kept).2 ∧
          (runOps hearing s hearings).1.flatten = (runOps hearing s kept).1.flatten) ∧
      ∀ (v : Session) (result : FrameResult), v.config = s.config → s.ignores result = true →
        (v.handle result).1 = v ∧ ∃ n, (v.handle result).2 = [n] ∧ n.isObserved = true := by
  refine ⟨fun d stream => ?_, s.hearing_filter, fun v result hv h => ?_⟩
  · intro results
    obtain ⟨hend, hcalls⟩ := s.hear_eq results
    obtain ⟨hend', hcalls'⟩ := s.hear_eq (s.heeded results)
    obtain ⟨hsame, hsame'⟩ := s.hearing_filter (results.map plainly)
    rw [map_plainly_heeded] at hend' hcalls'
    rw [hend, hcalls, hend', hcalls', hsame, hsame']
    refine ⟨rfl, rfl, fun r run hr hreader hdecoder => ?_⟩
    rw [← hsame, ← hend]
    exact readsOut _ hr hreader hdecoder
  · obtain ⟨hsame, htold, _⟩ := handle_of_ignored ((ignores_congr hv result).trans h)
    exact ⟨hsame, htold⟩

end Session

end ZoneBus
