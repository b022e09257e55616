import ZoneBus.Proofs.Session.Inbound

/-!
# Callbacks

Callbacks run while a packet is taken, and they may use the session: look at values, send and
withdraw messages, subscribe and unsubscribe.  Here a packet is taken with callbacks that do
what they like, each on the session that the one before left.  A packet is acknowledged and
stored before the first of them runs, and the request for the value that it completes ends
after the last.

## Main definitions

* `Reaction` — what callbacks do to a session.
* `Callback` — a callback that ran, and the session as it found it.
* `Chain` — callbacks ran one after another.
* `Session.announceTo`, `Session.acceptPacketTo`, `Session.dispatchTo` — calling the
  subscribers of a place, taking a packet, taking any message.
* `Session.PacketWay` — the ways in which a packet is taken.

## Main results

* `Session.packetWay_acceptPacketTo` — **there are no other ways.**
* `Session.PacketWay.invariant` — what callbacks and replies keep.
* `Session.dispatch_eq` — with callbacks that leave the session alone, this is how messages
  are taken.
-/

namespace ZoneBus

/-- What the callback of a subscription does to the session when it is told of an update. -/
abbrev Reaction := SubscriptionId → PathUpdate → Session → Session

/-- The callbacks leave the session alone. -/
def Reaction.still : Reaction := fun _ _ s => s

/-- A callback that ran. -/
structure Callback where
  /-- Whose it is. -/
  id : SubscriptionId
  /-- What it is told. -/
  update : PathUpdate
  /-- The session as it finds it. -/
  found : Session

/-- What becomes known of a callback. -/
def Callback.notice (c : Callback) : Notice := .update c.id c.update

/-- Whether a subscriber was called, as a notice says. -/
def Notice.isUpdate : Notice → Bool
  | .update _ _ => true
  | _ => false

/-! ### One after another -/

/-- Callbacks run one after another, from one session to another. -/
def Chain (react : Reaction) (s : Session) : List Callback → Session → Prop
  | [], s' => s' = s
  | c :: cs, s' => c.found = s ∧ Chain react (react c.id c.update s) cs s'

namespace Chain

variable {react : Reaction} {s s' v : Session} {cs ds : List Callback}

theorem append (h : Chain react s cs v) (h' : Chain react v ds s') :
    Chain react s (cs ++ ds) s' := by
  induction cs generalizing s with
  | nil =>
    obtain rfl : v = s := h
    exact h'
  | cons c cs ih => exact ⟨h.1, ih h.2⟩

theorem concat (h : Chain react s cs v) (id : SubscriptionId) (update : PathUpdate) :
    Chain react s (cs ++ [⟨id, update, v⟩]) (react id update v) :=
  h.append (show Chain react v [⟨id, update, v⟩] _ from ⟨rfl, rfl⟩)

/-- What holds of the session before the callbacks, and is kept by each, holds of every
session that one of them finds, and of the one after them. -/
theorem invariant {P : Session → Prop} (keep : ∀ id update v, P v → P (react id update v))
    (h : Chain react s cs s') (hs : P s) : P s' ∧ ∀ c ∈ cs, P c.found := by
  induction cs generalizing s with
  | nil =>
    obtain rfl : s' = s := h
    exact ⟨hs, List.forall_mem_nil _⟩
  | cons c cs ih =>
    obtain ⟨hend, hfound⟩ := ih h.2 (keep _ _ _ hs)
    rw [List.forall_mem_cons, h.1]
    exact ⟨hend, hs, hfound⟩

end Chain

namespace Session

variable {react : Reaction} {s : Session} {place : Place} {update : PathUpdate}

/-! ### Calling the subscribers -/

/-- Calls the subscribers of a place, as they stand before the first callback runs. -/
def announceTo (react : Reaction) (s : Session) (place : Place) (update : PathUpdate) :
    List Callback × Session :=
  (s.subscriptions.notify place
    (fun ran id _ => (ran.1 ++ [⟨id, update, ran.2⟩], react id update ran.2)) ([], s)).2

/-- The callbacks of a place ran one after another, each once, and were told of an update. -/
structure Called (react : Reaction) (s : Session) (place : Place) (update : PathUpdate)
    (cs : List Callback) (s' : Session) : Prop where
  /-- They ran one after another. -/
  chain : Chain react s cs s'
  /-- They are those of the subscribers, in the order of subscription. -/
  ids : cs.map Callback.id = (s.subscriptions.subscribers place).map Prod.fst
  /-- They were told of the update. -/
  updates : ∀ c ∈ cs, c.update = update

theorem called_announceTo (react : Reaction) (s : Session) (place : Place)
    (update : PathUpdate) : s.Called react place update (s.announceTo react place update).1
      (s.announceTo react place update).2 := by
  -- the callbacks that ran so far, and the subscribers that are left
  have called : ∀ (left : List (SubscriptionId × Unit)) (ran : List Callback × Session),
      Chain react s ran.1 ran.2 → (∀ c ∈ ran.1, c.update = update) →
      let all := left.foldl
        (fun ran e => (ran.1 ++ [⟨e.1, update, ran.2⟩], react e.1 update ran.2)) ran
      Chain react s all.1 all.2 ∧
        all.1.map Callback.id = ran.1.map Callback.id ++ left.map Prod.fst ∧
        ∀ c ∈ all.1, c.update = update := by
    intro left
    induction left with
    | nil => exact fun ran h hu => ⟨h, (List.append_nil _).symm, hu⟩
    | cons e left ih =>
      intro ran h hu
      obtain ⟨hchain, hids, hupdates⟩ :=
        ih (ran.1 ++ [⟨e.1, update, ran.2⟩], react e.1 update ran.2) (h.concat e.1 update) (by
          rw [List.forall_mem_append, List.forall_mem_singleton]
          exact ⟨hu, rfl⟩)
      refine ⟨hchain, hids.trans ?_, hupdates⟩
      rw [List.map_append, List.append_assoc]
      rfl
  obtain ⟨hchain, hids, hupdates⟩ :=
    called (s.subscriptions.subscribers place) ([], s) rfl (List.forall_mem_nil _)
  exact ⟨hchain, hids, hupdates⟩

/-- Callbacks that leave the session alone are just told. -/
theorem announceTo_still (s : Session) (place : Place) (update : PathUpdate) :
    (s.announceTo .still place update).2 = s ∧
      (s.announceTo .still place update).1.map Callback.notice = s.announce place update := by
  have called : ∀ (left : List (SubscriptionId × Unit)) (ran : List Callback),
      let all := left.foldl (fun ran e =>
        (ran.1 ++ [⟨e.1, update, ran.2⟩], Reaction.still e.1 update ran.2)) (ran, s)
      all.2 = s ∧ all.1.map Callback.notice =
        left.foldl (fun notices e => notices ++ [.update e.1 update])
          (ran.map Callback.notice) := by
    intro left
    induction left with
    | nil => exact fun ran => ⟨rfl, rfl⟩
    | cons e left ih =>
      intro ran
      obtain ⟨hend, hnotices⟩ := ih (ran ++ [⟨e.1, update, s⟩])
      refine ⟨hend, hnotices.trans ?_⟩
      rw [List.map_append]
      rfl
  exact called _ []

/-! ### Taking a packet -/

/-- Takes a packet of a value, with callbacks that may use the session. -/
def acceptPacketTo (react : Reaction) (s : Session) (source : Address) (p : Packet) :
    List Callback × Session :=
  let s := s.acknowledge source
  let path := p.valuePath
  match s.buffers.writePacket s.now source path p.number p.count p.data with
  | (.error _, buffers) => ([], { s with buffers := buffers })
  | (.ok completed, buffers) =>
    let (shown, s) := announceTo react { s with buffers := buffers } (source, path)
      (.fragment source path p.number p.count p.data)
    match completed with
    | none => (shown, s)
    | some value =>
      let (whole, s) := s.announceTo react (source, path) (.complete source path value)
      (shown ++ whole, s.resolve (.data source path) (.data value))

/-- Takes a message, with callbacks that may use the session. -/
def dispatchTo (react : Reaction) (s : Session) (e : Envelope) : List Callback × Session :=
  if s.isFor e then
    match e.message with
    | .setData p => s.acceptPacketTo react e.source p
    | _ => ([], (s.dispatch e).1)
  else ([], (s.dispatch e).1)

/-- What a packet makes of the buffers. -/
def stored (s : Session) (source : Address) (p : Packet) :
    Except BufferError (Option Bytes) × BufferStore :=
  s.buffers.writePacket s.now source p.valuePath p.number p.count p.data

/-- What is shown of a packet that is accepted. -/
def shownOf (source : Address) (p : Packet) : PathUpdate :=
  .fragment source p.valuePath p.number p.count p.data

/-- The ways in which a packet is taken.  It is acknowledged and stored first; what completes
a value ends the request for it last. -/
inductive PacketWay (react : Reaction) (s : Session) (source : Address) (p : Packet) :
    List Callback → Session → Prop where
  /-- It is refused, and nobody is called. -/
  | refused {e : BufferError} {buffers : BufferStore} : s.stored source p = (.error e, buffers) →
      PacketWay react s source p [] { s.acknowledge source with buffers := buffers }
  /-- The transfer goes on. -/
  | goesOn {buffers : BufferStore} {shown : List Callback} {s' : Session} :
      s.stored source p = (.ok none, buffers) →
      Called react { s.acknowledge source with buffers := buffers } (source, p.valuePath)
        (shownOf source p) shown s' →
      PacketWay react s source p shown s'
  /-- It completes a value. -/
  | completes {value : Bytes} {buffers : BufferStore} {shown whole : List Callback}
      {v s' : Session} :
      s.stored source p = (.ok (some value), buffers) →
      Called react { s.acknowledge source with buffers := buffers } (source, p.valuePath)
        (shownOf source p) shown v →
      Called react v (source, p.valuePath) (.complete source p.valuePath value) whole s' →
      PacketWay react s source p (shown ++ whole)
        (s'.resolve (.data source p.valuePath) (.data value))

/-- What holds once the packet is stored, and is kept by callbacks and replies, holds of every
session that a callback finds, and in the end. -/
theorem PacketWay.invariant {P : Session → Prop} {source : Address} {p : Packet}
    {cs : List Callback} {s' : Session} (h : PacketWay react s source p cs s')
    (hs : P { s.acknowledge source with buffers := (s.stored source p).2 })
    (keep : ∀ id update v, P v → P (react id update v))
    (resolve : ∀ key reply v, P v → P (v.resolve key reply)) : P s' ∧ ∀ c ∈ cs, P c.found := by
  cases h with
  | refused hw =>
    rw [hw] at hs
    exact ⟨hs, List.forall_mem_nil _⟩
  | goesOn hw hshown =>
    rw [hw] at hs
    exact hshown.chain.invariant keep hs
  | completes hw hshown hwhole =>
    rw [hw] at hs
    obtain ⟨hend, hfound⟩ := (hshown.chain.append hwhole.chain).invariant keep hs
    exact ⟨resolve _ _ _ hend, hfound⟩

/-- What a packet makes of the buffers does not depend on its acknowledgement. -/
theorem stored_acknowledge (s : Session) (source a : Address) (p : Packet) :
    (s.acknowledge a).stored source p = s.stored source p := by
  obtain ⟨_, _, _, _, hack⟩ := s.trafficOnly_acknowledge a
  rw [hack]
  rfl

/-- **A packet is taken in one of the ways.** -/
theorem packetWay_acceptPacketTo (react : Reaction) (s : Session) (source : Address)
    (p : Packet) : PacketWay react s source p (s.acceptPacketTo react source p).1
      (s.acceptPacketTo react source p).2 := by
  have hstored := s.stored_acknowledge source source p
  rw [acceptPacketTo]
  dsimp only
  rw [show (s.acknowledge source).buffers.writePacket (s.acknowledge source).now source
    p.valuePath p.number p.count p.data = s.stored source p from hstored]
  split
  · next hw => exact .refused hw
  · next completed buffers hw =>
    split
    · exact .goesOn hw (called_announceTo _ _ _ _)
    · exact .completes hw (called_announceTo _ _ _ _) (called_announceTo _ _ _ _)

theorem filter_notices (cs : List Callback) :
    (cs.map Callback.notice).filter Notice.isUpdate = cs.map Callback.notice := by
  rw [List.filter_eq_self, List.forall_mem_map]
  exact fun _ _ => rfl

theorem acceptPacket_eq (s : Session) (source : Address) (p : Packet) :
    (s.acceptPacket source p).1 = (s.acceptPacketTo .still source p).2 ∧
      (s.acceptPacket source p).2.filter Notice.isUpdate =
        (s.acceptPacketTo .still source p).1.map Callback.notice := by
  rw [acceptPacket, acceptPacketTo]
  dsimp only
  generalize (s.acknowledge source).buffers.writePacket (s.acknowledge source).now source
    p.valuePath p.number p.count p.data = taken
  obtain ⟨answer, buffers⟩ := taken
  cases answer with
  | error e => exact ⟨rfl, rfl⟩
  | ok completed =>
    dsimp only
    obtain ⟨hleft, hshown⟩ := announceTo_still { s.acknowledge source with buffers := buffers }
      (source, p.valuePath) (.fragment source p.valuePath p.number p.count p.data)
    rw [hleft, ← hshown]
    cases completed with
    | none => exact ⟨rfl, filter_notices _⟩
    | some value =>
      obtain ⟨hend, hwhole⟩ := announceTo_still { s.acknowledge source with buffers := buffers }
        (source, p.valuePath) (.complete source p.valuePath value)
      dsimp only
      rw [hend, ← hwhole, ← List.map_append]
      exact ⟨rfl, filter_notices _⟩

/-- **With callbacks that leave the session alone, this is how messages are taken**, and the
callbacks are those that become known. -/
theorem dispatch_eq (s : Session) (e : Envelope) :
    (s.dispatch e).1 = (s.dispatchTo .still e).2 ∧
      (s.dispatch e).2.filter Notice.isUpdate =
        (s.dispatchTo .still e).1.map Callback.notice := by
  rw [dispatchTo]
  by_cases hfor : s.isFor e = true
  · rw [if_pos hfor]
    cases hm : e.message with
    | setData p =>
      obtain ⟨hend, hnotices⟩ := s.acceptPacket_eq e.source p
      rw [dispatch, if_pos hfor, hm]
      exact ⟨hend, hnotices⟩
    | handshake kind =>
      refine ⟨rfl, ?_⟩
      rw [dispatch, if_pos hfor, hm]
      dsimp only
      split <;> rfl
    | event | requestData | unknown =>
      refine ⟨rfl, ?_⟩
      rw [dispatch, if_pos hfor, hm]
      rfl
  · rw [if_neg hfor]
    refine ⟨rfl, ?_⟩
    rw [dispatch, if_neg hfor]
    rfl

end Session

end ZoneBus
