import ZoneBus.Proofs.Reassembly.Places
import ZoneBus.Proofs.Reassembly.Views
import ZoneBus.Proofs.Request.Lines
import ZoneBus.Proofs.Session.Callbacks
import ZoneBus.Proofs.Session.History
import ZoneBus.Proofs.Subscription.Roll
import ZoneBus.Proofs.Transfer.Mixing

/-!
# What a subscriber sees

Somebody subscribes to a place and stays subscribed, while packets come for this place and
for others, values are forgotten, and callbacks and callers do what they like, except that
no callback forgets a value.  What he is told can then be told from what comes to his place
alone: it is what one buffer would show of it.  So every value is shown right after the
fragments that make it up; and by then it can be read, while the request for it has not
ended yet.

## Main definitions

* `seenBy` — what a subscriber is told by some callbacks.
* `Session.SubscribedAt` — a subscription stands at one place, once.
* `Session.LeavesBe` — something leaves values and a subscription alone.
* `Session.ShownInTime` — a value can be read when it is shown, and its request ends last.
* `Session.Episode`, `Session.undergo` — a message is taken, a value is forgotten, or
  something else happens.
* `Session.Episode.arrival?` — what comes to a place by an episode.
* `Session.Sees` — what a subscriber sees goes on with what his buffer shows.

## Main results

* `Session.leavesBe_apply` — callers leave values and a subscription alone, unless they
  forget a value or end the subscription.
* `Session.sees_undergo`, `Session.sees_episodes` — what he sees of one episode, and of many,
  is what one buffer shows.
* `Session.subscriber_sees` — **what a subscriber sees, and what holds when he sees a value.**
-/

namespace ZoneBus

/-- What a subscriber is told by some callbacks. -/
def seenBy (id : SubscriptionId) (cs : List Callback) : List PathUpdate :=
  (cs.filter fun c => decide (c.id = id)).map Callback.update

theorem seenBy_append (id : SubscriptionId) (cs ds : List Callback) :
    seenBy id (cs ++ ds) = seenBy id cs ++ seenBy id ds := by
  rw [seenBy, List.filter_append, List.map_append]
  rfl

namespace Subscriptions

variable {α : Type} {id j : SubscriptionId}

/-- Whoever unsubscribes leaves the others subscribed. -/
theorem count_unsubscribe (subs : Subscriptions α) (h : j ≠ id) (place : Place) :
    (((subs.unsubscribe j).2.subscribers place).map Prod.fst).count id =
      ((subs.subscribers place).map Prod.fst).count id := by
  cases hf : subs.byId.find? j with
  | none => rw [unsubscribe, hf]
  | some here =>
    rw [subscribers_unsubscribe hf]
    split
    · next he =>
      subst he
      rw [List.count_eq_countP, List.count_eq_countP, List.countP_map, List.countP_map,
        List.countP_filter]
      refine List.countP_congr fun e _ => ?_
      simp only [Function.comp_apply, beq_iff_eq, Bool.and_eq_true, decide_eq_true_eq,
        and_iff_left_iff_imp]
      exact fun he => he ▸ h.symm
    · rfl

end Subscriptions

namespace Session

variable {s s' v : Session} {id : SubscriptionId} {place : Place} {react : Reaction}
  {source : Address} {p : Packet} {cs : List Callback}

/-! ### Staying subscribed -/

/-- A subscription stands at a place, once, and nowhere else. -/
structure SubscribedAt (s : Session) (id : SubscriptionId) (place : Place) : Prop where
  /-- Its number was given out. -/
  numbered : id ≤ s.subscriptions.ids.given
  /-- It stands where it does. -/
  stands : ∀ place', ((s.subscriptions.subscribers place').map Prod.fst).count id =
    if place' = place then 1 else 0

/-- Something that may happen to a session leaves its settings, its values and a subscription
alone. -/
structure LeavesBe (id : SubscriptionId) (place : Place) (f : Session → Session) : Prop where
  /-- The settings stay. -/
  config : ∀ v, (f v).config = v.config
  /-- The values stay. -/
  buffers : ∀ v, (f v).buffers = v.buffers
  /-- The subscription stays. -/
  subscribed : ∀ v, v.SubscribedAt id place → (f v).SubscribedAt id place

theorem SubscribedAt.of_eq (h : s.SubscribedAt id place) (he : s'.subscriptions = s.subscriptions) :
    s'.SubscribedAt id place := by
  obtain ⟨hnumbered, hstands⟩ := h
  rw [← he] at hnumbered hstands
  exact ⟨hnumbered, hstands⟩

/-- A session with the same settings, values and subscriptions. -/
def SameValues (s s' : Session) : Prop :=
  s'.config = s.config ∧ s'.buffers = s.buffers ∧ s'.subscriptions = s.subscriptions

theorem leavesBe_of_sameValues {f : Session → Session} (h : ∀ v : Session, v.SameValues (f v)) :
    LeavesBe id place f :=
  ⟨fun v => (h v).1, fun v => (h v).2.1, fun v hv => hv.of_eq (h v).2.2⟩

/-- Requests and frames have nothing to do with values and subscriptions. -/
theorem TrafficOnly.sameValues (h : s.TrafficOnly s') : s.SameValues s' := by
  obtain ⟨_, _, _, _, rfl⟩ := h
  exact ⟨rfl, rfl, rfl⟩

theorem sameValues_beginSend (s : Session) (i : CallerId) (target : Address) (message : Message)
    (priority : Priority) (phase : RequestId → CallPhase) :
    s.SameValues (s.beginSend i target message priority phase).1 := by
  have hs := (s.trafficOnly_send target message priority).sameValues
  rw [beginSend]
  split
  · next heq =>
    rw [heq] at hs
    exact hs
  · next heq =>
    rw [heq] at hs
    exact hs

theorem subscribers_subscribe (s : Session) (target : Address) (path : Path) (place' : Place) :
    (s.subscribe target path).2.subscriptions.subscribers place' =
      if (target, path) = place' then
        s.subscriptions.subscribers (target, path) ++ [((s.subscribe target path).1, ())]
      else s.subscriptions.subscribers place' :=
  s.subscriptions.subscribers_subscribe (target, path) place' ()

/-- Who subscribes under a number that nobody has is subscribed at his place. -/
theorem subscribedAt_subscribe {target : Address} {path : Path}
    (h : ∀ place', ((s.subscriptions.subscribers place').map Prod.fst).count
      (s.subscribe target path).1 = 0) :
    (s.subscribe target path).2.SubscribedAt (s.subscribe target path).1 (target, path) := by
  refine ⟨Nat.le_refl _, fun place' => ?_⟩
  rw [subscribers_subscribe]
  by_cases he : (target, path) = place'
  · rw [if_pos he, if_pos he.symm, List.map_append, List.count_append, h]
    simp
  · rw [if_neg he, if_neg (Ne.symm he), h]

/-- Others who subscribe have other numbers. -/
theorem leavesBe_subscribe (target : Address) (path : Path) :
    LeavesBe id place fun v => (v.subscribe target path).2 where
  config := fun _ => rfl
  buffers := fun _ => rfl
  subscribed := fun v hv => by
    have hne : (v.subscribe target path).1 ≠ id :=
      Nat.ne_of_gt (Nat.lt_succ_of_le hv.numbered)
    refine ⟨Nat.le_succ_of_le hv.numbered, fun place' => ?_⟩
    rw [subscribers_subscribe]
    split
    · next he =>
      subst he
      rw [List.map_append, List.count_append, hv.stands, List.map_singleton,
        List.count_singleton, beq_false_of_ne hne]
      rfl
    · exact hv.stands place'

/-- Others may unsubscribe. -/
theorem leavesBe_unsubscribe {j : SubscriptionId} (h : j ≠ id) :
    LeavesBe id place fun v => (v.unsubscribe j).2 where
  config := fun _ => rfl
  buffers := fun _ => rfl
  subscribed := fun v hv =>
    ⟨(v.subscriptions.ids_unsubscribe j).symm ▸ hv.numbered,
      fun place' => (v.subscriptions.count_unsubscribe h place').trans (hv.stands place')⟩

/-- **Callers may do what they like**, as long as they forget no value and leave the
subscription alone. -/
theorem leavesBe_apply {i : Input} (hforget : ∀ target path, i ≠ .forget target path)
    (hleave : i ≠ .unsubscribe id) : LeavesBe id place fun v => v.apply i := by
  cases i with
  | subscribe target path => exact leavesBe_subscribe target path
  | unsubscribe j => exact leavesBe_unsubscribe fun he => hleave (he ▸ rfl)
  | forget target path => exact absurd rfl (hforget target path)
  | send target message priority =>
    exact leavesBe_of_sameValues fun v => (v.trafficOnly_send target message priority).sameValues
  | cancel i => exact leavesBe_of_sameValues fun v => (v.trafficOnly_withdraw i _).sameValues
  | event i target path event priority =>
    exact leavesBe_of_sameValues fun v => v.sameValues_beginSend _ _ _ _ _
  | read i target path refresh =>
    refine leavesBe_of_sameValues fun v => ?_
    rw [apply, beginRead]
    split
    · exact ⟨rfl, rfl, rfl⟩
    · exact v.sameValues_beginSend _ _ _ _ _
  | write i target path value priority =>
    refine leavesBe_of_sameValues fun v => ?_
    rw [apply, beginWrite]
    split <;> exact ⟨rfl, rfl, rfl⟩
  | start | stop | await | farEnd | pass | skipScans =>
    exact leavesBe_of_sameValues fun _ => ⟨rfl, rfl, rfl⟩

/-! ### One packet -/

/-- Callbacks of a place tell a subscriber once, if he is one of its subscribers. -/
theorem seenBy_called {here : Place} {update : PathUpdate}
    (h : s.Called react here update cs s') (hsub : s.SubscribedAt id place) :
    seenBy id cs = if here = place then [update] else [] := by
  have hcount : (seenBy id cs).length = if here = place then 1 else 0 := by
    rw [← hsub.stands here, ← h.ids, seenBy, List.length_map, List.count, List.countP_map,
      List.countP_eq_length_filter]
    refine congrArg List.length (List.filter_congr fun c _ => ?_)
    rfl
  have hall : ∀ u ∈ seenBy id cs, u = update := by
    intro u hu
    obtain ⟨c, hc, rfl⟩ := List.mem_map.mp hu
    exact h.updates c (List.mem_filter.mp hc).1
  rw [List.eq_replicate_of_mem hall, hcount]
  split <;> rfl

/-- What callbacks keep that leave values and a subscription alone. -/
structure Kept (s : Session) (id : SubscriptionId) (place : Place) (buffers : BufferStore)
    (v : Session) : Prop where
  /-- The settings are these. -/
  config : v.config = s.config
  /-- The values are these. -/
  buffers : v.buffers = buffers
  /-- The subscription stands. -/
  subscribed : v.SubscribedAt id place

theorem Kept.of_react {buffers : BufferStore} (hreact : ∀ i u, LeavesBe id place (react i u)) :
    ∀ i u v, Kept s id place buffers v → Kept s id place buffers (react i u v) :=
  fun i u v h => ⟨((hreact i u).config v).trans h.config, ((hreact i u).buffers v).trans h.buffers,
    (hreact i u).subscribed v h.subscribed⟩

/-- Acknowledging and storing a packet leave the settings and the subscription alone. -/
theorem kept_stored (hsub : s.SubscribedAt id place) (a : Address) (buffers : BufferStore) :
    Kept s id place buffers { s.acknowledge a with buffers := buffers } := by
  obtain ⟨_, _, _, _, hack⟩ := s.trafficOnly_acknowledge a
  rw [hack]
  exact ⟨rfl, rfl, hsub.of_eq rfl⟩

theorem Kept.resolve {buffers : BufferStore} (h : Kept s id place buffers v) (key : ReplyKey)
    (reply : Reply) : Kept s id place buffers (v.resolve key reply) :=
  ⟨h.config, h.buffers, h.subscribed.of_eq rfl⟩

/-- What a packet makes of the buffers, it makes of the buffer of its place. -/
theorem bufferOf_stored (s : Session) (source : Address) (p : Packet) (place : Place) :
    (s.stored source p).1 =
        ((s.buffers.bufferOf source p.valuePath).takeFragment (p.fragment s.now)).1 ∧
      (s.stored source p).2.bufferOf place.1 place.2 =
        if (source, p.valuePath) = place then
          ((s.buffers.bufferOf source p.valuePath).takeFragment (p.fragment s.now)).2
        else s.buffers.bufferOf place.1 place.2 :=
  s.buffers.bufferOf_writePacket (source, p.valuePath) place (p.fragment s.now)

/-- Callbacks that leave values and a subscription alone keep what the packet left. -/
theorem kept_packet {s' : Session} (hway : PacketWay react s source p cs s')
    (hreact : ∀ i u, LeavesBe id place (react i u)) (hsub : s.SubscribedAt id place) :
    Kept s id place (s.stored source p).2 s' ∧
      ∀ c ∈ cs, Kept s id place (s.stored source p).2 c.found :=
  hway.invariant (kept_stored hsub source _) (Kept.of_react hreact)
    fun key reply _ h => h.resolve key reply

/-- **What a subscriber sees of a packet**: what its buffer shows, if it is for his place. -/
theorem seen_packet {s' : Session} (hway : PacketWay react s source p cs s')
    (hreact : ∀ i u, LeavesBe id place (react i u)) (hsub : s.SubscribedAt id place) :
    seenBy id cs = if (source, p.valuePath) = place then
      (PlaceEvent.fragment (p.fragment s.now)).shown place (s.stored source p).1 else [] := by
  have hstart := fun buffers => kept_stored hsub source buffers
  cases hway with
  | refused hw =>
    rw [hw]
    split <;> rfl
  | @goesOn buffers _ _ hw hshown =>
    rw [hw, seenBy_called hshown (hstart buffers).subscribed]
    split
    · next hhere =>
      subst hhere
      rfl
    · rfl
  | @completes _ buffers _ _ _ _ hw hshown hwhole =>
    obtain ⟨hmid, _⟩ := hshown.chain.invariant (Kept.of_react hreact) (hstart buffers)
    rw [hw, seenBy_append, seenBy_called hshown (hstart buffers).subscribed,
      seenBy_called hwhole hmid.subscribed]
    split
    · next hhere =>
      subst hhere
      rfl
    · rfl

/-- **A value is shown in time.**  When the subscriber is told of it, it can be read.  The
session does nothing but run the callbacks until the last of them has run; then the request
for the value ends, with this value. -/
structure ShownInTime (react : Reaction) (s : Session) (place : Place) (cs : List Callback)
    (s' : Session) (c : Callback) (value : Bytes) : Prop where
  /-- It can be read. -/
  cached : c.found.cached place.1 place.2 = some value
  /-- The request ends last. -/
  endsLast : ∃ buffers left,
    Chain react { s.acknowledge place.1 with buffers := buffers } cs left ∧
      s' = left.resolve (.data place.1 place.2) (.data value) ∧
      ∀ r rest, left.pending.line (.data place.1 place.2) = r :: rest →
        left.pending.contains r = true → (r, .success (.data value)) ∈ s'.delivered

/-- A reply ends the request at the front of its line. -/
theorem mem_delivered_resolve {key : ReplyKey} {r : RequestId} {rest : List RequestId}
    (hline : s.pending.line key = r :: rest) (hr : s.pending.contains r = true) (reply : Reply) :
    (r, .success reply) ∈ (s.resolve key reply).delivered := by
  rw [Session.resolve, PendingTable.resolve, PendingTable.find?_of_line hline]
  dsimp only
  rw [if_pos hr]
  exact List.mem_append_right _ List.mem_cons_self

/-- Whoever is told of a value by the callbacks of a packet is told in time. -/
theorem shownInTime_packet {s' : Session} (hway : PacketWay react s source p cs s')
    (hreact : ∀ i u, LeavesBe id place (react i u)) (hsub : s.SubscribedAt id place) {c : Callback}
    (hc : c ∈ cs) {a : Address} {path : Path} {value : Bytes}
    (hupdate : c.update = .complete a path value) :
    ShownInTime react s (a, path) cs s' c value := by
  obtain ⟨_, hfound⟩ := kept_packet hway hreact hsub
  -- only the callbacks of a whole value are told of one
  have notShown : ∀ {here : Place} {v w : Session} {ds : List Callback} {a' : Address}
      {path' : Path} {number count : UInt16} {bytes : Bytes},
      v.Called react here (.fragment a' path' number count bytes) ds w → c ∉ ds := by
    intro _ _ _ _ _ _ _ _ _ hcalled hmem
    have hsame := hcalled.updates c hmem
    rw [hupdate] at hsame
    cases hsame
  cases hway with
  | refused => cases hc
  | goesOn _ hshown => exact absurd hc (notShown hshown)
  | @completes value' buffers shown whole v left hw hshown hwhole =>
    have hmem := (List.mem_append.mp hc).resolve_left (notShown hshown)
    have hsame := hwhole.updates c hmem
    rw [hupdate] at hsame
    obtain ⟨rfl, rfl, rfl⟩ := PathUpdate.complete.inj hsame.symm
    refine ⟨?_, buffers, left, hshown.chain.append hwhole.chain, rfl,
      fun r rest hline hr => mem_delivered_resolve hline hr _⟩
    -- the callbacks find the buffers that the packet left
    obtain ⟨hanswer, hthere⟩ := s.bufferOf_stored source p (source, p.valuePath)
    rw [Session.cached, (hfound c hc).buffers, BufferStore.read_eq, hthere, if_pos rfl,
      Buffer.read_takeFragment, ← hanswer, hw]
    rfl

/-! ### Episode by episode -/

/-- The packet that a message brings, if the message is for this session. -/
def packet? (s : Session) (e : Envelope) : Option Packet :=
  match e.message with
  | .setData p => if s.isFor e then some p else none
  | _ => none

theorem dispatchTo_of_packet {e : Envelope} (h : s.packet? e = some p) (react : Reaction) :
    s.dispatchTo react e = s.acceptPacketTo react e.source p := by
  rw [packet?] at h
  split at h
  · next p' hp =>
    split at h
    · next hfor =>
      obtain rfl := Option.some.inj h
      rw [dispatchTo, if_pos hfor, hp]
    · cases h
  · cases h

/-- Taking a message that brings no packet runs no callbacks, and changes no settings, no
value and no subscription. -/
theorem kept_dispatchTo (hsub : s.SubscribedAt id place) {e : Envelope} (h : s.packet? e = none)
    (react : Reaction) : (s.dispatchTo react e).1 = [] ∧
      Kept s id place s.buffers (s.dispatchTo react e).2 := by
  have hself : Kept s id place s.buffers s := ⟨rfl, rfl, hsub⟩
  rw [dispatchTo]
  split
  · next hfor =>
    split
    · next p hp =>
      rw [packet?, hp] at h
      dsimp only at h
      rw [if_pos hfor] at h
      cases h
    · next hno =>
      refine ⟨rfl, ?_⟩
      rw [dispatch, if_pos hfor]
      split
      · split
        · exact hself
        · exact hself.resolve _ _
      · next p hp => exact absurd hp (hno p)
      · exact hself
  · next hfor =>
    refine ⟨rfl, ?_⟩
    rw [dispatch, if_neg hfor]
    exact hself

/-- What happens to a session. -/
inductive Episode where
  /-- A message is taken at some time, with callbacks that do these things. -/
  | dispatch (now : Instant) (e : Envelope) (react : Reaction)
  /-- A value is forgotten. -/
  | forget (target : Address) (path : Path)
  /-- Something else. -/
  | meanwhile (f : Session → Session)

/-- Callbacks, and whatever happens besides messages and forgotten values, leave values and
a subscription alone. -/
def Episode.LeavesBe (id : SubscriptionId) (place : Place) : Episode → Prop
  | dispatch _ _ react => ∀ i u, Session.LeavesBe id place (react i u)
  | forget _ _ => True
  | meanwhile f => Session.LeavesBe id place f

/-- What comes to a place by an episode of a session. -/
def Episode.arrival? (s : Session) (place : Place) : Episode → Option PlaceEvent
  | dispatch now e _ => (s.packet? e).bind fun p =>
      if (e.source, p.valuePath) = place then some (.fragment (p.fragment now)) else none
  | forget target path => if (target, path) = place then some .forgotten else none
  | meanwhile _ => none

/-- A session goes through an episode; these callbacks run. -/
def undergo (s : Session) : Episode → List Callback × Session
  | .dispatch now e react => { s with now := now }.dispatchTo react e
  | .forget target path => ([], (s.forget target path).2)
  | .meanwhile f => ([], f s)

/-- Whoever stays subscribed sees by some callbacks what his buffer shows of what comes to
it meanwhile. -/
structure Sees (s : Session) (id : SubscriptionId) (place : Place) (arrivals : List PlaceEvent)
    (cs : List Callback) (s' : Session) : Prop where
  /-- The settings stay. -/
  config : s'.config = s.config
  /-- The subscription stands. -/
  subscribed : s'.SubscribedAt id place
  /-- What is shown later goes on from what is shown now. -/
  shown : ∀ events, seenBy id cs ++ (s'.buffers.bufferOf place.1 place.2).view place events =
    (s.buffers.bufferOf place.1 place.2).view place (arrivals ++ events)

theorem Kept.sees (h : Kept s id place s.buffers s') : Sees s id place [] [] s' where
  config := h.config
  subscribed := h.subscribed
  shown := fun events => by rw [h.buffers]; rfl

/-- What a subscriber sees of a message. -/
theorem sees_dispatchTo (hsub : s.SubscribedAt id place) (e : Envelope)
    (hreact : ∀ i u, LeavesBe id place (react i u)) :
    Sees s id place (Episode.arrival? s place (.dispatch s.now e react)).toList
      (s.dispatchTo react e).1 (s.dispatchTo react e).2 := by
  rw [Episode.arrival?]
  cases hp : s.packet? e with
  | none =>
    obtain ⟨hnone, hkept⟩ := kept_dispatchTo hsub hp react
    rw [hnone]
    exact hkept.sees
  | some p =>
    rw [dispatchTo_of_packet hp]
    have hway := packetWay_acceptPacketTo react s e.source p
    obtain ⟨hkept, _⟩ := kept_packet hway hreact hsub
    obtain ⟨hanswer, hthere⟩ := s.bufferOf_stored e.source p place
    refine ⟨hkept.config, hkept.subscribed, fun events => ?_⟩
    rw [hkept.buffers, seen_packet hway hreact hsub, hthere, Option.bind_some]
    split
    · next hhere =>
      subst hhere
      rw [hanswer]
      exact (Buffer.view_cons _ _ (.fragment _) _).symm
    · rfl

/-- **What a subscriber sees of one episode** is what his buffer shows of what comes by it. -/
theorem sees_undergo (hsub : s.SubscribedAt id place) {episode : Episode}
    (hepisode : episode.LeavesBe id place) :
    Sees s id place (episode.arrival? s place).toList (s.undergo episode).1
      (s.undergo episode).2 := by
  cases episode with
  | dispatch now e react =>
    obtain ⟨hconfig, hsub', hshown⟩ :=
      sees_dispatchTo (s := { s with now := now }) (hsub.of_eq rfl) e hepisode
    exact ⟨hconfig, hsub', hshown⟩
  | forget target path =>
    refine ⟨rfl, hsub.of_eq rfl, fun events => ?_⟩
    have hthere := s.buffers.bufferOf_remove (target, path) place
    rw [undergo, Episode.arrival?]
    show [] ++ ((s.buffers.remove target path).2.bufferOf place.1 place.2).view place events = _
    rw [hthere, List.nil_append]
    split
    · exact (Buffer.view_cons place _ .forgotten events).symm
    · rfl
  | meanwhile f =>
    exact Kept.sees ⟨hepisode.config s, hepisode.buffers s, hepisode.subscribed s hsub⟩

/-- What comes to a place by an episode depends on the settings alone. -/
theorem Episode.arrival?_congr (h : s'.config = s.config) (episode : Episode) :
    episode.arrival? s' place = episode.arrival? s place := by
  cases episode with
  | dispatch now e react =>
    rw [arrival?, arrival?, packet?, packet?, isFor, isFor, h]
  | forget target path => rfl
  | meanwhile f => rfl

/-- **What a subscriber sees of many episodes.** -/
theorem sees_episodes (episodes : List Episode) : ∀ {s : Session}, s.SubscribedAt id place →
    (∀ episode ∈ episodes, episode.LeavesBe id place) →
    Sees s id place (episodes.filterMap (Episode.arrival? s place))
      (runOps undergo s episodes).1.flatten (runOps undergo s episodes).2 := by
  induction episodes with
  | nil => exact fun hsub _ => Kept.sees ⟨rfl, rfl, hsub⟩
  | cons episode episodes ih =>
    intro s hsub hepisodes
    rw [List.forall_mem_cons] at hepisodes
    obtain ⟨hconfig, hsub', hshown⟩ := sees_undergo hsub hepisodes.1
    obtain ⟨hconfig', hsub'', hshown'⟩ := ih hsub' hepisodes.2
    refine ⟨hconfig'.trans hconfig, hsub'', fun events => ?_⟩
    have hsame : episodes.filterMap (Episode.arrival? (s.undergo episode).2 place) =
        episodes.filterMap (Episode.arrival? s place) :=
      congrArg (episodes.filterMap ·) (funext (Episode.arrival?_congr hconfig))
    rw [runOps_cons, List.flatten_cons, seenBy_append, List.append_assoc, hshown', hsame, hshown,
      List.filterMap_cons, ← List.append_assoc]
    cases episode.arrival? s place <;> rfl

/-- **What a subscriber sees.**  Messages come, with packets for any place; values are
forgotten, and other things happen that leave values and the subscription alone.  The
subscriber sees what one buffer shows of what comes to his place: each fragment that it
accepts, nothing of one that it refuses, and each value as soon as its last fragment is
there.  If no transfer was open when it began, he saw all fragments of every value right
before it.  When he is told of a value, it can be read; the request for it ends only after
the last callback, with this value. -/
theorem subscriber_sees (s : Session) (id : SubscriptionId) (place : Place)
    (episodes : List Episode) (hsub : s.SubscribedAt id place)
    (hepisodes : ∀ episode ∈ episodes, episode.LeavesBe id place) :
    let b := s.buffers.bufferOf place.1 place.2
    let seen := seenBy id (runOps undergo s episodes).1.flatten
    seen = b.view place (episodes.filterMap (Episode.arrival? s place)) ∧
      (b.transfer = none → EndsWhole place seen) ∧
      (∀ before episode after, episodes = before ++ episode :: after →
        let v := (runOps undergo s before).2
        ∀ c ∈ (v.undergo episode).1, ∀ value, c.update = .complete place.1 place.2 value →
          ∃ now e react, episode = .dispatch now e react ∧
            ShownInTime react { v with now := now } place (v.undergo episode).1
              (v.undergo episode).2 c value) ∧
      ∀ (v : Session) (e : Envelope), (v.dispatch e).1 = (v.dispatchTo .still e).2 ∧
        (v.dispatch e).2.filter Notice.isUpdate =
          (v.dispatchTo .still e).1.map Callback.notice := by
  intro b seen
  have hall := sees_episodes episodes hsub hepisodes
  have hview : seen = b.view place (episodes.filterMap (Episode.arrival? s place)) := by
    have hshown := hall.shown []
    rw [List.append_nil] at hshown
    rw [← hshown]
    exact (List.append_nil _).symm
  refine ⟨hview, fun hclosed => ?_, ?_, dispatch_eq⟩
  · rw [hview]
    exact Buffer.endsWhole_view hclosed _
  · rintro before episode after rfl v c hc value hupdate
    rw [List.forall_mem_append, List.forall_mem_cons] at hepisodes
    have hsub' : v.SubscribedAt id place := (sees_episodes before hsub hepisodes.1).subscribed
    cases episode with
    | dispatch now e react =>
      refine ⟨now, e, react, rfl, ?_⟩
      have hsub'' : { v with now := now }.SubscribedAt id place := hsub'.of_eq rfl
      rw [undergo] at hc ⊢
      cases hp : { v with now := now }.packet? e with
      | none =>
        rw [(kept_dispatchTo hsub'' hp react).1] at hc
        cases hc
      | some p =>
        rw [dispatchTo_of_packet hp] at hc ⊢
        exact shownInTime_packet (packetWay_acceptPacketTo react _ e.source p) hepisodes.2.1 hsub''
          hc hupdate
    | forget target path => cases hc
    | meanwhile f => cases hc

/-- A subscriber, while his device sends two values and begins a third.  Between the packets
come one out of sequence and one for another path, the value is forgotten, and every callback
subscribes somebody else. -/
theorem subscriber_sees_twoValues :
    let device : Address := ⟨1, 0, 0⟩
    let place : Place := (device, .root)
    let s := ((fresh {} (.fresh "" none [])).subscribe device .root).2
    let react : Reaction := fun _ _ v => v.apply (.subscribe device .root)
    let packet := fun (now : Instant) (path : Path) (number count : UInt16) (data : Bytes) =>
      Episode.dispatch now ⟨.external, device, .setData ⟨path, .root, number, count, data⟩⟩ react
    let episodes := [packet 1 .root 0 2 [1], packet 2 .root 5 9 [2], packet 3 .root 0 2 [3],
      packet 4 ⟨[7], by decide⟩ 0 1 [4], .meanwhile fun v => v.apply (.pass 5),
      packet 6 .root 1 2 [5], packet 7 .root 0 1 [6], packet 8 .root 0 2 [7],
      .forget device .root, packet 9 .root 1 2 [8]]
    s.SubscribedAt 1 place ∧ (∀ episode ∈ episodes, episode.LeavesBe 1 place) ∧
      seenBy 1 (runOps undergo s episodes).1.flatten =
        [.fragment device .root 0 2 [1], .fragment device .root 0 2 [3],
          .fragment device .root 1 2 [5], .complete device .root [3, 5],
          .fragment device .root 0 1 [6], .complete device .root [6],
          .fragment device .root 0 2 [7]] := by
  intro device place s react packet episodes
  have hsub : s.SubscribedAt 1 place := subscribedAt_subscribe fun _ => rfl
  have hreact : ∀ i u, LeavesBe 1 place (react i u) := fun _ _ =>
    leavesBe_apply (by simp) (by simp)
  have hepisodes : ∀ episode ∈ episodes, episode.LeavesBe 1 place := by
    simp only [episodes, packet, List.forall_mem_cons, Episode.LeavesBe]
    exact ⟨hreact, hreact, hreact, hreact, leavesBe_apply (by simp) (by simp), hreact, hreact,
      hreact, trivial, hreact, List.forall_mem_nil _⟩
  exact ⟨hsub, hepisodes, (subscriber_sees s 1 place episodes hsub hepisodes).1⟩

end Session

end ZoneBus
