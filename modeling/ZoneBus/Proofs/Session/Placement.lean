import ZoneBus.Proofs.Session.Frames

/-!
# Requests and the copies of their frames

A registered request is in one of two situations.  Either it has no deadline, and
there is one copy of its frame on its way out; or it expects an answer and has a
deadline, and there is no copy.

The table and the frames on their way change together, and each operation of the
table goes with one change of the frames: registering with one more frame, noting
a written frame with one less, and an expiry with the frames that it sends once
more.  Requests may end at any time; the frames of those that have may be dropped.

## Main definitions

* `Session.copiesOf` — the copies of the frame of a request.
* `Session.Placed` — every request of a table has its one copy, or a deadline.

## Main results

* `Session.placed_insert`, `placed_markWritten`, `placed_expire` — the operations of
  the table.
-/

namespace ZoneBus

/-- The request has no deadline, and there is one copy of its frame. -/
def PendingRequest.OnItsWay (req : PendingRequest) (copies : List OutboundFrame) : Prop :=
  req.deadline = none ∧ copies = [req.frame]

/-- The request expects an answer and has a deadline, and there is no copy of its
frame. -/
def PendingRequest.Awaited (req : PendingRequest) (copies : List OutboundFrame) : Prop :=
  req.key.isSome = true ∧ req.deadline.isSome = true ∧ copies = []

namespace Session

/-! ### Copies -/

/-- The frames of a request among others. -/
def copiesOf (frames : List OutboundFrame) (id : RequestId) : List OutboundFrame :=
  frames.filter fun frame => decide (frame.id = id)

/-- Every request of a table has its one copy among these frames, or a deadline. -/
def Placed (frames : List OutboundFrame) (t : PendingTable) : Prop :=
  ∀ id req, t.requests.find? id = some req →
    req.OnItsWay (copiesOf frames id) ∨ req.Awaited (copiesOf frames id)

theorem copiesOf_cons_of_ne {frame : OutboundFrame} {frames : List OutboundFrame}
    {id : RequestId} (h : frame.id ≠ id) : copiesOf (frame :: frames) id = copiesOf frames id :=
  List.filter_cons_of_neg (by simpa using h)

theorem copiesOf_cons_self (frame : OutboundFrame) (frames : List OutboundFrame) :
    copiesOf (frame :: frames) frame.id = frame :: copiesOf frames frame.id :=
  List.filter_cons_of_pos (by simp)

theorem copiesOf_eq_nil {frames : List OutboundFrame} {id : RequestId}
    (h : ∀ frame ∈ frames, frame.id ≠ id) : copiesOf frames id = [] :=
  List.filter_eq_nil_iff.mpr fun frame hm => by simpa using h frame hm

theorem copiesOf_perm {frames frames' : List OutboundFrame} (h : frames.Perm frames')
    (id : RequestId) : (copiesOf frames id).Perm (copiesOf frames' id) :=
  h.filter _

theorem length_copiesOf_cons {frame : OutboundFrame} {frames : List OutboundFrame}
    {id : RequestId} : (copiesOf (frame :: frames) id).length =
      (copiesOf frames id).length + if frame.id = id then 1 else 0 := by
  split
  · next h => rw [← h, copiesOf_cons_self, List.length_cons]
  · next h => rw [copiesOf_cons_of_ne h, Nat.add_zero]

theorem length_copiesOf_le {frames frames' : List OutboundFrame} (h : frames.Subperm frames')
    (id : RequestId) : (copiesOf frames id).length ≤ (copiesOf frames' id).length :=
  (h.filter _).length_le

/-- An expiry sends one copy for a request that is overdue and has a retry left, and none
for any other. -/
theorem copiesOf_resends {t : PendingTable} (ht : TableOk t) (now : Instant) (id : RequestId) :
    copiesOf (resends (t.expire now).results) id =
      ((t.requests.find? id).bind fun r =>
        if r.isOverdue now = true ∧ 0 < r.retries then some r.frame else none).toList := by
  have hpicked :=
    congrArg (List.map Prod.snd) (PendingTable.requeued_expire ht.once ht.framed now id)
  rw [resends_eq, copiesOf, List.filter_map]
  refine hpicked.trans ?_
  cases t.requests.find? id with
  | none => rfl
  | some r =>
    rw [Option.bind_some, Option.bind_some]
    split <;> rfl

/-! ### The operations of the table -/

section Tables

variable {frames frames' : List OutboundFrame} {t t' : PendingTable}

/-- A request that is moved from the queue into a hand keeps its copy. -/
theorem Placed.perm (h : Placed frames t) (hp : frames.Perm frames') : Placed frames' t := by
  intro id req hf
  have hc := copiesOf_perm hp id
  rcases h id req hf with ⟨hd, he⟩ | ⟨hk, hd, he⟩
  · rw [he] at hc
    exact Or.inl ⟨hd, List.perm_singleton.mp hc.symm⟩
  · rw [he] at hc
    exact Or.inr ⟨hk, hd, List.perm_nil.mp hc.symm⟩

/-- Requests may end at any time. -/
theorem Placed.of_find? (h : Placed frames t)
    (hsub : ∀ id req, t'.requests.find? id = some req → t.requests.find? id = some req) :
    Placed frames t' :=
  fun id req hf => h id req (hsub id req hf)

/-- The frame of a request that has ended may be dropped. -/
theorem Placed.drop {frame : OutboundFrame} (h : Placed (frame :: frames) t)
    (hgone : t.contains frame.id = false) : Placed frames t := by
  intro id req hf
  have hne : frame.id ≠ id := by
    rintro rfl
    rw [PendingTable.contains, Directory.contains, hf] at hgone
    cases hgone
  rw [← copiesOf_cons_of_ne hne]
  exact h id req hf

/-- A request that is registered while its frame is queued. -/
theorem placed_insert (req : PendingRequest) (h : Placed frames t) (hd : req.deadline = none)
    (hnew : ∀ frame ∈ frames, frame.id ≠ req.frame.id) :
    Placed (req.frame :: frames) (t.insert req).2 := by
  intro id req' hf
  change (t.requests.put req.frame.id req).find? id = some req' at hf
  rw [Directory.find?_put] at hf
  by_cases he : req.frame.id = id
  · subst he
    rw [if_pos rfl, Option.some.injEq] at hf
    subst hf
    rw [copiesOf_cons_self, copiesOf_eq_nil hnew]
    exact Or.inl ⟨hd, rfl⟩
  · rw [if_neg he] at hf
    rw [copiesOf_cons_of_ne he]
    exact h id req' hf

/-- A frame that is noted as written leaves the hand. -/
theorem placed_markWritten {frame : OutboundFrame} (h : Placed (frame :: frames) t)
    (now timeout : Nat) : Placed frames (t.markWritten frame.id now timeout).2.2 := by
  intro id req' hf
  obtain ⟨req, hreq, ⟨hne, rfl⟩ | ⟨rfl, hkey, rfl⟩⟩ := find?_markWritten hf
  · rw [← copiesOf_cons_of_ne hne]
    exact h id req' hreq
  · -- the frame in hand is the one copy, so none is left
    refine Or.inr ⟨hkey, rfl, ?_⟩
    have hplace := h _ req hreq
    rw [copiesOf_cons_self] at hplace
    rcases hplace with ⟨_, he⟩ | ⟨_, _, he⟩
    · exact (List.cons.inj he).2
    · cases he

/-- An expiry queues a frame for every request whose deadline it takes away. -/
theorem placed_expire (ht : TableOk t) (h : Placed frames t) (now : Instant) :
    Placed (resends (t.expire now).results ++ frames) (t.expire now).table := by
  intro id req' hf
  rw [PendingTable.find?_expire ht.once, Option.bind_eq_some_iff] at hf
  obtain ⟨req, hreq, hf⟩ := hf
  have hsplit : copiesOf (resends (t.expire now).results ++ frames) id =
      copiesOf (resends (t.expire now).results) id ++ copiesOf frames id :=
    List.filter_append _ _
  rw [hsplit, copiesOf_resends ht, hreq, Option.bind_some]
  split at hf
  · -- overdue: it had a deadline and no copy, and gets its frame queued
    next hover =>
    have hdead := PendingTable.deadline_of_isOverdue hover
    have hnone : copiesOf frames id = [] := by
      rcases h id req hreq with ⟨hd, _⟩ | ⟨_, _, he⟩
      · rw [hd] at hdead; cases hdead
      · exact he
    rw [hnone, List.append_nil]
    rw [PendingRequest.expired?] at hf
    split at hf
    · next hretry =>
      rw [if_pos ⟨hover, hretry⟩]
      obtain rfl := Option.some.inj hf
      exact Or.inl ⟨rfl, rfl⟩
    · cases hf
  · next hover =>
    rw [if_neg (fun hboth => hover hboth.1)]
    obtain rfl := Option.some.inj hf
    exact h id req hreq

end Tables

end Session

end ZoneBus
