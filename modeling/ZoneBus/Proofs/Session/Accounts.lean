import ZoneBus.Proofs.Session.RequestEvents

/-!
# Keeping the account

What is done for callers, by readers, by writers and by scanners keeps the account of
every request.  A push is matched by a new request or by a retry that is gone, a frame
that is begun by a copy that was ahead, and one that is noted by a copy that was in
flight; what else happens only takes frames and requests away.

## Main definitions

* `Session.requeued`, `Due` — what is sent once more in a look at the deadlines.
* `Session.noted`, `looked` — the trail after a frame was noted, and after such a look.

## Main results

* `Session.accounted_queued`, `accounted_minors` — messages, and whatever callers and
  readers do.
* `Session.accounted_writes`, `accounted_notes` — writers.
* `Session.accounted_scan` — looks at the deadlines.
-/

namespace ZoneBus

namespace Session

/-! ### A message is queued -/

theorem framesOf_single {α : Type} {id : RequestId} {a : α} {frame : OutboundFrame} :
    framesOf id [(a, frame)] = if frame.id = id then [(a, frame)] else [] := by
  unfold framesOf
  split <;> simp [*]

theorem ahead_queued {s : Session} {request : PendingRequest} {priority : Priority}
    {queue : SendQueue OutboundFrame} (hp : s.queue.push priority request.frame = some queue) :
    ({ s.registered request with queue := queue }).ahead.Perm (request.frame :: s.ahead) :=
  (SendQueue.push_spec hp).1.append_right _

/-- Queueing a message tells of no timeout. -/
theorem timedOut_queued {s : Session} {request : PendingRequest} {queue : SendQueue OutboundFrame}
    {id : RequestId} (hid : request.frame.id ∉ s.pending.requests.keys)
    (h : ({ s.registered request with queue := queue }).TimedOut id) : s.TimedOut id := by
  obtain ⟨attempts, hm⟩ := h
  have hsettled : (s.pending.insert request).1 = [] := (PendingTable.keys_insert hid).1
  have hm' : (id, .failure (.timeout attempts)) ∈
      s.delivered ++ outcomesOf (s.pending.insert request).1 := hm
  rw [hsettled, outcomesOf, List.filterMap_nil, List.append_nil] at hm'
  exact ⟨attempts, hm'⟩

/-- The account of a request that was just queued: its trail has one push. -/
theorem account_born {s : Session} (hs : s.Sound) {target : Address} {message : Message}
    {priority : Priority} {bytes : Bytes} {queue : SendQueue OutboundFrame}
    {request : PendingRequest} (hreq : s.newRequest target message priority bytes = request)
    (hp : s.queue.push priority request.frame = some queue) :
    Account ⟨[(priority, request.frame)], [], [], []⟩ request.frame priority
      { s.registered request with queue := queue } := by
  have hid : request.frame.id = s.requestIds.given + 1 := by rw [← hreq]; rfl
  have hahead := ahead_queued hp
  -- nothing else bears the new number
  have hother : ∀ f, f ∈ s.ahead ∨ f ∈ s.inFlight → f.id ≠ request.frame.id := by
    intro f hf he
    have hle := hs.le_given hf
    rw [he, hid] at hle
    exact Nat.not_succ_le_self _ hle
  have hnone : ∀ {frames : List OutboundFrame}, (∀ f ∈ frames, f.id ≠ request.frame.id) →
      (copiesOf frames request.frame.id).length = 0 := by
    intro frames h
    rw [copiesOf_eq_nil h]
    rfl
  exact {
    pushed := fun e he => List.mem_singleton.mp he
    begun := fun f hf => by cases hf
    written := fun e he => by cases he
    resent := fun e he => by cases he
    same := fun f hf he => by
      rw [hahead.mem_iff, List.mem_cons] at hf
      rcases hf with (rfl | hf) | hf
      · rfl
      · exact absurd he (hother f (Or.inl hf))
      · exact absurd he (hother f (Or.inr hf))
    ahead := by
      have hcount := (copiesOf_perm hahead request.frame.id).length_eq
      rw [length_copiesOf_cons, if_pos rfl, hnone fun f hf => hother f (Or.inl hf)] at hcount
      exact Nat.le_of_eq hcount
    inFlight := Nat.le_of_eq (hnone fun f hf => hother f (Or.inr hf))
    spent := Nat.le_refl _
    retries := Nat.zero_le _
    keyless := fun _ => rfl
    unborn := fun hlt => by
      rw [hid] at hlt
      exact absurd hlt (Nat.lt_irrefl _)
    registered := fun r hf => by
      have hf' : (s.pending.requests.put request.frame.id request).find? request.frame.id =
          some r := hf
      rw [Directory.find?_put, if_pos rfl] at hf'
      obtain rfl := Option.some.inj hf'
      subst hreq
      refine ⟨rfl, rfl, rfl, rfl, rfl, fun _ => rfl, fun deadline hd => ?_⟩
      cases hd
    timedOut := fun ht => by
      have hkeys : request.frame.id ∉ s.pending.requests.keys := hid ▸ hs.ledger.next_notMem
      have hle := hs.ledger.le_of_timedOut (timedOut_queued hkeys ht)
      rw [hid] at hle
      exact absurd hle (Nat.not_succ_le_self _) }

/-- A message that is registered and queued gets the first push on its trail; the trails of
the others stay. -/
theorem accounted_queued {s : Session} {t : Trail} {id : RequestId} (hs : s.Sound)
    (h : Accounted t id s) {target : Address} {message : Message} {priority : Priority}
    {bytes : Bytes} {queue : SendQueue OutboundFrame}
    (hp : s.queue.push priority (s.newRequest target message priority bytes).frame = some queue) :
    Accounted
      { t with pushed :=
          framesOf id [(priority, (s.newRequest target message priority bytes).frame)] ++ t.pushed }
      id { s.registered (s.newRequest target message priority bytes) with queue := queue } := by
  obtain ⟨frame, pri, rfl, h⟩ := h
  have hahead := ahead_queued hp
  generalize hreq : s.newRequest target message priority bytes = request at hahead hp ⊢
  have hnew : request.frame.id = s.requestIds.given + 1 := by rw [← hreq]; rfl
  have hcount := (copiesOf_perm hahead frame.id).length_eq
  rw [length_copiesOf_cons] at hcount
  rw [framesOf_single]
  by_cases hid : request.frame.id = frame.id
  · -- the number is new, so its trail begins here
    have hgiven : s.requestIds.given < frame.id := by
      rw [← hid, hnew]
      exact Nat.lt_succ_self _
    obtain rfl := h.eq_empty hgiven
    rw [if_pos hid]
    exact ⟨request.frame, priority, hid, account_born hs hreq hp⟩
  · refine ⟨frame, pri, rfl, ?_⟩
    rw [if_neg hid, List.nil_append]
    rw [if_neg hid] at hcount
    exact {
      pushed := h.pushed
      begun := h.begun
      written := h.written
      resent := h.resent
      same := fun f hf he => by
        rw [hahead.mem_iff, List.mem_cons] at hf
        rcases hf with (rfl | hf) | hf
        · exact absurd he hid
        · exact h.same f (Or.inl hf) he
        · exact h.same f (Or.inr hf) he
      ahead := by
        rw [hcount]
        exact h.ahead
      inFlight := h.inFlight
      spent := h.spent
      retries := h.retries
      keyless := h.keyless
      unborn := fun hlt => h.unborn (Nat.lt_of_succ_lt hlt)
      registered := fun r hf => by
        have hf' : (s.pending.requests.put request.frame.id request).find? frame.id = some r := hf
        rw [Directory.find?_put, if_neg hid] at hf'
        exact h.registered r hf'
      timedOut := fun ht => h.timedOut (timedOut_queued (hnew ▸ hs.ledger.next_notMem) ht) }

/-! ### What is done for callers, and by readers -/

/-- The order of the pushes does not matter. -/
theorem Accounted.perm {t : Trail} {id : RequestId} {s : Session}
    {pushed : List (Priority × OutboundFrame)} (h : Accounted t id s)
    (hp : t.pushed.Perm pushed) : Accounted { t with pushed := pushed } id s := by
  obtain ⟨frame, priority, hid, h⟩ := h
  have hlen := hp.length_eq
  exact ⟨frame, priority, hid, { h with
    pushed := fun e he => h.pushed e (hp.mem_iff.mpr he)
    ahead := Nat.le_trans h.ahead (Nat.le_of_eq hlen)
    spent := Nat.le_trans (Nat.le_of_eq hlen.symm) h.spent
    unborn := fun hlt => by
      obtain ⟨hpushed, hresent⟩ := h.unborn hlt
      rw [hpushed] at hp
      exact ⟨List.nil_perm.mp hp, hresent⟩
    registered := fun r hf =>
      { h.registered r hf with pushed := hlen.symm.trans (h.registered r hf).pushed } }⟩

theorem Accounted.recedes {t : Trail} {id : RequestId} {s s' : Session} (h : Accounted t id s)
    (hr : Recedes s s') : Accounted t id s' := by
  obtain ⟨frame, priority, hid, h⟩ := h
  exact ⟨frame, priority, hid, h.recedes hr⟩

/-- **What is done for callers and by readers keeps the account**: what is added to the
queue is what is pushed. -/
theorem accounted_minors {s s' : Session} {t : Trail} {id : RequestId} (hs : s.Sound)
    (h : Accounted t id s) (hm : Minors s s') :
    Accounted { t with pushed := framesOf id (s.queue.added s'.queue) ++ t.pushed } id s' := by
  induction hm with
  | refl =>
    rw [SendQueue.added_self]
    exact h
  | @tail v w hv hw hacc =>
    rcases minor_cases hw with ⟨hr, hq⟩ | ⟨target, message, priority, bytes, queue, hp, rfl⟩
    · rw [hq]
      exact hacc.recedes hr
    · refine (accounted_queued (hs.minors hv) hacc hp).perm ?_
      -- the new push comes first on the trail and last among what was added
      obtain ⟨items, hext⟩ := extends_of_minors hv
      have hadded := ((hext.trans (SendQueue.extends_push hp)).added_perm.trans
        (hext.added_perm.symm.append_right _)).filter fun e => decide (e.2.id = id)
      rw [List.filter_append] at hadded
      rw [← List.append_assoc]
      exact (List.perm_append_comm.trans hadded.symm).append_right _

/-! ### What writers do -/

theorem length_copiesOf_perm {frames frames' : List OutboundFrame} {frame : OutboundFrame}
    (h : frames.Perm (frame :: frames')) (id : RequestId) :
    (copiesOf frames id).length = (copiesOf frames' id).length + (copiesOf [frame] id).length := by
  rw [(copiesOf_perm h id).length_eq, length_copiesOf_cons, length_copiesOf_cons]
  exact (congrArg _ (Nat.zero_add _)).symm

/-- **What a writer does keeps the account**, apart from noting what it wrote. -/
theorem accounted_writes {s s' : Session} {r : RunId} {t : Trail} {id : RequestId}
    (hs : s.Sound) (h : Accounted t id s) (hw : Writes r s s') :
    s.queue.Sheds s'.queue ∧
      Accounted { t with begun := copiesOf (s.begun? (.move (.writer r))).toList id ++ t.begun }
        id s' := by
  rcases writes_cases hs.runs hw with
    ⟨f, link, runs, hbegun, rfl, _, hahead, hflight⟩ | ⟨hbegun, hr⟩
  · refine ⟨.refl _, ?_⟩
    obtain ⟨frame, priority, rfl, h⟩ := h
    refine ⟨frame, priority, rfl, ?_⟩
    rw [hbegun]
    have hfront : f ∈ s.ahead := hahead.mem_iff.mpr List.mem_cons_self
    have hcount := length_copiesOf_perm hahead frame.id
    have hcount' := length_copiesOf_perm hflight frame.id
    exact { h with
      begun := fun f' hf => by
        rcases List.mem_append.mp hf with hf | hf
        · obtain ⟨hf, hid⟩ := List.mem_filter.mp hf
          obtain rfl := List.mem_singleton.mp hf
          exact h.same f' (Or.inl hfront) (of_decide_eq_true hid)
        · exact h.begun f' hf
      same := fun f' hf hid => by
        rcases hf with hf | hf
        · exact h.same f' (Or.inl (hahead.mem_iff.mpr (List.mem_cons_of_mem f hf))) hid
        · rcases List.mem_cons.mp (hflight.mem_iff.mp hf) with rfl | hf
          · exact h.same f' (Or.inl hfront) hid
          · exact h.same f' (Or.inr hf) hid
      ahead := by
        have hold := h.ahead
        rw [List.length_append]
        show _ + ((copiesOf [f] frame.id).length + t.begun.length) ≤ t.pushed.length
        omega
      inFlight := by
        have hold := h.inFlight
        rw [List.length_append]
        show _ + t.written.length ≤ (copiesOf [f] frame.id).length + t.begun.length
        omega
      registered := fun r hf =>
        { h.registered r hf with pushed := (h.registered r hf).pushed } }
  · refine ⟨hr.queue, ?_⟩
    rw [hbegun]
    exact h.recedes hr

/-- Noting what was written tells of no timeout. -/
theorem timedOut_noteWritten {s : Session} {frame : OutboundFrame} {id : RequestId}
    (h : (s.noteWritten frame).1.TimedOut id) : s.TimedOut id := by
  obtain ⟨attempts, hm⟩ := h
  refine ⟨attempts, (List.mem_append.mp hm).resolve_right fun hm => ?_⟩
  have hm' : (id, .failure (.timeout attempts)) ∈
      outcomesOf (s.pending.markWritten frame.id s.now s.config.requestTimeout).2.1 := hm
  rw [PendingTable.markWritten] at hm'
  split at hm'
  · cases hm'
  · split at hm'
    · cases hm'
    · rw [outcomesOf_single, List.mem_singleton] at hm'
      cases hm'

/-- A frame in flight was begun and is not noted yet. -/
theorem Account.written_lt {t : Trail} {frame f : OutboundFrame} {priority : Priority}
    {s : Session} (h : Account t frame priority s) (hf : f ∈ s.inFlight) (hid : f.id = frame.id) :
    t.written.length < t.begun.length := by
  have hmem : f ∈ copiesOf s.inFlight frame.id :=
    List.mem_filter.mpr ⟨hf, decide_eq_true hid⟩
  have hpos := List.length_pos_of_mem hmem
  have hold := h.inFlight
  omega

/-- The trail of a request after a frame was noted as written. -/
def noted (t : Trail) (id : RequestId) (f : OutboundFrame) (s : Session) : Trail :=
  { t with written := framesOf id [(s.now, f)] ++ t.written }

/-- An entry tells of the trail after a frame in flight was noted: until then it has no
deadline, since with one it would be written once more than it was pushed. -/
theorem Account.fits_notes {s : Session} {t : Trail} {frame f : OutboundFrame}
    {priority : Priority} {r' : PendingRequest} (h : Account t frame priority s)
    (hflight : f ∈ s.inFlight)
    (hf : (s.noteWritten f).1.pending.requests.find? frame.id = some r') :
    (noted t frame.id f s).Fits s.config frame priority r' := by
  unfold noted
  obtain ⟨r, hr, ⟨hne, rfl⟩ | ⟨hid, hkey, rfl⟩⟩ := find?_markWritten hf
  · rw [framesOf_single, if_neg hne]
    exact h.registered _ hr
  · have fit := h.registered r hr
    have hlt := h.written_lt hflight hid
    obtain ⟨_, hbp⟩ := h.length_le
    have hdead : r.deadline = none := by
      cases hd : r.deadline with
      | none => rfl
      | some deadline =>
        obtain ⟨_, hwritten, _⟩ := fit.written deadline hd
        have hpushed := fit.pushed
        omega
    have hunwritten := fit.unwritten hdead
    rw [framesOf_single, if_pos hid]
    refine ⟨fit.sameFrame, fit.samePriority, fit.sameKey, fit.retries, fit.pushed,
      fun hd => ?_, fun deadline hd => ?_⟩
    · cases hd
    · obtain rfl := Option.some.inj hd
      refine ⟨hkey, ?_, fun e he => ?_⟩
      · rw [List.length_append, hunwritten]
        exact Nat.add_comm 1 _
      · rcases List.mem_append.mp he with he | he
        · obtain rfl := List.mem_singleton.mp he
          exact Nat.le_refl _
        · exact Nat.add_le_add_right (h.written e he).2 _

/-- Whoever timed out has no frame in flight, so noting one adds nothing to its trail. -/
theorem Account.timedOut_notes {s : Session} {t : Trail} {frame f : OutboundFrame}
    {priority : Priority} (h : Account t frame priority s) (hflight : f ∈ s.inFlight)
    (ht : s.TimedOut frame.id) : noted t frame.id f s = t := by
  have hid : f.id ≠ frame.id := by
    intro hid
    have hlt := h.written_lt hflight hid
    obtain ⟨_, hbp⟩ := h.length_le
    obtain ⟨hresent, hwritten⟩ := h.timedOut ht
    have hspent := h.spent
    omega
  unfold noted
  rw [framesOf_single, if_neg hid]
  rfl

/-- **Noting a written frame keeps the account.** -/
theorem accounted_notes {s : Session} {r : RunId} {run : Run} {f : OutboundFrame} {t : Trail}
    {id : RequestId} (hs : s.Sound) (h : Accounted t id s) (hr : s.runs.find? r = some run)
    (hph : run.writer = .marking f) :
    Accounted (noted t id f s) id ((s.noteWritten f).1.setWriter r .popping) := by
  obtain ⟨frame, priority, rfl, h⟩ := h
  obtain ⟨waiting, sent, hahead, hahead', hflight, hflight'⟩ :=
    exists_hands_perm (s := (s.noteWritten f).1) hs.runs hr .popping
  rw [hph] at hahead hflight
  have hsame : s.ahead.Perm ((s.noteWritten f).1.setWriter r .popping).ahead :=
    hahead.trans hahead'.symm
  have hless : s.inFlight.Perm (f :: ((s.noteWritten f).1.setWriter r .popping).inFlight) :=
    hflight.trans (hflight'.symm.cons f)
  have hfront : f ∈ s.inFlight := hless.mem_iff.mpr List.mem_cons_self
  refine ⟨frame, priority, rfl, { h with
    written := fun e he => ?_
    same := fun f' hf hid => ?_
    ahead := ?_
    inFlight := ?_
    registered := fun _ hf => h.fits_notes hfront hf
    timedOut := fun ht => ?_ }⟩
  · rcases List.mem_append.mp he with he | he
    · obtain ⟨he, hid⟩ := List.mem_filter.mp he
      obtain rfl := List.mem_singleton.mp he
      exact ⟨h.same f (Or.inr hfront) (of_decide_eq_true hid), Nat.le_refl _⟩
    · exact h.written e he
  · rcases hf with hf | hf
    · exact h.same f' (Or.inl (hsame.mem_iff.mpr hf)) hid
    · exact h.same f' (Or.inr (hless.mem_iff.mpr (List.mem_cons_of_mem f hf))) hid
  · have hcopies := (copiesOf_perm hsame frame.id).length_eq
    rw [← hcopies]
    exact h.ahead
  · have hcount := length_copiesOf_perm hless frame.id
    have hmine : (framesOf frame.id [(s.now, f)]).length = (copiesOf [f] frame.id).length := by
      rw [framesOf_single, length_copiesOf_cons]
      split <;> rfl
    have hold := h.inFlight
    show _ + (framesOf frame.id [(s.now, f)] ++ t.written).length ≤ t.begun.length
    rw [List.length_append, hmine]
    omega
  · have hold := timedOut_noteWritten ht
    rw [h.timedOut_notes hfront hold]
    exact h.timedOut hold

/-! ### Looks at the deadlines -/

/-- Who is registered after a look was before, and was not overdue, or had a retry left
and found the queue open. -/
theorem registered_scan {s : Session} (ht : TableOk s.pending) {id : RequestId}
    {r' : PendingRequest} (hf : s.scan.pending.requests.find? id = some r') :
    ∃ r, s.pending.requests.find? id = some r ∧
      (r.isOverdue s.now = false ∧ r' = r ∨
        r.isOverdue s.now = true ∧ r.expired? = some r' ∧ s.queue.closed = false) := by
  have hexpire : (s.pending.expire s.now).table.requests.find? id = some r' := by
    cases hc : s.queue.closed with
    | false =>
      rw [(scan_of_open hc).1] at hf
      exact hf
    | true => exact ((scan_of_closed hc).2.1 id r' hf).1
  rw [PendingTable.find?_expire ht.once, Option.bind_eq_some_iff] at hexpire
  obtain ⟨r, hr, he⟩ := hexpire
  refine ⟨r, hr, ?_⟩
  split at he
  · next hover =>
    refine Or.inr ⟨hover, he, Bool.eq_false_iff.mpr fun hc => ?_⟩
    -- a closed queue would have taken the request away
    have hretry : 0 < r.retries := by
      rw [PendingRequest.expired?] at he
      split at he
      · assumption
      · cases he
    have hmem : r.frame ∈ copiesOf (resends (s.pending.expire s.now).results) id := by
      rw [copiesOf_resends ht, hr, Option.bind_some, if_pos ⟨hover, hretry⟩]
      exact List.mem_singleton_self _
    obtain ⟨hmem, hid⟩ := List.mem_filter.mp hmem
    exact ((scan_of_closed hc).2.1 id r' hf).2 _ hmem (of_decide_eq_true hid)
  · next hover =>
    exact Or.inl ⟨Bool.eq_false_iff.mpr hover, (Option.some.inj he).symm⟩

/-- Who timed out in a look was overdue and had no retry left. -/
theorem timedOut_scan {s : Session} (hn : s.pending.requests.keys.Nodup) {id : RequestId}
    (h : s.scan.TimedOut id) :
    s.TimedOut id ∨ ∃ r, s.pending.requests.find? id = some r ∧ r.isOverdue s.now = true ∧
      r.retries = 0 := by
  obtain ⟨attempts, hm⟩ := h
  have hm' : (id, .failure (.timeout attempts)) ∈
      s.delivered ++ outcomesOf (s.pending.expire s.now).settled := by
    cases hc : s.queue.closed with
    | false =>
      rw [(scan_of_open hc).2.1] at hm
      exact hm
    | true =>
      obtain ⟨_, _, htold⟩ := scan_of_closed hc
      exact (htold _ hm).resolve_right fun he => by cases he
  rcases List.mem_append.mp hm' with hm' | hm'
  · exact Or.inl ⟨attempts, hm'⟩
  · obtain ⟨settled, hs, he⟩ := List.mem_filterMap.mp hm'
    obtain ⟨j, ending⟩ := settled
    cases ending with
    | replaced => cases he
    | outcome outcome =>
      obtain ⟨rfl, rfl⟩ := Prod.mk.inj (Option.some.inj he)
      exact Or.inr (PendingTable.overdue_of_timedOut hn hs)

/-- The frames that are sent once more in a look, with their priorities. -/
def requeued (s : Session) : List (Priority × OutboundFrame) :=
  (s.pending.expire s.now).results.filterMap Expiry.requeued?

/-- What a look puts into the queue: everything that is sent once more, or nothing. -/
theorem ahead_scan (s : Session) :
    ∃ items, items.Perm (s.queue.added s.scan.queue) ∧
      s.scan.ahead.Perm (items.map Prod.snd ++ s.ahead) ∧
      (items = s.requeued ∨ s.queue.closed = true ∧ items = []) := by
  cases hc : s.queue.closed with
  | false =>
    obtain ⟨_, _, _, hext⟩ := scan_of_open hc
    refine ⟨s.requeued, hext.added_perm.symm, ?_, Or.inl rfl⟩
    unfold ahead
    rw [runs_scan, ← List.append_assoc]
    exact hext.toList_perm.append_right _
  | true =>
    have hqueue := (scan_of_closed hc).1
    refine ⟨[], ?_, ?_, Or.inr ⟨rfl, rfl⟩⟩
    · rw [hqueue, SendQueue.added_self]
    · unfold ahead
      rw [runs_scan, hqueue]
      exact List.Perm.refl _

/-- A request is due in a look when it is overdue and has a retry left. -/
def Due (s : Session) (id : RequestId) (r : PendingRequest) : Prop :=
  s.pending.requests.find? id = some r ∧ r.isOverdue s.now = true ∧ 0 < r.retries

/-- What a look sends once more for a request: its frame when it is due, else nothing. -/
theorem Account.requeued {s : Session} {t : Trail} {frame : OutboundFrame} {priority : Priority}
    (h : Account t frame priority s) (ht : TableOk s.pending) :
    (framesOf frame.id s.requeued = [] ∧ ∀ r, ¬s.Due frame.id r) ∨
      (framesOf frame.id s.requeued = [(priority, frame)] ∧ ∃ r, s.Due frame.id r) := by
  have hreq := PendingTable.requeued_expire ht.once ht.framed s.now frame.id
  change framesOf frame.id s.requeued = _ at hreq
  rw [hreq]
  cases hf : s.pending.requests.find? frame.id with
  | none =>
    refine Or.inl ⟨rfl, fun r hdue => ?_⟩
    obtain ⟨hf', _⟩ := hdue
    rw [hf] at hf'
    cases hf'
  | some r =>
    have fit := h.registered r hf
    rw [Option.bind_some, fit.sameFrame, fit.samePriority]
    by_cases hdue : r.isOverdue s.now = true ∧ 0 < r.retries
    · rw [if_pos hdue]
      exact Or.inr ⟨rfl, r, hf, hdue⟩
    · rw [if_neg hdue]
      refine Or.inl ⟨rfl, fun r' hdue' => ?_⟩
      obtain ⟨hf', hdue'⟩ := hdue'
      rw [hf, Option.some.injEq] at hf'
      exact hdue (hf' ▸ hdue')

/-- A request that is not due has nothing sent once more. -/
theorem Account.requeued_eq_nil {s : Session} {t : Trail} {frame : OutboundFrame}
    {priority : Priority} (h : Account t frame priority s) (ht : TableOk s.pending)
    (hnot : ∀ r, ¬s.Due frame.id r) : framesOf frame.id s.requeued = [] := by
  rcases h.requeued ht with ⟨hnil, _⟩ | ⟨_, r, hdue⟩
  · exact hnil
  · exact absurd hdue (hnot r)

/-- What is sent once more for a request is its frame. -/
theorem Account.mem_requeued {s : Session} {t : Trail} {frame : OutboundFrame}
    {priority : Priority} (h : Account t frame priority s) (ht : TableOk s.pending) :
    ∀ e ∈ framesOf frame.id s.requeued, e = (priority, frame) := by
  intro e he
  rcases h.requeued ht with ⟨hnil, _⟩ | ⟨hone, _⟩
  · rw [hnil] at he
    cases he
  · rw [hone] at he
    exact List.mem_singleton.mp he

theorem length_framesOf (id : RequestId) (items : List (Priority × OutboundFrame)) :
    (copiesOf (items.map Prod.snd) id).length = (framesOf id items).length := by
  unfold copiesOf framesOf
  rw [List.filter_map, List.length_map]
  rfl

/-- The trail of a request after a look at the deadlines that pushed these frames. -/
def looked (t : Trail) (id : RequestId) (items : List (Priority × OutboundFrame))
    (s : Session) : Trail :=
  { t with
    pushed := framesOf id items ++ t.pushed
    resent := framesOf id s.requeued ++ t.resent }

/-- An entry that is left by a look tells of the trail after it: either it was not due, or
it lost its deadline and a retry, and its frame was pushed. -/
theorem Account.fits_scan {s : Session} {t : Trail} {frame : OutboundFrame}
    {priority : Priority} {items : List (Priority × OutboundFrame)} {r' : PendingRequest}
    (h : Account t frame priority s) (ht : TableOk s.pending)
    (hitems : items = s.requeued ∨ s.queue.closed = true ∧ items = [])
    (hf : s.scan.pending.requests.find? frame.id = some r') :
    (looked t frame.id items s).Fits s.config frame priority r' := by
  obtain ⟨r, hr, ⟨hover, rfl⟩ | ⟨hover, he, hopen⟩⟩ := registered_scan ht hf
  · have hnot : framesOf frame.id s.requeued = [] := by
      refine h.requeued_eq_nil ht fun r hdue => ?_
      obtain ⟨hr', hover', _⟩ := hdue
      rw [hr, Option.some.injEq] at hr'
      rw [← hr', hover] at hover'
      cases hover'
    have hitem : framesOf frame.id items = [] := by
      rcases hitems with rfl | ⟨_, rfl⟩
      · exact hnot
      · rfl
    have hsame : looked t frame.id items s = t := by
      unfold looked
      rw [hitem, hnot]
      rfl
    rw [hsame]
    exact h.registered _ hr
  · obtain rfl : items = s.requeued := by
      refine hitems.resolve_right fun hc => ?_
      rw [hopen] at hc
      cases hc.1
    have fit := h.registered r hr
    obtain ⟨_, hwritten, _⟩ := fit.of_overdue hover
    rw [PendingRequest.expired?] at he
    split at he
    · next hretry =>
      obtain rfl := Option.some.inj he
      have hone : framesOf frame.id s.requeued = [(priority, frame)] := by
        rcases h.requeued ht with ⟨_, hnot⟩ | ⟨hone, _⟩
        · exact absurd ⟨hr, hover, hretry⟩ (hnot r)
        · exact hone
      have hused : (r.retries - 1).toNat = r.retries.toNat - 1 :=
        UInt32.toNat_sub_of_le _ _ (UInt32.le_iff_toNat_le.mpr hretry)
      have hleft := fit.retries
      have hpushed := fit.pushed
      rw [UInt32.lt_iff_toNat_lt] at hretry
      change 0 < r.retries.toNat at hretry
      unfold looked
      rw [hone]
      refine ⟨fit.sameFrame, fit.samePriority, fit.sameKey, ?_, ?_, fun _ => hwritten,
        fun _ hd => ?_⟩
      · show (r.retries - 1).toNat + (t.resent.length + 1) = _
        omega
      · show t.pushed.length + 1 = t.resent.length + 1 + 1
        omega
      · cases hd
    · cases he

/-- Whoever timed out by the end of a look had used every retry, and was written each time. -/
theorem Account.timedOut_scan {s : Session} {t : Trail} {frame : OutboundFrame}
    {priority : Priority} {items : List (Priority × OutboundFrame)}
    (h : Account t frame priority s) (hs : s.Sound) (ht : s.scan.TimedOut frame.id) :
    (looked t frame.id items s).resent.length = s.config.retries.toNat ∧
      (looked t frame.id items s).written.length = s.config.retries.toNat + 1 := by
  have same : framesOf frame.id s.requeued = [] →
      (looked t frame.id items s).resent = t.resent := by
    intro hnot
    show framesOf frame.id s.requeued ++ t.resent = t.resent
    rw [hnot]
    rfl
  rcases Session.timedOut_scan hs.table.once ht with hold | ⟨r, hr, hover, hzero⟩
  · rw [same (h.requeued_eq_nil hs.table fun r hdue => ?_)]
    · exact h.timedOut hold
    · obtain ⟨hr, _⟩ := hdue
      rw [hs.ledger.find?_of_timedOut hold] at hr
      cases hr
  · rw [same (h.requeued_eq_nil hs.table fun r' hdue => ?_)]
    · have fit := h.registered r hr
      have hleft := fit.retries
      obtain ⟨_, hwritten, _⟩ := fit.of_overdue hover
      rw [hzero] at hleft
      change 0 + t.resent.length = _ at hleft
      rw [Nat.zero_add] at hleft
      exact ⟨hleft, hwritten.trans (congrArg (· + 1) hleft)⟩
    · obtain ⟨hr', _, hretry⟩ := hdue
      rw [hr, Option.some.injEq] at hr'
      rw [← hr', hzero] at hretry
      cases hretry

/-- A look moves no writer, and takes no time. -/
theorem unmoved_scan (s : Session) :
    s.scan.inFlight = s.inFlight ∧ s.scan.now = s.now ∧ s.scan.config = s.config := by
  obtain ⟨_, _, _, _, he⟩ := s.trafficOnly_scan
  rw [he]
  exact ⟨rfl, rfl, rfl⟩

/-- No more is pushed for a request than is sent once more. -/
theorem framesOf_sublist_requeued {s : Session} {items : List (Priority × OutboundFrame)}
    (hitems : items = s.requeued ∨ s.queue.closed = true ∧ items = []) (id : RequestId) :
    (framesOf id items).Sublist (framesOf id s.requeued) := by
  rcases hitems with rfl | ⟨_, rfl⟩
  · exact List.Sublist.refl _
  · exact List.nil_sublist _

/-- The copies ahead after a look are those before, and one for each frame that is pushed. -/
theorem length_ahead_scan {s : Session} {items : List (Priority × OutboundFrame)}
    (hahead : s.scan.ahead.Perm (items.map Prod.snd ++ s.ahead)) (id : RequestId) :
    (copiesOf s.scan.ahead id).length =
      (framesOf id items).length + (copiesOf s.ahead id).length := by
  rw [← length_framesOf, ← List.length_append]
  unfold copiesOf
  rw [← List.filter_append]
  exact (hahead.filter _).length_eq

/-- A look takes a retry for what it sends once more. -/
theorem Account.retries_scan {s : Session} {t : Trail} {frame : OutboundFrame}
    {priority : Priority} (h : Account t frame priority s) (ht : TableOk s.pending) :
    (framesOf frame.id s.requeued ++ t.resent).length ≤ s.config.retries.toNat := by
  rw [List.length_append]
  rcases h.requeued ht with ⟨hnil, _⟩ | ⟨hone, r, hr, _, hretry⟩
  · rw [hnil, List.length_nil, Nat.zero_add]
    exact h.retries
  · have hleft := (h.registered r hr).retries
    rw [UInt32.lt_iff_toNat_lt] at hretry
    rw [hone, List.length_singleton]
    change 0 < r.retries.toNat at hretry
    omega

/-- A look sends nothing once more that expects no answer. -/
theorem Account.keyless_scan {s : Session} {t : Trail} {frame : OutboundFrame}
    {priority : Priority} (h : Account t frame priority s) (ht : TableOk s.pending)
    (hk : frame.key? = none) : framesOf frame.id s.requeued ++ t.resent = [] := by
  rw [h.keyless hk, List.append_nil]
  -- a request that is due expects an answer
  refine h.requeued_eq_nil ht fun r hdue => ?_
  obtain ⟨hr, hover, _⟩ := hdue
  obtain ⟨hkey, _⟩ := (h.registered r hr).of_overdue hover
  rw [hk] at hkey
  cases hkey

/-- A look does nothing for a number that was not given out. -/
theorem Account.unborn_scan {s : Session} {t : Trail} {frame : OutboundFrame}
    {priority : Priority} {items : List (Priority × OutboundFrame)}
    (h : Account t frame priority s) (hs : s.Sound)
    (hsub : (framesOf frame.id items).Sublist (framesOf frame.id s.requeued))
    (hlt : s.scan.requestIds.given < frame.id) :
    framesOf frame.id items ++ t.pushed = [] ∧ framesOf frame.id s.requeued ++ t.resent = [] := by
  have hnew := Nat.lt_of_le_of_lt (keepsBooks_scan s).2.1 hlt
  have hnot := h.requeued_eq_nil hs.table fun r hdue =>
    absurd (hs.ledger.le_of_find? hdue.1).2 (Nat.not_le.mpr hnew)
  obtain ⟨hpushed, hresent⟩ := h.unborn hnew
  rw [hnot] at hsub ⊢
  rw [List.sublist_nil.mp hsub, hpushed, hresent]
  exact ⟨rfl, rfl⟩

/-- A look that pushes these frames keeps the account of a frame. -/
theorem Account.scan {s : Session} {t : Trail} {frame : OutboundFrame} {priority : Priority}
    {items : List (Priority × OutboundFrame)} (h : Account t frame priority s) (hs : s.Sound)
    (hahead : s.scan.ahead.Perm (items.map Prod.snd ++ s.ahead))
    (hitems : items = s.requeued ∨ s.queue.closed = true ∧ items = []) :
    Account (looked t frame.id items s) frame priority s.scan := by
  obtain ⟨hflight, hnow, hconfig⟩ := s.unmoved_scan
  have hmine := h.mem_requeued hs.table
  have hsub := framesOf_sublist_requeued hitems frame.id
  have hle := hsub.length_le
  exact {
    pushed := fun e he =>
      (List.mem_append.mp he).elim (fun he => hmine e (hsub.subset he)) (h.pushed e)
    begun := h.begun
    written := hnow ▸ h.written
    resent := fun e he => (List.mem_append.mp he).elim (hmine e) (h.resent e)
    same := fun f hf hid => by
      rw [hflight, hahead.mem_iff, List.mem_append, or_assoc] at hf
      rcases hf with hf | hf
      · obtain ⟨e, he, rfl⟩ := List.mem_map.mp hf
        rw [hmine e (hsub.subset (List.mem_filter.mpr ⟨he, decide_eq_true hid⟩))]
      · exact h.same f hf hid
    ahead := by
      have hold := h.ahead
      show _ + t.begun.length ≤ (_ ++ _ : List _).length
      rw [List.length_append, length_ahead_scan hahead]
      omega
    inFlight := hflight ▸ h.inFlight
    spent := by
      have hold := h.spent
      show (_ ++ _ : List _).length ≤ (_ ++ _ : List _).length + 1
      rw [List.length_append, List.length_append]
      omega
    retries := hconfig ▸ h.retries_scan hs.table
    keyless := h.keyless_scan hs.table
    unborn := h.unborn_scan hs hsub
    registered := fun r hf => hconfig ▸ h.fits_scan hs.table hitems hf
    timedOut := fun ht => hconfig ▸ h.timedOut_scan hs ht }

/-- **A look at the deadlines keeps the account.** -/
theorem accounted_scan {s : Session} {t : Trail} {id : RequestId} (hs : s.Sound)
    (h : Accounted t id s) :
    Accounted (looked t id (s.queue.added s.scan.queue) s) id s.scan := by
  obtain ⟨frame, priority, rfl, h⟩ := h
  obtain ⟨items, hadded, hahead, hitems⟩ := s.ahead_scan
  have hacc := h.scan hs hahead hitems
  exact Accounted.perm ⟨frame, priority, rfl, hacc⟩ ((hadded.filter _).append_right _)

end Session

end ZoneBus
