import ZoneBus.Proofs.Request.Overdue

/-!
# How often an unanswered request is written

A request that nobody answers is written, looked at once more when an expiry comes, written
again, and so on.  It counts its writes on the way up and its retries on the way down, and
tells of the writes twice: of the next one when it is sent once more, and of all of them when
it ends.  An expiry that comes before the deadline finds nothing to do and takes no retry, so
only when every expiry comes in time are the writes one more than the retries.

## Main definitions

* `Round` — a write, and the expiry that comes after it.
* `PendingTable.round` — what a round does to a table, and what it tells of one request.
* `PendingRequest.round` — the same for the request alone.

## Main results

* `Register.runOps_round` — other requests make no difference.
* `PendingRequest.told_rounds` — what each round tells of a request alone.
* `Register.attempts_of_rounds` — **each report has the number of writes.**
-/

namespace ZoneBus

/-- The frame of a request is written, and then an expiry comes. -/
structure Round where
  /-- When the frame is written. -/
  written : Nat
  /-- How long an answer may take from then on. -/
  timeout : Nat
  /-- When the expiry comes. -/
  checked : Instant
deriving DecidableEq

/-- Whether the expiry does not come before the deadline. -/
def Round.isDue (x : Round) : Bool := decide (x.written + x.timeout ≤ x.checked)

/-- A round of a table, and what it tells of one request. -/
def PendingTable.round (id : RequestId) (t : PendingTable) (x : Round) :
    ExpiryTold × PendingTable :=
  let e := (t.markWritten id x.written x.timeout).2.2.expire x.checked
  (e.toldOf id, e.table)

/-- When every round is due, so many of the first ones are. -/
theorem countP_take_of_all {rounds : List Round} (hall : ∀ x ∈ rounds, x.isDue = true) {k : Nat}
    (hk : k ≤ rounds.length) : (rounds.take k).countP Round.isDue = k := by
  rw [List.countP_eq_length.mpr fun x hx => hall x (List.mem_of_mem_take hx), List.length_take,
    Nat.min_eq_left hk]

/-! ### A request alone -/

namespace PendingRequest

/-- A round of a request, if it has not ended. -/
def round (r? : Option PendingRequest) (x : Round) : ExpiryTold × Option PendingRequest :=
  match r? with
  | none => (.nothing, none)
  | some r =>
    let r' := r.written x.written x.timeout
    if x.isDue then (r'.toldOverdue r'.frame.id, r'.expired?) else (.nothing, some r')

/-- Nothing is told of a request that has ended. -/
theorem round_none (rounds : List Round) :
    runOps round none rounds = (List.replicate rounds.length .nothing, none) := by
  induction rounds with
  | nil => rfl
  | cons x rounds ih => rw [runOps_cons, round, ih]; rfl

/-- What a round tells of a request as it was registered, after so many rounds, of which so
many were due. -/
def told (r : PendingRequest) (due rounds : Nat) (x : Round) : ExpiryTold :=
  if x.isDue then
    if due < r.retries.toNat then
      .resent r.frame r.priority (r.attempts + UInt32.ofNat (rounds + 2))
    else if due = r.retries.toNat then
      .timedOut r.frame.id (r.attempts + UInt32.ofNat (rounds + 1))
    else .nothing
  else .nothing

section Told

variable {r : PendingRequest} {due : Nat} {x : Round}

theorem told_of_lt (hdue : x.isDue = true) (h : due < r.retries.toNat) (rounds : Nat) :
    r.told due rounds x = .resent r.frame r.priority (r.attempts + UInt32.ofNat (rounds + 2)) := by
  rw [told, if_pos hdue, if_pos h]

theorem told_of_eq (hdue : x.isDue = true) (h : due = r.retries.toNat) (rounds : Nat) :
    r.told due rounds x = .timedOut r.frame.id (r.attempts + UInt32.ofNat (rounds + 1)) := by
  rw [told, if_pos hdue, if_neg (Nat.not_lt.mpr (Nat.le_of_eq h.symm)), if_pos h]

theorem told_nothing (h : x.isDue = false ∨ r.retries.toNat < due) (rounds : Nat) :
    r.told due rounds x = .nothing := by
  rw [told]
  rcases h with hdue | h
  · rw [if_neg (by rw [hdue]; exact Bool.false_ne_true)]
  · rw [if_neg (Nat.lt_asymm h), if_neg (Nat.ne_of_gt h), ite_self]

end Told

/-- A request that was written, and lost a retry or not, has one round less to count. -/
theorem told_of_written {r r' : PendingRequest} {spent : Nat} (hframe : r'.frame = r.frame)
    (hpriority : r'.priority = r.priority) (hattempts : r'.attempts = r.attempts + 1)
    (hretries : r'.retries.toNat + spent = r.retries.toNat) (due rounds : Nat) (x : Round) :
    r'.told due rounds x = r.told (due + spent) (rounds + 1) x := by
  have hcount : ∀ n, r.attempts + 1 + UInt32.ofNat n = r.attempts + UInt32.ofNat (n + 1) := by
    intro n
    rw [UInt32.add_assoc, Nat.add_comm n 1, UInt32.ofNat_add]
    rfl
  have hlt : due < r'.retries.toNat ↔ due + spent < r.retries.toNat := by omega
  have heq : due = r'.retries.toNat ↔ due + spent = r.retries.toNat := by omega
  simp only [told, hframe, hpriority, hattempts, hcount, hlt, heq]

theorem toNat_pred {n : UInt32} (h : 0 < n) : (n - 1).toNat + 1 = n.toNat := by
  have hpos : 0 < n.toNat := h
  rw [UInt32.toNat_sub_of_le n 1 hpos]
  exact Nat.sub_add_cancel hpos

/-- What a round leaves of a request that has not ended: written once more, and with a retry
less when that was due. -/
theorem round_some {r r' : PendingRequest} {x : Round} (h : (round (some r) x).2 = some r') :
    r'.frame = r.frame ∧ r'.key = r.key ∧ r'.priority = r.priority ∧
      r'.attempts = r.attempts + 1 ∧
      r'.retries.toNat + [x].countP Round.isDue = r.retries.toNat := by
  rw [List.countP_singleton]
  rw [round] at h
  by_cases hdue : x.isDue = true
  · rw [if_pos hdue, expired?] at h
    rw [if_pos hdue]
    split at h
    · next hretry =>
      obtain rfl := Option.some.inj h
      exact ⟨rfl, rfl, rfl, rfl, toNat_pred hretry⟩
    · cases h
  · rw [if_neg hdue] at h
    rw [if_neg hdue]
    obtain rfl := Option.some.inj h
    exact ⟨rfl, rfl, rfl, rfl, rfl⟩

/-- A request ends when it is due and has no retry left. -/
theorem round_ends {r : PendingRequest} {x : Round} (h : (round (some r) x).2 = none) :
    x.isDue = true ∧ r.retries.toNat = 0 := by
  rw [round] at h
  by_cases hdue : x.isDue = true
  · rw [if_pos hdue, expired?] at h
    split at h
    · cases h
    · next hretry => exact ⟨hdue, Nat.le_zero.mp (Nat.not_lt.mp hretry)⟩
  · rw [if_neg hdue] at h
    cases h

theorem told_round (r : PendingRequest) (x : Round) : (round (some r) x).1 = r.told 0 0 x := by
  rw [round]
  by_cases hdue : x.isDue = true
  · rw [if_pos hdue, toldOverdue]
    by_cases hretry : 0 < r.retries
    · rw [if_pos (show 0 < (r.written x.written x.timeout).retries from hretry),
        told_of_lt hdue (show 0 < r.retries.toNat from hretry)]
      exact congrArg (ExpiryTold.resent r.frame r.priority) (UInt32.add_assoc r.attempts 1 1)
    · rw [if_neg (show ¬0 < (r.written x.written x.timeout).retries from hretry),
        told_of_eq hdue (Nat.le_zero.mp (Nat.not_lt.mp hretry)).symm]
      rfl
  · rw [if_neg hdue, told_nothing (Or.inl (Bool.eq_false_iff.mpr hdue))]

/-- **What each round tells of a request alone.** -/
theorem told_rounds (rounds : List Round) : ∀ (r : PendingRequest) (k : Nat) (x : Round),
    rounds[k]? = some x → (runOps round (some r) rounds).1[k]? =
      some (r.told ((rounds.take k).countP Round.isDue) k x) := by
  induction rounds with
  | nil => exact fun _ _ _ hx => by cases hx
  | cons y rounds ih =>
    intro r k x hx
    rw [runOps_cons]
    cases k with
    | zero =>
      obtain rfl := Option.some.inj hx
      exact congrArg some (told_round r y)
    | succ k =>
      rw [List.getElem?_cons_succ] at hx ⊢
      rw [List.take_succ_cons, ← List.singleton_append, List.countP_append, Nat.add_comm]
      cases hr : (round (some r) y).2 with
      | none =>
        -- the request has ended, and this round is one too many
        obtain ⟨hdue, hzero⟩ := round_ends hr
        have hlength := (List.getElem?_eq_some_iff.mp hx).1
        have hspent : r.retries.toNat <
            (rounds.take k).countP Round.isDue + [y].countP Round.isDue := by
          rw [List.countP_singleton, if_pos hdue, hzero]
          exact Nat.succ_pos _
        rw [round_none, List.getElem?_replicate, if_pos hlength, told_nothing (Or.inr hspent)]
      | some r' =>
        obtain ⟨hframe, _, hpriority, hattempts, hretries⟩ := round_some hr
        rw [ih r' k x hx, told_of_written hframe hpriority hattempts hretries]

/-- **A request that has not ended after some rounds** was written in each of them, and lost a
retry in each that was due. -/
theorem run_round_some (rounds : List Round) : ∀ {r r' : PendingRequest},
    (runOps round (some r) rounds).2 = some r' →
      r'.attempts = r.attempts + UInt32.ofNat rounds.length ∧
        r'.retries.toNat + rounds.countP Round.isDue = r.retries.toNat := by
  induction rounds with
  | nil =>
    intro r r' h
    obtain rfl := Option.some.inj h
    exact ⟨(UInt32.add_zero _).symm, rfl⟩
  | cons x rounds ih =>
    intro r r' h
    rw [runOps_cons] at h
    cases hr : (round (some r) x).2 with
    | none =>
      rw [hr, round_none] at h
      cases h
    | some r₁ =>
      rw [hr] at h
      obtain ⟨_, _, _, hattempts, hretries⟩ := round_some hr
      obtain ⟨hattempts', hretries'⟩ := ih h
      constructor
      · rw [hattempts', hattempts, List.length_cons, UInt32.add_assoc, Nat.add_comm,
          UInt32.ofNat_add]
        rfl
      · rw [← List.singleton_append, List.countP_append]
        omega

end PendingRequest

/-! ### A request among others -/

namespace Register

variable {t : PendingTable} {l : List PendingRequest} {id : RequestId}

/-- A write keeps table and register in step. -/
theorem lists_markWritten (h : Lists t l) (id : RequestId) (now timeout : Nat) :
    Lists (t.markWritten id now timeout).2.2 (perform l (.markWritten id now timeout)).2 := by
  have hnew : ∀ j, (TableOp.markWritten id now timeout).inserted? = some j → j ∉ ids l :=
    fun _ hj => by cases hj
  exact (lists_perform h hnew).2

/-- A request that waits for an answer is found as it was, but for the write. -/
theorem find?_markWritten_self (hkey : ∀ r, t.requests.find? id = some r → r.key.isSome = true)
    (now timeout : Nat) :
    (t.markWritten id now timeout).2.2.requests.find? id =
      (t.requests.find? id).map fun r => r.written now timeout := by
  rw [PendingTable.markWritten]
  cases hr : t.requests.find? id with
  | none => exact hr
  | some r =>
    obtain ⟨key, hk⟩ := Option.isSome_iff_exists.mp (hkey r hr)
    dsimp only
    rw [hk]
    dsimp only
    rw [Directory.find?_put, if_pos rfl, ← hk]
    rfl

/-- A round tells of a request what it would tell if there were no other, and leaves the same of
it. -/
theorem round_eq (h : Lists t l)
    (hkey : ∀ r, t.requests.find? id = some r → r.key.isSome = true) (x : Round) :
    (t.round id x).1 = (PendingRequest.round (t.requests.find? id) x).1 ∧
      (t.round id x).2.requests.find? id =
        (PendingRequest.round (t.requests.find? id) x).2 := by
  have hlists := lists_markWritten h id x.written x.timeout
  have hwritten := find?_markWritten_self hkey x.written x.timeout
  have htold : (t.round id x).1 = _ := toldOf_expireIn hlists (List.Perm.refl _) id
  have hleft : (t.round id x).2.requests.find? id = _ :=
    PendingTable.find?_expire (hlists.keys ▸ hlists.nodup) x.checked id
  rw [htold, hleft, hwritten]
  cases hr : t.requests.find? id with
  | none => exact ⟨rfl, rfl⟩
  | some r =>
    obtain ⟨_, rfl⟩ := mem_of_lookup? ((h.find? id).symm.trans hr)
    have hover : (r.written x.written x.timeout).isOverdue x.checked = x.isDue := rfl
    rw [Option.map_some, Option.bind_some, PendingRequest.round]
    dsimp only
    rw [hover]
    by_cases hdue : x.isDue = true
    · rw [if_pos hdue, if_pos hdue, if_pos hdue]
      exact ⟨rfl, rfl⟩
    · rw [if_neg hdue, if_neg hdue, if_neg hdue]
      exact ⟨rfl, rfl⟩

/-- **Other requests make no difference** to what is told of a request in any rounds. -/
theorem runOps_round (h : Lists t l)
    (hkey : ∀ r, t.requests.find? id = some r → r.key.isSome = true) (rounds : List Round) :
    (runOps (PendingTable.round id) t rounds).1 =
        (runOps PendingRequest.round (t.requests.find? id) rounds).1 ∧
      (runOps (PendingTable.round id) t rounds).2.requests.find? id =
        (runOps PendingRequest.round (t.requests.find? id) rounds).2 := by
  let InStep : List Round → PendingTable → Option PendingRequest → Prop := fun _ t r? =>
    (∃ l, Lists t l) ∧ t.requests.find? id = r? ∧ ∀ r, r? = some r → r.key.isSome = true
  have keep : ∀ x rounds t r?, InStep (x :: rounds) t r? →
      (t.round id x).1 = (PendingRequest.round r? x).1 ∧
        InStep rounds (t.round id x).2 (PendingRequest.round r? x).2 := by
    rintro x rounds t _ ⟨⟨l, h⟩, rfl, hkey⟩
    obtain ⟨htold, hfind⟩ := round_eq h hkey x
    have hlists := lists_markWritten h id x.written x.timeout
    refine ⟨htold, ⟨_, lists_of_overdue hlists (List.Perm.refl _)⟩, hfind, fun r' hr' => ?_⟩
    cases hr : t.requests.find? id with
    | none =>
      rw [hr] at hr'
      cases hr'
    | some r =>
      rw [hr] at hr'
      rw [(PendingRequest.round_some hr').2.1]
      exact hkey r hr
  obtain ⟨htold, _, hfind, _⟩ := runOps_eq_of_inStep keep rounds t (t.requests.find? id)
    ⟨⟨l, h⟩, rfl, hkey⟩
  exact ⟨htold, hfind⟩

/-! ### Every report -/

section Reports

variable {r : PendingRequest} {rounds : List Round} {k : Nat}

theorem runOps_round_some (h : Lists t l) (hfind : t.requests.find? id = some r)
    (hkey : r.key.isSome = true) (rounds : List Round) :
    (runOps (PendingTable.round id) t rounds).1 =
        (runOps PendingRequest.round (some r) rounds).1 ∧
      (runOps (PendingTable.round id) t rounds).2.requests.find? id =
        (runOps PendingRequest.round (some r) rounds).2 := by
  rw [← hfind]
  refine runOps_round h (fun r' hr' => ?_) rounds
  rwa [← Option.some.inj (hfind.symm.trans hr')]

/-- What each round tells of a request that waits for an answer. -/
theorem told_runOps (h : Lists t l) (hfind : t.requests.find? id = some r)
    (hkey : r.key.isSome = true) {x : Round} (hx : rounds[k]? = some x) :
    (runOps (PendingTable.round id) t rounds).1[k]? =
      some (r.told ((rounds.take k).countP Round.isDue) k x) := by
  rw [(runOps_round_some h hfind hkey rounds).1]
  exact PendingRequest.told_rounds rounds r k x hx

/-- A request that has not ended has counted its writes, and has spent a retry on each expiry
that was due. -/
theorem left_runOps (h : Lists t l) (hfind : t.requests.find? id = some r)
    (hkey : r.key.isSome = true) {r' : PendingRequest}
    (hleft : (runOps (PendingTable.round id) t rounds).2.requests.find? id = some r') :
    r'.attempts = r.attempts + UInt32.ofNat rounds.length ∧
      r'.retries.toNat + rounds.countP Round.isDue = r.retries.toNat := by
  rw [(runOps_round_some h hfind hkey rounds).2] at hleft
  exact PendingRequest.run_round_some rounds hleft

variable {frame : OutboundFrame} {priority : Priority} {key : ReplyKey} {retries : UInt32}

/-- What each round tells of a request that was not written before, as long as the counter has
room for it. -/
theorem reports_runOps (h : Lists t l)
    (hfind : t.requests.find? frame.id = some (.fresh frame priority (some key) retries))
    {x : Round} (hx : rounds[k]? = some x) :
    let told := (runOps (PendingTable.round frame.id) t rounds).1
    let due := (rounds.take k).countP Round.isDue
    (x.isDue = true → due < retries.toNat → k + 2 < 2 ^ 32 → ∃ attempt : UInt32,
      attempt.toNat = 1 + (k + 1) ∧ told[k]? = some (.resent frame priority attempt)) ∧
    (x.isDue = true → due = retries.toNat → k + 1 < 2 ^ 32 → ∃ attempts : UInt32,
      attempts.toNat = k + 1 ∧ told[k]? = some (.timedOut frame.id attempts)) ∧
    (x.isDue = false ∨ retries.toNat < due → told[k]? = some .nothing) := by
  intro told due
  have hcount : ∀ n, n < 2 ^ 32 → (0 + UInt32.ofNat n).toNat = n := by
    intro n hn
    rw [UInt32.zero_add, UInt32.toNat_ofNat', Nat.mod_eq_of_lt hn]
  rw [show told[k]? = _ from told_runOps h hfind rfl hx]
  refine ⟨fun hdue hlt hroom => ?_, fun hdue heq hroom => ?_, fun hnot => ?_⟩
  · exact ⟨_, (hcount _ hroom).trans (Nat.add_comm (k + 1) 1),
      congrArg some (PendingRequest.told_of_lt hdue hlt k)⟩
  · exact ⟨_, hcount _ hroom, congrArg some (PendingRequest.told_of_eq hdue heq k)⟩
  · exact congrArg some (PendingRequest.told_nothing hnot k)

end Reports

/-- **Each report has the number of writes.**  A request that waits for an answer was registered
and has not been written yet, whatever else was asked of the table.  No answer comes: it is
written, an expiry comes, it is written again, and so on, at any times.  The expiry of round
`k`, counted from zero, comes after `k + 1` writes.

While fewer than `2 ^ 32 - 1` writes are done, an expiry that is not before the deadline sends
the frame once more, as many times as there are retries, and tells one more than the number of
writes; the next one ends the request, and tells the number of writes.  A request that has not
ended has counted its writes, and has spent a retry on each expiry that was due.

When no expiry comes before its deadline, and the retries are fewer than the counter can
hold, the counter never overflows: the request is written once more than it has retries, and
the end of it tells exactly that. -/
theorem attempts_of_rounds (ops : List TableOp) (hfresh : (ops.filterMap TableOp.inserted?).Nodup)
    (frame : OutboundFrame) (priority : Priority) (key : ReplyKey) (retries : UInt32)
    (hfind : (runOps PendingTable.perform .empty ops).2.requests.find? frame.id =
      some (.fresh frame priority (some key) retries)) (rounds : List Round) :
    let t := (runOps PendingTable.perform .empty ops).2
    let told := (runOps (PendingTable.round frame.id) t rounds).1
    let left (k : Nat) := (runOps (PendingTable.round frame.id) t (rounds.take k)).2
    let due (k : Nat) := (rounds.take k).countP Round.isDue
    (∀ k x, rounds[k]? = some x → k + 2 < 2 ^ 32 →
      (x.isDue = true → due k < retries.toNat → ∃ attempt : UInt32,
        attempt.toNat = 1 + (k + 1) ∧ told[k]? = some (.resent frame priority attempt)) ∧
      (x.isDue = true → due k = retries.toNat → ∃ attempts : UInt32,
        attempts.toNat = k + 1 ∧ told[k]? = some (.timedOut frame.id attempts)) ∧
      (x.isDue = false ∨ retries.toNat < due k → told[k]? = some .nothing)) ∧
    (∀ k r, k ≤ rounds.length → (left k).requests.find? frame.id = some r →
      r.attempts = UInt32.ofNat k ∧ r.retries.toNat + due k = retries.toNat) ∧
    ((∀ x ∈ rounds, x.isDue = true) → retries.toNat < 2 ^ 32 - 1 →
      (∀ k < rounds.length,
        (k < retries.toNat → ∃ attempt : UInt32, attempt.toNat = 1 + (k + 1) ∧
          told[k]? = some (.resent frame priority attempt)) ∧
        (k = retries.toNat → ∃ attempts : UInt32, attempts.toNat = retries.toNat + 1 ∧
          told[k]? = some (.timedOut frame.id attempts)) ∧
        (retries.toNat < k → told[k]? = some .nothing)) ∧
      ∀ k r, k ≤ rounds.length → (left k).requests.find? frame.id = some r →
        k ≤ retries.toNat ∧ r.attempts.toNat = k ∧
          ∀ now timeout, (r.written now timeout).attempts.toNat = k + 1) := by
  intro t told left due
  have hnew : (ids [] ++ ops.filterMap TableOp.inserted?).Nodup := by simpa [ids] using hfresh
  obtain ⟨_, h⟩ := lists_run lists_empty hnew
  have hcounted : ∀ k r, k ≤ rounds.length → (left k).requests.find? frame.id = some r →
      r.attempts = UInt32.ofNat k ∧ r.retries.toNat + due k = retries.toNat := by
    intro k r hk hr
    obtain ⟨hattempts, hretries⟩ := left_runOps h hfind rfl hr
    rw [hattempts, List.length_take, Nat.min_eq_left hk]
    exact ⟨UInt32.zero_add _, hretries⟩
  refine ⟨fun k x hx hroom => ?_, hcounted,
    fun hall hbelow => ⟨fun k hk => ?_, fun k r hk hr => ?_⟩⟩
  · obtain ⟨hresent, hended, hnothing⟩ := reports_runOps h hfind hx
    exact ⟨fun hdue hlt => hresent hdue hlt hroom,
      fun hdue heq => hended hdue heq (Nat.lt_of_succ_lt hroom), hnothing⟩
  · obtain ⟨hresent, hended, hnothing⟩ := reports_runOps h hfind (List.getElem?_eq_getElem hk)
    have hdue := hall _ (List.getElem_mem hk)
    rw [countP_take_of_all hall (Nat.le_of_lt hk)] at hresent hended hnothing
    refine ⟨fun hlt => hresent hdue hlt (by omega), fun heq => ?_, fun hgt => hnothing (Or.inr hgt)⟩
    rw [← heq]
    exact hended hdue heq (by omega)
  · obtain ⟨hattempts, hretries⟩ := hcounted k r hk hr
    rw [show due k = k from countP_take_of_all hall hk] at hretries
    have hnow : r.attempts.toNat = k := by
      rw [hattempts, UInt32.toNat_ofNat', Nat.mod_eq_of_lt (by omega)]
    refine ⟨by omega, hnow, fun now timeout => ?_⟩
    show (r.attempts + 1).toNat = k + 1
    rw [UInt32.toNat_add, hnow]
    exact Nat.mod_eq_of_lt (show k + 1 < 2 ^ 32 by omega)

/-- A request with one retry is written twice, and nothing is told of it later.  An expiry before
the first write makes no difference. -/
theorem attempts_of_rounds_oneRetry :
    let event := waitingEvent 1 1
    let ops : List TableOp := [.insert event, .expire 100]
    let rounds : List Round := [⟨100, 10, 110⟩, ⟨120, 10, 140⟩, ⟨150, 10, 160⟩]
    let told := (runOps (PendingTable.round 1) (runOps PendingTable.perform .empty ops).2 rounds).1
    (ops.filterMap TableOp.inserted?).Nodup ∧
      (runOps PendingTable.perform .empty ops).2.requests.find? 1 = some event ∧
      (∀ x ∈ rounds, x.isDue = true) ∧ (1 : UInt32).toNat < 2 ^ 32 - 1 ∧
      told = [.resent event.frame .low 2, .timedOut 1 2, .nothing] ∧
      ∃ attempts : UInt32, attempts.toNat = (1 : UInt32).toNat + 1 ∧
        told[1]? = some (.timedOut 1 attempts) := by
  intro event ops rounds told
  have hfresh : (ops.filterMap TableOp.inserted?).Nodup := by decide
  have hfind : (runOps PendingTable.perform .empty ops).2.requests.find? event.frame.id =
      some (.fresh event.frame .low (some (.handshake (.controllerAt 1))) 1) := by decide +kernel
  have hdue : ∀ x ∈ rounds, x.isDue = true := by decide
  have hbelow : (1 : UInt32).toNat < 2 ^ 32 - 1 := by decide
  obtain ⟨_, _, hall⟩ := attempts_of_rounds ops hfresh event.frame .low
    (.handshake (.controllerAt 1)) 1 hfind rounds
  exact ⟨hfresh, hfind, hdue, hbelow, by decide +kernel,
    ((hall hdue hbelow).1 1 (by decide)).2.1 rfl⟩

/-- An expiry that comes before the deadline takes no retry, so that a request without one is
written twice before it ends.  And with as many retries as the counter can hold there is one
write more than that, and the counter comes round. -/
theorem exists_attempts_ne :
    let table (retries : UInt32) := (PendingTable.empty.insert (waitingEvent 1 retries)).2
    (runOps (PendingTable.round 1) (table 0) [⟨0, 100, 50⟩, ⟨60, 100, 200⟩]).1 =
        [.nothing, .timedOut 1 2] ∧
      (2 : UInt32).toNat ≠ (0 : UInt32).toNat + 1 ∧
      (runOps (PendingTable.round 1) (table 4294967295)
        (List.replicate (2 ^ 32) ⟨0, 1, 1⟩)).1[2 ^ 32 - 1]? = some (.timedOut 1 0) ∧
      (0 : UInt32).toNat ≠ (4294967295 : UInt32).toNat + 1 := by
  intro table
  refine ⟨by decide +kernel, by decide, ?_, by decide⟩
  let rounds : List Round := List.replicate (2 ^ 32) ⟨0, 1, 1⟩
  have hx : rounds[2 ^ 32 - 1]? = some ⟨0, 1, 1⟩ := by
    rw [List.getElem?_replicate, if_pos (by decide)]
  have hcount : (rounds.take (2 ^ 32 - 1)).countP Round.isDue = 2 ^ 32 - 1 := by
    refine countP_take_of_all (fun x hx => ?_) ?_
    · rw [(List.mem_replicate.mp hx).2]
      rfl
    · rw [List.length_replicate]
      decide
  have hretries : 2 ^ 32 - 1 = (waitingEvent 1 4294967295).retries.toNat := by decide
  have hnew : (waitingEvent 1 4294967295).frame.id ∉ ids [] := List.not_mem_nil
  have hlists := (lists_empty.insert hnew).2
  have hfind : (table 4294967295).requests.find? 1 = some (waitingEvent 1 4294967295) := rfl
  refine (told_runOps hlists hfind rfl hx).trans (congrArg some ?_)
  rw [hcount]
  exact PendingRequest.told_of_eq rfl hretries _

end Register

end ZoneBus
