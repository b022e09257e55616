import Mathlib.Algebra.Ring.Nat
import ZoneBus.Proofs.Request.Register

/-!
# Which requests an expiry handles

An expiry first lists the overdue requests and then handles them one after another, while it
takes requests out of the table and out of the lines that they share with others.  Still it
comes to what is due to each of them alone: a request whose deadline has come is sent once
more or ends, with the number of times that it was written, and every other request is left
as it is, in its place in line.  In which order the overdue requests come does not matter.

How often a request was written can be told from the operations and their answers; the
request keeps count in a number of bounded size.

## Main definitions

* `writesOf` — how often the frame of a request was written.
* `PendingRequest.Later` — what a request has become after some writes.
* `ExpiryTold`, `PendingTable.Expired.toldOf` — what an expiry tells of one request.
* `PendingTable.Swept` — what an expiry makes of a table.

## Main results

* `Register.later_run` — a request in the table is one that was registered, written so often.
* `Register.swept_expireIn` — what an expiry makes of a table that lists a register.
* `Register.expire_sweeps` — **what an expiry does after any operations, in any order.**
-/

namespace ZoneBus

/-! ### How often a frame was written -/

/-- Whether an operation notes that the frame of a request was written. -/
def TableOp.writes (id : RequestId) : TableOp → Bool
  | markWritten j _ _ => decide (j = id)
  | _ => false

/-- How often the frame of a request was written: it was noted, and answered that the request
waits for a reply. -/
def writesOf (id : RequestId) (ops : List TableOp) (told : List TableTold) : Nat :=
  (ops.zip told).countP fun e => e.1.writes id && decide (e.2.answer = .awaits true)

theorem writesOf_cons (id : RequestId) (op : TableOp) (ops : List TableOp) (said : TableTold)
    (told : List TableTold) :
    writesOf id (op :: ops) (said :: told) = writesOf id [op] [said] + writesOf id ops told := by
  rw [writesOf, List.zip_cons_cons, ← List.singleton_append, List.countP_append]
  rfl

theorem writesOf_single (id : RequestId) (op : TableOp) (told : TableTold) :
    writesOf id [op] [told] = if op.writes id ∧ told.answer = .awaits true then 1 else 0 := by
  simp [writesOf, List.countP_singleton]

/-- What a request has become after its frame was written some times.  Nothing is said of its
deadline and of the retries that are left. -/
structure PendingRequest.Later (r r' : PendingRequest) (writes : Nat) : Prop where
  /-- Its frame stays. -/
  frame : r'.frame = r.frame
  /-- So does its priority. -/
  priority : r'.priority = r.priority
  /-- So does what answers it. -/
  key : r'.key = r.key
  /-- Each write is counted. -/
  attempts : r'.attempts = r.attempts + UInt32.ofNat writes

namespace PendingRequest.Later

theorem refl (r : PendingRequest) : r.Later r 0 := ⟨rfl, rfl, rfl, (UInt32.add_zero _).symm⟩

theorem trans {r r' r'' : PendingRequest} {writes more : Nat} (h : r.Later r' writes)
    (h' : r'.Later r'' more) : r.Later r'' (writes + more) where
  frame := h'.frame.trans h.frame
  priority := h'.priority.trans h.priority
  key := h'.key.trans h.key
  attempts := by rw [h'.attempts, h.attempts, UInt32.ofNat_add, UInt32.add_assoc]

theorem written (r : PendingRequest) (now timeout : Nat) : r.Later (r.written now timeout) 1 :=
  ⟨rfl, rfl, rfl, rfl⟩

theorem expired {r r' : PendingRequest} (h : r.expired? = some r') : r.Later r' 0 := by
  rw [expired?] at h
  split at h
  · obtain rfl := Option.some.inj h
    exact ⟨rfl, rfl, rfl, (UInt32.add_zero _).symm⟩
  · cases h

end PendingRequest.Later

/-! ### What is told of one request -/

/-- What an expiry tells of one request: what becomes of it, and how it ended. -/
structure ExpiryTold where
  /-- What becomes of it. -/
  results : List Expiry
  /-- How it ended. -/
  settled : List Settled
deriving DecidableEq

namespace ExpiryTold

/-- Nothing is told. -/
def nothing : ExpiryTold := ⟨[], []⟩

/-- The frame is sent once more. -/
def resent (frame : OutboundFrame) (priority : Priority) (attempt : UInt32) : ExpiryTold :=
  ⟨[.resend frame priority attempt], []⟩

/-- The request has ended. -/
def timedOut (id : RequestId) (attempts : UInt32) : ExpiryTold :=
  ⟨[.timedOut id attempts], [⟨id, .outcome (.failure (.timeout attempts))⟩]⟩

end ExpiryTold

/-- What an expiry tells of a request. -/
def PendingTable.Expired.toldOf (e : PendingTable.Expired) (id : RequestId) : ExpiryTold :=
  ⟨e.results.filter fun x => decide (x.id = id), e.settled.filter fun x => decide (x.id = id)⟩

/-- What is told of an overdue request. -/
def PendingRequest.toldOverdue (r : PendingRequest) (id : RequestId) : ExpiryTold :=
  if 0 < r.retries then .resent r.frame r.priority (r.attempts + 1) else .timedOut id r.attempts

/-- What an expiry at some time makes of a table, when the frame of each request was written so
many times. -/
structure PendingTable.Swept (t : PendingTable) (now : Instant) (writes : RequestId → Nat)
    (e : PendingTable.Expired) : Prop where
  /-- A request whose deadline has come and that has a retry left loses the retry and its
  deadline.  Its frame is sent once more, as the attempt after those that were written. -/
  again : ∀ id r deadline, t.requests.find? id = some r → r.deadline = some deadline →
    deadline ≤ now → 0 < r.retries →
    e.table.requests.find? id = some { r with retries := r.retries - 1, deadline := none } ∧
      ∃ attempt : UInt32, attempt.toNat = writes id + 1 ∧
        e.toldOf id = .resent r.frame r.priority attempt
  /-- One that has none left is gone, also from its line, and ends after as many attempts as
  were written. -/
  ended : ∀ id r deadline, t.requests.find? id = some r → r.deadline = some deadline →
    deadline ≤ now → r.retries = 0 →
    e.table.requests.find? id = none ∧ (∀ key, id ∉ e.table.line key) ∧
      ∃ attempts : UInt32, attempts.toNat = writes id ∧ e.toldOf id = .timedOut id attempts
  /-- Nothing is said of any other number, and the request is as it was. -/
  others : ∀ id, (∀ r deadline, t.requests.find? id = some r → r.deadline = some deadline →
      now < deadline) →
    e.table.requests.find? id = t.requests.find? id ∧ e.toldOf id = .nothing
  /-- Whoever is still there stands in line as before. -/
  line : ∀ key, e.table.line key = (t.line key).filter e.table.contains
  /-- No line is kept empty. -/
  kept : ∀ key, e.table.lines.find? key ≠ some []
  /-- No deadline that is left has come. -/
  rest : ∀ id r deadline, e.table.requests.find? id = some r → r.deadline = some deadline →
    now < deadline

namespace Register

variable {t t' : PendingTable} {l : List PendingRequest}

/-- No write is noted of a request that is not there. -/
theorem writesOf_of_notMem {id : RequestId} (h : id ∉ ids l) (op : TableOp) :
    writesOf id [op] [(perform l op).1] = 0 := by
  cases op with
  | markWritten j now timeout =>
    rw [writesOf_single, if_neg]
    rintro ⟨hwrites, hanswer⟩
    obtain rfl : j = id := of_decide_eq_true hwrites
    rw [perform, lookup?_eq_none_iff.mpr h] at hanswer
    cases hanswer
  | insert | resolve | cancel | expire | failAll => rfl

theorem eq_or_mem_of_mem_replace {r x : PendingRequest} (h : x ∈ replace l r) :
    x = r ∨ x ∈ l ∧ x.frame.id ≠ r.frame.id := by
  obtain ⟨y, hy, rfl⟩ := List.mem_map.mp h
  by_cases he : y.frame.id = r.frame.id
  · exact Or.inl (if_pos he)
  · rw [if_neg he]
    exact Or.inr ⟨hy, he⟩

theorem mem_of_mem_without {id : RequestId} {r : PendingRequest} (h : r ∈ without l id) : r ∈ l :=
  (List.mem_filter.mp h).1

/-- After an operation a request is the one that was registered, or one that was there, written
once more or not. -/
theorem later_perform {op : TableOp} {r' : PendingRequest} (h : r' ∈ (perform l op).2) :
    op = .insert r' ∨
      ∃ r ∈ l, r.Later r' (writesOf r'.frame.id [op] [(perform l op).1]) := by
  -- most operations only take requests out
  have stays : ∀ {op : TableOp} {told : TableTold}, r' ∈ l →
      writesOf r'.frame.id [op] [told] = 0 →
      ∃ r ∈ l, r.Later r' (writesOf r'.frame.id [op] [told]) :=
    fun hr hzero => ⟨r', hr, hzero ▸ .refl r'⟩
  cases op with
  | insert r =>
    rcases List.mem_append.mp h with hr | hr
    · exact Or.inr (stays hr rfl)
    · exact Or.inl (congrArg TableOp.insert (List.mem_singleton.mp hr).symm)
  | markWritten id now timeout =>
    right
    rw [perform] at h ⊢
    cases hf : lookup? l id with
    | none =>
      rw [hf] at h
      exact stays h (by simp [writesOf_single])
    | some r =>
      obtain ⟨hr, rfl⟩ := mem_of_lookup? hf
      rw [hf] at h
      dsimp only at h ⊢
      split at h
      · next hkey =>
        rw [if_pos hkey]
        rw [writesOf_single]
        rcases eq_or_mem_of_mem_replace h with rfl | ⟨hr', hne⟩
        · rw [if_pos ⟨decide_eq_true rfl, rfl⟩]
          exact ⟨r, hr, .written r now timeout⟩
        · rw [if_neg fun hwrites => hne (of_decide_eq_true hwrites.1).symm]
          exact ⟨r', hr', .refl r'⟩
      · next hkey =>
        rw [if_neg hkey]
        exact stays (mem_of_mem_without h) (by simp [writesOf_single])
  | resolve key reply =>
    right
    rw [perform] at h ⊢
    split at h
    · exact stays h rfl
    · exact stays (mem_of_mem_without h) rfl
  | cancel id error =>
    right
    rw [perform] at h ⊢
    split at h
    · exact stays h rfl
    · exact stays (mem_of_mem_without h) rfl
  | expire now =>
    right
    obtain ⟨r, hr, hr'⟩ := List.mem_filterMap.mp h
    refine ⟨r, hr, ?_⟩
    split at hr'
    · exact .expired hr'
    · rw [← Option.some.inj hr']
      exact .refl r
  | failAll error => cases h

/-- **A request in the register is one that was there or was registered**, and its frame was
written as often as the answers tell. -/
theorem later_run (ops : List TableOp) : ∀ {l : List PendingRequest},
    (ids l ++ ops.filterMap TableOp.inserted?).Nodup → ∀ r' ∈ (runOps perform l ops).2,
      ∃ r, (r ∈ l ∨ .insert r ∈ ops) ∧
        r.Later r' (writesOf r'.frame.id ops (runOps perform l ops).1) := by
  induction ops with
  | nil => exact fun _ r' hr' => ⟨r', Or.inl hr', .refl r'⟩
  | cons op ops ih =>
    intro l hnew r' hr'
    rw [inserted_cons, ← List.append_assoc] at hnew
    obtain ⟨r₁, hfrom, hlater⟩ :=
      ih (hnew.sublist ((ids_perform_sublist l op).append_right _)) r' hr'
    rw [runOps_cons, writesOf_cons]
    -- a request that is registered now or later was not there to be written
    have hnone : r₁.frame.id ∉ ids l → r₁.Later r'
        (writesOf r'.frame.id [op] [(perform l op).1] +
          writesOf r'.frame.id ops (runOps perform (perform l op).2 ops).1) := by
      intro hout
      rw [writesOf_of_notMem (hlater.frame ▸ hout) op, Nat.zero_add]
      exact hlater
    rcases hfrom with hmem | hinsert
    · rcases later_perform hmem with rfl | ⟨r, hr, hlater₁⟩
      · refine ⟨r₁, Or.inr List.mem_cons_self, hnone fun hin => ?_⟩
        exact (List.nodup_append.mp (List.nodup_append.mp hnew).1).2.2 _ hin _
          (Option.mem_toList.mpr rfl) rfl
      · rw [← hlater.frame] at hlater₁
        exact ⟨r, Or.inl hr, hlater₁.trans hlater⟩
    · refine ⟨r₁, Or.inr (List.mem_cons_of_mem _ hinsert), hnone fun hin => ?_⟩
      exact (List.nodup_append.mp hnew).2.2 _ (List.mem_append_left _ hin) _
        (List.mem_filterMap.mpr ⟨_, hinsert, rfl⟩) rfl

/-! ### What an expiry leaves -/

/-- A request that is there is one that stays. -/
theorem mem_ids_filterMap {f : PendingRequest → Option PendingRequest} (hn : (ids l).Nodup)
    (hf : ∀ r r', f r = some r' → r'.frame = r.frame) {r : PendingRequest} (hr : r ∈ l) :
    r.frame.id ∈ ids (l.filterMap f) ↔ (f r).isSome = true := by
  rw [mem_ids, Option.isSome_iff_exists]
  constructor
  · rintro ⟨x', hx', hid⟩
    obtain ⟨x, hx, hfx⟩ := List.mem_filterMap.mp hx'
    rw [hf x x' hfx] at hid
    obtain rfl := eq_of_id_eq hn hx hr hid
    exact ⟨x', hfx⟩
  · rintro ⟨r', hr'⟩
    exact ⟨r', List.mem_filterMap.mpr ⟨r, hr, hr'⟩, by rw [hf r r' hr']⟩

/-- Those who wait and stay do so in the same order. -/
theorem ids_waiting_filterMap {f : PendingRequest → Option PendingRequest} (hn : (ids l).Nodup)
    (hf : ∀ r r', f r = some r' → r'.frame = r.frame ∧ r'.key = r.key) (key : ReplyKey) :
    ids (waiting (l.filterMap f) key) =
      (ids (waiting l key)).filter fun id => decide (id ∈ ids (l.filterMap f)) := by
  have hstay : ∀ l : List PendingRequest, ids (waiting (l.filterMap f) key) =
      ids ((waiting l key).filter fun r => (f r).isSome) := by
    intro l
    rw [waiting, waiting, List.filter_filterMap, List.filter_filter, ids, ids,
      List.map_filterMap, ← List.filterMap_eq_map, List.filterMap_filter]
    refine List.filterMap_congr fun r _ => ?_
    cases hr : f r with
    | none => simp
    | some r' =>
      obtain ⟨hframe, hkey⟩ := hf r r' hr
      by_cases h : r.key = some key
      · simp [hframe, hkey, h]
      · simp [hkey, h]
  refine (hstay l).trans (Eq.trans (congrArg ids ?_) List.filter_map.symm)
  refine List.filter_congr fun r hr => Bool.eq_iff_iff.mpr ?_
  rw [Function.comp_apply, decide_eq_true_eq]
  exact (mem_ids_filterMap hn (fun r r' h => (hf r r' h).1) (List.mem_filter.mp hr).1).symm

/-! ### What an expiry does -/

section Order

variable {now : Instant} {order : List RequestId}

/-- Whoever is still there stands in line as before. -/
theorem line_expireIn (h : Lists t l) (horder : order.Perm (t.overdue now)) (key : ReplyKey) :
    (t.expireIn order).table.line key =
      (t.line key).filter (t.expireIn order).table.contains := by
  have hlists := lists_of_overdue h horder
  rw [hlists.line key, h.line key,
    ids_waiting_filterMap h.nodup (fun _ _ => frame_key_of_expire) key]
  refine List.filter_congr fun id _ => Bool.eq_iff_iff.mpr ?_
  rw [decide_eq_true_eq, hlists.contains_iff]

/-- What an expiry tells of a request. -/
theorem toldOf_expireIn (h : Lists t l) (horder : order.Perm (t.overdue now)) (id : RequestId) :
    (t.expireIn order).toldOf id =
      match t.requests.find? id with
      | some r => if r.isOverdue now then r.toldOverdue id else .nothing
      | none => .nothing := by
  have hn : t.requests.keys.Nodup := h.keys ▸ h.nodup
  have hresults := PendingTable.results_expireIn hn horder
  have hresult : (t.expireIn order).results.filter (fun x => decide (x.id = id)) =
      ((t.requests.find? id).bind fun r =>
        if r.isOverdue now then some (r.expiry id) else none).toList := by
    have hnumber : ∀ (j : RequestId) (r : PendingRequest) (e : Expiry),
        t.requests.find? j = some r → some (r.expiry j) = some e → e.id = j := by
      rintro j r _ hr ⟨rfl⟩
      rw [h.find?] at hr
      obtain ⟨_, rfl⟩ := mem_of_lookup? hr
      exact id_expiry r
    rw [hresults, ← PendingTable.filter_overdue hn hnumber horder id]
    refine congrArg _ (List.filterMap_congr fun j _ => ?_)
    cases t.requests.find? j <;> rfl
  have hsettled : (t.expireIn order).settled.filter (fun x => decide (x.id = id)) =
      ((t.requests.find? id).bind fun r =>
        if r.isOverdue now then (r.expiry id).settled? else none).toList := by
    have hnumber : ∀ (j : RequestId) (r : PendingRequest) (e : Settled),
        t.requests.find? j = some r → (r.expiry j).settled? = some e → e.id = j := by
      intro j r e _ he
      rw [PendingRequest.expiry] at he
      split at he
      · cases he
      · rw [← Option.some.inj he]
    rw [PendingTable.settled_expireIn, hresults, List.filterMap_filterMap,
      ← PendingTable.filter_overdue hn hnumber horder id]
    refine congrArg _ (List.filterMap_congr fun j _ => ?_)
    cases t.requests.find? j <;> rfl
  rw [PendingTable.Expired.toldOf, hresult, hsettled]
  cases t.requests.find? id with
  | none => rfl
  | some r =>
    by_cases hover : r.isOverdue now = true
    · simp only [Option.bind_some, if_pos hover, PendingRequest.expiry, PendingRequest.toldOverdue]
      split <;> rfl
    · simp only [Option.bind_some, if_neg hover]
      rfl

/-- **What an expiry makes of a table that lists a register**, when the requests have counted
their writes. -/
theorem swept_expireIn (h : Lists t l) (horder : order.Perm (t.overdue now))
    {writes : RequestId → Nat}
    (hcount : ∀ r ∈ l, r.attempts = UInt32.ofNat (writes r.frame.id) ∧
      writes r.frame.id < 2 ^ 32 - 1) :
    t.Swept now writes (t.expireIn order) := by
  have hfind := PendingTable.find?_expireIn (h.keys ▸ h.nodup) horder
  have htold := toldOf_expireIn h horder
  have hcounted : ∀ id r, t.requests.find? id = some r →
      r.attempts.toNat = writes id ∧ (r.attempts + 1).toNat = writes id + 1 := by
    intro id r hr
    rw [h.find?] at hr
    obtain ⟨hmem, rfl⟩ := mem_of_lookup? hr
    obtain ⟨hattempts, hlt⟩ := hcount r hmem
    rw [UInt32.toNat_add, hattempts, UInt32.toNat_ofNat']
    exact ⟨by omega, by simp only [UInt32.toNat_one]; omega⟩
  constructor
  case again =>
    intro id r deadline hr hdeadline hle hretry
    have hover : r.isOverdue now = true :=
      PendingTable.isOverdue_iff.mpr ⟨deadline, hdeadline, hle⟩
    rw [hfind, htold, hr, Option.bind_some, if_pos hover]
    dsimp only
    rw [if_pos hover]
    exact ⟨if_pos hretry, _, (hcounted id r hr).2, if_pos hretry⟩
  case ended =>
    intro id r deadline hr hdeadline hle hretry
    have hover : r.isOverdue now = true :=
      PendingTable.isOverdue_iff.mpr ⟨deadline, hdeadline, hle⟩
    have hnone : ¬0 < r.retries := by rw [hretry]; decide
    have hgone : (t.expireIn order).table.requests.find? id = none := by
      rw [hfind, hr, Option.bind_some, if_pos hover]
      exact if_neg hnone
    refine ⟨hgone, fun key hin => ?_, _, (hcounted id r hr).1, ?_⟩
    · rw [line_expireIn h horder, List.mem_filter, PendingTable.contains, Directory.contains,
        hgone] at hin
      cases hin.2
    · rw [htold, hr]
      dsimp only
      rw [if_pos hover]
      exact if_neg hnone
  case others =>
    intro id hfuture
    rw [hfind, htold]
    cases hr : t.requests.find? id with
    | none => exact ⟨rfl, rfl⟩
    | some r =>
      have hover : ¬r.isOverdue now = true := by
        intro hover
        obtain ⟨deadline, hdeadline, hle⟩ := PendingTable.isOverdue_iff.mp hover
        exact Nat.not_lt.mpr hle (hfuture r deadline hr hdeadline)
      dsimp only
      rw [if_neg hover]
      exact ⟨if_neg hover, rfl⟩
  case line => exact line_expireIn h horder
  case kept => exact (lists_of_overdue h horder).kept
  case rest =>
    intro id r' deadline hr' hdeadline
    rw [hfind, Option.bind_eq_some_iff] at hr'
    obtain ⟨r, _, hr'⟩ := hr'
    split at hr'
    · rw [PendingRequest.expired?] at hr'
      split at hr'
      · rw [← Option.some.inj hr'] at hdeadline
        cases hdeadline
      · cases hr'
    · next hover =>
      obtain rfl := Option.some.inj hr'
      rw [PendingTable.isOverdue_iff] at hover
      exact Nat.not_le.mp fun hle => hover ⟨deadline, hdeadline, hle⟩

end Order

/-- In whatever order the overdue requests are handled, the same is said of each, and the table
is the same. -/
theorem expireIn_eq_of_perm (h : Lists t l) {now : Instant} {order : List RequestId}
    (horder : order.Perm (t.overdue now)) :
    (t.expireIn order).results.Perm (t.expire now).results ∧
      (t.expireIn order).settled.Perm (t.expire now).settled ∧
      (t.expireIn order).table.requests = (t.expire now).table.requests ∧
      ∀ key, (t.expireIn order).table.lines.find? key = (t.expire now).table.lines.find? key := by
  obtain ⟨hresults, hrequests, _⟩ := expireIn_of_perm h horder
  have hlists := lists_of_overdue h horder
  have hlists' := lists_of_overdue h (List.Perm.refl (t.overdue now))
  refine ⟨hresults, ?_, hrequests, fun key => ?_⟩
  · rw [PendingTable.settled_expireIn, PendingTable.settled_expire]
    exact hresults.filterMap _
  · exact hlists.lines_eq hlists' key

/-- **What an expiry does after any operations, in any order.**  Requests are registered, not
yet written, under numbers that were not used before, and then anything is asked of the table;
no request that is still there was written so often that its count is full.

Whoever is in the table has the frame, the priority and the key that it was registered with.
An expiry handles exactly those whose deadline has come.  One with a retry left loses the
retry and its deadline and is sent once more, as the attempt after those that were written;
one without is gone from the table and from its line, and ends after as many attempts as were
written; each is told of once.  Everything else is as it was, whoever is still there stands in
line as before, and no deadline that is left has come.  The order in which the requests are
handled makes no difference. -/
theorem expire_sweeps (ops : List TableOp) (hfresh : (ops.filterMap TableOp.inserted?).Nodup)
    (hnew : ∀ r, .insert r ∈ ops → r = .fresh r.frame r.priority r.key r.retries)
    (now : Instant) :
    let ran := runOps PendingTable.perform .empty ops
    (∀ id ∈ ran.2.requests.keys, writesOf id ops ran.1 < 2 ^ 32 - 1) →
      (∀ id r, ran.2.requests.find? id = some r → r.frame.id = id ∧
        ∃ retries, .insert (.fresh r.frame r.priority r.key retries) ∈ ops) ∧
      ran.2.Swept now (fun id => writesOf id ops ran.1) (ran.2.expire now) ∧
      ∀ order, order.Perm (ran.2.overdue now) →
        ran.2.Swept now (fun id => writesOf id ops ran.1) (ran.2.expireIn order) ∧
        (ran.2.expireIn order).results.Perm (ran.2.expire now).results ∧
        (ran.2.expireIn order).settled.Perm (ran.2.expire now).settled ∧
        (ran.2.expireIn order).table.requests = (ran.2.expire now).table.requests ∧
        ∀ key, (ran.2.expireIn order).table.lines.find? key =
          (ran.2.expire now).table.lines.find? key := by
  intro ran hbelow
  have hfresh' : (ids [] ++ ops.filterMap TableOp.inserted?).Nodup := by simpa [ids] using hfresh
  obtain ⟨htold, h⟩ := lists_run lists_empty hfresh'
  have horigin : ∀ r ∈ (runOps perform [] ops).2, ∃ r₀, .insert r₀ ∈ ops ∧
      r₀.Later r (writesOf r.frame.id ops ran.1) := by
    intro r hr
    obtain ⟨r₀, hfrom, hlater⟩ := later_run ops hfresh' r hr
    exact ⟨r₀, hfrom.resolve_left List.not_mem_nil, htold ▸ hlater⟩
  have hcount : ∀ r ∈ (runOps perform [] ops).2,
      r.attempts = UInt32.ofNat (writesOf r.frame.id ops ran.1) ∧
        writesOf r.frame.id ops ran.1 < 2 ^ 32 - 1 := by
    intro r hr
    obtain ⟨r₀, hinsert, hlater⟩ := horigin r hr
    have hzero : r₀.attempts = 0 := by rw [hnew r₀ hinsert, PendingRequest.fresh]
    refine ⟨?_, hbelow _ (by rw [h.keys]; exact List.mem_map_of_mem hr)⟩
    rw [hlater.attempts, hzero, UInt32.zero_add]
  refine ⟨fun id r hr => ?_, swept_expireIn h (List.Perm.refl _) hcount, fun order horder =>
    ⟨swept_expireIn h horder hcount, expireIn_eq_of_perm h horder⟩⟩
  rw [h.find?] at hr
  obtain ⟨hmem, hid⟩ := mem_of_lookup? hr
  obtain ⟨r₀, hinsert, hlater⟩ := horigin r hmem
  rw [hnew r₀ hinsert, ← hlater.frame, ← hlater.priority, ← hlater.key] at hinsert
  exact ⟨hid, _, hinsert⟩

/-- Two requests are overdue at one time, one with a retry left and one without; a third one
waits in the same line, and its time has not come. -/
def twoOverdue : List TableOp :=
  [.insert (waitingEvent 1 1), .insert (waitingEvent 2 0), .insert (waitingEvent 3 0),
    .markWritten 1 10 5, .markWritten 2 10 5, .markWritten 3 12 5]

theorem expire_sweeps_twoOverdue :
    let ran := runOps PendingTable.perform .empty twoOverdue
    (twoOverdue.filterMap TableOp.inserted?).Nodup ∧
      (∀ r, .insert r ∈ twoOverdue → r = .fresh r.frame r.priority r.key r.retries) ∧
      (∀ id ∈ ran.2.requests.keys, writesOf id twoOverdue ran.1 < 2 ^ 32 - 1) ∧
      (ran.2.expire 15).results =
        [.resend (waitingEvent 1 1).frame .low 2, .timedOut 2 1] ∧
      (ran.2.expire 15).table.line (.handshake (.controllerAt 1)) = [1, 3] ∧
      (ran.2.expireIn [2, 1]).results.Perm (ran.2.expire 15).results := by
  have hfresh : (twoOverdue.filterMap TableOp.inserted?).Nodup := by decide
  have hnew : ∀ r, .insert r ∈ twoOverdue → r = .fresh r.frame r.priority r.key r.retries := by
    simp [twoOverdue, waitingEvent, PendingRequest.fresh]
  have hbelow : ∀ id ∈ (runOps PendingTable.perform .empty twoOverdue).2.requests.keys,
      writesOf id twoOverdue (runOps PendingTable.perform .empty twoOverdue).1 < 2 ^ 32 - 1 := by
    decide +kernel
  have horder : [2, 1].Perm
      ((runOps PendingTable.perform .empty twoOverdue).2.overdue 15) := by decide +kernel
  obtain ⟨_, _, hany⟩ := expire_sweeps twoOverdue hfresh hnew 15 hbelow
  exact ⟨hfresh, hnew, hbelow, by decide +kernel, by decide +kernel, (hany _ horder).2.1⟩

end Register

end ZoneBus
