import ZoneBus.Proofs.Directory.Keys
import ZoneBus.Request.Pending

/-!
# What an expiry does

The overdue requests are handled one after another, but what is done to one of
them does not touch another: each that has a retry left loses its deadline and
the retry, and its frame is sent once more; each that has none ends.  So what is
found after an expiry, and what it produces, can be read off the table before.

## Main definitions

* `PendingRequest.expired?` — what is left of an overdue request.
* `PendingRequest.expiry` — what becomes of it.
* `Expiry.settled?`, `Expiry.requeued?` — what a result says of ending and of sending
  once more.

## Main results

* `PendingTable.find?_expireIn`, `find?_expire` — what is found after an expiry.
* `PendingTable.results_expireIn`, `results_expire` — what an expiry produces.
* `PendingTable.filter_overdue` — what is picked of the overdue requests, for one of them.
* `PendingTable.overdue_of_timedOut` — who times out.
* `PendingTable.requeued_expire` — what is sent once more.
-/

namespace ZoneBus

namespace PendingRequest

/-- What is left of an overdue request: with a retry left it waits to be written. -/
def expired? (r : PendingRequest) : Option PendingRequest :=
  if 0 < r.retries then some { r with retries := r.retries - 1, deadline := none } else none

/-- What becomes of an overdue request. -/
def expiry (r : PendingRequest) (id : RequestId) : Expiry :=
  if 0 < r.retries then .resend r.frame r.priority (r.attempts + 1) else .timedOut id r.attempts

end PendingRequest

/-- The ending of a request that timed out. -/
def Expiry.settled? : Expiry → Option Settled
  | .resend _ _ _ => none
  | .timedOut id attempts => some ⟨id, .outcome (.failure (.timeout attempts))⟩

/-- The frame that is sent once more, with its priority. -/
def Expiry.requeued? : Expiry → Option (Priority × OutboundFrame)
  | .resend frame priority _ => some (priority, frame)
  | .timedOut _ _ => none

namespace PendingTable

variable {t : PendingTable}

theorem expireOne_of_find? {acc : Expired} {id : RequestId} {r : PendingRequest}
    (h : acc.table.requests.find? id = some r) :
    (expireOne acc id).results = acc.results ++ [r.expiry id] ∧
      ∀ j, (expireOne acc id).table.requests.find? j =
        if id = j then r.expired? else acc.table.requests.find? j := by
  unfold expireOne PendingRequest.expiry PendingRequest.expired?
  rw [h]
  dsimp only
  by_cases hr : 0 < r.retries
  · rw [if_pos hr, if_pos hr, if_pos hr]
    exact ⟨rfl, fun j => Directory.find?_put _ id j _⟩
  · rw [if_neg hr, if_neg hr, if_neg hr]
    exact ⟨rfl, fun j => Directory.find?_erase _ id j⟩

/-- Handling different registered requests in any order. -/
theorem expireIn_spec : ∀ {order : List RequestId} (acc : Expired), order.Nodup →
    (∀ id ∈ order, id ∈ acc.table.requests.keys) →
    (order.foldl expireOne acc).results =
        acc.results ++
          order.filterMap (fun id => (acc.table.requests.find? id).map (·.expiry id)) ∧
      ∀ j, (order.foldl expireOne acc).table.requests.find? j =
        if j ∈ order then (acc.table.requests.find? j).bind PendingRequest.expired?
        else acc.table.requests.find? j := by
  intro order
  induction order with
  | nil => intro acc _ _; exact ⟨(List.append_nil _).symm, fun j => by simp⟩
  | cons id order ih =>
    intro acc hn hmem
    obtain ⟨hid, hn⟩ := List.nodup_cons.mp hn
    obtain ⟨r, hr⟩ := Option.isSome_iff_exists.mp
      (Directory.mem_keys_iff.mp (hmem id List.mem_cons_self))
    obtain ⟨hres, hfind⟩ := expireOne_of_find? hr
    -- the others are found as before, since the step changed one key only
    have hother : ∀ j ∈ order, (expireOne acc id).table.requests.find? j =
        acc.table.requests.find? j := by
      intro j hj
      rw [hfind, if_neg]
      rintro rfl
      exact hid hj
    obtain ⟨ihres, ihfind⟩ := ih (expireOne acc id) hn fun j hj => by
      rw [Directory.mem_keys_iff, hother j hj, ← Directory.mem_keys_iff]
      exact hmem j (List.mem_cons_of_mem _ hj)
    refine ⟨?_, fun j => ?_⟩
    · rw [List.foldl_cons, ihres, hres, List.append_assoc, List.filterMap_cons, hr]
      refine congrArg (acc.results ++ ·) (congrArg (r.expiry id :: ·) ?_)
      exact List.filterMap_congr fun j hj => by rw [hother j hj]
    · rw [List.foldl_cons, ihfind]
      by_cases hj : j ∈ order
      · rw [if_pos hj, if_pos (List.mem_cons_of_mem _ hj), hother j hj]
      · rw [if_neg hj, hfind]
        by_cases he : id = j
        · subst he
          rw [if_pos rfl, if_pos List.mem_cons_self, hr, Option.bind_some]
        · rw [if_neg he, if_neg]
          rw [List.mem_cons, not_or]
          exact ⟨Ne.symm he, hj⟩

/-! ### Overdue requests -/

theorem overdue_sublist (t : PendingTable) (now : Instant) :
    (t.overdue now).Sublist t.requests.keys :=
  List.Sublist.map _ List.filter_sublist

theorem overdue_nodup (hn : t.requests.keys.Nodup) (now : Instant) : (t.overdue now).Nodup :=
  hn.sublist (t.overdue_sublist now)

theorem mem_overdue_iff (hn : t.requests.keys.Nodup) {now : Instant} {id : RequestId} :
    id ∈ t.overdue now ↔ ∃ r, t.requests.find? id = some r ∧ r.isOverdue now = true := by
  rw [overdue, List.mem_map]
  constructor
  · rintro ⟨⟨_, r⟩, he, rfl⟩
    rw [List.mem_filter] at he
    exact ⟨r, Directory.find?_eq_some_of_mem hn he.1, he.2⟩
  · rintro ⟨r, hr, ho⟩
    exact ⟨(id, r), List.mem_filter.mpr ⟨Directory.mem_entries_of_find? hr, ho⟩, rfl⟩

theorem isOverdue_iff {r : PendingRequest} {now : Instant} :
    r.isOverdue now = true ↔ ∃ deadline, r.deadline = some deadline ∧ deadline ≤ now := by
  rw [PendingRequest.isOverdue]
  cases r.deadline with
  | none => simp
  | some deadline => simp

theorem deadline_of_isOverdue {r : PendingRequest} {now : Instant} (h : r.isOverdue now = true) :
    r.deadline.isSome = true := by
  obtain ⟨deadline, hdeadline, _⟩ := isOverdue_iff.mp h
  rw [hdeadline]
  rfl

/-! ### A whole expiry -/

section Order

variable {now : Instant} {order : List RequestId}

/-- What is found after an expiry, in whatever order the overdue requests come. -/
theorem find?_expireIn (hn : t.requests.keys.Nodup) (horder : order.Perm (t.overdue now))
    (j : RequestId) :
    (t.expireIn order).table.requests.find? j =
      (t.requests.find? j).bind fun r => if r.isOverdue now then r.expired? else some r := by
  have hspec := (expireIn_spec ⟨[], [], t⟩ (horder.nodup_iff.mpr (overdue_nodup hn now))
    fun id hid => (t.overdue_sublist now).subset (horder.mem_iff.mp hid)).2 j
  rw [expireIn, hspec]
  dsimp only
  cases hf : t.requests.find? j with
  | none => split <;> rfl
  | some r =>
    rw [Option.bind_some, Option.bind_some]
    by_cases ho : r.isOverdue now = true
    · rw [if_pos (horder.mem_iff.mpr ((mem_overdue_iff hn).mpr ⟨r, hf, ho⟩)), if_pos ho]
    · rw [if_neg, if_neg ho]
      rintro hm
      obtain ⟨r', hf', ho'⟩ := (mem_overdue_iff hn).mp (horder.mem_iff.mp hm)
      rw [hf, Option.some.injEq] at hf'
      exact ho (hf' ▸ ho')

/-- What an expiry produces, in whatever order the overdue requests come. -/
theorem results_expireIn (hn : t.requests.keys.Nodup) (horder : order.Perm (t.overdue now)) :
    (t.expireIn order).results =
      order.filterMap fun id => (t.requests.find? id).map (·.expiry id) := by
  have hspec := (expireIn_spec ⟨[], [], t⟩ (horder.nodup_iff.mpr (overdue_nodup hn now))
    fun id hid => (t.overdue_sublist now).subset (horder.mem_iff.mp hid)).1
  rw [expireIn, hspec, List.nil_append]

end Order

/-- **What is found after an expiry.** -/
theorem find?_expire (hn : t.requests.keys.Nodup) (now : Instant) (j : RequestId) :
    (t.expire now).table.requests.find? j =
      (t.requests.find? j).bind fun r => if r.isOverdue now then r.expired? else some r :=
  find?_expireIn hn (List.Perm.refl _) j

/-- **What an expiry produces.** -/
theorem results_expire (hn : t.requests.keys.Nodup) (now : Instant) :
    (t.expire now).results =
      (t.overdue now).filterMap fun id => (t.requests.find? id).map (·.expiry id) :=
  results_expireIn hn (List.Perm.refl _)

/-- Only what times out ends, in whatever order the requests come. -/
theorem settled_expireIn (t : PendingTable) (order : List RequestId) :
    (t.expireIn order).settled = (t.expireIn order).results.filterMap Expiry.settled? := by
  have hfold : ∀ (order : List RequestId) (acc : Expired),
      acc.settled = acc.results.filterMap Expiry.settled? →
      (order.foldl expireOne acc).settled =
        (order.foldl expireOne acc).results.filterMap Expiry.settled? := by
    intro order
    induction order with
    | nil => exact fun _ h => h
    | cons id order ih =>
      intro acc h
      refine ih (expireOne acc id) ?_
      unfold expireOne
      split
      · exact h
      · split
        · simp [h, Expiry.settled?]
        · simp [h, Expiry.settled?]
  exact hfold order _ rfl

theorem settled_expire (t : PendingTable) (now : Instant) :
    (t.expire now).settled = (t.expire now).results.filterMap Expiry.settled? :=
  t.settled_expireIn (t.overdue now)

/-- Whoever times out was overdue and had no retry left. -/
theorem overdue_of_timedOut (hn : t.requests.keys.Nodup) {now : Instant} {id : RequestId}
    {attempts : UInt32}
    (h : ⟨id, .outcome (.failure (.timeout attempts))⟩ ∈ (t.expire now).settled) :
    ∃ r, t.requests.find? id = some r ∧ r.isOverdue now = true ∧ r.retries = 0 := by
  rw [settled_expire, results_expire hn, List.filterMap_filterMap, List.mem_filterMap] at h
  obtain ⟨j, hj, he⟩ := h
  obtain ⟨r, hr, hover⟩ := (mem_overdue_iff hn).mp hj
  rw [hr, Option.map_some, Option.bind_some, PendingRequest.expiry] at he
  split at he
  · cases he
  · next hretry =>
    obtain ⟨rfl, _⟩ := Settled.mk.inj (Option.some.inj he)
    refine ⟨r, hr, hover, ?_⟩
    rw [UInt32.not_lt] at hretry
    exact UInt32.le_zero_iff.mp hretry

/-- Picked one for each of different numbers: one of a number, or none. -/
theorem filter_filterMap {β : Type} {g : RequestId → Option β} {number : β → RequestId}
    (hg : ∀ j b, g j = some b → number b = j) (id : RequestId) :
    ∀ {order : List RequestId}, order.Nodup →
      (order.filterMap g).filter (fun b => decide (number b = id)) =
        if id ∈ order then (g id).toList else [] := by
  intro order
  induction order with
  | nil => exact fun _ => rfl
  | cons j order ih =>
    intro hn
    obtain ⟨hj, hn⟩ := List.nodup_cons.mp hn
    have hrest := ih hn
    by_cases he : j = id
    · subst he
      rw [if_neg hj] at hrest
      rw [if_pos List.mem_cons_self]
      cases hgj : g j with
      | none => rw [List.filterMap_cons_none hgj, hrest]; rfl
      | some b =>
        rw [List.filterMap_cons_some hgj, List.filter_cons_of_pos (by simp [hg j b hgj]), hrest]
        rfl
    · have hmem : (id ∈ j :: order) = (id ∈ order) :=
        propext (List.mem_cons.trans (or_iff_right (Ne.symm he)))
      rw [if_congr (iff_of_eq hmem) rfl rfl, ← hrest]
      cases hgj : g j with
      | none => rw [List.filterMap_cons_none hgj]
      | some b =>
        rw [List.filterMap_cons_some hgj, List.filter_cons_of_neg (by simp [hg j b hgj, he])]

/-- Picked one for each overdue request: one of a request that is overdue, or none. -/
theorem filter_overdue {β : Type} {pick : RequestId → PendingRequest → Option β}
    {number : β → RequestId} (hn : t.requests.keys.Nodup)
    (hpick : ∀ j r b, t.requests.find? j = some r → pick j r = some b → number b = j)
    {now : Instant} {order : List RequestId} (horder : order.Perm (t.overdue now))
    (id : RequestId) :
    (order.filterMap fun j => (t.requests.find? j).bind (pick j)).filter
        (fun b => decide (number b = id)) =
      ((t.requests.find? id).bind fun r => if r.isOverdue now then pick id r else none).toList := by
  have hnumber : ∀ j b, (t.requests.find? j).bind (pick j) = some b → number b = j := by
    intro j b hb
    obtain ⟨r, hr, hb⟩ := Option.bind_eq_some_iff.mp hb
    exact hpick j r b hr hb
  rw [filter_filterMap hnumber id (horder.nodup_iff.mpr (overdue_nodup hn now))]
  cases hf : t.requests.find? id with
  | none => simp
  | some r =>
    have hover : id ∈ order ↔ r.isOverdue now = true := by
      rw [horder.mem_iff, mem_overdue_iff hn, hf]
      simp
    rw [Option.bind_some, Option.bind_some]
    by_cases ho : r.isOverdue now = true
    · rw [if_pos (hover.mpr ho), if_pos ho]
    · rw [if_neg (mt hover.mp ho), if_neg ho]
      rfl

/-- The frames that are sent once more are those of the overdue requests with a retry
left, in their order. -/
theorem requeued_eq (hn : t.requests.keys.Nodup) (now : Instant) :
    (t.expire now).results.filterMap Expiry.requeued? =
      (t.overdue now).filterMap fun id => (t.requests.find? id).bind fun r =>
        if 0 < r.retries then some (r.priority, r.frame) else none := by
  rw [results_expire hn, List.filterMap_filterMap]
  refine List.filterMap_congr fun id _ => ?_
  cases t.requests.find? id with
  | none => rfl
  | some r =>
    rw [Option.map_some, Option.bind_some, Option.bind_some, PendingRequest.expiry]
    split <;> rfl

/-- An expiry sends the frame of a request once more when that is overdue and has a
retry left. -/
theorem requeued_expire (hn : t.requests.keys.Nodup)
    (hframed : ∀ id r, t.requests.find? id = some r → r.frame.id = id) (now : Instant)
    (id : RequestId) :
    ((t.expire now).results.filterMap Expiry.requeued?).filter (fun e => decide (e.2.id = id)) =
      ((t.requests.find? id).bind fun r =>
        if r.isOverdue now = true ∧ 0 < r.retries then some (r.priority, r.frame)
        else none).toList := by
  have hnumber : ∀ (j : RequestId) (r : PendingRequest) (e : Priority × OutboundFrame),
      t.requests.find? j = some r →
      (if 0 < r.retries then some (r.priority, r.frame) else none) = some e → e.2.id = j := by
    intro j r e hr he
    split at he
    · rw [← Option.some.inj he]
      exact hframed j r hr
    · cases he
  rw [requeued_eq hn]
  refine (filter_overdue hn hnumber (List.Perm.refl _) id).trans ?_
  simp only [ite_and]

end PendingTable

end ZoneBus
