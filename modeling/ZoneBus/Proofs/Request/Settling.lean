import ZoneBus.Proofs.Directory.Keys
import ZoneBus.Request.Pending

/-!
# What the table of requests settles

An operation of the table that ends requests says which, and how.  What it says
and what is left in the table make up what was there before: no request is said
to end and stays, none goes without a word, and none is told of twice.

## Main definitions

* `outcomesOf` — the outcomes among the endings.
* `PendingTable.Settles` — from one table to the next, with these endings.

## Main results

* `PendingTable.settles_markWritten`, `settles_resolve`, `settles_cancel`,
  `settles_expire`, `settles_failAll` — every operation accounts for what it ends.
* `PendingTable.keys_insert` — a new request is added to what is there.
-/

namespace ZoneBus

/-- The outcomes among the endings. -/
def outcomesOf (settled : List Settled) : List (RequestId × Outcome) :=
  settled.filterMap fun e =>
    match e.ending with
    | .outcome outcome => some (e.id, outcome)
    | .replaced => none

theorem outcomesOf_append (settled more : List Settled) :
    outcomesOf (settled ++ more) = outcomesOf settled ++ outcomesOf more :=
  List.filterMap_append

@[simp] theorem outcomesOf_single (id : RequestId) (outcome : Outcome) :
    outcomesOf [⟨id, .outcome outcome⟩] = [(id, outcome)] := rfl

theorem outcomesOf_map (ids : List RequestId) (outcome : Outcome) :
    outcomesOf (ids.map fun id => ⟨id, .outcome outcome⟩) = ids.map fun id => (id, outcome) := by
  rw [outcomesOf, List.filterMap_map]
  exact congrFun List.filterMap_eq_map' _

namespace PendingTable

/-- From one table to the next the requests with these outcomes have ended, each
of them once, and no others. -/
def Settles (t : PendingTable) (settled : List Settled) (t' : PendingTable) : Prop :=
  t.requests.keys.Perm ((outcomesOf settled).map Prod.fst ++ t'.requests.keys)

variable {t t' t'' : PendingTable}

theorem Settles.refl (t : PendingTable) : t.Settles [] t := List.Perm.refl _

theorem Settles.trans {settled more : List Settled} (h : t.Settles settled t')
    (h' : t'.Settles more t'') : t.Settles (settled ++ more) t'' := by
  unfold Settles at h h' ⊢
  rw [outcomesOf_append, List.map_append, List.append_assoc]
  exact h.trans (List.Perm.append_left _ h')

/-- What is left is listed once when everything was. -/
theorem Settles.nodup {settled : List Settled} (h : t.Settles settled t')
    (hn : t.requests.keys.Nodup) : t'.requests.keys.Nodup :=
  (List.nodup_append.mp (h.nodup_iff.mp hn)).2.1

theorem settles_erase {id : RequestId} {outcome : Outcome} (hn : t.requests.keys.Nodup)
    (hid : id ∈ t.requests.keys) (ht : t'.requests = t.requests.erase id) :
    t.Settles [⟨id, .outcome outcome⟩] t' := by
  rw [Settles, ht]
  exact Directory.keys_perm_cons_erase hn hid

theorem settles_of_keys_eq (h : t'.requests.keys = t.requests.keys) : t.Settles [] t' := by
  rw [Settles, h]
  exact List.Perm.refl _

/-! ### Operations -/

/-- A request under a new number is added, and nothing ends. -/
theorem keys_insert {r : PendingRequest} (h : r.frame.id ∉ t.requests.keys) :
    (t.insert r).1 = [] ∧ (t.insert r).2.requests.keys = t.requests.keys ++ [r.frame.id] := by
  have hc : t.contains r.frame.id = false := by
    rw [Bool.eq_false_iff]
    exact fun hc => h (Directory.contains_iff_mem_keys.mp hc)
  rw [insert, hc]
  exact ⟨rfl, Directory.keys_put_of_notMem h⟩

theorem settles_markWritten (hn : t.requests.keys.Nodup) (id : RequestId) (now timeout : Nat) :
    t.Settles (t.markWritten id now timeout).2.1 (t.markWritten id now timeout).2.2 := by
  rw [markWritten]
  split
  · exact .refl t
  · next r hr =>
    split
    · exact settles_of_keys_eq (Directory.keys_put_of_mem (Directory.mem_keys_of_find? hr))
    · exact settles_erase hn (Directory.mem_keys_of_find? hr) rfl

theorem settles_resolve (hn : t.requests.keys.Nodup) (key : ReplyKey) (reply : Reply) :
    t.Settles (t.resolve key reply).2.1 (t.resolve key reply).2.2 := by
  rw [resolve]
  split
  · exact .refl t
  · exact settles_of_keys_eq rfl
  · next id rest _ =>
    dsimp only
    split
    · next hc => exact settles_erase hn (Directory.contains_iff_mem_keys.mp hc) rfl
    · exact settles_of_keys_eq rfl

theorem settles_cancel (hn : t.requests.keys.Nodup) (id : RequestId) (error : SessionError) :
    t.Settles (t.cancel id error).2.1 (t.cancel id error).2.2 := by
  rw [cancel]
  split
  · exact .refl t
  · next r hr => exact settles_erase hn (Directory.mem_keys_of_find? hr) rfl

theorem settles_failAll (error : SessionError) :
    t.Settles (t.failAll error).2.1 (t.failAll error).2.2 := by
  rw [Settles, failAll, outcomesOf_map, List.map_map]
  exact List.Perm.of_eq (by simp [empty, Directory.keys])

/-- One overdue request after another. -/
theorem settles_expireOne {acc : Expired} (id : RequestId)
    (hn : acc.table.requests.keys.Nodup) (h : t.Settles acc.settled acc.table) :
    t.Settles (expireOne acc id).settled (expireOne acc id).table := by
  rw [expireOne]
  split
  · exact h
  · next r hr =>
    have hid := Directory.mem_keys_of_find? hr
    split
    · refine List.append_nil acc.settled ▸ h.trans (settles_of_keys_eq ?_)
      exact Directory.keys_put_of_mem hid
    · exact h.trans (settles_erase hn hid rfl)

theorem settles_expireIn (hn : t.requests.keys.Nodup) (order : List RequestId) :
    t.Settles (t.expireIn order).settled (t.expireIn order).table := by
  -- by induction on the order, from any expiry that accounts for what it ended so far
  have key : ∀ (order : List RequestId) (acc : Expired), t.Settles acc.settled acc.table →
      t.Settles (order.foldl expireOne acc).settled (order.foldl expireOne acc).table := by
    intro order
    induction order with
    | nil => exact fun _ h => h
    | cons id order ih => exact fun acc h => ih _ (settles_expireOne id (h.nodup hn) h)
  exact key order ⟨[], [], t⟩ (.refl t)

/-- **An expiry accounts for every request that it ends.** -/
theorem settles_expire (hn : t.requests.keys.Nodup) (now : Instant) :
    t.Settles (t.expire now).settled (t.expire now).table :=
  settles_expireIn hn _

/-! ### Failures -/

/-- What is told of when a frame was written is that it was sent. -/
theorem sent_of_markWritten {id j : RequestId} {now timeout : Nat} {reply : Reply}
    (h : (j, .success reply) ∈ outcomesOf (t.markWritten id now timeout).2.1) :
    reply = .sent := by
  rw [markWritten] at h
  split at h
  · cases h
  · split at h
    · cases h
    · rw [outcomesOf_single, List.mem_singleton] at h
      exact Outcome.success.inj (Prod.mk.inj h).2

/-- Nothing but failures is told of. -/
def Fails (settled : List Settled) : Prop :=
  ∀ id outcome, (id, outcome) ∈ outcomesOf settled → ∃ error, outcome = .failure error

theorem fails_expire (t : PendingTable) (now : Instant) : Fails (t.expire now).settled := by
  have key : ∀ (order : List RequestId) (acc : Expired), Fails acc.settled →
      Fails (order.foldl expireOne acc).settled := by
    intro order
    induction order with
    | nil => exact fun _ h => h
    | cons id order ih =>
      refine fun acc h => ih _ ?_
      rw [expireOne]
      split
      · exact h
      · next r _ =>
        split
        · exact h
        · intro j outcome hm
          rw [outcomesOf_append, List.mem_append] at hm
          rcases hm with hm | hm
          · exact h j outcome hm
          · rw [outcomesOf_single, List.mem_singleton] at hm
            exact ⟨.timeout r.attempts, (Prod.mk.inj hm).2⟩
  exact key _ ⟨[], [], t⟩ fun _ _ hm => by cases hm

theorem fails_cancel (t : PendingTable) (id : RequestId) (error : SessionError) :
    Fails (t.cancel id error).2.1 := by
  intro j outcome hm
  rw [cancel] at hm
  split at hm
  · cases hm
  · rw [outcomesOf_single, List.mem_singleton] at hm
    exact ⟨error, (Prod.mk.inj hm).2⟩

theorem fails_failAll (t : PendingTable) (error : SessionError) :
    Fails (t.failAll error).2.1 := by
  intro j outcome hm
  rw [failAll, outcomesOf_map, List.mem_map] at hm
  obtain ⟨id, _, he⟩ := hm
  exact ⟨error, (Prod.mk.inj he).2.symm⟩

end PendingTable

end ZoneBus
