import Mathlib.Data.List.Nodup
import ZoneBus.Proofs.Request.Lines
import ZoneBus.Proofs.Request.Settling
import ZoneBus.Proofs.Runs

/-!
# The table of requests is a plain register

The requests by number and the lines by key come to one list of requests, in the order in
which they were registered.  A line is what the list has of its key, so an answer ends the
oldest request that waits for it, and finds nobody only when nobody waits.

## Main definitions

* `TableOp`, `TableTold`, `PendingTable.perform` — the operations of the table, and what
  they tell.
* `Register.perform` — the same operations on a list of requests.
* `Register.Lists` — a table lists the requests of a register.

## Main results

* `Register.lists_expireIn` — an expiry, in whatever order the overdue requests come.
* `Register.lists_perform` — every operation tells the same, and keeps table and register in
  step.
* `Register.ids_run_sublist` — the requests stay in the order in which they were registered.
* `Register.table_is_register` — **the whole comparison.**
-/

namespace ZoneBus

/-- What is asked of a table of requests. -/
inductive TableOp where
  /-- To register a request. -/
  | insert (r : PendingRequest)
  /-- To note that the frame of a request was written. -/
  | markWritten (id : RequestId) (now timeout : Nat)
  /-- To end the oldest request that waits for a reply. -/
  | resolve (key : ReplyKey) (reply : Reply)
  /-- To withdraw a request. -/
  | cancel (id : RequestId) (error : SessionError)
  /-- To handle the overdue requests. -/
  | expire (now : Instant)
  /-- To end every request. -/
  | failAll (error : SessionError)

/-- The answer to the one who asked. -/
inductive TableAnswer where
  /-- The request is registered. -/
  | registered
  /-- Whether the request still waits for a reply. -/
  | awaits (waits : Bool)
  /-- Which request the reply has ended, if any. -/
  | resolved (id : Option RequestId)
  /-- Whether the request had not ended. -/
  | withdrawn (pending : Bool)
  /-- What became of the overdue requests. -/
  | expired (results : List Expiry)
  /-- How many requests were ended. -/
  | failed (count : Nat)
deriving DecidableEq

/-- What an operation tells. -/
structure TableTold where
  /-- The answer to the one who asked. -/
  answer : TableAnswer
  /-- What the callers are told whose requests ended. -/
  settled : List Settled
deriving DecidableEq

/-- The number under which an operation registers a request. -/
def TableOp.inserted? : TableOp → Option RequestId
  | insert r => some r.frame.id
  | _ => none

/-- A request after its frame was written. -/
def PendingRequest.written (r : PendingRequest) (now timeout : Nat) : PendingRequest :=
  { r with attempts := r.attempts + 1, deadline := some (now + timeout) }

namespace PendingTable

/-- One operation. -/
def perform (t : PendingTable) : TableOp → TableTold × PendingTable
  | .insert r => (⟨.registered, (t.insert r).1⟩, (t.insert r).2)
  | .markWritten id now timeout =>
    (⟨.awaits (t.markWritten id now timeout).1, (t.markWritten id now timeout).2.1⟩,
      (t.markWritten id now timeout).2.2)
  | .resolve key reply =>
    (⟨.resolved (t.resolve key reply).1, (t.resolve key reply).2.1⟩, (t.resolve key reply).2.2)
  | .cancel id error =>
    (⟨.withdrawn (t.cancel id error).1, (t.cancel id error).2.1⟩, (t.cancel id error).2.2)
  | .expire now => (⟨.expired (t.expire now).results, (t.expire now).settled⟩, (t.expire now).table)
  | .failAll error => (⟨.failed (t.failAll error).1, (t.failAll error).2.1⟩, (t.failAll error).2.2)

end PendingTable

namespace Register

/-- The numbers of the requests. -/
def ids (l : List PendingRequest) : List RequestId := l.map fun r => r.frame.id

/-- The request with a number. -/
def lookup? (l : List PendingRequest) (id : RequestId) : Option PendingRequest :=
  l.find? fun r => decide (r.frame.id = id)

/-- The requests that wait for a reply, oldest first. -/
def waiting (l : List PendingRequest) (key : ReplyKey) : List PendingRequest :=
  l.filter fun r => decide (r.key = some key)

/-- The register without a request. -/
def without (l : List PendingRequest) (id : RequestId) : List PendingRequest :=
  l.filter fun r => decide (r.frame.id ≠ id)

/-- The register with a request in place of the one with its number. -/
def replace (l : List PendingRequest) (r' : PendingRequest) : List PendingRequest :=
  l.map fun r => if r.frame.id = r'.frame.id then r' else r

/-- One operation: the register takes a request at its end, and a reply ends the first one
that waits for it. -/
def perform (l : List PendingRequest) : TableOp → TableTold × List PendingRequest
  | .insert r => (⟨.registered, []⟩, l ++ [r])
  | .markWritten id now timeout =>
    match lookup? l id with
    | none => (⟨.awaits false, []⟩, l)
    | some r =>
      if r.key.isSome then (⟨.awaits true, []⟩, replace l (r.written now timeout))
      else (⟨.awaits false, [⟨id, .outcome (.success .sent)⟩]⟩, without l id)
  | .resolve key reply =>
    match waiting l key with
    | [] => (⟨.resolved none, []⟩, l)
    | r :: _ =>
      (⟨.resolved (some r.frame.id), [⟨r.frame.id, .outcome (.success reply)⟩]⟩,
        without l r.frame.id)
  | .cancel id error =>
    match lookup? l id with
    | none => (⟨.withdrawn false, []⟩, l)
    | some _ => (⟨.withdrawn true, [⟨id, .outcome (.failure error)⟩]⟩, without l id)
  | .expire now =>
    let results := (l.filter fun r => r.isOverdue now).map fun r => r.expiry r.frame.id
    (⟨.expired results, results.filterMap Expiry.settled?⟩,
      l.filterMap fun r => if r.isOverdue now then r.expired? else some r)
  | .failAll error =>
    (⟨.failed l.length, l.map fun r => ⟨r.frame.id, .outcome (.failure error)⟩⟩, [])

/-- A table lists the requests of a register: by number in the same order, and in the line of
each key those that wait for it; an empty line is not kept. -/
structure Lists (t : PendingTable) (l : List PendingRequest) : Prop where
  /-- The requests by number. -/
  entries : t.requests.entries = l.map fun r => (r.frame.id, r)
  /-- Different requests have different numbers. -/
  nodup : (ids l).Nodup
  /-- The lines. -/
  line : ∀ key, t.line key = ids (waiting l key)
  /-- No line is empty. -/
  kept : ∀ key, t.lines.find? key ≠ some []

variable {t t' : PendingTable} {l : List PendingRequest}

/-! ### Reading a register -/

theorem ids_append (l more : List PendingRequest) : ids (l ++ more) = ids l ++ ids more :=
  List.map_append

theorem mem_ids {id : RequestId} : id ∈ ids l ↔ ∃ r ∈ l, r.frame.id = id := List.mem_map

/-- A number tells the request. -/
theorem eq_of_id_eq (hn : (ids l).Nodup) {r r' : PendingRequest} (hr : r ∈ l) (hr' : r' ∈ l)
    (h : r.frame.id = r'.frame.id) : r = r' :=
  List.inj_on_of_nodup_map hn hr hr' h

theorem mem_of_lookup? {id : RequestId} {r : PendingRequest} (h : lookup? l id = some r) :
    r ∈ l ∧ r.frame.id = id :=
  ⟨List.mem_of_find?_eq_some h, by simpa using List.find?_some h⟩

theorem lookup?_of_mem (hn : (ids l).Nodup) {r : PendingRequest} (hr : r ∈ l) :
    lookup? l r.frame.id = some r := by
  cases hf : lookup? l r.frame.id with
  | none =>
    have := List.find?_eq_none.mp hf r hr
    simp at this
  | some r' =>
    obtain ⟨hr', hid⟩ := mem_of_lookup? hf
    rw [eq_of_id_eq hn hr' hr hid]

theorem lookup?_eq_none_iff {id : RequestId} : lookup? l id = none ↔ id ∉ ids l := by
  simp [lookup?, mem_ids]

theorem mem_ids_without {id j : RequestId} : j ∈ ids (without l id) ↔ j ∈ ids l ∧ j ≠ id := by
  unfold ids without
  constructor
  · intro h
    obtain ⟨r, hr, rfl⟩ := List.mem_map.mp h
    obtain ⟨hr, hne⟩ := List.mem_filter.mp hr
    exact ⟨List.mem_map_of_mem hr, of_decide_eq_true hne⟩
  · rintro ⟨h, hne⟩
    obtain ⟨r, hr, rfl⟩ := List.mem_map.mp h
    exact List.mem_map_of_mem (List.mem_filter.mpr ⟨hr, decide_eq_true hne⟩)

theorem without_eq_self {id : RequestId} (h : id ∉ ids l) : without l id = l := by
  unfold without
  refine List.filter_eq_self.mpr fun r hr => decide_eq_true ?_
  rintro rfl
  exact h (List.mem_map_of_mem hr)

theorem ids_without_sublist (l : List PendingRequest) (id : RequestId) :
    (ids (without l id)).Sublist (ids l) :=
  List.filter_sublist.map _

theorem ids_waiting_sublist (l : List PendingRequest) (key : ReplyKey) :
    (ids (waiting l key)).Sublist (ids l) :=
  List.filter_sublist.map _

@[simp] theorem ids_replace (l : List PendingRequest) (r' : PendingRequest) :
    ids (replace l r') = ids l := by
  unfold ids replace
  rw [List.map_map]
  refine List.map_congr_left fun r _ => ?_
  by_cases h : r.frame.id = r'.frame.id
  · simp [h]
  · simp [h]

/-- Requests that keep their numbers stay in order when some of them go. -/
theorem ids_filterMap_sublist {f : PendingRequest → Option PendingRequest}
    (hf : ∀ r r', f r = some r' → r'.frame.id = r.frame.id) (l : List PendingRequest) :
    (ids (l.filterMap f)).Sublist (ids l) := by
  induction l with
  | nil => exact List.Sublist.refl _
  | cons r l ih =>
    rw [List.filterMap_cons]
    cases hr : f r with
    | none => exact ih.cons _
    | some r' =>
      have hid := hf r r' hr
      show (r'.frame.id :: ids (l.filterMap f)).Sublist (r.frame.id :: ids l)
      rw [hid]
      exact ih.cons_cons _

theorem expired?_frame {r r' : PendingRequest} (h : r.expired? = some r') :
    r'.frame = r.frame ∧ r'.key = r.key := by
  unfold PendingRequest.expired? at h
  split at h
  · obtain rfl := Option.some.inj h
    exact ⟨rfl, rfl⟩
  · cases h

/-- What an expiry leaves of a request has its frame and its key. -/
theorem frame_key_of_expire {now : Instant} {r r' : PendingRequest}
    (h : (if r.isOverdue now then r.expired? else some r) = some r') :
    r'.frame = r.frame ∧ r'.key = r.key := by
  split at h
  · exact expired?_frame h
  · rw [Option.some.inj h]
    exact ⟨rfl, rfl⟩

@[simp] theorem id_expiry (r : PendingRequest) : (r.expiry r.frame.id).id = r.frame.id := by
  unfold PendingRequest.expiry
  split <;> rfl

/-! ### Reading a table that lists a register -/

namespace Lists

theorem keys (h : Lists t l) : t.requests.keys = ids l := by
  unfold Directory.keys ids
  rw [h.entries, List.map_map]
  rfl

theorem values (h : Lists t l) : t.requests.values = l := by
  unfold Directory.values
  rw [h.entries, List.map_map]
  exact List.map_id _

theorem find? (h : Lists t l) (id : RequestId) : t.requests.find? id = lookup? l id := by
  unfold Directory.find? lookup?
  rw [h.entries]
  clear h
  induction l with
  | nil => rfl
  | cons r l ih =>
    rw [List.map_cons, Directory.findIn, List.find?_cons]
    by_cases hr : r.frame.id = id
    · simp [hr]
    · simp [hr, ih]

/-- The lines and the requests agree. -/
theorem lined (h : Lists t l) : t.Lined where
  registered := by
    intro key id hid
    rw [h.line key] at hid
    obtain ⟨r, hr, rfl⟩ := mem_ids.mp hid
    obtain ⟨hr, hkey⟩ := List.mem_filter.mp hr
    exact ⟨r, by rw [h.find?, lookup?_of_mem h.nodup hr], of_decide_eq_true hkey⟩
  once := by
    intro key
    rw [h.line key]
    exact h.nodup.sublist (ids_waiting_sublist l key)
  waiting := by
    intro id r key hr hkey
    rw [h.find?] at hr
    obtain ⟨hmem, rfl⟩ := mem_of_lookup? hr
    rw [h.line key]
    exact List.mem_map_of_mem (List.mem_filter.mpr ⟨hmem, decide_eq_true hkey⟩)

theorem contains_iff (h : Lists t l) {id : RequestId} : t.contains id = true ↔ id ∈ ids l := by
  rw [← h.keys]
  exact Directory.contains_iff_mem_keys

end Lists

theorem lists_empty : Lists .empty [] where
  entries := rfl
  nodup := List.nodup_nil
  line := fun _ => rfl
  kept := fun _ h => by cases h

/-! ### Lines that are not kept empty -/

theorem kept_setLine {lines : Directory ReplyKey (List RequestId)}
    (h : ∀ key, lines.find? key ≠ some []) (key : ReplyKey) (line : List RequestId)
    (key' : ReplyKey) : (PendingTable.setLine lines key line).find? key' ≠ some [] := by
  unfold PendingTable.setLine
  split
  · rw [Directory.find?_erase]
    split
    · simp
    · exact h key'
  · next hne =>
    rw [Directory.find?_put]
    split
    · intro hline
      exact hne (List.isEmpty_iff.mpr (Option.some.inj hline))
    · exact h key'

theorem kept_unlink (h : ∀ key, t.lines.find? key ≠ some []) (k : Option ReplyKey)
    (id : RequestId) (key : ReplyKey) : (t.unlink k id).find? key ≠ some [] := by
  unfold PendingTable.unlink
  cases k with
  | none => exact h key
  | some k =>
    dsimp only
    split
    · exact h key
    · exact kept_setLine h k _ key

/-- A line is filed when somebody waits, and only then. -/
theorem Lists.find?_line (h : Lists t l) (key : ReplyKey) :
    t.lines.find? key =
      if ids (waiting l key) = [] then none else some (ids (waiting l key)) := by
  have hkept := h.kept key
  rw [← h.line key, PendingTable.line]
  cases hf : t.lines.find? key with
  | none => exact (if_pos rfl).symm
  | some line =>
    rw [hf] at hkept
    exact (if_neg fun he => hkept (congrArg some he)).symm

/-- The lines are determined by the register. -/
theorem Lists.lines_eq (h : Lists t l) (h' : Lists t' l) (key : ReplyKey) :
    t.lines.find? key = t'.lines.find? key :=
  (h.find?_line key).trans (h'.find?_line key).symm

/-! ### A request in place of another -/

/-- Putting a request under a number of the register puts it in the place of the other. -/
theorem putIn_eq_replace {r' : PendingRequest} (hn : (ids l).Nodup) (hm : r'.frame.id ∈ ids l) :
    Directory.putIn r'.frame.id r' (l.map fun r => (r.frame.id, r)) =
      (replace l r').map fun r => (r.frame.id, r) := by
  induction l with
  | nil => cases hm
  | cons x l ih =>
    obtain ⟨hx, hn⟩ := List.nodup_cons.mp hn
    rw [List.map_cons, Directory.putIn]
    by_cases he : x.frame.id = r'.frame.id
    · -- the number stands here, and not again
      have hrest : replace l r' = l := by
        unfold replace
        refine (List.map_congr_left fun y hy => if_neg fun hy' => ?_).trans (List.map_id _)
        exact hx (List.mem_map.mpr ⟨y, hy, hy'.trans he.symm⟩)
      have hfront : replace (x :: l) r' = r' :: replace l r' := by simp [replace, he]
      rw [if_pos he, hfront, hrest]
      rfl
    · have hm' : r'.frame.id ∈ ids l := (List.mem_cons.mp hm).resolve_left fun hm => he hm.symm
      have hfront : replace (x :: l) r' = x :: replace l r' := by simp [replace, he]
      rw [if_neg he, ih hn hm', hfront]
      rfl

/-- Those who wait stay the same when whoever has the number has the key. -/
theorem waiting_replace {r' : PendingRequest}
    (hkey : ∀ r ∈ l, r.frame.id = r'.frame.id → r'.key = r.key) (key : ReplyKey) :
    waiting (replace l r') key = replace (waiting l key) r' := by
  unfold waiting replace
  rw [List.filter_map]
  refine congrArg _ (List.filter_congr fun r hr => ?_)
  by_cases he : r.frame.id = r'.frame.id
  · simp [he, hkey r hr he]
  · simp [he]

/-! ### Table and register after each change -/

namespace Lists

/-- A request comes at the end. -/
theorem insert (h : Lists t l) {r : PendingRequest} (hnew : r.frame.id ∉ ids l) :
    (t.insert r).1 = [] ∧ Lists (t.insert r).2 (l ++ [r]) := by
  have hkeys : r.frame.id ∉ t.requests.keys := h.keys ▸ hnew
  refine ⟨(PendingTable.keys_insert hkeys).1, ?_, ?_, ?_, ?_⟩
  · show Directory.putIn r.frame.id r t.requests.entries = _
    rw [Directory.putIn_of_notMem hkeys, h.entries, List.map_append]
    rfl
  · rw [ids_append]
    refine List.nodup_append.mpr ⟨h.nodup, List.nodup_singleton _, ?_⟩
    rintro id hid j hj rfl
    rw [List.mem_singleton.mp hj] at hid
    exact hnew hid
  · intro key
    rw [PendingTable.line_insert, h.line key]
    by_cases hkey : r.key = some key
    · simp [waiting, ids, hkey]
    · simp [waiting, ids, hkey]
  · intro key
    unfold PendingTable.insert
    dsimp only
    cases r.key with
    | none => exact h.kept key
    | some k => exact kept_setLine h.kept k _ key

/-- A request is changed, but for its key. -/
theorem replace (h : Lists t l) {r : PendingRequest} (r' : PendingRequest)
    (hr : lookup? l r'.frame.id = some r) (hkey : r'.key = r.key)
    (hreq : t'.requests = t.requests.put r'.frame.id r') (hlines : t'.lines = t.lines) :
    Lists t' (replace l r') := by
  obtain ⟨hmem, hid⟩ := mem_of_lookup? hr
  refine ⟨?_, ?_, ?_, ?_⟩
  · rw [hreq]
    show Directory.putIn _ _ t.requests.entries = _
    rw [h.entries]
    exact putIn_eq_replace h.nodup (hid ▸ List.mem_map_of_mem hmem)
  · rw [ids_replace]
    exact h.nodup
  · intro key
    have hwaiting : waiting (Register.replace l r') key = Register.replace (waiting l key) r' :=
      waiting_replace (fun x hx he => by rw [eq_of_id_eq h.nodup hx hmem (he.trans hid.symm), hkey])
        key
    rw [hwaiting, ids_replace]
    unfold PendingTable.line
    rw [hlines]
    exact h.line key
  · intro key
    rw [hlines]
    exact h.kept key

/-- A request is taken out, and out of its line. -/
theorem without (h : Lists t l) {r : PendingRequest} (hr : r ∈ l)
    (hreq : t'.requests = t.requests.erase r.frame.id)
    (hline : ∀ key, t'.line key = if r.key = some key then
      (t.line key).filter fun i => decide (i ≠ r.frame.id) else t.line key)
    (hkept : ∀ key, t'.lines.find? key ≠ some []) : Lists t' (without l r.frame.id) := by
  refine ⟨?_, ?_, ?_, hkept⟩
  · rw [hreq]
    show t.requests.entries.filter _ = _
    rw [h.entries, List.filter_map]
    rfl
  · exact h.nodup.sublist (ids_without_sublist l _)
  · intro key
    have hswap : waiting (Register.without l r.frame.id) key =
        Register.without (waiting l key) r.frame.id := List.filter_comm _ _ _
    rw [hline, h.line key, hswap]
    by_cases hkey : r.key = some key
    · rw [if_pos hkey]
      unfold ids Register.without
      rw [List.filter_map]
      rfl
    · -- it did not stand in this line
      rw [if_neg hkey, without_eq_self]
      intro hmem
      obtain ⟨x, hx, hid⟩ := mem_ids.mp hmem
      obtain ⟨hx, hxkey⟩ := List.mem_filter.mp hx
      rw [eq_of_id_eq h.nodup hx hr hid] at hxkey
      exact hkey (of_decide_eq_true hxkey)

theorem remove (h : Lists t l) {r : PendingRequest} (hr : r ∈ l) :
    Lists (t.remove r.frame.id r) (Register.without l r.frame.id) :=
  h.without hr rfl (fun key => t.getD_unlink r.key r.frame.id key)
    (kept_unlink h.kept r.key r.frame.id)

end Lists

/-! ### An expiry -/

/-- Handling different requests of the register in any order leaves the same register. -/
theorem lists_expireIn : ∀ {order : List RequestId} {acc : PendingTable.Expired}
    {l : List PendingRequest}, Lists acc.table l → order.Nodup → (∀ id ∈ order, id ∈ ids l) →
    Lists (order.foldl PendingTable.expireOne acc).table
      (l.filterMap fun r => if r.frame.id ∈ order then r.expired? else some r) := by
  intro order
  induction order with
  | nil =>
    intro acc l h _ _
    simpa using h
  | cons id order ih =>
    intro acc l h hn hmem
    obtain ⟨hid, hrestnodup⟩ := List.nodup_cons.mp hn
    obtain ⟨r, hr, rfl⟩ := mem_ids.mp (hmem id List.mem_cons_self)
    have hlookup := lookup?_of_mem h.nodup hr
    have hfind := (h.find? r.frame.id).trans hlookup
    have hrest : ∀ j ∈ order, j ≠ r.frame.id := by
      rintro j hj rfl
      exact hid hj
    have hself : ∀ x ∈ l, x.frame.id = r.frame.id → x = r :=
      fun x hx => eq_of_id_eq h.nodup hx hr
    rw [List.foldl_cons]
    by_cases hretry : 0 < r.retries
    · -- it stays, without its deadline
      let r' : PendingRequest := { r with retries := r.retries - 1, deadline := none }
      have hexpired : r.expired? = some r' := if_pos hretry
      have hstep : Lists (PendingTable.expireOne acc r.frame.id).table (replace l r') := by
        refine h.replace r' hlookup rfl ?_ ?_
        · simp only [PendingTable.expireOne, hfind, if_pos hretry]
          rfl
        · simp only [PendingTable.expireOne, hfind, if_pos hretry]
      have hnext := ih hstep hrestnodup (by
        intro j hj
        rw [ids_replace]
        exact hmem j (List.mem_cons_of_mem _ hj))
      have hsame : ((replace l r').filterMap fun x =>
            if x.frame.id ∈ order then x.expired? else some x) =
          l.filterMap fun x => if x.frame.id ∈ r.frame.id :: order then x.expired? else some x := by
        unfold replace
        rw [List.filterMap_map]
        refine List.filterMap_congr fun x hx => ?_
        by_cases he : x.frame.id = r.frame.id
        · obtain rfl := hself x hx he
          simp [r', hid, hexpired]
        · simp [r', he]
      rwa [hsame] at hnext
    · -- it goes
      have hexpired : r.expired? = none := if_neg hretry
      have hstep : Lists (PendingTable.expireOne acc r.frame.id).table
          (without l r.frame.id) := by
        simp only [PendingTable.expireOne, hfind, if_neg hretry]
        exact h.remove hr
      have hnext := ih hstep hrestnodup (by
        intro j hj
        exact mem_ids_without.mpr ⟨hmem j (List.mem_cons_of_mem _ hj), hrest j hj⟩)
      have hsame : ((without l r.frame.id).filterMap fun x =>
            if x.frame.id ∈ order then x.expired? else some x) =
          l.filterMap fun x => if x.frame.id ∈ r.frame.id :: order then x.expired? else some x := by
        unfold without
        rw [List.filterMap_filter]
        refine List.filterMap_congr fun x hx => ?_
        by_cases he : x.frame.id = r.frame.id
        · obtain rfl := hself x hx he
          simp [hexpired]
        · simp [he]
      rwa [hsame] at hnext

theorem overdue_eq (h : Lists t l) (now : Instant) :
    t.overdue now = ids (l.filter fun r => r.isOverdue now) := by
  unfold PendingTable.overdue ids
  rw [h.entries, List.filter_map, List.map_map]
  rfl

theorem mem_overdue (h : Lists t l) {now : Instant} {r : PendingRequest} (hr : r ∈ l) :
    r.frame.id ∈ t.overdue now ↔ r.isOverdue now = true := by
  rw [overdue_eq h, mem_ids]
  constructor
  · rintro ⟨x, hx, hid⟩
    obtain ⟨hx, hover⟩ := List.mem_filter.mp hx
    rwa [eq_of_id_eq h.nodup hx hr hid] at hover
  · exact fun hover => ⟨r, List.mem_filter.mpr ⟨hr, hover⟩, rfl⟩

/-- The register after an expiry, in whatever order the overdue requests come. -/
theorem lists_of_overdue (h : Lists t l) {now : Instant} {order : List RequestId}
    (horder : order.Perm (t.overdue now)) :
    Lists (t.expireIn order).table
      (l.filterMap fun r => if r.isOverdue now then r.expired? else some r) := by
  have hsub : ∀ id ∈ order, id ∈ ids l := by
    intro id hid
    rw [← h.keys]
    exact (t.overdue_sublist now).subset (horder.mem_iff.mp hid)
  have hn : order.Nodup :=
    horder.nodup_iff.mpr (PendingTable.overdue_nodup (h.keys ▸ h.nodup) now)
  have hsame : (l.filterMap fun r => if r.frame.id ∈ order then r.expired? else some r) =
      l.filterMap fun r => if r.isOverdue now then r.expired? else some r := by
    refine List.filterMap_congr fun r hr => ?_
    simp only [horder.mem_iff, mem_overdue h hr]
  rw [← hsame]
  exact lists_expireIn h hn hsub

theorem results_eq (h : Lists t l) (now : Instant) :
    (t.expire now).results =
      (l.filter fun r => r.isOverdue now).map fun r => r.expiry r.frame.id := by
  rw [PendingTable.results_expire (h.keys ▸ h.nodup), overdue_eq h]
  unfold ids
  rw [List.filterMap_map, ← List.filterMap_eq_map]
  refine List.filterMap_congr fun r hr => ?_
  simp [h.find?, lookup?_of_mem h.nodup (List.mem_filter.mp hr).1]

/-! ### One operation -/

/-- An operation tells the same of table and register, and keeps them in step. -/
def InStep (t : PendingTable) (l : List PendingRequest) (op : TableOp) : Prop :=
  (t.perform op).1 = (perform l op).1 ∧ Lists (t.perform op).2 (perform l op).2

theorem inStep_markWritten (h : Lists t l) (id : RequestId) (now : Instant) (timeout : Nat) :
    InStep t l (.markWritten id now timeout) := by
  simp only [InStep, PendingTable.perform, perform, PendingTable.markWritten]
  rw [h.find?]
  cases hf : lookup? l id with
  | none => exact ⟨rfl, h⟩
  | some r =>
    obtain ⟨hr, rfl⟩ := mem_of_lookup? hf
    cases hkey : r.key with
    | none =>
      simp only [hkey]
      refine ⟨rfl, h.without hr rfl (fun key => ?_) h.kept⟩
      rw [hkey, if_neg (by simp)]
      rfl
    | some key =>
      simp only [hkey]
      refine ⟨rfl, h.replace (r.written now timeout) hf rfl ?_ rfl⟩
      simp only [PendingRequest.written, hkey]

/-- Where nobody waits for a reply, no line is kept. -/
theorem Lists.find?_lines_of_nobody (h : Lists t l) {key : ReplyKey} (hw : waiting l key = []) :
    t.lines.find? key = none := by
  have hline := h.line key
  rw [hw] at hline
  unfold PendingTable.line at hline
  cases hf : t.lines.find? key with
  | none => rfl
  | some line =>
    rw [hf, Option.getD_some] at hline
    subst hline
    exact absurd hf (h.kept key)

/-- A line loses its front, whose number does not stand in it again. -/
theorem Lists.line_rest (h : Lists t l) {key : ReplyKey} {r : PendingRequest}
    {rest : List PendingRequest} (hw : waiting l key = r :: rest) :
    ids rest = (t.line key).filter fun id => decide (id ≠ r.frame.id) := by
  have hline := h.line key
  rw [hw] at hline
  have hn := h.lined.once key
  rw [hline] at hn ⊢
  obtain ⟨hout, _⟩ := List.nodup_cons.mp hn
  show _ = List.filter _ (r.frame.id :: ids rest)
  rw [List.filter_cons_of_neg (by simp)]
  refine (List.filter_eq_self.mpr fun j hj => decide_eq_true ?_).symm
  rintro rfl
  exact hout hj

theorem inStep_resolve (h : Lists t l) (key : ReplyKey) (reply : Reply) :
    InStep t l (.resolve key reply) := by
  simp only [InStep, PendingTable.perform, perform]
  cases hw : waiting l key with
  | nil =>
    simp only [PendingTable.resolve, h.find?_lines_of_nobody hw, true_and]
    exact h
  | cons r rest =>
    have hline := h.line key
    rw [hw] at hline
    obtain ⟨hr, hkey⟩ := List.mem_filter.mp (hw ▸ List.mem_cons_self : r ∈ waiting l key)
    rw [PendingTable.resolve_of_front h.lined hline reply]
    refine ⟨rfl, h.without hr rfl (fun key' => ?_) (kept_setLine h.kept key _)⟩
    show ((PendingTable.setLine t.lines key _).find? key').getD [] = _
    rw [PendingTable.getD_setLine, of_decide_eq_true hkey]
    by_cases he : key = key'
    · subst he
      rw [if_pos rfl, if_pos rfl]
      exact h.line_rest hw
    · rw [if_neg he, if_neg (fun hs => he (Option.some.inj hs))]
      rfl

theorem inStep_cancel (h : Lists t l) (id : RequestId) (error : SessionError) :
    InStep t l (.cancel id error) := by
  simp only [InStep, PendingTable.perform, perform, PendingTable.cancel]
  rw [h.find?]
  cases hf : lookup? l id with
  | none => exact ⟨rfl, h⟩
  | some r =>
    obtain ⟨hr, rfl⟩ := mem_of_lookup? hf
    exact ⟨rfl, h.remove hr⟩

/-- Every operation tells the same, and keeps table and register in step. -/
theorem lists_perform (h : Lists t l) {op : TableOp}
    (hnew : ∀ id, op.inserted? = some id → id ∉ ids l) :
    (t.perform op).1 = (perform l op).1 ∧ Lists (t.perform op).2 (perform l op).2 := by
  cases op with
  | insert r =>
    obtain ⟨hsettled, hlists⟩ := h.insert (hnew r.frame.id rfl)
    refine ⟨?_, hlists⟩
    simp only [PendingTable.perform, perform, hsettled]
  | markWritten id now timeout => exact inStep_markWritten h id now timeout
  | resolve key reply => exact inStep_resolve h key reply
  | cancel id error => exact inStep_cancel h id error
  | expire now =>
    refine ⟨?_, lists_of_overdue h (List.Perm.refl _)⟩
    simp only [PendingTable.perform, perform]
    rw [PendingTable.settled_expire, results_eq h]
  | failAll error =>
    refine ⟨?_, lists_empty⟩
    simp only [PendingTable.perform, perform, PendingTable.failAll, PendingTable.size,
      Directory.size]
    rw [h.keys, h.entries]
    simp [ids]

/-! ### Whole runs -/

theorem inserted_cons (op : TableOp) (ops : List TableOp) :
    (op :: ops).filterMap TableOp.inserted? =
      op.inserted?.toList ++ ops.filterMap TableOp.inserted? := by
  rw [List.filterMap_cons]
  cases op.inserted? <;> rfl

/-- Requests leave the register, and only a request that is registered comes to its end. -/
theorem ids_perform_sublist (l : List PendingRequest) (op : TableOp) :
    (ids (perform l op).2).Sublist (ids l ++ op.inserted?.toList) := by
  have hstay : ∀ {l' : List PendingRequest}, (ids l').Sublist (ids l) →
      (ids l').Sublist (ids l ++ none.toList) := by
    intro l' h
    simpa using h
  cases op with
  | insert r =>
    rw [perform, ids_append]
    exact List.Sublist.refl _
  | markWritten id now timeout =>
    rw [perform]
    split
    · exact hstay (List.Sublist.refl _)
    · split
      · exact hstay (by rw [ids_replace])
      · exact hstay (ids_without_sublist l id)
  | resolve key reply =>
    rw [perform]
    split
    · exact hstay (List.Sublist.refl _)
    · exact hstay (ids_without_sublist l _)
  | cancel id error =>
    rw [perform]
    split
    · exact hstay (List.Sublist.refl _)
    · exact hstay (ids_without_sublist l id)
  | expire now =>
    have hid : ∀ r r' : PendingRequest, (if r.isOverdue now then r.expired? else some r) = some r' →
        r'.frame.id = r.frame.id :=
      fun r r' hr => congrArg OutboundFrame.id (frame_key_of_expire hr).1
    exact hstay (ids_filterMap_sublist hid l)
  | failAll error => exact List.nil_sublist _

/-- The requests of the register stay in the order in which they were registered. -/
theorem ids_run_sublist (ops : List TableOp) : ∀ l : List PendingRequest,
    (ids (runOps perform l ops).2).Sublist (ids l ++ ops.filterMap TableOp.inserted?) := by
  induction ops with
  | nil =>
    intro l
    exact List.sublist_append_left _ _
  | cons op ops ih =>
    intro l
    rw [runOps_cons, inserted_cons, ← List.append_assoc]
    exact (ih _).trans ((ids_perform_sublist l op).append_right _)

/-- With numbers that were not used before, table and register tell the same and stay in
step. -/
theorem lists_run {ops : List TableOp} (h : Lists t l)
    (hnew : (ids l ++ ops.filterMap TableOp.inserted?).Nodup) :
    (runOps PendingTable.perform t ops).1 = (runOps perform l ops).1 ∧
      Lists (runOps PendingTable.perform t ops).2 (runOps perform l ops).2 := by
  -- what is still to be registered has numbers that are not in the register
  let InStep : List TableOp → PendingTable → List PendingRequest → Prop :=
    fun ops t l => Lists t l ∧ (ids l ++ ops.filterMap TableOp.inserted?).Nodup
  have keep : ∀ op ops t l, InStep (op :: ops) t l →
      (PendingTable.perform t op).1 = (perform l op).1 ∧
        InStep ops (PendingTable.perform t op).2 (perform l op).2 := by
    rintro op ops t l ⟨h, hnew⟩
    rw [inserted_cons, ← List.append_assoc] at hnew
    have hone : ∀ id, op.inserted? = some id → id ∉ ids l := by
      intro id hid hmem
      rw [hid] at hnew
      obtain ⟨_, _, hdisjoint⟩ := List.nodup_append.mp (List.nodup_append.mp hnew).1
      exact hdisjoint id hmem id (by simp) rfl
    obtain ⟨htold, hlists⟩ := lists_perform h hone
    exact ⟨htold, hlists, hnew.sublist ((ids_perform_sublist l op).append_right _)⟩
  obtain ⟨htold, hlists, _⟩ := runOps_eq_of_inStep keep ops t l ⟨h, hnew⟩
  exact ⟨htold, hlists⟩

/-- A reply ends the oldest request of the register that waits for it. -/
theorem resolve_eq (h : Lists t l) (key : ReplyKey) (reply : Reply) :
    (t.resolve key reply).1 = (waiting l key).head?.map fun r => r.frame.id := by
  have hnew : ∀ id, (TableOp.resolve key reply).inserted? = some id → id ∉ ids l :=
    fun _ hid => by cases hid
  have htold := (lists_perform h hnew).1
  have hanswer := congrArg TableTold.answer htold
  simp only [PendingTable.perform, perform] at hanswer
  cases hw : waiting l key with
  | nil =>
    rw [hw] at hanswer
    exact TableAnswer.resolved.inj hanswer
  | cons r rest =>
    rw [hw] at hanswer
    exact TableAnswer.resolved.inj hanswer

/-- A reply finds nobody only when nobody waits for it. -/
theorem resolve_eq_none_iff (h : Lists t l) (key : ReplyKey) (reply : Reply) :
    (t.resolve key reply).1 = none ↔
      ∀ id r, t.requests.find? id = some r → r.key ≠ some key := by
  rw [resolve_eq h, Option.map_eq_none_iff, List.head?_eq_none_iff]
  constructor
  · intro hnil id r hr hkey
    have hmem := h.lined.waiting id r key hr hkey
    rw [h.line key, hnil] at hmem
    cases hmem
  · intro hnone
    refine List.filter_eq_nil_iff.mpr fun r hr => ?_
    have hfind := (h.find? r.frame.id).trans (lookup?_of_mem h.nodup hr)
    simpa using hnone r.frame.id r hfind

/-- In whatever order the overdue requests are handled, the same becomes of them, and the same
requests stay. -/
theorem expireIn_of_perm (h : Lists t l) {now : Instant} {order : List RequestId}
    (horder : order.Perm (t.overdue now)) :
    (t.expireIn order).results.Perm (t.expire now).results ∧
      (t.expireIn order).table.requests = (t.expire now).table.requests ∧
      ∀ key, (t.expireIn order).table.line key = (t.expire now).table.line key := by
  have hn : t.requests.keys.Nodup := h.keys ▸ h.nodup
  have hlists := lists_of_overdue h horder
  have hlists' := lists_of_overdue h (List.Perm.refl (t.overdue now))
  refine ⟨?_, ?_, fun key => (hlists.line key).trans (hlists'.line key).symm⟩
  · rw [PendingTable.results_expireIn hn horder, PendingTable.results_expire hn]
    exact horder.filterMap _
  · have hentries := hlists.entries.trans hlists'.entries.symm
    exact congrArg Directory.mk hentries

/-- **The table of requests is a plain register.**  When every request is registered under a
number that was not used before, the table tells what the register tells, and has its
requests, in the order in which they were registered.  The line of a key has those that wait
for it, each once, in that order, and no line is kept empty; so a reply ends the oldest
request that waits for it, and finds nobody only when nobody waits.  The order in which an
expiry handles the overdue requests makes no difference. -/
theorem table_is_register (ops : List TableOp) (hfresh : (ops.filterMap TableOp.inserted?).Nodup) :
    let table := runOps PendingTable.perform PendingTable.empty ops
    let register := runOps perform [] ops
    (table.1 = register.1 ∧ table.2.requests.values = register.2 ∧
      table.2.requests.keys = ids register.2 ∧
      (ids register.2).Sublist (ops.filterMap TableOp.inserted?)) ∧
    (∀ key, table.2.line key = ids (waiting register.2 key) ∧
      (∀ id, id ∈ table.2.line key ↔
        ∃ r, table.2.requests.find? id = some r ∧ r.key = some key) ∧
      (table.2.line key).Nodup ∧
      (table.2.line key).Sublist (ops.filterMap TableOp.inserted?) ∧
      table.2.lines.find? key ≠ some []) ∧
    (∀ key reply,
      (table.2.resolve key reply).1 = (waiting register.2 key).head?.map (fun r => r.frame.id) ∧
      ((table.2.resolve key reply).1 = none ↔
        ∀ id r, table.2.requests.find? id = some r → r.key ≠ some key)) ∧
    ∀ now order, order.Perm (table.2.overdue now) →
      (table.2.expireIn order).results.Perm (table.2.expire now).results ∧
      (table.2.expireIn order).table.requests = (table.2.expire now).table.requests ∧
      ∀ key, (table.2.expireIn order).table.line key = (table.2.expire now).table.line key := by
  intro table register
  obtain ⟨htold, h⟩ : table.1 = register.1 ∧ Lists table.2 register.2 :=
    lists_run lists_empty (by simpa [ids] using hfresh)
  have horder : (ids register.2).Sublist (ops.filterMap TableOp.inserted?) := by
    simpa [ids] using ids_run_sublist ops []
  refine ⟨⟨htold, h.values, h.keys, horder⟩, fun key => ⟨h.line key, ?_, h.lined.once key, ?_,
    h.kept key⟩, fun key reply => ⟨resolve_eq h key reply, resolve_eq_none_iff h key reply⟩,
    fun now order horder => expireIn_of_perm h horder⟩
  · intro id
    constructor
    · exact h.lined.registered key id
    · rintro ⟨r, hr, hkey⟩
      exact h.lined.waiting id r key hr hkey
  · rw [h.line key]
    exact (ids_waiting_sublist _ key).trans horder

/-- An event to the first controller, as it is registered. -/
def waitingEvent (id : RequestId) (retries : UInt32) : PendingRequest :=
  let target := Address.controllerAt 1
  .fresh ⟨id, ⟨target, .controllerAt 2, .event (.plain .root 7 .low)⟩, []⟩ .low
    (some (.handshake target)) retries

/-- Three wait for one reply; the first is withdrawn after it was sent again, the second
ends by the reply, and the third still waits. -/
def threeWaiting : List TableOp :=
  [.insert (waitingEvent 1 1), .insert (waitingEvent 2 0), .insert (waitingEvent 3 0),
    .markWritten 1 10 5, .expire 15, .cancel 1 .cancelled,
    .resolve (.handshake (.controllerAt 1)) (.ack .command)]

theorem table_is_register_threeWaiting :
    (threeWaiting.filterMap TableOp.inserted?).Nodup ∧
      (runOps PendingTable.perform .empty threeWaiting).1 =
        (runOps perform [] threeWaiting).1 ∧
      (runOps PendingTable.perform .empty threeWaiting).2.line (.handshake (.controllerAt 1)) =
        [3] := by
  have hfresh : (threeWaiting.filterMap TableOp.inserted?).Nodup := by decide
  obtain ⟨⟨htold, _⟩, hlines, _⟩ := table_is_register threeWaiting hfresh
  refine ⟨hfresh, htold, ?_⟩
  rw [(hlines (.handshake (.controllerAt 1))).1]
  decide +kernel

end Register

end ZoneBus
