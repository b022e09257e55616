import ZoneBus.Proofs.Request.Expiry

/-!
# Requests stand in line

A request that waits for an answer stands in the line of its key, once, and in no
other line; whoever stands in a line is registered with its key.  So an answer
that finds a line ends the request at its front.

## Main definitions

* `PendingTable.Lined` — the lines and the registered requests agree.

## Main results

* `PendingTable.lined_insert`, `lined_markWritten`, `lined_resolve`,
  `lined_cancel`, `lined_expire` — every operation keeps them so.
* `PendingTable.resolve_of_front` — an answer ends the request at the front.
-/

namespace ZoneBus

namespace PendingTable

variable {t : PendingTable}

/-! ### Lines after each change -/

theorem getD_setLine (lines : Directory ReplyKey (List RequestId)) (key key' : ReplyKey)
    (ids : List RequestId) :
    ((setLine lines key ids).find? key').getD [] =
      if key = key' then ids else (lines.find? key').getD [] := by
  rw [setLine]
  split
  · next he =>
    rw [Directory.find?_erase]
    split
    · exact (List.isEmpty_iff.mp he).symm
    · rfl
  · rw [Directory.find?_put]
    split <;> rfl

theorem line_insert (t : PendingTable) (r : PendingRequest) (key : ReplyKey) :
    (t.insert r).2.line key =
      if r.key = some key then t.line key ++ [r.frame.id] else t.line key := by
  rw [insert, line]
  dsimp only
  cases hk : r.key with
  | none => rfl
  | some k =>
    dsimp only
    rw [getD_setLine]
    by_cases h : k = key
    · rw [if_pos h, if_pos (congrArg some h), h]
    · rw [if_neg h, if_neg fun he => h (Option.some.inj he)]
      rfl

theorem getD_unlink (t : PendingTable) (k : Option ReplyKey) (id : RequestId) (key : ReplyKey) :
    ((t.unlink k id).find? key).getD [] =
      if k = some key then (t.line key).filter fun i => decide (i ≠ id) else t.line key := by
  cases k with
  | none => rfl
  | some k =>
    rw [unlink]
    by_cases h : k = key
    · subst h
      rw [if_pos rfl, line]
      cases hf : t.lines.find? k with
      | none =>
        dsimp only
        rw [hf]
        rfl
      | some ids =>
        dsimp only
        rw [getD_setLine, if_pos rfl]
        rfl
    · rw [if_neg fun he => h (Option.some.inj he)]
      cases hf : t.lines.find? k with
      | none => rfl
      | some ids =>
        dsimp only
        rw [getD_setLine, if_neg h]
        rfl

/-! ### Lines and requests -/

/-- The lines and the registered requests agree. -/
structure Lined (t : PendingTable) : Prop where
  /-- Whoever stands in a line is registered with its key. -/
  registered : ∀ key, ∀ id ∈ t.line key, ∃ r, t.requests.find? id = some r ∧ r.key = some key
  /-- Nobody stands in a line twice. -/
  once : ∀ key, (t.line key).Nodup
  /-- Whoever waits for an answer stands in line for it. -/
  waiting : ∀ id r key, t.requests.find? id = some r → r.key = some key → id ∈ t.line key

theorem lined_empty : empty.Lined where
  registered := fun _ _ h => by cases h
  once := fun _ => List.nodup_nil
  waiting := fun _ _ _ h => by cases h

/-- A request is changed, but for its key. -/
theorem Lined.put {id : RequestId} {r r' : PendingRequest} (h : t.Lined)
    (hr : t.requests.find? id = some r) (hk : r'.key = r.key) :
    ({ t with requests := t.requests.put id r' } : PendingTable).Lined where
  registered := fun key j hj => by
    obtain ⟨rj, hrj, hkey⟩ := h.registered key j hj
    rw [Directory.find?_put]
    by_cases he : id = j
    · subst he
      rw [hr, Option.some.injEq] at hrj
      rw [if_pos rfl]
      exact ⟨r', rfl, by rw [hk, hrj]; exact hkey⟩
    · rw [if_neg he]
      exact ⟨rj, hrj, hkey⟩
  once := h.once
  waiting := fun j rj key hj hkey => by
    rw [Directory.find?_put] at hj
    by_cases he : id = j
    · subst he
      rw [if_pos rfl, Option.some.injEq] at hj
      subst hj
      exact h.waiting id r key hr (hk ▸ hkey)
    · rw [if_neg he] at hj
      exact h.waiting j rj key hj hkey

/-- A request is taken out, and nobody but it out of its line. -/
theorem Lined.erase {id : RequestId} {r : PendingRequest} {t' : PendingTable} (h : t.Lined)
    (hr : t.requests.find? id = some r) (hreq : t'.requests = t.requests.erase id)
    (hline : ∀ key, t'.line key =
      if r.key = some key then (t.line key).filter fun i => decide (i ≠ id) else t.line key) :
    t'.Lined where
  registered := fun key j hj => by
    -- whoever is still in line is another one
    have hne : id ≠ j ∧ j ∈ t.line key := by
      rw [hline] at hj
      split at hj
      · rw [List.mem_filter, decide_eq_true_eq] at hj
        exact ⟨Ne.symm hj.2, hj.1⟩
      · next hk =>
        refine ⟨?_, hj⟩
        rintro rfl
        obtain ⟨r', hr', hk'⟩ := h.registered key id hj
        rw [hr, Option.some.injEq] at hr'
        exact hk (hr' ▸ hk')
    rw [hreq, Directory.find?_erase, if_neg hne.1]
    exact h.registered key j hne.2
  once := fun key => by
    rw [hline]
    split
    · exact (h.once key).filter _
    · exact h.once key
  waiting := fun j rj key hj hkey => by
    rw [hreq, Directory.find?_erase] at hj
    split at hj
    · cases hj
    · next hne =>
      have hold := h.waiting j rj key hj hkey
      rw [hline]
      split
      · exact List.mem_filter.mpr ⟨hold, decide_eq_true (Ne.symm hne)⟩
      · exact hold

theorem Lined.remove {id : RequestId} {r : PendingRequest} (h : t.Lined)
    (hr : t.requests.find? id = some r) : (t.remove id r).Lined :=
  h.erase hr rfl fun key => t.getD_unlink r.key id key

/-! ### Operations -/

theorem lined_insert {r : PendingRequest} (h : t.Lined) (hnew : r.frame.id ∉ t.requests.keys) :
    (t.insert r).2.Lined := by
  have hfind : ∀ j, (t.insert r).2.requests.find? j =
      if r.frame.id = j then some r else t.requests.find? j :=
    fun j => Directory.find?_put t.requests _ j r
  have hnone := Directory.find?_eq_none_iff.mpr hnew
  -- whoever stands in line is registered, and the new number is not
  have hout : ∀ key, r.frame.id ∉ t.line key := by
    intro key hm
    obtain ⟨r', hr', _⟩ := h.registered key _ hm
    rw [hnone] at hr'
    cases hr'
  refine ⟨fun key j hj => ?_, fun key => ?_, fun j rj key hj hkey => ?_⟩
  · rw [hfind]
    by_cases he : r.frame.id = j
    · subst he
      rw [if_pos rfl]
      rw [line_insert] at hj
      split at hj
      · next hk => exact ⟨r, rfl, hk⟩
      · exact absurd hj (hout key)
    · rw [if_neg he]
      rw [line_insert] at hj
      split at hj
      · rw [List.mem_append, List.mem_singleton] at hj
        exact h.registered key j (hj.resolve_right (Ne.symm he))
      · exact h.registered key j hj
  · rw [line_insert]
    split
    · rw [List.nodup_append]
      refine ⟨h.once key, List.pairwise_singleton _ _, fun a ha b hb => ?_⟩
      rw [List.mem_singleton] at hb
      rintro rfl
      exact hout key (hb ▸ ha)
    · exact h.once key
  · rw [hfind] at hj
    rw [line_insert]
    by_cases he : r.frame.id = j
    · rw [if_pos he, Option.some.injEq] at hj
      subst hj
      rw [if_pos hkey, ← he]
      exact List.mem_append_right _ List.mem_cons_self
    · rw [if_neg he] at hj
      have hold := h.waiting j rj key hj hkey
      split
      · exact List.mem_append_left _ hold
      · exact hold

theorem lined_markWritten (h : t.Lined) (id : RequestId) (now timeout : Nat) :
    (t.markWritten id now timeout).2.2.Lined := by
  rw [markWritten]
  split
  · exact h
  · next r hr =>
    split
    · exact h.put hr rfl
    · next hk =>
      refine h.erase hr rfl fun key => ?_
      rw [hk, if_neg (by simp)]
      rfl

/-- A line that is not empty is filed. -/
theorem find?_of_line {key : ReplyKey} {id : RequestId} {rest : List RequestId}
    (hline : t.line key = id :: rest) : t.lines.find? key = some (id :: rest) := by
  rw [line] at hline
  cases hf : t.lines.find? key with
  | none => rw [hf] at hline; cases hline
  | some ids =>
    rw [hf, Option.getD_some] at hline
    rw [hline]

/-- **An answer ends the request at the front of its line.** -/
theorem resolve_of_front {key : ReplyKey} {id : RequestId} {rest : List RequestId}
    (h : t.Lined) (hline : t.line key = id :: rest) (reply : Reply) :
    t.resolve key reply =
      (some id, [⟨id, .outcome (.success reply)⟩],
        ⟨t.requests.erase id, setLine t.lines key rest⟩) := by
  have hf := find?_of_line hline
  obtain ⟨r, hr, _⟩ := h.registered key id (by rw [hline]; exact List.mem_cons_self)
  have hc : t.contains id = true :=
    Directory.contains_iff_mem_keys.mpr (Directory.mem_keys_of_find? hr)
  rw [resolve, hf]
  dsimp only
  rw [if_pos hc]

/-- An answer to nobody changes nothing that is found. -/
theorem resolve_of_empty {key : ReplyKey} (hline : t.line key = []) (reply : Reply) :
    (t.resolve key reply).2.1 = [] ∧ (t.resolve key reply).2.2.requests = t.requests ∧
      ∀ key', (t.resolve key reply).2.2.line key' = t.line key' := by
  rw [line] at hline
  rw [resolve]
  cases hf : t.lines.find? key with
  | none => exact ⟨rfl, rfl, fun _ => rfl⟩
  | some ids =>
    rw [hf, Option.getD_some] at hline
    subst hline
    refine ⟨rfl, rfl, fun key' => ?_⟩
    show ((t.lines.erase key).find? key').getD [] = (t.lines.find? key').getD []
    rw [Directory.find?_erase]
    split
    · next he => rw [← he, hf]; rfl
    · rfl

theorem lined_resolve (h : t.Lined) (key : ReplyKey) (reply : Reply) :
    (t.resolve key reply).2.2.Lined := by
  cases hline : t.line key with
  | nil =>
    obtain ⟨_, hreq, hlines⟩ := resolve_of_empty hline reply
    refine ⟨fun k j hj => ?_, fun k => ?_, fun j r k hj hk => ?_⟩
    · rw [hreq]
      exact h.registered k j (hlines k ▸ hj)
    · rw [hlines]
      exact h.once k
    · rw [hlines]
      exact h.waiting j r k (hreq ▸ hj) hk
  | cons id rest =>
    rw [resolve_of_front h hline]
    obtain ⟨r, hr, hk⟩ := h.registered key id (by rw [hline]; exact List.mem_cons_self)
    refine h.erase hr rfl fun k => ?_
    show ((setLine t.lines key rest).find? k).getD [] = _
    rw [getD_setLine, hk]
    by_cases he : key = k
    -- its own line loses its front, where the request stood and nowhere else
    · subst he
      have hn := h.once key
      rw [hline, List.nodup_cons] at hn
      rw [if_pos rfl, if_pos rfl, hline, List.filter_cons_of_neg (by simp)]
      refine (List.filter_eq_self.mpr fun j hj => decide_eq_true ?_).symm
      rintro rfl
      exact hn.1 hj
    · rw [if_neg he, if_neg fun h => he (Option.some.inj h)]
      rfl

theorem lined_cancel (h : t.Lined) (id : RequestId) (error : SessionError) :
    (t.cancel id error).2.2.Lined := by
  rw [cancel]
  split
  · exact h
  · next hr => exact h.remove hr

theorem lined_expireOne {acc : Expired} (h : acc.table.Lined) (id : RequestId) :
    (expireOne acc id).table.Lined := by
  rw [expireOne]
  split
  · exact h
  · next hr =>
    split
    · exact h.put hr rfl
    · exact h.remove hr

theorem lined_expire (h : t.Lined) (now : Instant) : (t.expire now).table.Lined := by
  have key : ∀ (order : List RequestId) (acc : Expired), acc.table.Lined →
      (order.foldl expireOne acc).table.Lined := by
    intro order
    induction order with
    | nil => exact fun _ h => h
    | cons id order ih => exact fun acc h => ih _ (lined_expireOne h id)
  exact key _ ⟨[], [], t⟩ h

end PendingTable

end ZoneBus
