import ZoneBus.Proofs.Request.Settling
import ZoneBus.Proofs.Session.Inversion

/-!
# The ledger of a session

Requests are numbered in the order in which they are accepted.  Every number that
was given out stands in exactly one place: among the requests that have not
ended, or among the outcomes that were delivered; and what was delivered stays
delivered.  The routes by which a request ends all go through the table, and
what the table settles is what is delivered, so the ledger is right whoever comes
first.

## Main definitions

* `Session.outcomes` — the outcomes that were delivered for a request.
* `Session.Open`, `Session.EndedWith` — a request has not ended, or has ended once.
* `Session.Ledger` — every number stands in exactly one place.
* `Session.KeepsBooks` — the ledger stays right, and nothing is taken back.

## Main results

* `Session.keepsBooks_happens` — whatever happens keeps the books.
* `Session.Ledger.open_or_ended` — by a right ledger every accepted request is open
  or has ended once.
* `Session.EndedWith.of_history` — a request that has ended stays ended, the same way.
-/

namespace ZoneBus

namespace Session

/-- The outcomes that were delivered for a request. -/
def outcomes (s : Session) (id : RequestId) : List Outcome :=
  (s.delivered.filter fun e => e.1 == id).map Prod.snd

/-- A request has not ended: it is registered, and nothing was delivered for it. -/
def Open (s : Session) (id : RequestId) : Prop :=
  s.pending.contains id = true ∧ s.outcomes id = []

/-- A request has ended: it is not registered, and one outcome was delivered for it. -/
def EndedWith (s : Session) (id : RequestId) (outcome : Outcome) : Prop :=
  s.pending.contains id = false ∧ s.outcomes id = [outcome]

instance (s : Session) (id : RequestId) : Decidable (s.Open id) :=
  inferInstanceAs (Decidable (_ ∧ _))

instance (s : Session) (id : RequestId) (outcome : Outcome) :
    Decidable (s.EndedWith id outcome) :=
  inferInstanceAs (Decidable (_ ∧ _))

/-- Every number that was given out stands once, among the registered requests or
among the delivered outcomes. -/
def Ledger (s : Session) : Prop :=
  (s.pending.requests.keys ++ s.delivered.map Prod.fst).Perm
    (List.range' 1 s.requestIds.given)

theorem ledger_fresh (config : SessionConfig) (link : Link) : (fresh config link).Ledger :=
  List.Perm.refl _

/-! ### Reading the ledger -/

namespace Ledger

variable {s : Session} {id : Nat}

theorem nodup (h : s.Ledger) : (s.pending.requests.keys ++ s.delivered.map Prod.fst).Nodup :=
  h.nodup_iff.mpr List.nodup_range'

theorem keys_nodup (h : s.Ledger) : s.pending.requests.keys.Nodup :=
  (List.nodup_append.mp h.nodup).1

/-- Registered requests bear numbers that were given out. -/
theorem le_of_mem_keys (h : s.Ledger) (hid : id ∈ s.pending.requests.keys) :
    1 ≤ id ∧ id ≤ s.requestIds.given := by
  have hm := h.mem_iff.mp (List.mem_append_left _ hid)
  rw [List.mem_range'_1] at hm
  omega

theorem le_of_find? {req : PendingRequest} (h : s.Ledger)
    (hf : s.pending.requests.find? id = some req) : 1 ≤ id ∧ id ≤ s.requestIds.given :=
  h.le_of_mem_keys (Directory.mem_keys_of_find? hf)

/-- The next number is not registered. -/
theorem next_notMem (h : s.Ledger) : s.requestIds.given + 1 ∉ s.pending.requests.keys :=
  fun hm => Nat.not_succ_le_self _ (h.le_of_mem_keys hm).2

end Ledger

theorem mem_delivered_of_outcomes {s : Session} {id : RequestId} {outcome : Outcome}
    (h : outcome ∈ s.outcomes id) : id ∈ s.delivered.map Prod.fst := by
  rw [outcomes, List.mem_map] at h
  obtain ⟨e, he, _⟩ := h
  rw [List.mem_filter, beq_iff_eq] at he
  exact List.mem_map.mpr ⟨e, he.1, he.2⟩

theorem outcomes_eq_nil {s : Session} {id : RequestId} (h : id ∉ s.delivered.map Prod.fst) :
    s.outcomes id = [] := by
  cases ho : s.outcomes id with
  | nil => rfl
  | cons outcome rest =>
    exact absurd (mem_delivered_of_outcomes (by rw [ho]; exact List.mem_cons_self)) h

/-- With all numbers different, at most one outcome bears a number. -/
theorem outcomes_of_mem {s : Session} {id : RequestId} {outcome : Outcome}
    (hn : (s.delivered.map Prod.fst).Nodup) (h : (id, outcome) ∈ s.delivered) :
    s.outcomes id = [outcome] := by
  rw [outcomes]
  -- by induction on what was delivered, which may be anything with different numbers
  generalize s.delivered = es at hn h
  induction es with
  | nil => simp at h
  | cons e es ih =>
    rw [List.map_cons, List.nodup_cons] at hn
    rw [List.mem_cons] at h
    rcases h with h | h
    · subst h
      have hrest : (es.filter fun e => e.1 == id) = [] := by
        rw [List.filter_eq_nil_iff]
        intro e he hid
        exact hn.1 (List.mem_map.mpr ⟨e, he, beq_iff_eq.mp hid⟩)
      simp [hrest]
    · have hne : ¬(e.1 == id) = true := by
        intro hid
        exact hn.1 (List.mem_map.mpr ⟨(id, outcome), h, (beq_iff_eq.mp hid).symm⟩)
      rw [List.filter_cons, if_neg hne]
      exact ih hn.2 h

/-- A delivered outcome is the one its request ended with. -/
theorem Ledger.endedWith_of_mem {s : Session} {id : RequestId} {outcome : Outcome}
    (h : s.Ledger) (hm : (id, outcome) ∈ s.delivered) : s.EndedWith id outcome := by
  obtain ⟨_, hdn, hdis⟩ := List.nodup_append.mp h.nodup
  refine ⟨?_, outcomes_of_mem hdn hm⟩
  rw [Bool.eq_false_iff]
  intro hc
  exact hdis id (Directory.contains_iff_mem_keys.mp hc) id (List.mem_map.mpr ⟨_, hm, rfl⟩) rfl

/-- **By a right ledger every accepted request is open or has ended once.** -/
theorem Ledger.open_or_ended {s : Session} {id : Nat} (h : s.Ledger) (h1 : 1 ≤ id)
    (hg : id ≤ s.requestIds.given) : s.Open id ∨ ∃ outcome, s.EndedWith id outcome := by
  obtain ⟨_, hdn, hdis⟩ := List.nodup_append.mp h.nodup
  have hm : id ∈ s.pending.requests.keys ++ s.delivered.map Prod.fst := by
    rw [h.mem_iff, List.mem_range'_1]
    omega
  rw [List.mem_append] at hm
  rcases hm with hm | hm
  · exact Or.inl ⟨Directory.contains_iff_mem_keys.mpr hm,
      outcomes_eq_nil fun hd => hdis id hm id hd rfl⟩
  · rw [List.mem_map] at hm
    obtain ⟨⟨_, outcome⟩, he, rfl⟩ := hm
    refine Or.inr ⟨outcome, ?_, outcomes_of_mem hdn he⟩
    rw [Bool.eq_false_iff]
    intro hc
    exact hdis _ (Directory.contains_iff_mem_keys.mp hc) _ (List.mem_map.mpr ⟨_, he, rfl⟩) rfl

/-! ### Keeping the books -/

/-- The ledger stays right, no number is taken back, and neither is an outcome. -/
def KeepsBooks (s s' : Session) : Prop :=
  (s.Ledger → s'.Ledger) ∧ s.requestIds.given ≤ s'.requestIds.given ∧
    s.delivered <+: s'.delivered

theorem KeepsBooks.refl (s : Session) : s.KeepsBooks s :=
  ⟨id, Nat.le_refl _, List.prefix_rfl⟩

theorem KeepsBooks.trans {s₁ s₂ s₃ : Session} (h : s₁.KeepsBooks s₂) (h' : s₂.KeepsBooks s₃) :
    s₁.KeepsBooks s₃ :=
  ⟨h'.1 ∘ h.1, Nat.le_trans h.2.1 h'.2.1, h.2.2.trans h'.2.2⟩

/-- What touches neither the table nor the outcomes nor the numbers keeps the books. -/
theorem keepsBooks_of_eq {s s' : Session} (hp : s'.pending = s.pending)
    (hd : s'.delivered = s.delivered) (hi : s'.requestIds = s.requestIds) : s.KeepsBooks s' := by
  refine ⟨fun h => ?_, Nat.le_of_eq (congrArg Counter.given hi.symm),
    hd ▸ List.prefix_rfl⟩
  rw [Ledger, hp, hd, hi]
  exact h

/-- What is settled is delivered. -/
theorem keepsBooks_settle {s : Session} {settled : List Settled} {t : PendingTable}
    (h : s.pending.requests.keys.Nodup → s.pending.Settles settled t) :
    s.KeepsBooks ({ s with pending := t }.deliver settled) := by
  refine ⟨fun hl => ?_, Nat.le_refl _, List.prefix_append _ _⟩
  have hs := h hl.keys_nodup
  show (t.requests.keys ++ (s.delivered ++ outcomesOf settled).map Prod.fst).Perm _
  refine List.Perm.trans ?_ hl
  -- what is settled moves from the table to the outcomes
  have hmove := List.Perm.append_right (s.delivered.map Prod.fst) hs.symm
  refine List.Perm.trans ?_ hmove
  rw [List.map_append, ← List.append_assoc]
  refine List.Perm.trans List.perm_append_comm ?_
  rw [List.append_assoc]

theorem keepsBooks_withdraw (s : Session) (id : RequestId) (error : SessionError) :
    s.KeepsBooks (s.withdraw id error).2 :=
  keepsBooks_settle fun hn => PendingTable.settles_cancel hn id error

theorem keepsBooks_resolve (s : Session) (key : ReplyKey) (reply : Reply) :
    s.KeepsBooks (s.resolve key reply) :=
  keepsBooks_settle fun hn => PendingTable.settles_resolve hn key reply

theorem keepsBooks_noteWritten (s : Session) (frame : OutboundFrame) :
    s.KeepsBooks (s.noteWritten frame).1 :=
  keepsBooks_settle fun hn => PendingTable.settles_markWritten hn frame.id s.now _

/-- A request is registered under the next number. -/
theorem keepsBooks_registered {s : Session} {request : PendingRequest}
    (hid : request.frame.id = s.requestIds.given + 1) : s.KeepsBooks (s.registered request) := by
  refine ⟨fun hl => ?_, Nat.le_succ _, List.prefix_append _ _⟩
  have hnot : request.frame.id ∉ s.pending.requests.keys := by
    rw [hid]
    exact hl.next_notMem
  obtain ⟨hnone, hkeys⟩ := PendingTable.keys_insert hnot
  have hd : (s.registered request).delivered = s.delivered := by
    show s.delivered ++ outcomesOf (s.pending.insert request).1 = s.delivered
    rw [hnone]
    exact List.append_nil _
  show ((s.pending.insert request).2.requests.keys ++
    (s.registered request).delivered.map Prod.fst).Perm (List.range' 1 (s.requestIds.given + 1))
  rw [hd, hkeys, hid, List.append_assoc, List.range'_concat]
  -- the new number goes behind what was delivered, at the end of the range
  have hmove : ([s.requestIds.given + 1] ++ s.delivered.map Prod.fst).Perm
      (s.delivered.map Prod.fst ++ [s.requestIds.given + 1]) := List.perm_append_comm
  refine (List.Perm.append_left _ hmove).trans ?_
  rw [← List.append_assoc, Nat.one_mul, Nat.add_comm 1]
  exact List.Perm.append_right _ hl

theorem keepsBooks_enqueue (s : Session) (target : Address) (message : Message)
    (priority : Priority) : s.KeepsBooks (s.enqueue target message priority).2 := by
  rcases s.enqueue_cases target message priority with
    ⟨e, he⟩ | ⟨bytes, _, ⟨queue, _, he⟩ | ⟨_, he⟩⟩
  · rw [he]
    exact .refl s
  · rw [he]
    exact (keepsBooks_registered (by rfl)).trans (keepsBooks_of_eq rfl rfl rfl)
  · rw [he]
    exact (keepsBooks_registered (by rfl)).trans (keepsBooks_withdraw _ _ _)

theorem keepsBooks_handOn (s : Session) (e : Expiry) : s.KeepsBooks (s.handOn e) := by
  cases e with
  | resend frame priority attempt =>
    rw [handOn]
    split
    · exact keepsBooks_of_eq rfl rfl rfl
    · exact keepsBooks_withdraw _ _ _
  | timedOut id attempts => exact .refl s

theorem keepsBooks_scan (s : Session) : s.KeepsBooks s.scan := by
  have hand : ∀ (results : List Expiry) (v : Session),
      v.KeepsBooks (results.foldl handOn v) := by
    intro results
    induction results with
    | nil => exact fun v => .refl v
    | cons e results ih => exact fun v => (keepsBooks_handOn v e).trans (ih _)
  -- first the table is told what is overdue, then the results are handed on
  refine KeepsBooks.trans ?_ (hand _ _)
  exact keepsBooks_settle fun hn => PendingTable.settles_expire hn s.now

/-- Everyday work keeps the books. -/
theorem keepsBooks_works {s s' : Session} (h : Works s s') : s.KeepsBooks s' := by
  cases h with
  | minor h =>
    cases h with
    | aside => exact keepsBooks_of_eq rfl rfl rfl
    | skips => exact keepsBooks_of_eq rfl rfl rfl
    | reads => exact keepsBooks_of_eq rfl rfl rfl
    | queues => exact keepsBooks_of_eq rfl rfl rfl
    | enqueues target message priority _ => exact keepsBooks_enqueue s target message priority
    | withdraws id => exact keepsBooks_withdraw s id .cancelled
    | resolves key reply _ => exact keepsBooks_resolve s key reply
  | writer h => cases h <;> exact keepsBooks_of_eq rfl rfl rfl
  | scans => exact keepsBooks_scan s

theorem keepsBooks_worked {s s' : Session} (h : Worked s s') : s.KeepsBooks s' := by
  induction h with
  | refl => exact .refl s
  | tail _ hw ih => exact ih.trans (keepsBooks_works hw)

/-! ### Starts, stops and faults -/

/-- Taking a run away tells of every request that was registered. -/
theorem keepsBooks_takenDown (s : Session) (t : TaskId) (r : RunId) (error : SessionError) :
    s.KeepsBooks (s.takenDown t r error) := by
  -- the table fails as a whole; what is taken away beyond it is not in the books
  have hs := keepsBooks_settle (s := s) fun _ => PendingTable.settles_failAll error
  refine hs.trans ?_
  rw [takenDown_eq]
  refine keepsBooks_of_eq rfl ?_ rfl
  show _ = s.delivered ++ outcomesOf (s.pending.failAll error).2.1
  rw [PendingTable.failAll, outcomesOf_map]

/-- Starts, stops and faults keep the books. -/
theorem keepsBooks_governs {s s' : Session} {o : Occurrence} (h : Governs s o s') :
    s.KeepsBooks s' := by
  cases h with
  | asksStart => exact keepsBooks_of_eq rfl rfl rfl
  | asksStop => exact keepsBooks_of_eq rfl rfl rfl
  | refuses => exact keepsBooks_of_eq rfl rfl rfl
  | startBegins => rw [enter_fst]; exact keepsBooks_of_eq rfl rfl rfl
  | startFails => rw [enter_fst]; exact keepsBooks_of_eq rfl rfl rfl
  | spawns => exact keepsBooks_of_eq rfl rfl rfl
  | startEnds => rw [enter_fst]; exact keepsBooks_of_eq rfl rfl rfl
  | stopBegins => exact (keepsBooks_takenDown _ _ _ _).trans (keepsBooks_of_eq rfl rfl rfl)
  | stopJoins => exact keepsBooks_of_eq rfl rfl rfl
  | stopEnds => rw [enter_fst]; exact keepsBooks_of_eq rfl rfl rfl
  | @faultBegins t cause r =>
    obtain ⟨runs, hruns⟩ := putTeardown_eq (s.takenDown t r (.connection cause)) t
      (.closing s.link.nextCall)
    refine (keepsBooks_takenDown s t r (.connection cause)).trans ?_
    rw [hruns]
    exact keepsBooks_of_eq rfl rfl rfl
  | @faultLate t =>
    obtain ⟨runs, hruns⟩ := exitTask_eq (s.releaseLifecycle t) t
    rw [hruns]
    exact keepsBooks_of_eq rfl rfl rfl
  | @faultEnds t =>
    obtain ⟨runs, hruns⟩ := exitTask_eq (s.enter .stopped).1 t
    rw [hruns, enter_fst]
    exact keepsBooks_of_eq rfl rfl rfl

/-- **Whatever happens keeps the books.** -/
theorem keepsBooks_happens {s s' : Session} {o : Occurrence} (h : Happens s o s') :
    s.KeepsBooks s' := by
  rcases happens_cases h with ⟨r, run, frame, _, _, _, rfl⟩ | ⟨_, hw | ⟨link, _, hg⟩⟩
  · exact (keepsBooks_noteWritten s frame).trans (keepsBooks_of_eq rfl rfl rfl)
  · exact keepsBooks_worked hw
  · have hlink : s.KeepsBooks { s with link := link } := keepsBooks_of_eq rfl rfl rfl
    exact hlink.trans (keepsBooks_governs hg)

theorem History.keepsBooks {s s' : Session} {past : List (Session × Occurrence)}
    (h : History s past s') : s.KeepsBooks s' := by
  induction h with
  | nil => exact .refl _
  | cons _ ho ih => exact ih.trans (keepsBooks_happens ho)

/-- The ledger of a session is right. -/
theorem ledger_of_history {config : SessionConfig} {link : Link} {s : Session}
    {past : List (Session × Occurrence)} (h : History (fresh config link) past s) : s.Ledger :=
  h.keepsBooks.1 (ledger_fresh config link)

/-- **A request that has ended stays ended, the same way.** -/
theorem EndedWith.of_history {s s' : Session} {past : List (Session × Occurrence)}
    {id : RequestId} {outcome : Outcome} (he : s.EndedWith id outcome) (hl : s.Ledger)
    (h : History s past s') : s'.EndedWith id outcome := by
  obtain ⟨hkeep, hgiven, more, hmore⟩ := h.keepsBooks
  have hl' := hkeep hl
  have hm : id ∈ s.delivered.map Prod.fst :=
    mem_delivered_of_outcomes (by rw [he.2]; exact List.mem_singleton_self outcome)
  have hr := hl.mem_iff.mp (List.mem_append_right _ hm)
  rw [List.mem_range'_1] at hr
  -- the outcome is still there, so by the ledger it is the only one
  have hout : s'.outcomes id = outcome :: (more.filter fun e => e.1 == id).map Prod.snd := by
    rw [outcomes, ← hmore, List.filter_append, List.map_append]
    have := he.2
    rw [outcomes] at this
    rw [this, List.singleton_append]
  rcases hl'.open_or_ended hr.1 (by omega) with ho | ⟨outcome', he'⟩
  · rw [ho.2] at hout
    cases hout
  · rw [he'.2] at hout
    obtain rfl := (List.cons.inj hout).1
    exact he'

end Session

end ZoneBus
