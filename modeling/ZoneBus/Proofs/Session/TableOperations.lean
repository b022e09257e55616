import ZoneBus.Proofs.Request.Lines
import ZoneBus.Proofs.Session.Ledger

/-!
# The operations on the table of requests

Whatever happens in a session, the table of requests changes by its own
operations only: requests are registered under numbers never used, answered,
withdrawn, expired, or failed all at once, and apart from that only a frame is
noted as written.  So what those operations keep holds of the table in every
history.

## Main definitions

* `Session.Posts` — one operation of the table, noting a written frame apart.
* `Session.TableOk` — what holds of the table in every history.

## Main results

* `Session.posted_happens` — whatever happens does such operations or notes a frame.
* `Session.tableOk_of_history` — the table is right in every history.
-/

namespace ZoneBus

namespace Session

/-! ### The settings stay -/

theorem TrafficOnly.config {s s' : Session} (h : s.TrafficOnly s') : s'.config = s.config := by
  obtain ⟨_, _, _, _, rfl⟩ := h
  rfl

theorem config_works {s s' : Session} (h : Works s s') : s'.config = s.config := by
  cases h with
  | minor h =>
    cases h with
    | aside => rfl
    | skips => rfl
    | reads => rfl
    | queues => rfl
    | enqueues => exact (s.trafficOnly_enqueue _ _ _).config
    | withdraws => exact (s.trafficOnly_withdraw _ _).config
    | resolves => exact (s.trafficOnly_resolve _ _).config
  | writer h => cases h <;> rfl
  | scans => exact s.trafficOnly_scan.config

theorem config_worked {s s' : Session} (h : Worked s s') : s'.config = s.config := by
  induction h with
  | refl => rfl
  | tail _ hw ih => exact (config_works hw).trans ih

theorem config_governs {s s' : Session} {o : Occurrence} (h : Governs s o s') :
    s'.config = s.config := by
  cases h with
  | asksStart => rfl
  | asksStop => rfl
  | refuses => rfl
  | startBegins => rw [enter_fst]; rfl
  | startFails => rw [enter_fst]; rfl
  | spawns => rfl
  | startEnds => rw [enter_fst]; rfl
  | stopBegins => rw [takenDown_eq]; rfl
  | stopJoins => rfl
  | stopEnds => rw [enter_fst]; rfl
  | @faultBegins t cause r =>
    obtain ⟨runs, hput⟩ := putTeardown_eq (s.takenDown t r (.connection cause)) t
      (.closing s.link.nextCall)
    rw [hput, takenDown_eq]
  | @faultLate t =>
    obtain ⟨runs, hexit⟩ := exitTask_eq (s.releaseLifecycle t) t
    rw [hexit]; rfl
  | @faultEnds t =>
    obtain ⟨runs, hexit⟩ := exitTask_eq (s.enter .stopped).1 t
    rw [hexit, enter_fst]

/-- A session keeps its settings. -/
theorem config_happens {s s' : Session} {o : Occurrence} (h : Happens s o s') :
    s'.config = s.config := by
  rcases happens_cases h with ⟨r, run, frame, _, _, _, rfl⟩ | ⟨_, hw | ⟨link, _, hg⟩⟩
  · rfl
  · exact config_worked hw
  · have := config_governs hg
    exact this

theorem config_of_history {s s' : Session} {past : List (Session × Occurrence)}
    (h : History s past s') : s'.config = s.config := by
  induction h with
  | nil => rfl
  | cons _ ho ih => exact (config_happens ho).trans ih

/-! ### Operations of the table -/

/-- One operation of the table, with requests registered as they are for these
settings, under numbers above a given one. -/
inductive Posts (config : SessionConfig) (given : Nat) :
    PendingTable × List (RequestId × Outcome) → PendingTable × List (RequestId × Outcome) →
      Prop where
  /-- A request is registered, as one that was never written. -/
  | registers {t : PendingTable} {d : List (RequestId × Outcome)} {request : PendingRequest}
      (frame : OutboundFrame) (priority : Priority) (key : Option ReplyKey) :
      request = .fresh frame priority key config.retries →
      frame.id ∉ t.requests.keys → given < frame.id →
      Posts config given (t, d) ((t.insert request).2, d ++ outcomesOf (t.insert request).1)
  /-- A reply ends a request. -/
  | resolves {t : PendingTable} {d : List (RequestId × Outcome)} (key : ReplyKey)
      (reply : Reply) :
      Posts config given (t, d) ((t.resolve key reply).2.2,
        d ++ outcomesOf (t.resolve key reply).2.1)
  /-- A request is withdrawn. -/
  | withdraws {t : PendingTable} {d : List (RequestId × Outcome)} (id : RequestId)
      (error : SessionError) :
      Posts config given (t, d) ((t.cancel id error).2.2, d ++ outcomesOf (t.cancel id error).2.1)
  /-- Overdue requests wait to be sent once more, or time out. -/
  | expires {t : PendingTable} {d : List (RequestId × Outcome)} (now : Instant) :
      Posts config given (t, d) ((t.expire now).table, d ++ outcomesOf (t.expire now).settled)
  /-- Every request fails. -/
  | fails {t : PendingTable} {d : List (RequestId × Outcome)} (error : SessionError) :
      Posts config given (t, d) ((t.failAll error).2.2, d ++ outcomesOf (t.failAll error).2.1)

/-- Any number of operations of the table. -/
abbrev Posted (config : SessionConfig) (given : Nat) := Relation.ReflTransGen (Posts config given)

/-- The table, and what was delivered. -/
def books (s : Session) : PendingTable × List (RequestId × Outcome) := (s.pending, s.delivered)

theorem Posts.mono {config : SessionConfig} {given given' : Nat}
    {b b' : PendingTable × List (RequestId × Outcome)} (hle : given ≤ given')
    (h : Posts config given' b b') : Posts config given b b' := by
  cases h with
  | registers frame priority key hr hnew hg =>
    exact .registers frame priority key hr hnew (Nat.lt_of_le_of_lt hle hg)
  | resolves key reply => exact .resolves key reply
  | withdraws id error => exact .withdraws id error
  | expires now => exact .expires now
  | fails error => exact .fails error

theorem posted_withdraw (s : Session) (config : SessionConfig) (given : Nat) (id : RequestId)
    (error : SessionError) : Posted config given s.books (s.withdraw id error).2.books :=
  .single (.withdraws id error)

theorem posted_enqueue {s : Session} (hl : s.Ledger) (target : Address) (message : Message)
    (priority : Priority) :
    Posted s.config s.requestIds.given s.books (s.enqueue target message priority).2.books := by
  have hreg : ∀ bytes, Posts s.config s.requestIds.given s.books
      (s.registered (s.newRequest target message priority bytes)).books :=
    fun bytes => .registers _ priority _ rfl hl.next_notMem (Nat.lt_succ_self _)
  rcases s.enqueue_cases target message priority with
    ⟨e, he⟩ | ⟨bytes, _, ⟨queue, _, he⟩ | ⟨_, he⟩⟩
  · rw [he]
  · rw [he]
    exact .single (hreg bytes)
  · rw [he]
    exact .trans (.single (hreg bytes)) (posted_withdraw (s.registered _) _ _ _ _)

theorem posted_scan (s : Session) (given : Nat) :
    Posted s.config given s.books s.scan.books := by
  -- by induction on the results, from any session that they are handed on to
  have hand : ∀ (results : List Expiry) (v : Session),
      Posted s.config given v.books (results.foldl handOn v).books := by
    intro results
    induction results with
    | nil => exact fun v => .refl
    | cons e results ih =>
      intro v
      refine .trans ?_ (ih (v.handOn e))
      cases e with
      | resend frame priority attempt =>
        rw [handOn]
        split
        · exact .refl
        · exact posted_withdraw v _ given _ _
      | timedOut id attempts => exact .refl
  have handed := hand (s.pending.expire s.now).results
    ({ s with pending := (s.pending.expire s.now).table }.deliver (s.pending.expire s.now).settled)
  exact .trans (.single (.expires s.now)) handed

/-- Everyday work does operations of the table. -/
theorem posted_works {s s' : Session} (hl : s.Ledger) (h : Works s s') :
    Posted s.config s.requestIds.given s.books s'.books := by
  cases h with
  | minor h =>
    cases h with
    | aside => exact .refl
    | skips => exact .refl
    | reads => exact .refl
    | queues => exact .refl
    | enqueues target message priority _ => exact posted_enqueue hl target message priority
    | withdraws id => exact posted_withdraw s _ _ id .cancelled
    | resolves key reply _ => exact .single (.resolves key reply)
  | writer h => cases h <;> exact .refl
  | scans => exact posted_scan s _

theorem posted_worked {s s' : Session} (hl : s.Ledger) (h : Worked s s') :
    Posted s.config s.requestIds.given s.books s'.books := by
  induction h with
  | refl => exact .refl
  | @tail v w hv hw ih =>
    obtain ⟨hkeep, hgiven, _⟩ := keepsBooks_worked hv
    have hstep := posted_works (hkeep hl) hw
    -- numbers are only ever given out, so what was new later was new from the start
    rw [config_worked hv] at hstep
    exact .trans ih (Relation.ReflTransGen.mono (fun _ _ => Posts.mono hgiven) _ _ hstep)

theorem posted_takenDown (s : Session) (given : Nat) (t : TaskId) (r : RunId)
    (error : SessionError) : Posted s.config given s.books (s.takenDown t r error).books := by
  rw [takenDown_eq]
  refine .single ?_
  have hp : Posts s.config given (s.pending, s.delivered) _ := .fails error
  rw [PendingTable.failAll, outcomesOf_map] at hp
  exact hp

/-- Starts, stops and faults do at most one. -/
theorem posted_governs {s s' : Session} {o : Occurrence} (given : Nat) (h : Governs s o s') :
    Posted s.config given s.books s'.books := by
  cases h with
  | asksStart => exact .refl
  | asksStop => exact .refl
  | refuses => exact .refl
  | startBegins => rw [enter_fst]; exact .refl
  | startFails => rw [enter_fst]; exact .refl
  | spawns => exact .refl
  | startEnds => rw [enter_fst]; exact .refl
  | stopBegins => exact posted_takenDown s given _ _ _
  | stopJoins => exact .refl
  | stopEnds => rw [enter_fst]; exact .refl
  | @faultBegins t cause r =>
    obtain ⟨runs, hput⟩ := putTeardown_eq (s.takenDown t r (.connection cause)) t
      (.closing s.link.nextCall)
    rw [hput]
    exact posted_takenDown s given t r (.connection cause)
  | @faultLate t =>
    obtain ⟨runs, hexit⟩ := exitTask_eq (s.releaseLifecycle t) t
    rw [hexit]; exact .refl
  | @faultEnds t =>
    obtain ⟨runs, hexit⟩ := exitTask_eq (s.enter .stopped).1 t
    rw [hexit, enter_fst]; exact .refl

/-- **Whatever happens notes a written frame, or does operations of the table.** -/
theorem posted_happens {s s' : Session} {o : Occurrence} (hl : s.Ledger) (h : Happens s o s') :
    (∃ r run frame, s.marked? o = some (r, frame) ∧ s.runs.find? r = some run ∧
      run.writer = .marking frame ∧
      let noted := s.pending.markWritten frame.id s.now s.config.requestTimeout
      s'.books = (noted.2.2, s.delivered ++ outcomesOf noted.2.1)) ∨
    (s.marked? o = none ∧ Posted s.config s.requestIds.given s.books s'.books) := by
  rcases happens_cases h with ⟨r, run, frame, hm, hr, hw, rfl⟩ | ⟨hm, hw | ⟨link, _, hg⟩⟩
  · exact Or.inl ⟨r, run, frame, hm, hr, hw, rfl⟩
  · exact Or.inr ⟨hm, posted_worked hl hw⟩
  · have := posted_governs s.requestIds.given hg
    exact Or.inr ⟨hm, this⟩

/-! ### The table in every history -/

/-- What holds of the table in every history. -/
structure TableOk (t : PendingTable) : Prop where
  /-- Every request is registered once. -/
  once : t.requests.keys.Nodup
  /-- A request is registered under the number of its frame. -/
  framed : ∀ id r, t.requests.find? id = some r → r.frame.id = id
  /-- The lines and the registered requests agree. -/
  lined : t.Lined

theorem find?_of_erase {t : PendingTable} {id j : RequestId} {r : PendingRequest}
    (h : (t.requests.erase id).find? j = some r) : t.requests.find? j = some r := by
  rw [Directory.find?_erase] at h
  split at h
  · cases h
  · exact h

theorem find?_of_cancel {t : PendingTable} {id j : RequestId} {error : SessionError}
    {req : PendingRequest} (hf : (t.cancel id error).2.2.requests.find? j = some req) :
    id ≠ j ∧ t.requests.find? j = some req := by
  rw [PendingTable.cancel] at hf
  split at hf
  · next hnone =>
    refine ⟨?_, hf⟩
    rintro rfl
    rw [hnone] at hf
    cases hf
  · have hf' : (t.requests.erase id).find? j = some req := hf
    rw [Directory.find?_erase] at hf'
    split at hf'
    · cases hf'
    · next hne => exact ⟨hne, hf'⟩

theorem find?_of_resolve {t : PendingTable} {key : ReplyKey} {reply : Reply} {j : RequestId}
    {req : PendingRequest} (hf : (t.resolve key reply).2.2.requests.find? j = some req) :
    t.requests.find? j = some req := by
  rw [PendingTable.resolve] at hf
  split at hf
  · exact hf
  · exact hf
  · split at hf
    · exact find?_of_erase hf
    · exact hf

theorem mem_delivered_of_withdraw {s : Session} {id : RequestId} {error : SessionError}
    {e : RequestId × Outcome} (h : e ∈ (s.withdraw id error).2.delivered) :
    e ∈ s.delivered ∨ e = (id, .failure error) := by
  have hm : e ∈ s.delivered ++ outcomesOf (s.pending.cancel id error).2.1 := h
  rw [List.mem_append, PendingTable.cancel] at hm
  refine hm.imp_right fun hm => ?_
  split at hm
  · cases hm
  · rw [outcomesOf_single] at hm
    exact List.mem_singleton.mp hm

theorem tableOk_empty : TableOk .empty where
  once := List.nodup_nil
  framed := fun _ _ h => by cases h
  lined := PendingTable.lined_empty

/-- An overdue request keeps its frame and its key, and loses its deadline and a retry. -/
theorem expired?_spec {r r' : PendingRequest} (h : r.expired? = some r') :
    r'.frame = r.frame ∧ r'.key = r.key ∧ r'.deadline = none ∧ r'.retries < r.retries := by
  rw [PendingRequest.expired?] at h
  split at h
  · next hr =>
    obtain rfl := Option.some.inj h
    refine ⟨rfl, rfl, rfl, ?_⟩
    show r.retries - 1 < r.retries
    rw [UInt32.lt_iff_toNat_lt] at hr ⊢
    rw [UInt32.toNat_sub_of_le _ _ (by rw [UInt32.le_iff_toNat_le]; exact hr)]
    exact Nat.sub_lt hr Nat.one_pos
  · cases h

/-- What is found after an operation is one of the requests before, perhaps with
another deadline and fewer retries, or has just been registered. -/
theorem find?_posts {config : SessionConfig} {given : Nat}
    {b b' : PendingTable × List (RequestId × Outcome)} (h : TableOk b.1)
    (hp : Posts config given b b') {id : RequestId} {r' : PendingRequest}
    (hf : b'.1.requests.find? id = some r') :
    (∃ r, b.1.requests.find? id = some r ∧
      (r' = r ∨ r.deadline.isSome = true ∧ r.expired? = some r')) ∨
    (given < id ∧ r'.frame.id = id ∧ r'.deadline = none ∧ r'.retries = config.retries) := by
  cases hp with
  | @registers t d request frame priority key hreq hnew hg =>
    subst hreq
    change (t.requests.put frame.id _).find? id = some r' at hf
    rw [Directory.find?_put] at hf
    split at hf
    · next he =>
      obtain rfl := Option.some.inj hf
      exact Or.inr ⟨he ▸ hg, he, rfl, rfl⟩
    · exact Or.inl ⟨r', hf, Or.inl rfl⟩
  | @resolves t d key reply =>
    exact Or.inl ⟨r', find?_of_resolve hf, Or.inl rfl⟩
  | @withdraws t d j error =>
    exact Or.inl ⟨r', (find?_of_cancel hf).2, Or.inl rfl⟩
  | @expires t d now =>
    dsimp only at hf h ⊢
    rw [PendingTable.find?_expire h.once, Option.bind_eq_some_iff] at hf
    obtain ⟨r, hr, hf⟩ := hf
    split at hf
    -- an overdue request is found as it expires, any other one as it was
    · next ho => exact Or.inl ⟨r, hr, Or.inr ⟨PendingTable.deadline_of_isOverdue ho, hf⟩⟩
    · exact Or.inl ⟨r, hr, Or.inl (Option.some.inj hf).symm⟩
  | fails error => cases hf

theorem tableOk_posts {config : SessionConfig} {given : Nat}
    {b b' : PendingTable × List (RequestId × Outcome)} (h : TableOk b.1)
    (hp : Posts config given b b') : TableOk b'.1 := by
  refine ⟨?_, fun id r' hf => ?_, ?_⟩
  -- the numbers: whoever is registered was not before, and whoever ends is taken out
  · cases hp with
    | registers frame priority key hreq hnew =>
      subst hreq
      rw [(PendingTable.keys_insert hnew).2, List.nodup_append]
      refine ⟨h.once, List.pairwise_singleton _ _, fun a ha b hb => ?_⟩
      rw [List.mem_singleton] at hb
      rintro rfl
      exact hnew (hb ▸ ha)
    | resolves key reply => exact (PendingTable.settles_resolve h.once key reply).nodup h.once
    | withdraws id error => exact (PendingTable.settles_cancel h.once id error).nodup h.once
    | expires now => exact (PendingTable.settles_expire h.once now).nodup h.once
    | fails error => exact (PendingTable.settles_failAll error).nodup h.once
  -- the frames: what is found was there before, perhaps overdue, or is new
  · rcases find?_posts h hp hf with ⟨r, hr, rfl | ⟨_, he⟩⟩ | ⟨_, hid, _⟩
    · exact h.framed id r' hr
    · rw [(expired?_spec he).1]
      exact h.framed id r hr
    · exact hid
  -- the lines: every operation keeps them right
  · cases hp with
    | registers frame priority key hreq hnew =>
      subst hreq
      exact PendingTable.lined_insert h.lined hnew
    | resolves key reply => exact PendingTable.lined_resolve h.lined key reply
    | withdraws id error => exact PendingTable.lined_cancel h.lined id error
    | expires now => exact PendingTable.lined_expire h.lined now
    | fails error => exact PendingTable.lined_empty

theorem tableOk_posted {config : SessionConfig} {given : Nat}
    {b b' : PendingTable × List (RequestId × Outcome)} (h : TableOk b.1)
    (hp : Posted config given b b') : TableOk b'.1 := by
  induction hp with
  | refl => exact h
  | tail _ hp ih => exact tableOk_posts ih hp

/-- A request that was registered before keeps its key. -/
theorem key_posted {config : SessionConfig} {given : Nat}
    {b b' : PendingTable × List (RequestId × Outcome)} (h : TableOk b.1)
    (hp : Posted config given b b') {id : RequestId} {r' : PendingRequest} (hid : id ≤ given)
    (hf : b'.1.requests.find? id = some r') :
    ∃ r, b.1.requests.find? id = some r ∧ r.key = r'.key := by
  induction hp generalizing r' with
  | refl => exact ⟨r', hf, rfl⟩
  | tail hv hp ih =>
    rcases find?_posts (tableOk_posted h hv) hp hf with ⟨r, hr, rfl | ⟨_, he⟩⟩ | ⟨hnew, _⟩
    · exact ih hr
    · obtain ⟨r₀, hr₀, hk⟩ := ih hr
      exact ⟨r₀, hr₀, hk.trans (expired?_spec he).2.1.symm⟩
    -- what was just registered bears a number that was not given out before
    · exact absurd hid (Nat.not_le.mpr hnew)

/-- What is found after a frame was noted as written. -/
theorem find?_markWritten {t : PendingTable} {j id : RequestId} {now timeout : Nat}
    {r' : PendingRequest} (hf : (t.markWritten j now timeout).2.2.requests.find? id = some r') :
    ∃ r, t.requests.find? id = some r ∧
      ((j ≠ id ∧ r' = r) ∨
        (j = id ∧ r.key.isSome = true ∧
          r' = { r with attempts := r.attempts + 1, deadline := some (now + timeout) })) := by
  rw [PendingTable.markWritten] at hf
  split at hf
  · next hnone =>
    refine ⟨r', hf, Or.inl ⟨?_, rfl⟩⟩
    rintro rfl
    rw [hnone] at hf
    cases hf
  · next r hr =>
    split at hf
    · next hkey =>
      dsimp only at hf
      rw [Directory.find?_put] at hf
      split at hf
      · next he =>
        subst he
        exact ⟨r, hr, Or.inr ⟨rfl, by rw [hkey]; rfl, (Option.some.inj hf).symm⟩⟩
      · next hne => exact ⟨r', hf, Or.inl ⟨hne, rfl⟩⟩
    -- a request that expects no answer has ended, so another one is found
    · dsimp only at hf
      rw [Directory.find?_erase] at hf
      split at hf
      · cases hf
      · next hne => exact ⟨r', hf, Or.inl ⟨hne, rfl⟩⟩

theorem tableOk_markWritten {t : PendingTable} (h : TableOk t) (id : RequestId)
    (now timeout : Nat) : TableOk (t.markWritten id now timeout).2.2 where
  once := (PendingTable.settles_markWritten h.once id now timeout).nodup h.once
  framed := fun j r' hf => by
    obtain ⟨r, hr, ⟨_, rfl⟩ | ⟨_, _, rfl⟩⟩ := find?_markWritten hf
    · exact h.framed j r' hr
    · exact h.framed j r hr
  lined := PendingTable.lined_markWritten h.lined id now timeout

/-- **The table is right in every history.** -/
theorem tableOk_of_history {config : SessionConfig} {link : Link} {s : Session}
    {past : List (Session × Occurrence)} (h : History (fresh config link) past s) :
    TableOk s.pending := by
  induction h with
  | nil => exact tableOk_empty
  | cons h ho ih =>
    rcases posted_happens (ledger_of_history h) ho with ⟨_, _, frame, _, _, _, hp⟩ | ⟨_, hp⟩
    · obtain ⟨hp, _⟩ := Prod.mk.inj hp
      rw [hp]
      exact tableOk_markWritten ih frame.id _ _
    · exact tableOk_posted ih hp

end Session

end ZoneBus
