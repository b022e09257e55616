import ZoneBus.Proofs.Session.Frames

/-!
# Answers to requests that were never written

Requests stand in line in the order in which they were registered, and urgent
frames overtake the others on their way out.  An answer ends the request at the
front of its line whether or not that one has been written.  So a request can be
reported as answered before its frame went out, and then the writer drops the
frame: it never goes out at all.

Whether the request at the front was written can be read off its entry: it was,
exactly when it has a deadline or has used up a retry.

## Main definitions

* `Session.Written` — the frame of a request was noted as written.
* `PendingRequest.wasWritten` — what its entry says.

## Main results

* `Session.written_iff_of_history` — the entry of a request tells whether it was
  written.
* `Session.answered_unwritten_iff` — **when an answer ends a request that was never
  written.**
* `Session.exists_answered_unwritten` — it happens.
-/

namespace ZoneBus

/-- A request has a deadline, or has used up a retry. -/
def PendingRequest.wasWritten (r : PendingRequest) (config : SessionConfig) : Prop :=
  r.deadline.isSome = true ∨ r.retries ≠ config.retries

namespace Session

/-- At some time the frame of a request was noted as written. -/
def Written (past : List (Session × Occurrence)) (id : RequestId) : Prop :=
  ∃ v o r frame, (v, o) ∈ past ∧ v.marked? o = some (r, frame) ∧ frame.id = id

theorem written_cons {past : List (Session × Occurrence)} {s : Session} {o : Occurrence}
    {id : RequestId} : Written ((s, o) :: past) id ↔
      (∃ r frame, s.marked? o = some (r, frame) ∧ frame.id = id) ∨ Written past id := by
  constructor
  · rintro ⟨v, o', r, frame, hm, hmark, hid⟩
    rcases List.mem_cons.mp hm with he | hm
    · obtain ⟨rfl, rfl⟩ := Prod.mk.inj he
      exact Or.inl ⟨r, frame, hmark, hid⟩
    · exact Or.inr ⟨v, o', r, frame, hm, hmark, hid⟩
  · rintro (⟨r, frame, hmark, hid⟩ | ⟨v, o', r, frame, hm, hmark, hid⟩)
    · exact ⟨s, o, r, frame, List.mem_cons_self, hmark, hid⟩
    · exact ⟨v, o', r, frame, List.mem_cons_of_mem _ hm, hmark, hid⟩

/-- Whether a move noted the frame of a request. -/
def marks (id : RequestId) (e : Session × Occurrence) : Bool :=
  match e.1.marked? e.2 with
  | some (_, frame) => decide (frame.id = id)
  | none => false

theorem written_iff_any {past : List (Session × Occurrence)} {id : RequestId} :
    past.any (marks id) = true ↔ Written past id := by
  rw [List.any_eq_true]
  constructor
  · rintro ⟨⟨v, o⟩, hm, hmark⟩
    rw [marks] at hmark
    split at hmark
    · next r frame he => exact ⟨v, o, r, frame, hm, he, of_decide_eq_true hmark⟩
    · cases hmark
  · rintro ⟨v, o, r, frame, hm, he, hid⟩
    refine ⟨(v, o), hm, ?_⟩
    rw [marks]
    dsimp only
    rw [he]
    exact decide_eq_true hid

instance (past : List (Session × Occurrence)) (id : RequestId) : Decidable (Written past id) :=
  decidable_of_iff _ written_iff_any

/-- Some requests were written: their entries say so, and those of the others do not. -/
def Notes (config : SessionConfig) (written : RequestId → Prop) (t : PendingTable) : Prop :=
  ∀ id r, t.requests.find? id = some r →
    r.retries ≤ config.retries ∧ (written id ↔ r.wasWritten config)

/-- The operations of the table leave the entries right: what is registered was not
written, and what is overdue was. -/
theorem notes_posts {config : SessionConfig} {given : Nat} {written : RequestId → Prop}
    {b b' : PendingTable × List (RequestId × Outcome)} (hold : ∀ id, written id → id ≤ given)
    (ht : TableOk b.1) (hn : Notes config written b.1) (hp : Posts config given b b') :
    Notes config written b'.1 := by
  intro id r' hf
  rcases find?_posts ht hp hf with ⟨r, hr, rfl | ⟨hd, he⟩⟩ | ⟨hnew, _, hdead, hret⟩
  · exact hn id r' hr
  · obtain ⟨hle, hiff⟩ := hn id r hr
    obtain ⟨_, _, _, hlt⟩ := expired?_spec he
    have hless : r'.retries < config.retries := UInt32.lt_of_lt_of_le hlt hle
    refine ⟨UInt32.le_of_lt hless, ?_⟩
    -- it was overdue, so it was written; a retry is gone, so its entry still says so
    exact iff_of_true (hiff.mpr (Or.inl hd)) (Or.inr (UInt32.ne_of_lt hless))
  -- it was just registered: nothing under its number was written, nor does it say so
  · refine ⟨UInt32.le_of_eq hret, iff_of_false (fun hw => ?_) ?_⟩
    · exact absurd (hold id hw) (Nat.not_le.mpr hnew)
    · rintro (hd | hr)
      · rw [hdead] at hd; cases hd
      · exact hr hret

theorem notes_posted {config : SessionConfig} {given : Nat} {written : RequestId → Prop}
    {b b' : PendingTable × List (RequestId × Outcome)} (hold : ∀ id, written id → id ≤ given)
    (ht : TableOk b.1) (hn : Notes config written b.1) (hp : Posted config given b b') :
    Notes config written b'.1 := by
  induction hp with
  | refl => exact hn
  | tail hv hp ih => exact notes_posts hold (tableOk_posted ht hv) ih hp

/-- Numbers of written requests were given out, and the entries of registered ones
tell which were written. -/
theorem noted_of_history {config : SessionConfig} {link : Link} {s : Session}
    {past : List (Session × Occurrence)} (h : History (fresh config link) past s) :
    (∀ id, Written past id → id ≤ s.requestIds.given) ∧
      Notes s.config (Written past) s.pending := by
  induction h with
  | nil =>
    refine ⟨?_, fun _ _ hf => by cases hf⟩
    rintro id ⟨_, _, _, _, hm, _⟩
    cases hm
  | @cons s s' past o h ho ih =>
    obtain ⟨hold, hnotes⟩ := ih
    have hgiven := (keepsBooks_happens ho).2.1
    rw [config_happens ho]
    rcases posted_happens (ledger_of_history h) ho with
      ⟨r, run, frame, hmark, hr, hph, hp⟩ | ⟨hmark, hp⟩
    · -- one more request was written: the one whose frame is noted
      have hone : ∀ id, Written ((s, o) :: past) id ↔ frame.id = id ∨ Written past id := by
        intro id
        rw [written_cons, hmark]
        refine or_congr_left ⟨?_, fun hid => ⟨r, frame, rfl, hid⟩⟩
        rintro ⟨_, _, he, hid⟩
        obtain ⟨_, rfl⟩ := Prod.mk.inj (Option.some.inj he)
        exact hid
      refine ⟨fun id hw => ?_, fun id r' hf => ?_⟩
      · rcases (hone id).mp hw with rfl | hw
        · have hhand : s.Underway frame := Or.inr ⟨r, run, hr, by rw [hph]; rfl⟩
          exact Nat.le_trans (known_of_history h frame hhand) hgiven
        · exact Nat.le_trans (hold id hw) hgiven
      · obtain ⟨hp, _⟩ := Prod.mk.inj hp
        rw [hp] at hf
        rw [hone]
        obtain ⟨r₀, hr₀, ⟨hne, rfl⟩ | ⟨rfl, _, rfl⟩⟩ := find?_markWritten hf
        · obtain ⟨hle, hiff⟩ := hnotes id r' hr₀
          exact ⟨hle, by rw [or_iff_right hne, hiff]⟩
        · exact ⟨(hnotes _ r₀ hr₀).1, iff_of_true (Or.inl rfl) (Or.inl rfl)⟩
    · have hsame : ∀ id, Written ((s, o) :: past) id ↔ Written past id := by
        intro id
        rw [written_cons, hmark]
        refine or_iff_right ?_
        rintro ⟨_, _, he, _⟩
        cases he
      refine ⟨fun id hw => Nat.le_trans (hold id ((hsame id).mp hw)) hgiven, fun id r' hf => ?_⟩
      rw [hsame]
      exact notes_posted hold (tableOk_of_history h) hnotes hp id r' hf

/-- **The entry of a request tells whether it was written.** -/
theorem written_iff_of_history {config : SessionConfig} {link : Link} {s : Session}
    {past : List (Session × Occurrence)} (h : History (fresh config link) past s)
    {id : RequestId} {r : PendingRequest} (hf : s.pending.requests.find? id = some r) :
    Written past id ↔ r.wasWritten s.config :=
  ((noted_of_history h).2 id r hf).2

theorem mem_keys_of_open {s : Session} {id : RequestId} (h : s.Open id) :
    ∃ r, s.pending.requests.find? id = some r :=
  Option.isSome_iff_exists.mp
    (Directory.mem_keys_iff.mp (Directory.contains_iff_mem_keys.mp h.1))

/-- An answer ends the request at the front of its line, whatever its entry says. -/
theorem ended_of_front {s : Session} (hl : s.Ledger) (ht : TableOk s.pending) {key : ReplyKey}
    {id : RequestId} (hfront : (s.pending.line key).head? = some id) (reply : Reply) :
    (s.resolve key reply).EndedWith id (.success reply) := by
  obtain ⟨rest, hline⟩ := List.head?_eq_some_iff.mp hfront
  refine ((keepsBooks_resolve s key reply).1 hl).endedWith_of_mem ?_
  show (id, .success reply) ∈ s.delivered ++ outcomesOf (s.pending.resolve key reply).2.1
  rw [PendingTable.resolve_of_front ht.lined hline]
  exact List.mem_append_right _ (List.mem_singleton_self _)

/-- A success is told of when an answer ends a request, which then expects it. -/
theorem key_of_answered {config : SessionConfig} {given : Nat} {id : RequestId} {reply : Reply}
    {b b' : PendingTable × List (RequestId × Outcome)} (ht : TableOk b.1)
    (hp : Posts config given b b') (hm : (id, .success reply) ∈ b'.2) :
    (id, .success reply) ∈ b.2 ∨
      ∃ r key, b.1.requests.find? id = some r ∧ r.key = some key := by
  -- an operation that tells of failures only adds no success
  have failed : ∀ {d : List (RequestId × Outcome)} {settled : List Settled},
      PendingTable.Fails settled → (id, .success reply) ∈ d ++ outcomesOf settled →
      (id, .success reply) ∈ d := by
    intro d settled hfails hm
    refine (List.mem_append.mp hm).resolve_right fun hm => ?_
    obtain ⟨error, he⟩ := hfails _ _ hm
    cases he
  cases hp with
  | registers frame priority key hreq hnew _ =>
    subst hreq
    dsimp only at hm
    rw [(PendingTable.keys_insert hnew).1, outcomesOf, List.filterMap_nil, List.append_nil] at hm
    exact Or.inl hm
  | @resolves t d key answer =>
    dsimp only at hm ht ⊢
    cases hline : t.line key with
    | nil =>
      rw [(PendingTable.resolve_of_empty hline answer).1, outcomesOf, List.filterMap_nil,
        List.append_nil] at hm
      exact Or.inl hm
    | cons j rest =>
      rw [PendingTable.resolve_of_front ht.lined hline, outcomesOf_single, List.mem_append,
        List.mem_singleton] at hm
      refine hm.imp_right fun he => ?_
      obtain ⟨rfl, _⟩ := Prod.mk.inj he
      obtain ⟨r, hr, hk⟩ := ht.lined.registered key id (by rw [hline]; exact List.mem_cons_self)
      exact ⟨r, key, hr, hk⟩
  | withdraws j error => exact Or.inl (failed (PendingTable.fails_cancel _ j error) hm)
  | expires now => exact Or.inl (failed (PendingTable.fails_expire _ now) hm)
  | fails error => exact Or.inl (failed (PendingTable.fails_failAll _ error) hm)

theorem key_of_posted {config : SessionConfig} {given : Nat} {id : RequestId} {reply : Reply}
    {b b' : PendingTable × List (RequestId × Outcome)} (ht : TableOk b.1) (hid : id ≤ given)
    (hp : Posted config given b b') (hm : (id, .success reply) ∈ b'.2) :
    (id, .success reply) ∈ b.2 ∨
      ∃ r key, b.1.requests.find? id = some r ∧ r.key = some key := by
  induction hp with
  | refl => exact Or.inl hm
  | tail hv hp ih =>
    rcases key_of_answered (tableOk_posted ht hv) hp hm with hm | ⟨r', key, hr', hk'⟩
    · exact ih hm
    · obtain ⟨r, hr, hk⟩ := key_posted ht hv hid hr'
      exact Or.inr ⟨r, key, hr, hk.trans hk'⟩

theorem mem_delivered_iff {s : Session} {id : RequestId} {outcome : Outcome} :
    (id, outcome) ∈ s.delivered ↔ outcome ∈ s.outcomes id := by
  rw [outcomes, List.mem_map]
  constructor
  · exact fun hm => ⟨(id, outcome), List.mem_filter.mpr ⟨hm, beq_self_eq_true id⟩, rfl⟩
  · rintro ⟨⟨j, _⟩, hm, rfl⟩
    rw [List.mem_filter, beq_iff_eq] at hm
    obtain ⟨hm, rfl⟩ := hm
    exact hm

/-- **Whoever is answered waited for an answer.** -/
theorem key_of_ended {config : SessionConfig} {link : Link} {s s' : Session}
    {past : List (Session × Occurrence)} {o : Occurrence} {id : RequestId} {reply : Reply}
    (h : History (fresh config link) past s) (ho : Happens s o s') (hopen : s.Open id)
    (hend : s'.EndedWith id (.success reply)) (hreply : reply ≠ .sent) :
    ∃ r key, s.pending.requests.find? id = some r ∧ r.key = some key := by
  obtain ⟨r, hr⟩ := mem_keys_of_open hopen
  have hl := ledger_of_history h
  have hm : (id, .success reply) ∈ s'.delivered :=
    mem_delivered_iff.mpr (by rw [hend.2]; exact List.mem_singleton_self _)
  have hnot : (id, .success reply) ∉ s.delivered := by
    rw [mem_delivered_iff, hopen.2]
    exact List.not_mem_nil
  rcases posted_happens hl ho with ⟨_, _, frame, _, _, _, hp⟩ | ⟨_, hp⟩
  · -- being written is told of as such
    obtain ⟨_, hd⟩ := Prod.mk.inj hp
    rw [hd, List.mem_append] at hm
    exact absurd (PendingTable.sent_of_markWritten (hm.resolve_left hnot)) hreply
  · exact (key_of_posted (b := s.books) (tableOk_of_history h) (hl.le_of_find? hr).2 hp
      hm).resolve_left hnot

/-- **When an answer ends a request that was never written.**  In every history an
answer ends the request at the front of its line; and wherever a request ends with an
answer, it waited for one, and its frame had never been written exactly when its entry
had no deadline and all its retries. -/
theorem answered_unwritten_iff {config : SessionConfig} {link : Link} {s : Session}
    {past : List (Session × Occurrence)} (h : History (fresh config link) past s) :
    (∀ key reply id, (s.pending.line key).head? = some id →
      (s.resolve key reply).EndedWith id (.success reply) ∧
        ∃ r, s.pending.requests.find? id = some r ∧ r.key = some key ∧
          (¬Written past id ↔ r.deadline = none ∧ r.retries = s.config.retries)) ∧
    (∀ o s' id reply, Happens s o s' → s.Open id → s'.EndedWith id (.success reply) →
      reply ≠ .sent →
        ∃ r key, s.pending.requests.find? id = some r ∧ r.key = some key ∧
          (¬Written past id ↔ r.deadline = none ∧ r.retries = s.config.retries)) := by
  have told : ∀ id r, s.pending.requests.find? id = some r →
      (¬Written past id ↔ r.deadline = none ∧ r.retries = s.config.retries) := by
    intro id r hr
    rw [written_iff_of_history h hr, PendingRequest.wasWritten, not_or,
      Option.not_isSome_iff_eq_none, not_not]
  have ht := tableOk_of_history h
  refine ⟨fun key reply id hfront => ?_, fun o s' id reply ho hopen hend hreply => ?_⟩
  · refine ⟨ended_of_front (ledger_of_history h) ht hfront reply, ?_⟩
    obtain ⟨r, hr, hk⟩ := ht.lined.registered key id (List.mem_of_mem_head? hfront)
    exact ⟨r, hr, hk, told id r hr⟩
  · obtain ⟨r, key, hr, hk⟩ := key_of_ended h ho hopen hend hreply
    exact ⟨r, key, hr, hk, told id r hr⟩

/-- The far end acknowledges one event. -/
def acknowledgement : Bytes :=
  match (Envelope.mk .external (.controllerAt 1) (.handshake .command)).encode with
  | .ok bytes => bytes
  | .error _ => []

/-- Two events are sent to one device; the urgent one is written, the device
acknowledges it, and the reader has the acknowledgement. -/
def overtaken : List Cue :=
  firstStart ++
    [.input (.send (.controllerAt 1) (.event (.plain .root 7 .low)) .low),
      .input (.send (.controllerAt 1) (.event (.plain .root 8 .high)) .high)] ++
    List.replicate 6 (.move (.writer 1) 0) ++
    [.input (.farEnd { Line.fresh none with inbound := [.data acknowledgement] } [])] ++
    List.replicate 4 (.move (.reader 1) 0)

theorem overtaken_spec : ∃ past s s' notices,
    History (fresh {} (.fresh "" none [])) past s ∧ (s', notices) ∈ s.moves (.reader 1) ∧
      s.Open 1 ∧ s'.EndedWith 1 (.success (.ack .command)) ∧ ¬Written past 1 ∧
      (s.pending.requests.find? 1).map (fun r => r.frame.envelope) =
        some ⟨.controllerAt 1, .external, .event (.plain .root 7 .low)⟩ := by
  obtain ⟨past, s, h, ⟨m, hm, hend⟩, hopen, hnot, hsent⟩ := exists_history
    (fresh {} (.fresh "" none [])) overtaken
    (fun past s =>
      (∃ m ∈ s.moves (.reader 1), m.1.EndedWith 1 (.success (.ack .command))) ∧
        s.Open 1 ∧ ¬Written past 1 ∧
        (s.pending.requests.find? 1).map (fun r => r.frame.envelope) =
          some ⟨.controllerAt 1, .external, .event (.plain .root 7 .low)⟩)
    (by decide +kernel)
  exact ⟨past, s, m.1, m.2, h, hm, hopen, hend, hnot, hsent⟩

/-- The acknowledgement of the urgent event ends the other one, which was never
written. -/
theorem exists_answered_unwritten : ∃ past s o s',
    History (fresh {} (.fresh "" none [])) past s ∧ Happens s o s' ∧ s.Open 1 ∧
      (s.pending.requests.find? 1).map (fun r => r.frame.envelope) =
        some ⟨.controllerAt 1, .external, .event (.plain .root 7 .low)⟩ ∧
      s'.EndedWith 1 (.success (.ack .command)) ∧ ¬Written past 1 := by
  obtain ⟨past, s, s', notices, h, hm, hopen, hend, hnot, hsent⟩ := overtaken_spec
  exact ⟨past, s, .move (.reader 1), s', h, .move hm, hopen, hsent, hend, hnot⟩

theorem answered_unwritten_iff_overtaken : ∃ past s o s' r key,
    History (fresh {} (.fresh "" none [])) past s ∧ Happens s o s' ∧
      s'.EndedWith 1 (.success (.ack .command)) ∧ s.pending.requests.find? 1 = some r ∧
      r.key = some key ∧ r.deadline = none ∧ r.retries = s.config.retries := by
  obtain ⟨past, s, s', notices, h, hm, hopen, hend, hnot, _⟩ := overtaken_spec
  obtain ⟨r, key, hr, hk, hiff⟩ :=
    (answered_unwritten_iff h).2 _ s' 1 _ (.move hm) hopen hend (by simp)
  exact ⟨past, s, .move (.reader 1), s', r, key, h, .move hm, hend, hr, hk, hiff.mp hnot⟩

end Session

end ZoneBus
