import ZoneBus.Proofs.Session.Accounts

/-!
# Retries

The retries of a request are counted in three places: an expiry takes one away and the
deadline with it, the queue holds a copy that may be dropped, and noting a written frame
sets the next deadline.  Different tasks do these, in any order and for more than one
run, and still the counts agree in every history.

## Main results

* `Session.extends_or_sheds`, `link_of_begun` — what is on a trail was pushed, and was
  sent.
* `Session.accounted_deed` — whatever happens keeps the account of every request.
* `Session.written_within_retries` — **how often a request is written, and when it is
  given up.**
-/

namespace ZoneBus

namespace Session

/-! ### What is on a trail -/

/-- **Nothing that happens both pushes and pops**, so what the queue has beyond before is
what was pushed. -/
theorem extends_or_sheds {s s' : Session} {o : Occurrence} (hn : s.runs.keys.Nodup)
    (h : Happens s o s') :
    (∃ items, s.queue.Extends s'.queue items) ∨ s.queue.Sheds s'.queue := by
  cases deed_of_happens h with
  | notes hr hph => exact Or.inr (.refl _)
  | writes link lifecycleLock hw _ =>
    rcases writes_cases hn hw with ⟨_, _, _, _, rfl, _⟩ | ⟨_, hr⟩
    · exact Or.inr (.refl _)
    · exact Or.inr hr.queue
  | looks next hr hph => exact Or.inl s.exists_extends_scan
  | minor _ hm => exact Or.inl (extends_of_minors hm)
  | governs link hun _ hg => exact Or.inr (recedes_governs hg).queue

/-- A writer that begins to write a frame asks the link to send its bytes. -/
theorem link_of_begun {s s' : Session} {r : RunId} {frame : OutboundFrame}
    (hb : s.begun? (.move (.writer r)) = some frame) (h : Happens s (.move (.writer r)) s') :
    s'.link = (s.link.begin (.send frame.bytes)).2 := by
  obtain ⟨run, hr, hb⟩ := Option.bind_eq_some_iff.mp hb
  obtain ⟨hm⟩ := h
  rw [moves, hr] at hm
  have hway := writerWay_of_mem hm
  split at hb
  · next hph =>
    rw [hph] at hway
    split at hb
    · next hc =>
      obtain rfl := Option.some.inj hb
      cases hway with
      | begins => rfl
      | skips hnot => exact absurd hc (Bool.eq_false_iff.mp hnot)
    · cases hb
  · cases hb

/-! ### The account is kept -/

/-- Where nothing is noted, begun or looked at, only pushes come on the trail. -/
theorem after_of_unmarked {s s' : Session} {o : Occurrence} (h : s.Unmarked o s') (t : Trail)
    (id : RequestId) : t.after id s o s' =
      { t with pushed := framesOf id (s.queue.added s'.queue) ++ t.pushed } := by
  obtain ⟨hmarked, hbegun, hlooked⟩ := h
  unfold Trail.after
  rw [hmarked, hbegun, hlooked]
  rfl

/-- **Whatever happens keeps the account of every request.** -/
theorem accounted_deed {s s' : Session} {o : Occurrence} {t : Trail} {id : RequestId}
    (hs : s.Sound) (h : Accounted t id s) (hd : Deed s o s') :
    Accounted (t.after id s o s') id s' := by
  cases hd with
  | @notes r run frame hr hph =>
    have hafter : t.after id s (.move (.writer r)) ((s.noteWritten frame).1.setWriter r .popping) =
        noted t id frame s := by
      have hmarked : s.marked? (.move (.writer r)) = some (r, frame) := by
        rw [marked?, hr, Option.bind_some, hph]
      have hbegun : s.begun? (.move (.writer r)) = none := by
        rw [begun?, hr, Option.bind_some, hph]
      unfold Trail.after
      rw [hmarked, hbegun]
      show Trail.mk (framesOf id (s.queue.added s.queue) ++ _) _ _ _ = _
      rw [SendQueue.added_self]
      rfl
    rw [hafter]
    exact accounted_notes hs h hr hph
  | @writes v r link lifecycleLock hw _ =>
    obtain ⟨hsheds, hacc⟩ := accounted_writes hs h hw
    have hafter : t.after id s (.move (.writer r)) { v with link, lifecycleLock } =
        { t with begun := copiesOf (s.begun? (.move (.writer r))).toList id ++ t.begun } := by
      unfold Trail.after
      rw [marked?_of_writes hw]
      show Trail.mk (framesOf id (s.queue.added v.queue) ++ _) _ _ _ = _
      rw [hsheds.added]
      rfl
    rw [hafter]
    exact hacc.recedes (.of_eq rfl (Nat.le_refl _) rfl rfl rfl rfl rfl)
  | @looks r run next hr hph =>
    have hlooked : s.expiries (.move (.scanner r))
        (s.scan.modifyRun r fun run => { run with nextScan := next run }) =
          (s.pending.expire s.now).results := by
      rw [expiries, find?_modifyRun, if_pos rfl, runs_scan, hr]
      exact if_pos (congrArg some hph)
    have hafter : t.after id s (.move (.scanner r))
        (s.scan.modifyRun r fun run => { run with nextScan := next run }) =
          looked t id (s.queue.added s.scan.queue) s := by
      unfold Trail.after
      rw [hlooked]
      rfl
    rw [hafter]
    exact (accounted_scan hs h).recedes (.modifyRun _ _ fun _ => Or.inl rfl)
  | minor hun hm =>
    rw [after_of_unmarked hun]
    exact accounted_minors hs h hm
  | governs link hun _ hg =>
    have hr := recedes_governs hg
    have hlink : Recedes s { s with link := link } :=
      .of_eq rfl (Nat.le_refl _) rfl rfl rfl rfl rfl
    rw [after_of_unmarked hun, hr.queue.added]
    exact h.recedes (hlink.trans hr)

/-- Runs keep their different numbers. -/
theorem nodup_runs_deed {s s' : Session} {o : Occurrence} (hn : s.runs.keys.Nodup)
    (hd : Deed s o s') : s'.runs.keys.Nodup := by
  cases hd with
  | notes hr hph =>
    rw [keys_setWriter]
    exact hn
  | writes link lifecycleLock hw _ =>
    rcases writes_cases hn hw with ⟨_, _, runs, _, rfl, hk, _⟩ | ⟨_, hr⟩
    · show runs.keys.Nodup
      rw [hk]
      exact hn
    · exact hr.runs hn
  | @looks r run next hr hph =>
    show (s.scan.runs.modify r _).keys.Nodup
    rw [Directory.keys_modify, runs_scan]
    exact hn
  | minor hun hm =>
    clear hun
    induction hm with
    | refl => exact hn
    | tail _ hm ih => exact nodup_runs_minor hm ih
  | governs link hun _ hg => exact (recedes_governs hg).runs hn

theorem sound_of_history {config : SessionConfig} {link : Link} {s : Session}
    {past : List (Session × Occurrence)} (h : History (fresh config link) past s) : s.Sound where
  ledger := ledger_of_history h
  table := tableOk_of_history h
  known := known_of_history h
  runs := by
    refine h.invariant (P := fun v => v.runs.keys.Nodup) (fun ho hn => ?_) List.nodup_nil
    exact nodup_runs_deed hn (deed_of_happens ho)

/-- **Every number has an account in every history.** -/
theorem accounted_of_history {config : SessionConfig} {link : Link} {s : Session}
    {past : List (Session × Occurrence)} (h : History (fresh config link) past s)
    (id : RequestId) : Accounted (trail id past s) id s := by
  induction h with
  | nil =>
    refine ⟨⟨id, ⟨.external, .external, .handshake .data⟩, []⟩, .low, rfl, ?_⟩
    exact {
      pushed := fun _ he => by cases he
      begun := fun _ hf => by cases hf
      written := fun _ he => by cases he
      resent := fun _ he => by cases he
      same := fun _ hf => by rcases hf with hf | hf <;> cases hf
      ahead := Nat.le_refl _
      inFlight := Nat.le_refl _
      spent := Nat.zero_le _
      retries := Nat.zero_le _
      keyless := fun _ => rfl
      unborn := fun _ => ⟨rfl, rfl⟩
      registered := fun _ hf => by cases hf
      timedOut := fun ht => by
        obtain ⟨_, hm⟩ := ht
        cases hm }
  | cons h ho ih => exact accounted_deed (sound_of_history h) ih (deed_of_happens ho)

/-! ### How often, and when -/

/-- Whoever was ever registered was pushed, with the same bytes and priority, and is
registered with the key of its message. -/
theorem pushed_of_registered {config : SessionConfig} {link : Link} {s : Session}
    {past : List (Session × Occurrence)} (h : History (fresh config link) past s)
    {id : RequestId} {v : Session} (hv : v ∈ s :: past.map Prod.fst) {r : PendingRequest}
    (hf : v.pending.requests.find? id = some r) :
    (r.priority, r.frame) ∈ (trail id past s).pushed ∧ r.key = r.frame.key? := by
  -- an account says so of the present session
  have now : ∀ {past : List (Session × Occurrence)} {s : Session},
      History (fresh config link) past s → s.pending.requests.find? id = some r →
      (r.priority, r.frame) ∈ (trail id past s).pushed ∧ r.key = r.frame.key? := by
    intro past s h hf
    obtain ⟨frame, priority, rfl, hacc⟩ := accounted_of_history h id
    have fit := hacc.registered r hf
    obtain ⟨e, he⟩ : ∃ e, e ∈ (trail frame.id past s).pushed := by
      refine List.exists_mem_of_length_pos ?_
      rw [fit.pushed]
      exact Nat.succ_pos _
    rw [fit.sameFrame, fit.samePriority, fit.sameKey]
    exact ⟨hacc.pushed e he ▸ he, rfl⟩
  induction h with
  | nil =>
    obtain rfl := List.mem_singleton.mp hv
    exact now (.nil _) hf
  | @cons w w' past o h ho ih =>
    rcases List.mem_cons.mp hv with rfl | hv
    · exact now (.cons h ho) hf
    · obtain ⟨hpushed, hkey⟩ := ih hv
      exact ⟨List.mem_append_right _ hpushed, hkey⟩

/-- What an expiry acts on was written, and long enough before. -/
theorem Account.longWritten {t : Trail} {frame : OutboundFrame} {priority : Priority}
    {s : Session} (h : Account t frame priority s) (ht : TableOk s.pending) {now : Instant}
    {e : Expiry} (he : e ∈ (s.pending.expire now).results) (hid : e.id = frame.id) :
    t.LongWritten s.config.requestTimeout now := by
  rw [PendingTable.results_expire ht.once, List.mem_filterMap] at he
  obtain ⟨j, hj, he⟩ := he
  obtain ⟨r, hr, hover⟩ := (PendingTable.mem_overdue_iff ht.once).mp hj
  rw [hr, Option.map_some] at he
  have hnumber : e.id = j := by
    rw [← Option.some.inj he, PendingRequest.expiry]
    split
    · exact ht.framed j r hr
    · rfl
  obtain rfl : j = frame.id := hnumber.symm.trans hid
  have fit := h.registered r hr
  obtain ⟨_, hwritten, hearly⟩ := fit.of_overdue hover
  obtain ⟨hwb, hbp⟩ := h.length_le
  have hpushed := fit.pushed
  refine ⟨?_, ?_, hearly⟩
  · rintro hnil
    rw [hnil] at hwritten
    cases hwritten
  · omega

/-- The account of a request bounds its trail. -/
theorem Account.within {t : Trail} {frame : OutboundFrame} {priority : Priority} {s : Session}
    (h : Account t frame priority s) : t.Within s.config.retries.toNat :=
  ⟨h.length_le.1, h.length_le.2, h.spent, h.retries⟩

/-- Whoever timed out used every retry. -/
theorem Account.usesUp {t : Trail} {frame : OutboundFrame} {priority : Priority} {s : Session}
    (h : Account t frame priority s) (ht : s.TimedOut frame.id) :
    t.UsesUp s.config.retries.toNat := by
  obtain ⟨hresent, hwritten⟩ := h.timedOut ht
  obtain ⟨hwb, hbp⟩ := h.length_le
  have hspent := h.spent
  refine ⟨hresent, ?_, ?_, hwritten⟩
  · omega
  · omega

/-- **How often a request is written, and when it is given up.**  In every history, and
for every number, there is one frame and one priority: whatever was pushed, begun,
written or sent once more under that number was that frame, and the request was never
registered, nor stood in line, under another key than that of its message.  It was
written no more often than it was pushed, and pushed once and once more for each retry at
most; without a key there are no retries.  An expiry acts on it when it was written, and
the timeout has passed since.  When it times out, every retry was used, and each time it
was written. -/
theorem written_within_retries {config : SessionConfig} {link : Link} {s : Session}
    {past : List (Session × Occurrence)} (h : History (fresh config link) past s)
    (id : RequestId) :
    ∃ frame priority, frame.id = id ∧
      (trail id past s).Of frame priority ∧
      (∀ v ∈ s :: past.map Prod.fst,
        (∀ r, v.pending.requests.find? id = some r →
          r.frame = frame ∧ r.priority = priority ∧ r.key = frame.key?) ∧
        ∀ key, id ∈ v.pending.line key → frame.key? = some key) ∧
      (trail id past s).Within config.retries.toNat ∧
      (frame.key? = none → (trail id past s).Within 0) ∧
      (∀ now, ∀ e ∈ (s.pending.expire now).results, e.id = id →
        (trail id past s).LongWritten config.requestTimeout now) ∧
      (s.TimedOut id → (trail id past s).UsesUp config.retries.toNat) := by
  obtain ⟨frame, priority, rfl, hacc⟩ := accounted_of_history h id
  have hconfig : s.config = config.sanitized := config_of_history h
  have htable := tableOk_of_history h
  have hretries : s.config.retries = config.retries := by rw [hconfig]; rfl
  have htimeout : s.config.requestTimeout = config.requestTimeout := by rw [hconfig]; rfl
  have hregistered : ∀ v ∈ s :: past.map Prod.fst, ∀ r,
      v.pending.requests.find? frame.id = some r →
        r.frame = frame ∧ r.priority = priority ∧ r.key = frame.key? := by
    intro v hv r hf
    obtain ⟨hpushed, hkey⟩ := pushed_of_registered h hv hf
    obtain ⟨hpriority, hframe⟩ := Prod.mk.inj (hacc.pushed _ hpushed)
    exact ⟨hframe, hpriority, hframe ▸ hkey⟩
  rw [← hretries, ← htimeout]
  refine ⟨frame, priority, rfl, ?_, fun v hv => ⟨hregistered v hv, fun key hline => ?_⟩,
    hacc.within, fun hkey => ?_, fun now e he hid => hacc.longWritten htable he hid, hacc.usesUp⟩
  · exact ⟨hacc.pushed, hacc.begun, fun e he => (hacc.written e he).1, hacc.resent⟩
  · obtain ⟨_, hv'⟩ := h.exists_of_mem hv
    obtain ⟨r, hf, hkey⟩ := (tableOk_of_history hv').lined.registered key frame.id hline
    obtain ⟨_, _, hsame⟩ := hregistered v hv r hf
    exact hsame.symm.trans hkey
  · have hnone := congrArg List.length (hacc.keyless hkey)
    exact { hacc.within with resent := Nat.le_of_eq hnone }

/-- An event is sent to a device that does not answer: it is written, the timeout passes,
it is written once more, and the timeout passes again. -/
def unanswered : List Cue :=
  firstStart ++ [.input (.send (.controllerAt 1) (.event (.plain .root 7 .low)) .low)] ++
    List.replicate 6 (.move (.writer 1) 0) ++ [.input (.pass 500), .move (.scanner 1) 0] ++
    List.replicate 6 (.move (.writer 1) 0) ++ [.input (.pass 1000), .move (.scanner 1) 0]

theorem written_within_retries_unanswered : ∃ past s,
    History (fresh { retries := 1 } (.fresh "" none [])) past s ∧ s.TimedOut 1 ∧
      (trail 1 past s).UsesUp 1 ∧ (trail 1 past s).Within 1 := by
  obtain ⟨past, s, h, ht⟩ := exists_history (fresh { retries := 1 } (.fresh "" none []))
    unanswered (fun _ s => (1, .failure (.timeout 2)) ∈ s.delivered) (by decide +kernel)
  obtain ⟨_, _, _, _, _, hwithin, _, _, hspent⟩ := written_within_retries h 1
  exact ⟨past, s, h, ⟨2, ht⟩, hspent ⟨2, ht⟩, hwithin⟩

end Session

end ZoneBus
