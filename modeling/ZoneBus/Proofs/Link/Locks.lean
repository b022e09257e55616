import ZoneBus.Proofs.Directory.Keys
import ZoneBus.Proofs.Link.CallMoves

/-!
# Who stands in turn for the locks of a link

Each lock has a line of calls, and the first in it holds the lock.  A call stands in
the line of a lock exactly in the phases in which it waits for the lock or needs it,
and only once; a call that has come to a phase that needs the lock stands first.

## Main definitions

* `LinkPhase.queuesReader`, `queuesWriter` — the phases that stand in a line.
* `LinkPhase.ownsReader`, `ownsWriter` — the phases that need the lock held.
* `Link.InLine` — a line fits the phases of the calls.
* `Link.Locked` — both lines do, and calls bear numbers that were given out.

## Main results

* `Link.locked_of_history` — the lines fit in every history.
* `Link.InLine.only` — the only call in such a phase stands alone in the line.
-/

namespace ZoneBus

/-! ### Phases -/

/-- Whether a call stands in the line of the reading lock. -/
def LinkPhase.queuesReader : LinkPhase → Bool
  | .openReader | .openWriter | .connecting | .closeReader | .receiveTurn _ | .reading _ => true
  | _ => false

/-- Whether a call stands in the line of the writing lock. -/
def LinkPhase.queuesWriter : LinkPhase → Bool
  | .openWriter | .connecting | .closeWriter | .shuttingDown | .sendTurn _ | .writing _ => true
  | _ => false

/-- Whether a call has come to hold the reading lock. -/
def LinkPhase.ownsReader : LinkPhase → Bool
  | .openWriter | .connecting | .reading _ => true
  | _ => false

/-- Whether a call has come to hold the writing lock. -/
def LinkPhase.ownsWriter : LinkPhase → Bool
  | .connecting | .shuttingDown | .writing _ => true
  | _ => false

namespace Link

/-! ### One line -/

/-- A line fits the phases of the calls: whoever is in such a phase stands in it, once,
and whoever has come to hold the lock stands first. -/
structure InLine (queues owns : LinkPhase → Bool) (line : List CallId)
    (calls : Directory CallId LinkPhase) : Prop where
  /-- Those in the line are the calls in such a phase. -/
  mem_iff : ∀ c, c ∈ line ↔ ∃ phase, calls.find? c = some phase ∧ queues phase = true
  /-- Nobody stands there twice. -/
  nodup : line.Nodup
  /-- Whoever has come to hold the lock stands first. -/
  first : ∀ c phase, calls.find? c = some phase → owns phase = true → line.head? = some c

namespace InLine

variable {queues owns : LinkPhase → Bool} {line : List CallId}
  {calls : Directory CallId LinkPhase} {c : CallId} {phase phase' : LinkPhase}

theorem head?_filter {d : CallId} (hne : c ≠ d) (h : line.head? = some d) :
    (line.filter fun i => decide (i ≠ c)).head? = some d := by
  cases line with
  | nil => cases h
  | cons i rest =>
    obtain rfl := Option.some.inj h
    rw [List.filter_cons_of_pos (by simpa using Ne.symm hne)]
    rfl

/-- A call leaves, and ends. -/
theorem erase (h : InLine queues owns line calls) (c : CallId) :
    InLine queues owns (line.filter fun i => decide (i ≠ c)) (calls.erase c) where
  mem_iff := fun d => by
    rw [List.mem_filter, h.mem_iff, Directory.find?_erase]
    by_cases hd : c = d
    · subst hd
      simp
    · rw [if_neg hd]
      simp [Ne.symm hd]
  nodup := h.nodup.filter _
  first := fun d phase hf ho => by
    rw [Directory.find?_erase] at hf
    split at hf
    · cases hf
    · next hne => exact head?_filter hne (h.first d phase hf ho)

/-- A call leaves, and goes on. -/
theorem leave (h : InLine queues owns line calls) (hq : queues phase' = false)
    (ho : owns phase' = false) :
    InLine queues owns (line.filter fun i => decide (i ≠ c)) (calls.put c phase') where
  mem_iff := fun d => by
    rw [List.mem_filter, h.mem_iff, Directory.find?_put]
    by_cases hd : c = d
    · subst hd
      simp [hq]
    · rw [if_neg hd]
      simp [Ne.symm hd]
  nodup := h.nodup.filter _
  first := fun d phase hf hown => by
    rw [Directory.find?_put] at hf
    split at hf
    · obtain rfl := Option.some.inj hf
      rw [ho] at hown; cases hown
    · next hne => exact head?_filter hne (h.first d phase hf hown)

/-- A call goes on where it stands. -/
theorem stay (h : InLine queues owns line calls) (hf : calls.find? c = some phase)
    (hq : queues phase' = queues phase) (ho : owns phase' = true → line.head? = some c) :
    InLine queues owns line (calls.put c phase') where
  mem_iff := fun d => by
    rw [h.mem_iff, Directory.find?_put]
    by_cases hd : c = d
    · subst hd
      rw [if_pos rfl, hf]
      simp [hq]
    · rw [if_neg hd]
  nodup := h.nodup
  first := fun d phase hd hown => by
    rw [Directory.find?_put] at hd
    split at hd
    · next he =>
      subst he
      obtain rfl := Option.some.inj hd
      exact ho hown
    · exact h.first d phase hd hown

/-- A call gets in line. -/
theorem join (h : InLine queues owns line calls) (hf : calls.find? c = some phase)
    (hout : queues phase = false) (hin : queues phase' = true) (ho : owns phase' = false) :
    InLine queues owns (line ++ [c]) (calls.put c phase') where
  mem_iff := fun d => by
    rw [List.mem_append, h.mem_iff, List.mem_singleton, Directory.find?_put]
    by_cases hd : c = d
    · subst hd
      simp [hin]
    · rw [if_neg hd]
      simp [Ne.symm hd]
  nodup := by
    have hnot : c ∉ line := by
      rw [h.mem_iff, hf]
      rintro ⟨phase'', he, hq⟩
      obtain rfl := Option.some.inj he
      rw [hout] at hq; cases hq
    rw [List.nodup_append]
    refine ⟨h.nodup, List.pairwise_singleton _ _, fun d hd d' hd' => ?_⟩
    rw [List.mem_singleton] at hd'
    rintro rfl
    exact hnot (hd' ▸ hd)
  first := fun d phase'' hd hown => by
    rw [Directory.find?_put] at hd
    split at hd
    · obtain rfl := Option.some.inj hd
      rw [ho] at hown; cases hown
    · rw [List.head?_append, h.first d phase'' hd hown]
      rfl

/-- A new call stands in no line. -/
theorem begin (h : InLine queues owns line calls) (hf : calls.find? c = none)
    (hq : queues phase' = false) (ho : owns phase' = false) :
    InLine queues owns line (calls.put c phase') where
  mem_iff := fun d => by
    rw [h.mem_iff, Directory.find?_put]
    by_cases hd : c = d
    · subst hd
      simp [hf, hq]
    · rw [if_neg hd]
  nodup := h.nodup
  first := fun d phase hd hown => by
    rw [Directory.find?_put] at hd
    split at hd
    · obtain rfl := Option.some.inj hd
      rw [ho] at hown; cases hown
    · exact h.first d phase hd hown

/-- The only call in such a phase stands alone in the line. -/
theorem only (h : InLine queues owns line calls) (hf : calls.find? c = some phase)
    (hq : queues phase = true)
    (halone : ∀ d phase', calls.find? d = some phase' → queues phase' = true → d = c) :
    line = [c] := by
  have hall : ∀ d ∈ line, d = c := fun d hd => by
    obtain ⟨phase', hd, hq'⟩ := (h.mem_iff d).mp hd
    exact halone d phase' hd hq'
  have hmem : c ∈ line := (h.mem_iff c).mpr ⟨phase, hf, hq⟩
  cases line with
  | nil => cases hmem
  | cons d rest =>
    obtain rfl := hall d List.mem_cons_self
    cases rest with
    | nil => rfl
    | cons d' rest =>
      obtain rfl := hall d' (List.mem_cons_of_mem _ List.mem_cons_self)
      exact absurd List.mem_cons_self (List.nodup_cons.mp h.nodup).1

/-- Somebody in such a phase stands first as soon as anybody is in one. -/
theorem exists_first (h : InLine queues owns line calls) (hf : calls.find? c = some phase)
    (hq : queues phase = true) :
    ∃ d phase', line.head? = some d ∧ calls.find? d = some phase' ∧ queues phase' = true := by
  have hmem : c ∈ line := (h.mem_iff c).mpr ⟨phase, hf, hq⟩
  cases line with
  | nil => cases hmem
  | cons d rest =>
    obtain ⟨phase', hd, hq'⟩ := (h.mem_iff d).mp List.mem_cons_self
    exact ⟨d, phase', rfl, hd, hq'⟩

end InLine

/-! ### Both lines -/

/-- Both lines fit the phases of the calls, which bear numbers that were given out. -/
structure Locked (l : Link) : Prop where
  /-- Calls bear numbers that were given out. -/
  numbered : ∀ c phase, l.calls.find? c = some phase → c < l.nextCall
  /-- No two calls bear the same one. -/
  nodup : l.calls.keys.Nodup
  /-- The line of the reading lock. -/
  reader : InLine LinkPhase.queuesReader LinkPhase.ownsReader l.readerLock l.calls
  /-- The line of the writing lock. -/
  writer : InLine LinkPhase.queuesWriter LinkPhase.ownsWriter l.writerLock l.calls

theorem locked_fresh (endpoint : String) (capacity : Option Nat)
    (connects : List (Option LinkError)) : (fresh endpoint capacity connects).Locked where
  numbered := fun _ _ h => by cases h
  nodup := List.nodup_nil
  reader := ⟨fun _ => by simp [fresh], List.nodup_nil, fun _ _ h => by cases h⟩
  writer := ⟨fun _ => by simp [fresh], List.nodup_nil, fun _ _ h => by cases h⟩

namespace Locked

variable {l l' : Link} {c : CallId} {phase phase' : LinkPhase}

/-- A call under way comes to another phase. -/
theorem put_lt (h : l.Locked) (hf : l.calls.find? c = some phase) (d : CallId)
    (phase'' : LinkPhase) (hd : (l.calls.put c phase').find? d = some phase'') :
    d < l.nextCall := by
  rw [Directory.find?_put] at hd
  split at hd
  · next he => exact he ▸ h.numbered c phase hf
  · exact h.numbered d phase'' hd

/-- The calls and the lines decide. -/
theorem of_put (h : l.Locked) (hf : l.calls.find? c = some phase)
    (hn : l'.nextCall = l.nextCall) (hc : l'.calls = l.calls.put c phase')
    (hr : InLine LinkPhase.queuesReader LinkPhase.ownsReader l'.readerLock (l.calls.put c phase'))
    (hw : InLine LinkPhase.queuesWriter LinkPhase.ownsWriter l'.writerLock (l.calls.put c phase')) :
    l'.Locked where
  numbered := by
    rw [hn, hc]
    exact h.put_lt hf
  nodup := by
    rw [hc]
    exact Directory.nodup_keys_put h.nodup c phase'
  reader := by rw [hc]; exact hr
  writer := by rw [hc]; exact hw

theorem abort (h : l.Locked) (c : CallId) : (l.abort c).Locked where
  numbered := fun d phase hd => by
    change (l.calls.erase c).find? d = some phase at hd
    rw [Directory.find?_erase] at hd
    split at hd
    · cases hd
    · exact h.numbered d phase hd
  nodup := Directory.nodup_keys_erase h.nodup c
  reader := h.reader.erase c
  writer := h.writer.erase c

/-- Only the calls and the lines matter. -/
theorem of_eq (h : l.Locked) (hn : l'.nextCall = l.nextCall) (hc : l'.calls = l.calls)
    (hr : l'.readerLock = l.readerLock) (hw : l'.writerLock = l.writerLock) : l'.Locked where
  numbered := by rw [hn, hc]; exact h.numbered
  nodup := by rw [hc]; exact h.nodup
  reader := by rw [hc, hr]; exact h.reader
  writer := by rw [hc, hw]; exact h.writer

/-- A call under way goes on where it stands. -/
theorem advance (h : l.Locked) (hf : l.calls.find? c = some phase)
    (hqr : phase'.queuesReader = phase.queuesReader)
    (hqw : phase'.queuesWriter = phase.queuesWriter)
    (hr : phase'.ownsReader = true → l.holdsReader c = true)
    (hw : phase'.ownsWriter = true → l.holdsWriter c = true) : (l.advance c phase').Locked := by
  refine h.of_put hf rfl rfl (h.reader.stay hf hqr fun ho => ?_) (h.writer.stay hf hqw fun ho => ?_)
  · exact beq_iff_eq.mp (hr ho)
  · exact beq_iff_eq.mp (hw ho)

/-- A call under way gets in line for the reading lock. -/
theorem queueReader (h : l.Locked) (hf : l.calls.find? c = some phase)
    (hout : phase.queuesReader = false) (hqw : phase'.queuesWriter = phase.queuesWriter)
    (hin : phase'.queuesReader = true) (hr : phase'.ownsReader = false)
    (hw : phase'.ownsWriter = false) : (l.queueReader c phase').Locked :=
  h.of_put hf rfl rfl (h.reader.join hf hout hin hr)
    (h.writer.stay hf hqw fun ho => by rw [hw] at ho; cases ho)

/-- A call under way gets in line for the writing lock. -/
theorem queueWriter (h : l.Locked) (hf : l.calls.find? c = some phase)
    (hout : phase.queuesWriter = false) (hqr : phase'.queuesReader = phase.queuesReader)
    (hin : phase'.queuesWriter = true) (hw : phase'.ownsWriter = false)
    (hr : phase'.ownsReader = true → l.holdsReader c = true) :
    (l.queueWriter c phase').Locked :=
  h.of_put hf rfl rfl (h.reader.stay hf hqr fun ho => beq_iff_eq.mp (hr ho))
    (h.writer.join hf hout hin hw)

/-- A close goes from the line of the writing lock to that of the reading lock. -/
theorem closeReader (h : l.Locked) (hf : l.calls.find? c = some phase)
    (hr : phase.queuesReader = false) : ((l.unlock c).queueReader c .closeReader).Locked := by
  have hline : l.readerLock.filter (fun i => decide (i ≠ c)) = l.readerLock := by
    refine List.filter_eq_self.mpr fun d hd => decide_eq_true ?_
    rintro rfl
    obtain ⟨phase', hf', hq⟩ := (h.reader.mem_iff d).mp hd
    rw [hf, Option.some.injEq] at hf'
    rw [← hf', hr] at hq; cases hq
  refine h.of_put hf rfl rfl ?_ (h.writer.leave rfl rfl)
  show InLine _ _ (l.readerLock.filter (fun i => decide (i ≠ c)) ++ [c]) _
  rw [hline]
  exact h.reader.join hf hr rfl rfl

/-- A call begins. -/
theorem begin (h : l.Locked) (call : LinkCall) : (l.begin call).2.Locked := by
  have hnew : l.calls.find? l.nextCall = none := by
    cases hf : l.calls.find? l.nextCall with
    | none => rfl
    | some phase => exact absurd (h.numbered _ _ hf) (Nat.lt_irrefl _)
  exact {
    numbered := fun d phase hd => by
      change (l.calls.put l.nextCall (.begun call)).find? d = some phase at hd
      rw [Directory.find?_put] at hd
      split at hd
      · next he => exact he ▸ Nat.lt_succ_self _
      · exact Nat.lt_succ_of_lt (h.numbered d phase hd)
    nodup := Directory.nodup_keys_put h.nodup _ _
    reader := h.reader.begin hnew rfl rfl
    writer := h.writer.begin hnew rfl rfl }

/-- Every deed keeps the lines right. -/
theorem deed (h : l.Locked) {events : List LinkEvent} (hf : l.calls.find? c = some phase)
    (hd : Deed l c phase l' events) : l'.Locked := by
  -- what else changes does not matter to the lines
  have ends : ∀ {v : Link}, v.nextCall = l.nextCall → v.calls = l.calls →
      v.readerLock = l.readerLock → v.writerLock = l.writerLock → (v.abort c).Locked :=
    fun hn hc hr hw => (h.of_eq hn hc hr hw).abort c
  cases hd with
  | findsOpen => exact ends rfl rfl rfl rfl
  | asksOpen => exact h.queueReader hf rfl rfl rfl rfl rfl
  | asksClose =>
    have hv : Locked { l with state := .closed } := h.of_eq rfl rfl rfl rfl
    exact hv.queueWriter hf rfl rfl rfl rfl (by simp [LinkPhase.ownsReader])
  | asksSend => exact h.queueWriter hf rfl rfl rfl rfl (by simp [LinkPhase.ownsReader])
  | asksReceive => exact h.queueReader hf rfl rfl rfl rfl rfl
  | opensReader hl => exact h.queueWriter hf rfl rfl rfl rfl fun _ => hl
  | opensLate => exact ends rfl rfl rfl rfl
  | opensWriter hl =>
    refine h.advance hf rfl rfl (fun _ => ?_) fun _ => hl
    exact beq_iff_eq.mpr (h.reader.first c _ hf rfl)
  | fails => exact ends rfl rfl rfl rfl
  | connects => exact ends rfl rfl rfl rfl
  | takesWriter hl =>
    have hv : Locked { l with hasWriter := false } := h.of_eq rfl rfl rfl rfl
    exact hv.advance hf rfl rfl (by simp [LinkPhase.ownsReader]) fun _ => hl
  | missesWriter => exact h.closeReader hf rfl
  | shutsDown =>
    have hv : Locked { l with line := { l.line with shutdownFailure := none } } :=
      h.of_eq rfl rfl rfl rfl
    exact hv.closeReader hf rfl
  | takesReader => exact ends rfl rfl rfl rfl
  | getsWriter bytes hl =>
    exact h.advance hf rfl rfl (by simp [LinkPhase.ownsReader]) fun _ => hl
  | lacksWriter => exact ends rfl rfl rfl rfl
  | getsReader most hl =>
    exact h.advance hf rfl rfl (fun _ => hl) (by simp [LinkPhase.ownsWriter])
  | lacksReader => exact ends rfl rfl rfl rfl
  | givesUp => exact ends rfl rfl rfl rfl
  | writes => exact ends rfl rfl rfl rfl
  | writesPartly line =>
    have hv : Locked { l with line := line } := h.of_eq rfl rfl rfl rfl
    refine hv.advance hf rfl rfl (by simp [LinkPhase.ownsReader]) fun _ => ?_
    exact beq_iff_eq.mpr (h.writer.first c _ hf rfl)
  | writeFails => exact ends rfl rfl rfl rfl
  | reads => exact ends rfl rfl rfl rfl
  | readFails => exact ends rfl rfl rfl rfl

end Locked

/-- **Whatever happens keeps the lines right.** -/
theorem locked_happens {l l' : Link} {o : Occurrence} (ho : Happens l o l') (h : l.Locked) :
    l'.Locked := by
  rcases happens_cases ho with ⟨c, events, phase, rfl, hf, hd⟩ | ⟨i, rfl, rfl⟩
  · exact h.deed hf hd
  · cases i with
    | begin call => exact h.begin call
    | drop c => exact h.abort c
    | farEnd line connects => exact h.of_eq rfl rfl rfl rfl

theorem locked_of_history {endpoint : String} {capacity : Option Nat}
    {connects : List (Option LinkError)} {l : Link} {past : List (Link × Occurrence)}
    (h : History (fresh endpoint capacity connects) past l) : l.Locked :=
  h.invariant locked_happens (locked_fresh endpoint capacity connects)

end Link

end ZoneBus
