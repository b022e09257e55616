import ZoneBus.Proofs.Link.Closing

/-!
# Calls that a link refuses

A call that sends or receives while the link is not open is to be refused: it ends with
the error that says so, and moves no byte.  It is refused for certain exactly when the
half that it needs is not there, or a close stands before it in the line for that half.
A fault of one direction leaves the other half in place, and so does a close until it
comes to take it; a call that gets hold of such a half may go on or give up, and where
it goes on it moves bytes over a link that is not open.

## Main definitions

* `Half`, `LinkCall.half?` — the half of a link that a call needs.
* `Link.Refuses` — whatever happens, the call moves nothing and ends with the error.
* `Link.Barred` — what bars a call from the half that it needs.

## Main results

* `Link.refuses_iff` — a call is refused for certain exactly when its half is not there,
  or a close stands before it.
* `Link.exists_sent_faulted` — a faulted link that sends.
-/

namespace ZoneBus

/-- A half of a link. -/
inductive Half where
  /-- The half that is read from. -/
  | reader
  /-- The half that is written to. -/
  | writer
deriving DecidableEq

/-- The half that a call moves bytes over. -/
def LinkCall.half? : LinkCall → Option Half
  | .send _ => some .writer
  | .receive _ => some .reader
  | _ => none

/-- How far a call has come when it is in turn for the lock of its half. -/
def LinkCall.turn : LinkCall → LinkPhase
  | .send bytes => .sendTurn bytes
  | .receive most => .receiveTurn most
  | call => .begun call

/-- How far a call has come when it has got hold of its half. -/
def LinkCall.busy : LinkCall → LinkPhase
  | .send bytes => .writing bytes
  | .receive most => .reading most
  | call => .begun call

namespace Half

/-- Whether a call stands in the line of the lock. -/
def queues : Half → LinkPhase → Bool
  | .reader => LinkPhase.queuesReader
  | .writer => LinkPhase.queuesWriter

/-- Whether a call has come to hold the lock. -/
def owns : Half → LinkPhase → Bool
  | .reader => LinkPhase.ownsReader
  | .writer => LinkPhase.ownsWriter

/-- How far a close has come when it is in turn for the lock. -/
def close : Half → LinkPhase
  | .reader => .closeReader
  | .writer => .closeWriter

end Half

namespace Link

/-- Whether there is this half. -/
def has (l : Link) : Half → Bool
  | .reader => l.hasReader
  | .writer => l.hasWriter

/-- The line of the lock of a half. -/
def lineOf (l : Link) : Half → List CallId
  | .reader => l.readerLock
  | .writer => l.writerLock

/-- Whatever happens until the far end is reached anew: the call that begins moves
nothing, ends with the error that the link is not open, and waits for nothing but its
turn. -/
structure Refuses (l : Link) (call : LinkCall) (half : Half) : Prop where
  /-- It moves nothing, and ends with the error. -/
  refused : ∀ {later l' l'' events}, History (l.begin call).2 later l' → Unbroken later →
    (∀ m ∈ later, m.2.reaches = false) → Happens l' (.move l.nextCall events) l'' →
    l''.line = l'.line ∧ ∀ result, .finished l.nextCall result ∈ events → result = .failed .notOpen
  /-- It waits behind others, and never once the lock is its own. -/
  waits : ∀ {later l'}, History (l.begin call).2 later l' → Unbroken later →
    (∀ m ∈ later, m.2.reaches = false) → l'.calls.find? l.nextCall ≠ none →
    l'.moves l.nextCall = [] →
      l.nextCall ∈ l'.lineOf half ∧ (l'.lineOf half).head? ≠ some l.nextCall

variable {l l' : Link} {c : CallId} {phase : LinkPhase} {events : List LinkEvent}

/-! ### What a deed does to the halves and the lines -/

theorem Locked.inLine (h : l.Locked) (half : Half) :
    InLine half.queues half.owns (l.lineOf half) l.calls := by
  cases half with
  | reader => exact h.reader
  | writer => exact h.writer

/-- Only reaching the far end opens a link and puts halves in place. -/
theorem Deed.recedes (hd : Deed l c phase l' events) (hno : .connected ∉ events) :
    (l'.state = .open → l.state = .open) ∧ ∀ half, l'.has half = true → l.has half = true := by
  have same : ∀ half : Half, l.has half = true → l.has half = true := fun _ h => h
  have faulted_open : l.faulted.state = .open → l.state = .open := fun h => by
    change (if l.state = .open then LinkState.faulted else l.state) = .open at h
    split at h
    · cases h
    · exact h
  cases hd with
  | connects => simp at hno
  | asksClose => exact ⟨fun h => (by cases h), same⟩
  | takesWriter =>
    exact ⟨id, fun half h => by cases half with | reader => exact h | writer => cases h⟩
  | takesReader =>
    exact ⟨id, fun half h => by cases half with | reader => cases h | writer => exact h⟩
  | writeFails =>
    exact ⟨faulted_open, fun half h => by cases half with | reader => exact h | writer => cases h⟩
  | readFails =>
    exact ⟨faulted_open, fun half h => by cases half with | reader => cases h | writer => exact h⟩
  | _ => exact ⟨id, same⟩

/-- What a line comes to when a call leaves it, joins it, or both. -/
inductive Shifts (c : CallId) (line : List CallId) : List CallId → Prop where
  /-- It stays. -/
  | stays : Shifts c line line
  /-- The call leaves. -/
  | leaves : Shifts c line (line.filter fun i => decide (i ≠ c))
  /-- The call joins. -/
  | joins : Shifts c line (line ++ [c])
  /-- The call joins, and stood there at most before. -/
  | rejoins : Shifts c line ((line.filter fun i => decide (i ≠ c)) ++ [c])

theorem Deed.shifts (hd : Deed l c phase l' events) (half : Half) :
    Shifts c (l.lineOf half) (l'.lineOf half) := by
  cases hd with
  | asksOpen => cases half with | reader => exact .joins | writer => exact .stays
  | asksClose => cases half with | reader => exact .stays | writer => exact .joins
  | asksSend => cases half with | reader => exact .stays | writer => exact .joins
  | asksReceive => cases half with | reader => exact .joins | writer => exact .stays
  | opensReader => cases half with | reader => exact .stays | writer => exact .joins
  | missesWriter => cases half with | reader => exact .rejoins | writer => exact .leaves
  | shutsDown => cases half with | reader => exact .rejoins | writer => exact .leaves
  | opensWriter => cases half with | reader => exact .stays | writer => exact .stays
  | takesWriter => cases half with | reader => exact .stays | writer => exact .stays
  | getsWriter => cases half with | reader => exact .stays | writer => exact .stays
  | getsReader => cases half with | reader => exact .stays | writer => exact .stays
  | writesPartly => cases half with | reader => exact .stays | writer => exact .stays
  | _ => cases half with | reader => exact .leaves | writer => exact .leaves

/-- Whoever stands before another stays there while others come and go. -/
theorem Shifts.before {e d : CallId} {line line' : List CallId} (hs : Shifts e line line')
    (hd : d ≠ e) (hc : c ≠ e) (h : [d, c].Sublist line) : [d, c].Sublist line' := by
  have hfilter : [d, c].Sublist (line.filter fun i => decide (i ≠ e)) := by
    have := h.filter fun i => decide (i ≠ e)
    rwa [List.filter_eq_self.mpr (by simp [hd, hc])] at this
  cases hs with
  | stays => exact h
  | leaves => exact hfilter
  | joins => exact h.trans (List.sublist_append_left _ _)
  | rejoins => exact hfilter.trans (List.sublist_append_left _ _)

/-- Others come and go without a call's being in line. -/
theorem Shifts.mem_iff {e : CallId} {line line' : List CallId} (hs : Shifts e line line')
    (hc : c ≠ e) : c ∈ line' ↔ c ∈ line := by
  cases hs with
  | stays => exact Iff.rfl
  | leaves => simp [hc]
  | joins => simp [hc]
  | rejoins => simp [hc]

/-- Nobody who stands behind another stands first. -/
theorem head?_ne_of_before {d : CallId} {line : List CallId} (hn : line.Nodup)
    (h : [d, c].Sublist line) : line.head? ≠ some c := by
  cases line with
  | nil => simp
  | cons i rest =>
    rintro ⟨⟩
    obtain ⟨hnot, _⟩ := List.nodup_cons.mp hn
    cases h with
    | cons _ h => exact hnot (h.subset (by simp))
    | cons_cons _ h => exact hnot (h.subset (by simp))

/-! ### A call that moves bytes -/

variable {call : LinkCall} {half : Half}

theorem queues_begun (half : Half) (call : LinkCall) : half.queues (.begun call) = false := by
  cases half <;> rfl

theorem queues_turn (hcall : call.half? = some half) : half.queues call.turn = true := by
  cases call with
  | send => cases hcall; rfl
  | receive => cases hcall; rfl
  | _ => cases hcall

/-- It begins by getting in line. -/
theorem Deed.begun_carrier (hcall : call.half? = some half)
    (hd : Deed l c (.begun call) l' events) :
    l'.calls = l.calls.put c call.turn ∧ l'.lineOf half = l.lineOf half ++ [c] ∧
      l'.state = l.state ∧ l'.has half = l.has half ∧ l'.line = l.line ∧ events = [] := by
  cases call with
  | send =>
    cases hcall
    cases hd with
    | asksSend => exact ⟨rfl, rfl, rfl, rfl, rfl, rfl⟩
    | givesUp _ hp => simp at hp
  | receive =>
    cases hcall
    cases hd with
    | asksReceive => exact ⟨rfl, rfl, rfl, rfl, rfl, rfl⟩
    | givesUp _ hp => simp at hp
  | _ => cases hcall

/-- When it is its turn, it gets hold of its half or finds that there is none. -/
theorem Deed.turn_carrier (hcall : call.half? = some half) (hd : Deed l c call.turn l' events) :
    (l.lineOf half).head? = some c ∧
      (l.has half = true ∧ l' = l.advance c call.busy ∧ events = [] ∨
        l.has half = false ∧ l' = l.abort c ∧ events = [.finished c (.failed .notOpen)]) := by
  cases call with
  | send =>
    cases hcall
    cases hd with
    | getsWriter _ hl hw => exact ⟨beq_iff_eq.mp hl, Or.inl ⟨hw, rfl, rfl⟩⟩
    | lacksWriter _ hl hw => exact ⟨beq_iff_eq.mp hl, Or.inr ⟨hw, rfl, rfl⟩⟩
    | givesUp _ hp => simp [LinkCall.turn] at hp
  | receive =>
    cases hcall
    cases hd with
    | getsReader _ hl hr => exact ⟨beq_iff_eq.mp hl, Or.inl ⟨hr, rfl, rfl⟩⟩
    | lacksReader _ hl hr => exact ⟨beq_iff_eq.mp hl, Or.inr ⟨hr, rfl, rfl⟩⟩
    | givesUp _ hp => simp [LinkCall.turn] at hp
  | _ => cases hcall

/-- It can move as soon as it is its turn. -/
theorem exists_turn_move (hcall : call.half? = some half) (hf : l.calls.find? c = some call.turn)
    (hfirst : (l.lineOf half).head? = some c) : ∃ l' events, (l', events) ∈ l.moves c := by
  have moves_of : ∀ {m}, l.movesIn c call.turn = [m] → ∃ l' events, (l', events) ∈ l.moves c := by
    intro m hm
    refine ⟨m.1, m.2, ?_⟩
    rw [moves, hf]
    show m ∈ l.movesIn c call.turn
    rw [hm]
    exact List.mem_singleton_self m
  cases call with
  | send bytes =>
    cases hcall
    have hl : l.holdsWriter c = true := beq_iff_eq.mpr hfirst
    by_cases hw : l.hasWriter = true
    · exact moves_of (by rw [LinkCall.turn, movesIn, if_pos hl, if_pos hw])
    · exact moves_of (by rw [LinkCall.turn, movesIn, if_pos hl, if_neg hw])
  | receive most =>
    cases hcall
    have hl : l.holdsReader c = true := beq_iff_eq.mpr hfirst
    by_cases hr : l.hasReader = true
    · exact moves_of (by rw [LinkCall.turn, movesIn, if_pos hl, if_pos hr])
    · exact moves_of (by rw [LinkCall.turn, movesIn, if_pos hl, if_neg hr])
  | _ => cases hcall

/-- A close whose turn it is takes the half. -/
theorem Deed.takes (hd : Deed l c half.close l' events) : l'.has half = false := by
  cases half with
  | writer =>
    cases hd with
    | takesWriter => rfl
    | missesWriter _ hw => exact hw
    | givesUp _ hp => simp [Half.close] at hp
  | reader =>
    cases hd with
    | takesReader => rfl
    | givesUp _ hp => simp [Half.close] at hp

/-! ### What bars a call from its half -/

/-- A call is barred from the half that it needs: the link is not open, and the half is
not there or a close stands before the call. -/
structure Barred (l : Link) (c : CallId) (call : LinkCall) (half : Half) : Prop where
  /-- The link is not open. -/
  unopened : l.state ≠ .open
  /-- The call bears a number that was given out. -/
  given : c < l.nextCall
  /-- The call has not got hold of the half. -/
  phase : ∀ phase, l.calls.find? c = some phase → phase = .begun call ∨ phase = call.turn
  /-- The half is not there, or a close stands before the call. -/
  bar : l.has half = false ∨ ∃ d, l.calls.find? d = some half.close ∧
    (c ∈ l.lineOf half → [d, c].Sublist (l.lineOf half))

namespace Barred

theorem ne_of_close (h : l.Barred c call half) (hcall : call.half? = some half) {d : CallId}
    (hd : l.calls.find? d = some half.close) : d ≠ c := by
  rintro rfl
  cases call with
  | send => cases hcall; rcases h.phase _ hd with h | h <;> cases h
  | receive => cases hcall; rcases h.phase _ hd with h | h <;> cases h
  | _ => cases hcall

/-- When it is the turn of a barred call, there is no half. -/
theorem missing (h : l.Barred c call half) (hl : l.Locked)
    (hfirst : (l.lineOf half).head? = some c) : l.has half = false := by
  refine h.bar.resolve_right ?_
  rintro ⟨d, _, hbefore⟩
  have hmem : c ∈ l.lineOf half := List.mem_of_mem_head? hfirst
  exact head?_ne_of_before (hl.inLine half).nodup (hbefore hmem) hfirst

/-- A move of a barred call moves no byte, and ends it only with the error. -/
theorem own_deed (h : l.Barred c call half) (hl : l.Locked) (hcall : call.half? = some half)
    (hf : l.calls.find? c = some phase) (hd : Deed l c phase l' events) :
    l'.line = l.line ∧ ∀ result, .finished c result ∈ events → result = .failed .notOpen := by
  rcases h.phase phase hf with rfl | rfl
  · obtain ⟨_, _, _, _, hline, rfl⟩ := hd.begun_carrier hcall
    exact ⟨hline, fun _ hm => by cases hm⟩
  · obtain ⟨hfirst, ⟨hhas, _⟩ | ⟨_, rfl, rfl⟩⟩ := hd.turn_carrier hcall
    · rw [h.missing hl hfirst] at hhas
      cases hhas
    · exact ⟨rfl, fun _ hm => by simpa using hm⟩

/-- A move of a barred call leaves it barred. -/
theorem self (h : l.Barred c call half) (hl : l.Locked) (hcall : call.half? = some half)
    (hf : l.calls.find? c = some phase) (hd : Deed l c phase l' events) :
    l'.Barred c call half := by
  rcases h.phase phase hf with rfl | rfl
  · obtain ⟨hcalls, hline, hstate, hhas, _, _⟩ := hd.begun_carrier hcall
    refine ⟨hstate ▸ h.unopened, hd.nextCall_eq ▸ h.given, fun phase hp => ?_, ?_⟩
    · rw [hcalls, Directory.find?_put, if_pos rfl, Option.some.injEq] at hp
      exact Or.inr hp.symm
    · refine h.bar.imp (hhas.trans ·) fun ⟨d, hd', _⟩ => ⟨d, ?_, fun _ => ?_⟩
      · rw [hd.other d (h.ne_of_close hcall hd'), hd']
      · have hmem : d ∈ l.lineOf half :=
          ((hl.inLine half).mem_iff d).mpr ⟨_, hd', by cases half <;> rfl⟩
        rw [hline]
        exact (List.singleton_sublist.mpr hmem).append (List.Sublist.refl [c])
  · obtain ⟨hfirst, ⟨hhas, _⟩ | ⟨hhas, rfl, _⟩⟩ := hd.turn_carrier hcall
    · rw [h.missing hl hfirst] at hhas
      cases hhas
    · refine ⟨h.unopened, h.given, fun phase hp => ?_, Or.inl (by cases half <;> exact hhas)⟩
      change (l.calls.erase c).find? c = some phase at hp
      rw [Directory.find?_erase, if_pos rfl] at hp
      cases hp

/-- A move of another call leaves a call barred, unless the far end is reached. -/
theorem other {e : CallId} (h : l.Barred c call half)
    (hne : c ≠ e) (hf : l.calls.find? e = some phase) (hd : Deed l e phase l' events)
    (hno : .connected ∉ events) : l'.Barred c call half := by
  obtain ⟨hopen, hhas⟩ := hd.recedes hno
  refine ⟨fun ho => h.unopened (hopen ho), hd.nextCall_eq ▸ h.given, fun phase hp => ?_, ?_⟩
  · rw [hd.other c hne] at hp
    exact h.phase phase hp
  · rcases h.bar with hgone | ⟨d, hd', hbefore⟩
    · exact Or.inl (Bool.eq_false_iff.mpr fun ht => by rw [hhas half ht] at hgone; cases hgone)
    -- the close itself takes the half
    · by_cases hde : d = e
      · subst hde
        rw [hd', Option.some.injEq] at hf
        exact Or.inl (Deed.takes (hf ▸ hd))
      · refine Or.inr ⟨d, by rw [hd.other d hde, hd'], fun hmem => ?_⟩
        have hs := hd.shifts half
        exact hs.before hde hne (hbefore ((hs.mem_iff hne).mp hmem))

/-- What is done from outside leaves a call barred, unless it drops the close. -/
theorem input (h : l.Barred c call half) (hl : l.Locked) {i : Input}
    (hkept : l.cutsClose (.input i) = false) : (l.apply i).Barred c call half := by
  cases i with
  | begin call' =>
    have put : ∀ d, d < l.nextCall →
        (l.calls.put l.nextCall (.begun call')).find? d = l.calls.find? d := fun d hlt => by
      rw [Directory.find?_put, if_neg (Ne.symm (Nat.ne_of_lt hlt))]
    refine ⟨h.unopened, Nat.lt_succ_of_lt h.given, fun phase hp => h.phase phase ?_, ?_⟩
    · rw [← put c h.given]
      exact hp
    · rcases h.bar with hgone | ⟨d, hd, hbefore⟩
      · cases half <;> exact Or.inl hgone
      · have hd' := (put d (hl.numbered d _ hd)).trans hd
        cases half <;> exact Or.inr ⟨d, hd', hbefore⟩
  | farEnd line connects => cases half <;> exact ⟨h.unopened, h.given, h.phase, h.bar⟩
  | drop e =>
    refine ⟨h.unopened, h.given, fun phase hp => h.phase phase ?_, ?_⟩
    · change (l.calls.erase e).find? c = some phase at hp
      rw [Directory.find?_erase] at hp
      split at hp
      · cases hp
      · exact hp
    · have hline : (l.abort e).lineOf half = (l.lineOf half).filter fun i => decide (i ≠ e) := by
        cases half <;> rfl
      have hhas : (l.abort e).has half = l.has half := by cases half <;> rfl
      rcases h.bar with hgone | ⟨d, hd, hbefore⟩
      · exact Or.inl (hhas.trans hgone)
      refine Or.inr ⟨d, ?_, fun hmem => ?_⟩
      · show (l.calls.erase e).find? d = _
        rw [Directory.find?_erase, if_neg, hd]
        rintro rfl
        rw [cutsClose, hd] at hkept
        cases half <;> cases hkept
      · have hne : d ≠ e := by
          rintro rfl
          rw [cutsClose, hd] at hkept
          cases half <;> cases hkept
        change c ∈ (l.abort e).lineOf half at hmem
        show [d, c].Sublist ((l.abort e).lineOf half)
        rw [hline] at hmem ⊢
        obtain ⟨hmem, hce⟩ := List.mem_filter.mp hmem
        exact (Shifts.leaves (c := e)).before hne (of_decide_eq_true hce) (hbefore hmem)

end Barred

/-- **A barred call stays barred** until the far end is reached. -/
theorem barred_happens {o : Occurrence} (ho : Happens l o l') (hl : l.Locked)
    (hcall : call.half? = some half) (hkept : l.cutsClose o = false) (hno : o.reaches = false)
    (h : l.Barred c call half) : l'.Barred c call half := by
  rcases happens_cases ho with ⟨e, events, phase, rfl, hf, hd⟩ | ⟨i, rfl, rfl⟩
  · by_cases he : c = e
    · subst he
      exact h.self hl hcall hf hd
    · exact h.other he hf hd (of_decide_eq_false hno)
  · exact h.input hl hkept

theorem barred_of_history {past : List (Link × Occurrence)} (hh : History l past l')
    (hl : l.Locked) (hcall : call.half? = some half) (hu : Unbroken past)
    (hno : ∀ m ∈ past, m.2.reaches = false) (h : l.Barred c call half) :
    l'.Barred c call half := by
  induction hh with
  | nil => exact h
  | @cons v w past o hv ho ih =>
    have hbarred := ih (fun m hm => hu m (List.mem_cons_of_mem _ hm))
      fun m hm => hno m (List.mem_cons_of_mem _ hm)
    exact barred_happens ho (hv.invariant locked_happens hl) hcall (hu _ List.mem_cons_self)
      (hno _ List.mem_cons_self) hbarred

/-! ### A call that nothing bars -/

/-- A close that shuts the writing half down has taken it. -/
def Parted (l : Link) : Prop := ∀ c, l.calls.find? c = some .shuttingDown → l.hasWriter = false

theorem parted_happens {o : Occurrence} (ho : Happens l o l') (hl : l.Locked) (h : l.Parted) :
    l'.Parted := by
  intro d hd'
  rcases happens_cases ho with ⟨c, events, phase, rfl, hf, hd⟩ | ⟨i, rfl, rfl⟩
  · by_cases hreached : .connected ∈ events
    -- both calls would hold the writing lock
    · obtain ⟨rfl, connects, rfl⟩ := hd.eq_reached hreached
      change (l.calls.erase c).find? d = some .shuttingDown at hd'
      rw [Directory.find?_erase] at hd'
      split at hd'
      · cases hd'
      · next hne =>
        have hfirst := hl.writer.first c _ hf rfl
        rw [hl.writer.first d _ hd' rfl] at hfirst
        exact absurd (Option.some.inj hfirst).symm hne
    · by_cases hdc : d = c
      · subst hdc
        obtain rfl : phase = .closeWriter := by cases hd.goesOn hd'; rfl
        cases hd with
        | takesWriter => rfl
        | missesWriter =>
          change (l.calls.put d .closeReader).find? d = some .shuttingDown at hd'
          rw [Directory.find?_put, if_pos rfl] at hd'
          cases hd'
        | givesUp _ hp => simp at hp
      · rw [hd.other d hdc] at hd'
        refine Bool.eq_false_iff.mpr fun ht => ?_
        have hwriter : l.hasWriter = true := (hd.recedes hreached).2 .writer ht
        rw [h d hd'] at hwriter
        cases hwriter
  · cases i with
    | begin call =>
      change (l.calls.put l.nextCall (.begun call)).find? d = some .shuttingDown at hd'
      rw [Directory.find?_put] at hd'
      split at hd'
      · cases hd'
      · exact h d hd'
    | drop c =>
      change (l.calls.erase c).find? d = some .shuttingDown at hd'
      rw [Directory.find?_erase] at hd'
      split at hd'
      · cases hd'
      · exact h d hd'
    | farEnd line connects => exact h d hd'

theorem parted_of_history {endpoint : String} {capacity : Option Nat}
    {connects : List (Option LinkError)} {past : List (Link × Occurrence)}
    (h : History (fresh endpoint capacity connects) past l) : l.Parted := by
  generalize hl₀ : fresh endpoint capacity connects = l₀ at h
  induction h with
  | nil =>
    subst hl₀
    exact fun c hc => by cases hc
  | cons h ho ih =>
    subst hl₀
    exact parted_happens ho (locked_of_history h) ih

/-- A close in the line of the lock is in turn to take the half, unless the half is gone. -/
theorem close_of_queues (hp : l.Parted) (hhas : l.has half = true) {d : CallId}
    (hf : l.calls.find? d = some phase) (hc : phase.isClosing = true)
    (hq : half.queues phase = true) : phase = half.close := by
  cases half with
  | reader =>
    cases phase with
    | closeReader => rfl
    | closeWriter => cases hq
    | shuttingDown => cases hq
    | _ => cases hc
  | writer =>
    cases phase with
    | closeWriter => rfl
    | closeReader => cases hq
    | shuttingDown =>
      change l.hasWriter = true at hhas
      rw [hp d hf] at hhas
      cases hhas
    | _ => cases hc

/-- A line that takes everything, and on which nothing more will come. -/
def ending : Line := { Line.fresh none with inbound := [.endOfStream] }

theorem ending_write (bytes : Bytes) :
    ending.write bytes = some (.done, { ending with outbound := bytes }) := by
  cases bytes with
  | nil => rfl
  | cons b bytes =>
    have hall : (b :: bytes).take (b :: bytes).length = b :: bytes := List.take_length
    rw [Line.write, if_neg (by simp)]
    simp only [ending, Line.fresh, Line.fitting, hall]
    rw [if_neg (by simp), if_neg (Nat.lt_irrefl _)]
    rfl

theorem ending_read (most : Nat) :
    ending.read most = some (.ended, { ending with inbound := [] }) := rfl

/-- A call that has got hold of its half can go on, whatever the state. -/
theorem exists_busy_move (hcall : call.half? = some half) (hf : l.calls.find? c = some call.busy)
    (hline : l.line = ending) :
    ∃ l' events result, (l', events) ∈ l.moves c ∧
      .finished c result ∈ events ∧ result ≠ .failed .notOpen := by
  have moves_eq : l.moves c = l.movesIn c call.busy := by rw [moves, hf]
  rw [moves_eq]
  cases call with
  | send bytes =>
    obtain ⟨m, hm, hdone⟩ : ∃ m, l.write c bytes = [m] ∧ .finished c .done ∈ m.2 := by
      rw [write, hline, ending_write]
      exact ⟨_, rfl, List.mem_append_right _ (List.mem_singleton_self _)⟩
    refine ⟨m.1, m.2, .done, List.mem_append_right _ ?_, hdone, by simp⟩
    exact hm ▸ List.mem_singleton_self m
  | receive most =>
    obtain ⟨m, hm, hclosed⟩ : ∃ m, l.read c most = [m] ∧ .finished c (.failed .closed) ∈ m.2 := by
      rw [read, hline, ending_read]
      exact ⟨_, rfl, List.mem_append_right _ (List.mem_singleton_self _)⟩
    refine ⟨m.1, m.2, .failed .closed, List.mem_append_right _ ?_, hclosed, by simp⟩
    exact hm ▸ List.mem_singleton_self m
  | _ => cases hcall

theorem find?_calls_begin (l : Link) (call : LinkCall) (d : CallId) :
    (l.begin call).2.calls.find? d =
      if l.nextCall = d then some (.begun call) else l.calls.find? d :=
  Directory.find?_put _ _ _ _

/-- A call begins and gets in line. -/
theorem exists_queued (l : Link) (hcall : call.half? = some half) :
    ∃ v, Happens (l.begin call).2 (.move l.nextCall []) v ∧ v.has half = l.has half ∧
      ∀ d, v.calls.find? d = if l.nextCall = d then some call.turn else l.calls.find? d := by
  have hbegun : (l.begin call).2.calls.find? l.nextCall = some (.begun call) := by
    rw [find?_calls_begin, if_pos rfl]
  obtain ⟨v, events, hm⟩ : ∃ v events, (v, events) ∈ (l.begin call).2.moves l.nextCall := by
    rw [moves, hbegun]
    exact ⟨_, _, List.mem_singleton_self _⟩
  obtain ⟨phase, hf, hd⟩ := exists_deed hm
  rw [hbegun, Option.some.injEq] at hf
  subst hf
  obtain ⟨hcalls, _, _, hhas, _, rfl⟩ := hd.begun_carrier hcall
  refine ⟨v, .move hm, by rw [hhas]; cases half <;> rfl, fun d => ?_⟩
  rw [hcalls, Directory.find?_put, find?_calls_begin]
  split <;> rfl

/-- A call in line for its half comes to stand there alone, when no close stands there. -/
theorem exists_alone (hl : l.Locked) (hcall : call.half? = some half)
    (hturn : l.calls.find? c = some call.turn)
    (hclose : ∀ d phase, l.calls.find? d = some phase → phase.isClosing = true →
      half.queues phase = false) :
    ∃ past l', History l past l' ∧ Unbroken past ∧ (∀ m ∈ past, m.2.reaches = false) ∧
      l'.calls.find? c = some call.turn ∧ l'.lineOf half = [c] ∧ l'.has half = l.has half := by
  obtain ⟨past, l', h, hu, hdrops, hkept, _, hreader, hwriter⟩ := exists_kept l
    (fun d => decide (d = c) || (l.calls.find? d).any LinkPhase.isClosing)
    fun d phase hf hc => by rw [hf, Option.any_some, hc, Bool.or_true]
  have hturn' : l'.calls.find? c = some call.turn := by
    rw [hkept, if_pos (by simp), hturn]
  refine ⟨past, l', h, hu, fun m hm => ?_, hturn', ?_, ?_⟩
  · obtain ⟨d, hd⟩ := hdrops m hm
    rw [hd]
    rfl
  · have hl' : l'.Locked := h.invariant locked_happens hl
    refine (hl'.inLine half).only hturn' (queues_turn hcall) fun d phase hf hq => ?_
    rw [hkept] at hf
    split at hf
    · next hk =>
      rw [Bool.or_eq_true, decide_eq_true_eq] at hk
      refine hk.resolve_right fun hc => ?_
      rw [hf] at hc
      rw [hclose d phase hf hc] at hq
      cases hq
    · cases hf
  · cases half with
    | reader => exact hreader
    | writer => exact hwriter

/-- A call whose turn it is gets hold of its half. -/
theorem exists_held (hcall : call.half? = some half) (hturn : l.calls.find? c = some call.turn)
    (hfirst : (l.lineOf half).head? = some c) (hhas : l.has half = true) :
    ∃ l', Happens l (.move c []) l' ∧ l'.calls.find? c = some call.busy := by
  obtain ⟨l', events, hm⟩ := exists_turn_move hcall hturn hfirst
  obtain ⟨phase, hf, hd⟩ := exists_deed hm
  rw [hturn, Option.some.injEq] at hf
  subst hf
  obtain ⟨_, ⟨_, rfl, rfl⟩ | ⟨hgone, _⟩⟩ := hd.turn_carrier hcall
  · refine ⟨_, .move hm, ?_⟩
    show (l.calls.put c call.busy).find? c = _
    rw [Directory.find?_put, if_pos rfl]
  · rw [hhas] at hgone
    cases hgone

/-- **A call that nothing bars can go on over a link that is not open**: it gets in line,
the others are dropped, it gets hold of its half, and the line lets it go on. -/
theorem not_refuses (hl : l.Locked) (hp : l.Parted) (hcall : call.half? = some half)
    (hhas : l.has half = true) (hclose : ∀ d, l.calls.find? d ≠ some half.close) :
    ¬ l.Refuses call half := by
  intro hr
  obtain ⟨v, hqueues, hhas₁, hfind⟩ := exists_queued l hcall
  have hl₁ : v.Locked := locked_happens hqueues (hl.begin call)
  have hturn₁ : v.calls.find? l.nextCall = some call.turn := by rw [hfind, if_pos rfl]
  obtain ⟨past, w, hdrops, hu, hno, hturn₂, halone, hhas₂⟩ := exists_alone hl₁ hcall hturn₁
    fun d phase hf hc => by
      rw [Bool.eq_false_iff]
      intro hq
      rw [hfind] at hf
      split at hf
      · cases hf
        cases call <;> cases hc
      · exact hclose d (close_of_queues hp hhas hf hc hq ▸ hf)
  obtain ⟨x, hholds, hbusy⟩ := exists_held hcall hturn₂ (by rw [halone]; rfl)
    (by rw [hhas₂, hhas₁, hhas])
  let i : Input := .farEnd ending x.connects
  obtain ⟨y, events, result, hm, hends, hne⟩ := exists_busy_move (l := x.apply i) hcall hbusy rfl
  have hhist := ((History.single hqueues).trans hdrops).trans
    ((History.single hholds).trans (.single (.input i)))
  refine hne ((hr.refused hhist ?_ ?_ (.move hm)).2 result hends)
  · intro m hm
    simp only [List.mem_append, List.mem_singleton] at hm
    rcases hm with (rfl | rfl) | hm | rfl
    · rfl
    · rfl
    · exact hu m hm
    · rfl
  · intro m hm
    simp only [List.mem_append, List.mem_singleton] at hm
    rcases hm with (rfl | rfl) | hm | rfl
    · rfl
    · rfl
    · exact hno m hm
    · rfl

/-! ### When a call is refused -/

/-- **A call over a link that is not open is refused for certain exactly when its half is
not there, or a close is in turn to take it.** -/
theorem refuses_iff {endpoint : String} {capacity : Option Nat}
    {connects : List (Option LinkError)} {past : List (Link × Occurrence)}
    (h : History (fresh endpoint capacity connects) past l) (hs : l.state ≠ .open)
    (hcall : call.half? = some half) :
    l.Refuses call half ↔
      l.has half = false ∨ ∃ d, l.calls.find? d = some half.close := by
  have hl : l.Locked := locked_of_history h
  constructor
  · intro hr
    by_cases hhas : l.has half = true
    · refine Or.inr (not_forall_not.mp fun hclose => ?_)
      exact not_refuses hl (parted_of_history h) hcall hhas hclose hr
    · exact Or.inl (Bool.eq_false_iff.mpr hhas)
  · intro hbar
    have hl₁ : (l.begin call).2.Locked := hl.begin call
    have hbarred : (l.begin call).2.Barred l.nextCall call half := by
      refine ⟨hs, Nat.lt_succ_self _, fun phase hf => ?_, ?_⟩
      · rw [find?_calls_begin, if_pos rfl, Option.some.injEq] at hf
        exact Or.inl hf.symm
      · refine hbar.imp (by cases half <;> exact id) fun ⟨d, hd⟩ => ⟨d, ?_, fun hmem => ?_⟩
        · rw [find?_calls_begin, if_neg (Nat.ne_of_gt (hl.numbered d _ hd)), hd]
        · obtain ⟨phase, hf, hq⟩ := ((hl₁.inLine half).mem_iff _).mp hmem
          rw [find?_calls_begin, if_pos rfl, Option.some.injEq] at hf
          rw [← hf, queues_begun] at hq
          cases hq
    have stays : ∀ {later l'}, History (l.begin call).2 later l' → Unbroken later →
        (∀ m ∈ later, m.2.reaches = false) → l'.Locked ∧ l'.Barred l.nextCall call half :=
      fun hh hu hno => ⟨hh.invariant locked_happens hl₁,
        barred_of_history hh hl₁ hcall hu hno hbarred⟩
    refine ⟨fun hh hu hno ho => ?_, fun hh hu hno hunder hstuck => ?_⟩
    · obtain ⟨hl', hb⟩ := stays hh hu hno
      rcases happens_cases ho with ⟨_, _, phase, ⟨⟩, hf, hd⟩ | ⟨i, hi, _⟩
      · exact hb.own_deed hl' hcall hf hd
      · cases hi
    · obtain ⟨hl', hb⟩ := stays hh hu hno
      obtain ⟨phase, hf⟩ := Option.ne_none_iff_exists'.mp hunder
      rcases hb.phase phase hf with rfl | rfl
      · rw [moves, hf] at hstuck
        cases hstuck
      · refine ⟨((hl'.inLine half).mem_iff _).mpr ⟨_, hf, queues_turn hcall⟩, fun hfirst => ?_⟩
        obtain ⟨_, _, hm⟩ := exists_turn_move hcall hf hfirst
        rw [hstuck] at hm
        cases hm

/-- A link whose writing half fails. -/
def failedWriter : List Cue :=
  [.input (.begin .open), .move 0 0, .move 0 0, .move 0 0, .move 0 0,
    .input (.farEnd { Line.fresh none with writeFailure := some "broken pipe" } []),
    .input (.begin (.send [1])), .move 1 0, .move 1 0, .move 1 0]

/-- Over a link whose writing half has failed, sending is refused and receiving is not. -/
theorem refuses_iff_failedWriter :
    ∃ past l, History (fresh "line" none []) past l ∧ l.state = .faulted ∧
      l.Refuses (.send [2]) .writer ∧ ¬ l.Refuses (.receive 4) .reader := by
  obtain ⟨past, l, h, hs, hwriter, hreader, hquiet⟩ :=
    exists_history (fresh "line" none []) failedWriter
      (fun _ l => l.state = .faulted ∧ l.has .writer = false ∧ l.has .reader = true ∧
        l.calls.keys = [])
      (by decide +kernel)
  have hno : l.state ≠ .open := by rw [hs]; decide
  refine ⟨past, l, h, hs, (refuses_iff h hno rfl).mpr (Or.inl hwriter), fun hr => ?_⟩
  rcases (refuses_iff h hno rfl).mp hr with hgone | ⟨d, hd⟩
  · rw [hreader] at hgone
    cases hgone
  · have := Directory.mem_keys_of_find? hd
    rw [hquiet] at this
    cases this

/-- The far end finishes, so reading faults the link; then a send begins. -/
def sentFaulted : List Cue :=
  [.input (.begin .open), .move 0 0, .move 0 0, .move 0 0, .move 0 0,
    .input (.farEnd { Line.fresh none with inbound := [.endOfStream] } []),
    .input (.begin (.receive 4)), .move 1 0, .move 1 0, .move 1 0,
    .input (.begin (.send [1])), .move 2 0, .move 2 0, .move 2 1]

/-- **A faulted link can send**: a call that begins over it writes its byte and ends
well. -/
theorem exists_sent_faulted :
    ∃ past l, History (fresh "line" none []) past l ∧
      ((past.take 4).all (fun m => decide (m.1.state = .faulted)) = true ∧
        (past.head?.any fun m => m.2.ends 2 .done && decide (m.1.line.outbound = [])) = true ∧
        l.state = .faulted ∧ l.line.outbound = [1]) :=
  exists_history (fresh "line" none []) sentFaulted _ (by decide +kernel)

end Link

end ZoneBus
