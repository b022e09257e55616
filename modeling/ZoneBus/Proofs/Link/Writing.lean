import ZoneBus.Proofs.Link.Calls
import ZoneBus.Proofs.Link.Refusals

/-!
# What calls write, and what they were asked to

A call that writes adds to the line as much of its bytes as there is room for, each time
that it moves, and goes on with the rest; no other call adds anything.  What a call does
it was asked for when it began: the numbers of the calls are given out once, so a number
tells what its call was asked for.

## Main definitions

* `Link.growth` — the bytes that the line takes in a move.
* `Link.Began` — a call began, and was asked for this.
* `Half.busy`, `Link.Bare` — a call has got hold of a half, and nobody has or can.
* `LinkPhase.Follows` — whether a call that was asked for something can be in a phase.

## Main results

* `Line.exists_of_write` — an attempt to write adds a front part of what is to be written.
* `Link.Deed.writing`, `Link.Deed.growth_eq_nil` — what a call that writes adds, and that
  no other does.
* `Link.Deed.outbound_eq` — calls only add to the line, and what they add is its growth.
* `Link.Bare.happens` — nobody gets hold of a half that is not there.
* `Link.recalls_of_history` — every call goes on with what it was asked for.
-/

namespace ZoneBus

/-! ### One attempt to write -/

namespace Line

/-- Flushing writes nothing, and leaves nothing to write. -/
theorem of_flush {l l' : Line} {written : Written} (h : l.flush = (written, l')) :
    l'.outbound = l.outbound ∧ ∀ rest, written ≠ .partly rest := by
  unfold flush at h
  split at h
  · cases h
    exact ⟨rfl, fun _ h => by cases h⟩
  · cases h
    exact ⟨rfl, fun _ h => by cases h⟩

/-- **An attempt to write adds a front part of what is to be written**, all of it when the
attempt succeeds, and all but what is left when it succeeds partly. -/
theorem exists_of_write {l l' : Line} {bytes : Bytes} {written : Written}
    (h : l.write bytes = some (written, l')) :
    ∃ front left, bytes = front ++ left ∧ l'.outbound = l.outbound ++ front ∧
      (written = .done → left = []) ∧ ∀ rest, written = .partly rest → left = rest := by
  unfold write at h
  split at h
  · next hempty =>
    obtain ⟨hout, hpartly⟩ := of_flush (Option.some.inj h)
    exact ⟨[], bytes, rfl, by rw [hout, List.append_nil], fun _ => List.isEmpty_iff.mp hempty,
      fun rest hw => absurd hw (hpartly rest)⟩
  · split at h
    · cases h
      exact ⟨[], bytes, rfl, (List.append_nil _).symm, fun hw => (by cases hw),
        fun _ hw => by cases hw⟩
    · dsimp only at h
      split at h
      · cases h
      · split at h
        · cases h
          exact ⟨_, _, (List.take_append_drop (l.fitting bytes) bytes).symm, rfl,
            fun hw => (by cases hw), fun rest hw => Written.partly.inj hw⟩
        · next hall =>
          obtain ⟨hout, hpartly⟩ := of_flush (Option.some.inj h)
          refine ⟨_, _, (List.take_append_drop (l.fitting bytes) bytes).symm, hout, fun _ => ?_,
            fun rest hw => absurd hw (hpartly rest)⟩
          exact List.drop_eq_nil_of_le (Nat.not_lt.mp hall)

/-- Reading writes nothing. -/
theorem outbound_of_read {l l' : Line} {most : Nat} {result : Read}
    (h : l.read most = some (result, l')) : l'.outbound = l.outbound := by
  unfold read at h
  split at h <;> cases h <;> rfl

end Line

namespace Link

variable {l l' : Link} {c : CallId} {phase : LinkPhase} {events : List LinkEvent}

/-! ### What a deed adds to the line -/

/-- The bytes that the line takes in a move. -/
def growth (l l' : Link) : Bytes := l'.line.outbound.drop l.line.outbound.length

theorem growth_of_append {front : Bytes} (h : l'.line.outbound = l.line.outbound ++ front) :
    l.growth l' = front := by
  rw [growth, h, List.drop_left]

theorem growth_of_eq (h : l'.line.outbound = l.line.outbound) : l.growth l' = [] :=
  growth_of_append (h.trans (List.append_nil _).symm)

/-- What becomes known of a call's end is of the call that moves. -/
theorem Deed.finished_eq (hd : Deed l c phase l' events) {d : CallId} {result : LinkResult}
    (h : .finished d result ∈ events) : d = c := by
  have not_noted := finished_notMem_noted (l := l) (c := c) d result
  cases hd with
  | writes line =>
    simp only [List.mem_append, not_noted line, List.mem_singleton, LinkEvent.finished.injEq,
      false_or] at h
    exact h.1
  | writesPartly line => exact absurd h (not_noted line)
  | writeFails line _ _ hp =>
    simp only [List.mem_append, not_noted line, finished_notMem_published hp, List.mem_singleton,
      LinkEvent.finished.injEq, false_or] at h
    exact h.1
  | readFails _ _ _ _ _ hp =>
    simp only [List.mem_append, finished_notMem_published hp, List.mem_singleton,
      LinkEvent.finished.injEq, false_or] at h
    exact h.1
  | _ => simp_all

/-- A call that was dropped is gone. -/
theorem find?_abort_self (v : Link) (c : CallId) : (v.abort c).calls.find? c = none := by
  show (v.calls.erase c).find? c = none
  rw [Directory.find?_erase, if_pos rfl]

/-- **What a call that writes does**: the line takes a front part of what is to be written,
and the call goes on with the rest or ends, well only when there is no rest. -/
theorem Deed.writing {rest : Bytes} (hd : Deed l c (.writing rest) l' events) :
    ∃ left, rest = l.growth l' ++ left ∧
      (∀ phase', l'.calls.find? c = some phase' → phase' = .writing left) ∧
      (.finished c .done ∈ events → left = []) := by
  have erased : ∀ (v : Link) {left : Bytes} (phase' : LinkPhase),
      (v.abort c).calls.find? c = some phase' → phase' = .writing left := fun v _ _ hf => by
    rw [find?_abort_self] at hf
    cases hf
  have not_noted := finished_notMem_noted (l := l) (c := c) c .done
  cases hd with
  | givesUp =>
    have hno : l.growth (l.abort c) = [] := growth_of_eq rfl
    exact ⟨rest, by rw [hno]; rfl, erased l, fun hm => by simp at hm⟩
  | writes line hw =>
    obtain ⟨front, left, rfl, hout, hdone, _⟩ := Line.exists_of_write hw
    exact ⟨left, by rw [growth_of_append hout], erased _, fun _ => hdone rfl⟩
  | writesPartly line hw =>
    obtain ⟨front, left, rfl, hout, _, hpartly⟩ := Line.exists_of_write hw
    obtain rfl := hpartly _ rfl
    refine ⟨left, by rw [growth_of_append hout], fun phase' hf => ?_,
      fun hm => absurd hm (not_noted line)⟩
    change (l.calls.put c (.writing left)).find? c = some phase' at hf
    rw [Directory.find?_put, if_pos rfl] at hf
    exact (Option.some.inj hf).symm
  | writeFails line _ hw hp =>
    obtain ⟨front, left, rfl, hout, _, _⟩ := Line.exists_of_write hw
    refine ⟨left, by rw [growth_of_append hout], erased _, fun hm => ?_⟩
    rcases hp with rfl | rfl
    · simp [not_noted line] at hm
    · simp [not_noted line] at hm

/-- **Only a call that writes adds to the line.** -/
theorem Deed.growth_eq_nil (hd : Deed l c phase l' events) (hw : ∀ rest, phase ≠ .writing rest) :
    l.growth l' = [] := by
  cases hd with
  | writes => exact absurd rfl (hw _)
  | writesPartly => exact absurd rfl (hw _)
  | writeFails => exact absurd rfl (hw _)
  | connects connects =>
    show l.line.connect.outbound.drop _ = []
    unfold Line.connect
    split
    · exact List.drop_length
    · exact List.drop_nil
  | reads line hr => exact growth_of_eq (Line.outbound_of_read hr)
  | readFails line _ _ hr => exact growth_of_eq (Line.outbound_of_read hr)
  | _ => exact growth_of_eq rfl

/-- **Calls only add to the line**, until the far end is reached anew. -/
theorem Deed.outbound_eq (hd : Deed l c phase l' events) (hno : .connected ∉ events) :
    l'.line.outbound = l.line.outbound ++ l.growth l' := by
  have same : l'.line.outbound = l.line.outbound →
      l'.line.outbound = l.line.outbound ++ l.growth l' := fun h => by
    rw [growth_of_eq h, h, List.append_nil]
  have adds : ∀ {front}, l'.line.outbound = l.line.outbound ++ front →
      l'.line.outbound = l.line.outbound ++ l.growth l' := fun h => by
    rw [growth_of_append h, h]
  cases hd with
  | connects => simp at hno
  | reads line hr => exact same (Line.outbound_of_read hr)
  | readFails line _ _ hr => exact same (Line.outbound_of_read hr)
  | writes line hw =>
    obtain ⟨_, _, _, hout, _⟩ := Line.exists_of_write hw
    exact adds hout
  | writesPartly line hw =>
    obtain ⟨_, _, _, hout, _⟩ := Line.exists_of_write hw
    exact adds hout
  | writeFails line _ hw =>
    obtain ⟨_, _, _, hout, _⟩ := Line.exists_of_write hw
    exact adds hout
  | _ => exact same rfl

/-! ### Where there is no half -/

end Link

/-- Whether a call has got hold of a half. -/
def Half.busy : Half → LinkPhase → Bool
  | .reader, .reading _ => true
  | .writer, .writing _ => true
  | _, _ => false

theorem Half.owns_of_busy {half : Half} {phase : LinkPhase} (h : half.busy phase = true) :
    half.owns phase = true := by
  cases half <;> cases phase <;> first | rfl | cases h

namespace Link

variable {l l' : Link} {c : CallId} {phase : LinkPhase} {half : Half} {events : List LinkEvent}

/-- Nobody can move bytes over a half: there is none, and nobody has got hold of it. -/
structure Bare (l : Link) (half : Half) : Prop where
  /-- There is no such half. -/
  gone : l.has half = false
  /-- Nobody has got hold of it. -/
  idle : ∀ c phase, l.calls.find? c = some phase → half.busy phase = false

/-- Whoever comes to hold a half had it before, or found it there. -/
theorem Deed.busy_cases (hd : Deed l c phase l' events) {phase' : LinkPhase}
    (hf : l'.calls.find? c = some phase') (hb : half.busy phase' = true) :
    half.busy phase = true ∨ l.has half = true := by
  cases hd.goesOn hf with
  | getsWriter _ hw =>
    cases half with
    | reader => cases hb
    | writer => exact Or.inr hw
  | getsReader _ hr =>
    cases half with
    | reader => exact Or.inr hr
    | writer => cases hb
  | writesPartly =>
    cases half with
    | reader => cases hb
    | writer => exact Or.inl rfl
  | _ => cases half <;> cases hb

/-- **Nobody gets hold of a half that is not there**, until the far end is reached. -/
theorem Bare.happens {o : Occurrence} (h : l.Bare half) (ho : Happens l o l')
    (hno : o.reaches = false) : l'.Bare half := by
  rcases happens_cases ho with ⟨c, events, phase, rfl, hf, hd⟩ | ⟨i, rfl, rfl⟩
  · refine ⟨Bool.eq_false_iff.mpr fun ht => ?_,
      fun d phase' hf' => Bool.eq_false_iff.mpr fun hb => ?_⟩
    · have hhas := (hd.recedes (of_decide_eq_false hno)).2 half ht
      rw [h.gone] at hhas
      cases hhas
    · by_cases he : d = c
      · subst he
        rcases hd.busy_cases hf' hb with hbusy | hhas
        · rw [h.idle d phase hf] at hbusy
          cases hbusy
        · rw [h.gone] at hhas
          cases hhas
      · rw [hd.other _ he] at hf'
        rw [h.idle d phase' hf'] at hb
        cases hb
  · have hhas : (l.apply i).has half = l.has half := by cases i <;> cases half <;> rfl
    refine ⟨hhas.trans h.gone, fun d phase' hf' => ?_⟩
    cases i with
    | begin call =>
      rw [apply, find?_calls_begin] at hf'
      split at hf'
      · cases hf'
        cases half <;> rfl
      · exact h.idle d phase' hf'
    | drop c =>
      change (l.calls.erase c).find? d = _ at hf'
      rw [Directory.find?_erase] at hf'
      split at hf'
      · cases hf'
      · exact h.idle d phase' hf'
    | farEnd line connects => exact h.idle d phase' hf'

/-- Where the call that holds a lock takes the half away and does not keep it, nobody has
got hold of it. -/
theorem Locked.bare_of_first (h : l.Locked) (hfirst : (l.lineOf half).head? = some c)
    (hother : ∀ d, d ≠ c → l'.calls.find? d = l.calls.find? d) (hgone : l'.has half = false)
    (hself : ∀ phase', l'.calls.find? c = some phase' → half.busy phase' = false) :
    l'.Bare half := by
  refine ⟨hgone, fun d phase' hf' => ?_⟩
  by_cases he : d = c
  · exact hself phase' (he ▸ hf')
  · rw [hother d he] at hf'
    refine Bool.eq_false_iff.mpr fun hb => he ?_
    have hhead := (h.inLine half).first d phase' hf' (Half.owns_of_busy hb)
    exact (Option.some.inj (hfirst.symm.trans hhead)).symm

/-! ### What a call was asked for -/

/-- What a call that begins is asked for. -/
def Occurrence.asks? : Occurrence → Option LinkCall
  | .input (.begin call) => some call
  | _ => none

/-- A call began, and was asked for this. -/
def Began (past : List (Link × Occurrence)) (c : CallId) (call : LinkCall) : Prop :=
  ∃ m ∈ past, m.2.asks? = some call ∧ m.1.nextCall = c

instance (past : List (Link × Occurrence)) (c : CallId) (call : LinkCall) :
    Decidable (Began past c call) :=
  inferInstanceAs (Decidable (∃ m ∈ past, m.2.asks? = some call ∧ m.1.nextCall = c))

end Link

/-- Whether a call that was asked for something can be in a phase. -/
def LinkPhase.Follows (call : LinkCall) : LinkPhase → Prop
  | .begun call' => call' = call
  | .sendTurn bytes => call = .send bytes
  | phase => phase.kind = call.kind

theorem LinkPhase.Follows.kind_eq {call : LinkCall} {phase : LinkPhase}
    (h : phase.Follows call) :
    phase.kind = call.kind := by
  cases phase with
  | begun => exact congrArg LinkCall.kind h
  | sendTurn => cases h; rfl
  | _ => exact h

namespace Link

variable {l l' : Link} {c : CallId} {phase : LinkPhase} {events : List LinkEvent}

/-- A call goes on with what it was asked for. -/
theorem Deed.follows {call : LinkCall} (hd : Deed l c phase l' events) (h : phase.Follows call)
    {phase' : LinkPhase} (hf : l'.calls.find? c = some phase') : phase'.Follows call := by
  cases hd.goesOn hf with
  | asksOpen | asksClose | asksReceive => exact congrArg LinkCall.kind h
  | asksSend => exact h.symm
  | getsWriter => exact (congrArg LinkCall.kind h).symm
  | _ => exact h

/-- The calls are numbered in the order in which they began, and every call under way
goes on with what it was asked for. -/
structure Recalls (past : List (Link × Occurrence)) (l : Link) : Prop where
  /-- Calls bear numbers that were given out. -/
  numbered : ∀ c call, Began past c call → c < l.nextCall
  /-- A call was asked for one thing. -/
  once : ∀ c call call', Began past c call → Began past c call' → call = call'
  /-- A call under way began, and does what it was asked for. -/
  follows : ∀ c phase, l.calls.find? c = some phase → ∃ call, Began past c call ∧ phase.Follows call

theorem Began.cons {past : List (Link × Occurrence)} {call : LinkCall} (h : Began past c call)
    (m : Link × Occurrence) : Began (m :: past) c call := by
  obtain ⟨b, hb, h⟩ := h
  exact ⟨b, List.mem_cons_of_mem m hb, h⟩

/-- Whoever began did so before, or has just begun. -/
theorem Began.of_cons {past : List (Link × Occurrence)} {call : LinkCall} {o : Occurrence}
    (h : Began ((l, o) :: past) c call) :
    Began past c call ∨ o.asks? = some call ∧ l.nextCall = c := by
  obtain ⟨m, hm, h⟩ := h
  rcases List.mem_cons.mp hm with rfl | hm
  · exact Or.inr h
  · exact Or.inl ⟨m, hm, h⟩

/-- **Whatever happens leaves the calls with what they were asked for.** -/
theorem recalls_happens {past : List (Link × Occurrence)} {o : Occurrence} (ho : Happens l o l')
    (h : Recalls past l) : Recalls ((l, o) :: past) l' := by
  have before : ∀ {c call}, o.asks? = none → Began ((l, o) :: past) c call →
      Began past c call := fun hno hb => hb.of_cons.resolve_right fun hb => by
    rw [hno] at hb
    cases hb.1
  have keeps : o.asks? = none → l'.nextCall = l.nextCall →
      (∀ c phase', l'.calls.find? c = some phase' → ∃ call, Began past c call ∧
        phase'.Follows call) → Recalls ((l, o) :: past) l' := fun hno hn hf =>
    { numbered := fun c call hb => hn ▸ h.numbered c call (before hno hb)
      once := fun c call call' hb hb' => h.once c call call' (before hno hb) (before hno hb')
      follows := fun c phase' hf' => by
        obtain ⟨call, hb, hp⟩ := hf c phase' hf'
        exact ⟨call, hb.cons _, hp⟩ }
  rcases happens_cases ho with ⟨c, events, phase, rfl, hf, hd⟩ | ⟨i, rfl, rfl⟩
  · refine keeps rfl hd.nextCall_eq fun d phase' hf' => ?_
    by_cases he : d = c
    · subst he
      obtain ⟨call, hb, hp⟩ := h.follows d phase hf
      exact ⟨call, hb, hd.follows hp hf'⟩
    · rw [hd.other d he] at hf'
      exact h.follows d phase' hf'
  cases i with
  | begin call =>
    have numbered : ∀ {c call'}, Began past c call' → c ≠ l.nextCall := fun hb =>
      Nat.ne_of_lt (h.numbered _ _ hb)
    refine ⟨fun c call' hb => ?_, fun c call' call'' hb hb' => ?_, fun c phase' hf => ?_⟩
    · rcases hb.of_cons with hb | ⟨_, rfl⟩
      · exact Nat.lt_succ_of_lt (h.numbered c call' hb)
      · exact Nat.lt_succ_self _
    · rcases hb.of_cons with hb | ⟨he, rfl⟩
      · rcases hb'.of_cons with hb' | ⟨_, rfl⟩
        · exact h.once c _ _ hb hb'
        · exact absurd rfl (numbered hb)
      · rcases hb'.of_cons with hb' | ⟨he', _⟩
        · exact absurd rfl (numbered hb')
        · cases he
          cases he'
          rfl
    · rw [apply, find?_calls_begin] at hf
      split at hf
      · next he =>
        cases hf
        exact ⟨call, ⟨_, List.mem_cons_self, rfl, he⟩, rfl⟩
      · obtain ⟨call', hb, hp⟩ := h.follows c phase' hf
        exact ⟨call', hb.cons _, hp⟩
  | drop c =>
    refine keeps rfl rfl fun d phase' hf => h.follows d phase' ?_
    change (l.calls.erase c).find? d = some phase' at hf
    rw [Directory.find?_erase] at hf
    split at hf
    · cases hf
    · exact hf
  | farEnd line connects => exact keeps rfl rfl h.follows

theorem recalls_fresh (endpoint : String) (capacity : Option Nat)
    (connects : List (Option LinkError)) : Recalls [] (fresh endpoint capacity connects) where
  numbered := fun _ _ hb => by
    obtain ⟨_, hm, _⟩ := hb
    cases hm
  once := fun _ _ _ hb _ => by
    obtain ⟨_, hm, _⟩ := hb
    cases hm
  follows := fun _ _ hf => by cases hf

theorem recalls_of_history {endpoint : String} {capacity : Option Nat}
    {connects : List (Option LinkError)} {past : List (Link × Occurrence)}
    (h : History (fresh endpoint capacity connects) past l) : Recalls past l := by
  generalize hl₀ : fresh endpoint capacity connects = l₀ at h
  induction h with
  | nil =>
    subst hl₀
    exact recalls_fresh endpoint capacity connects
  | cons _ ho ih => exact recalls_happens ho ih

end Link

end ZoneBus
