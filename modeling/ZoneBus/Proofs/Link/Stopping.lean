import ZoneBus.Proofs.Link.Progress

/-!
# Closing is never kept waiting by the far end

A close publishes the closed state with its first move.  From then on calls that read or
write may give up, so whoever stands before the close in a line comes to move on, and the
close takes the two halves one after the other.  Once it has taken them, nobody moves bytes
any more until the far end is reached anew, and whoever is still in line for a half finds
it gone when it is his turn; an open that begins later stands behind him.

What the far end does, or fails to do, does not matter to any of this.  What matters is that
a call that can move all the time does so at some time.

## Main definitions

* `Link.Unopened` — no open is under way.
* `Link.Closes` — how far a close has come that no open crosses.
* `Link.Behind` — a call is in line for a half that is gone, and no open stands before it.
* `Link.Run`, `Link.Run.Fair` — a link that goes on for ever, and leaves nobody behind.
* `Link.Run.Uncrossed` — a close begins that is not dropped and that no open overlaps.

## Main results

* `Link.Run.exists_end` — a call ends if whoever it waits for can always move.
* `Link.Run.exists_of_history` — every history that comes to rest begins a fair run.
* `Link.closing_never_gets_stuck` — **no circle of waiting calls once a link is not open, and
  no waiting for the far end once it closes.**
-/

namespace ZoneBus

/-- Whether a call is a send or a receive that has got in line. -/
def LinkPhase.carries : LinkPhase → Bool
  | .sendTurn _ | .writing _ | .receiveTurn _ | .reading _ => true
  | _ => false

namespace Link

variable {l l' : Link} {c d e : CallId} {phase : LinkPhase} {half : Half}
  {events : List LinkEvent} {o : Occurrence}

/-! ### Calls come and go -/

/-- No open is under way. -/
def Unopened (l : Link) : Prop := ∀ c phase, l.calls.find? c = some phase → phase.kind ≠ .opening

/-- Without opens, the far end is not reached. -/
theorem Unopened.not_reaches (h : l.Unopened) (ho : Happens l o l') : o.reaches = false := by
  rcases happens_cases ho with ⟨c, events, phase, rfl, hf, hd⟩ | ⟨i, rfl, _⟩
  · refine decide_eq_false fun hr => ?_
    obtain ⟨rfl, _⟩ := hd.eq_reached hr
    exact h c _ hf rfl
  · rfl

/-- A call that is under way afterwards was so before, if its number was given out, and is
where it was unless it moved. -/
theorem before_happens (ho : Happens l o l') (hlt : c < l.nextCall)
    (hf' : l'.calls.find? c = some phase) :
    l.calls.find? c = some phase ∨ ∃ events before, o = .move c events ∧
      l.calls.find? c = some before ∧ Deed l c before l' events := by
  rcases happens_cases ho with ⟨d, events, before, rfl, hf, hd⟩ | ⟨i, rfl, rfl⟩
  · by_cases he : c = d
    · subst he
      exact Or.inr ⟨events, before, rfl, hf, hd⟩
    · rw [hd.other c he] at hf'
      exact Or.inl hf'
  · cases i with
    | begin call =>
      rw [apply, find?_calls_begin, if_neg (Nat.ne_of_gt hlt)] at hf'
      exact Or.inl hf'
    | drop d =>
      change (l.calls.erase d).find? c = _ at hf'
      rw [Directory.find?_erase] at hf'
      split at hf'
      · cases hf'
      · exact Or.inl hf'
    | farEnd line connects => exact Or.inl hf'

theorem nextCall_le_happens (ho : Happens l o l') : l.nextCall ≤ l'.nextCall := by
  rcases happens_cases ho with ⟨d, events, before, rfl, hf, hd⟩ | ⟨i, rfl, rfl⟩
  · exact hd.nextCall_eq.ge
  · cases i with
    | begin call => exact Nat.le_succ _
    | drop d => exact Nat.le_refl _
    | farEnd line connects => exact Nat.le_refl _

/-- A send or a receive in line is that to its end. -/
theorem Deed.carries (hd : Deed l c phase l' events) (hc : phase.carries = true)
    {phase' : LinkPhase} (hf : l'.calls.find? c = some phase') : phase'.carries = true := by
  cases hd.goesOn hf with
  | getsWriter | getsReader | writesPartly => rfl
  | _ => cases hc

/-! ### A close under way -/

/-- How far a close has come that no open crosses: it has not moved yet, or it has published
the closed state, and has taken the writing half before it comes to the reading half. -/
def Closes (l : Link) (e : CallId) : Prop :=
  l.calls.find? e = some (.begun .close) ∨
    l.state ≠ .open ∧ ∃ phase, l.calls.find? e = some phase ∧ phase.isClosing = true ∧
      (phase = .closeWriter ∨ l.Bare .writer)

/-- Whoever a close waits for can move. -/
theorem Closes.exists_move (h : l.Closes e) (hl : l.Locked) (hno : l.Unopened)
    (hw : l.WaitsFor e d) : l.moves d ≠ [] := by
  obtain ⟨phase, hf, hd⟩ := hw
  rcases h with hbegun | ⟨hs, phase', hf', hc, _⟩
  · obtain rfl := Option.some.inj (hbegun.symm.trans hf)
    obtain rfl : d = e := hd
    rw [moves, hf]
    exact List.cons_ne_nil _ _
  · obtain rfl := Option.some.inj (hf'.symm.trans hf)
    have reader : ∀ {d}, l.readerLock.head? = some d → l.moves d ≠ [] := fun hd =>
      (hl.reader_head_cases hs hd).resolve_right fun ho => hno _ _ ho rfl
    cases phase' with
    | closeWriter => exact hl.exists_writer_move hs hd
    | shuttingDown => exact hl.exists_writer_move hs hd
    | closeReader => exact reader hd
    | _ => cases hc

/-- A move of the close takes it on, or it has taken both halves and ends. -/
theorem Closes.self (h : l.Closes e) (hl : l.Locked) (hno : l.Unopened)
    (hf : l.calls.find? e = some phase) (ho : Happens l (.move e events) l')
    (hd : Deed l e phase l' events) :
    l'.Closes e ∨ l'.calls.find? e = none ∧ l'.Unopened ∧ ∀ half, l'.Bare half := by
  have put : ∀ {phase'}, (l.calls.put e phase').find? e = some phase' := fun {phase'} => by
    rw [Directory.find?_put, if_pos rfl]
  have single : ∀ {phase' phase''}, (l.calls.put e phase').find? e = some phase'' →
      phase'' = phase' := fun hp => (Option.some.inj (put.symm.trans hp)).symm
  have hother := hd.other
  rcases h with hbegun | ⟨hs, phase', hf', hc, hbare⟩
  · obtain rfl := Option.some.inj (hbegun.symm.trans hf)
    cases hd with
    | asksClose => exact Or.inl (Or.inr ⟨by simp [queueWriter, advance], _, put, rfl, Or.inl rfl⟩)
    | givesUp _ hp => simp at hp
  · obtain rfl := Option.some.inj (hf'.symm.trans hf)
    cases hd with
    | takesWriter hl' _ =>
      have hfirst : (l.lineOf .writer).head? = some e := beq_iff_eq.mp hl'
      refine Or.inl (Or.inr ⟨hs, _, put, rfl, Or.inr ?_⟩)
      refine hl.bare_of_first hfirst hother rfl fun phase' hp => ?_
      rw [single hp]
      rfl
    | missesWriter hl' hw =>
      have hfirst : (l.lineOf .writer).head? = some e := beq_iff_eq.mp hl'
      refine Or.inl (Or.inr ⟨hs, _, put, rfl, Or.inr ?_⟩)
      refine hl.bare_of_first hfirst hother hw fun phase' hp => ?_
      rw [single hp]
      rfl
    | shutsDown =>
      have hbare := hbare.resolve_left (by simp)
      exact Or.inl (Or.inr ⟨hs, _, put, rfl, Or.inr (hbare.happens ho (hno.not_reaches ho))⟩)
    | takesReader hl' =>
      have hbare := hbare.resolve_left (by simp)
      refine Or.inr ⟨find?_abort_self _ _, fun c phase hf => ?_, fun half => ?_⟩
      · by_cases he : c = e
        · subst he
          rw [find?_abort_self] at hf
          cases hf
        · rw [hother c he] at hf
          exact hno c phase hf
      · cases half with
        | writer => exact hbare.happens ho (hno.not_reaches ho)
        | reader =>
          have hfirst : (l.lineOf .reader).head? = some e := beq_iff_eq.mp hl'
          refine hl.bare_of_first hfirst hother rfl fun _ hp => ?_
          rw [find?_abort_self] at hp
          cases hp
    | givesUp _ hp =>
      rcases hp with ⟨_, rfl⟩ | ⟨_, rfl⟩
      · cases hc
      · cases hc
    | _ => cases hc

/-- **A close that no open crosses goes on, or has taken both halves and ends.** -/
theorem Closes.happens (h : l.Closes e) (hl : l.Locked) (hno : l.Unopened) (ho : Happens l o l')
    (hkept : o ≠ .input (.drop e)) :
    l'.Closes e ∨ l'.calls.find? e = none ∧ l'.Unopened ∧ ∀ half, l'.Bare half := by
  have hnot := hno.not_reaches ho
  have stays : (l'.state = .open → l.state = .open) → l'.calls.find? e = l.calls.find? e →
      l'.Closes e := fun hs hf => by
    refine h.imp (hf.trans ·) fun ⟨hs', phase, hp, hc, hbare⟩ => ?_
    exact ⟨fun ho => hs' (hs ho), phase, hf.trans hp, hc, hbare.imp_right (·.happens ho hnot)⟩
  rcases happens_cases ho with ⟨c, events, phase, rfl, hf, hd⟩ | ⟨i, rfl, rfl⟩
  · by_cases he : e = c
    · subst he
      exact h.self hl hno hf ho hd
    · exact Or.inl (stays (hd.recedes (of_decide_eq_false hnot)).1 (hd.other e he))
  · refine Or.inl ?_
    cases i with
    | begin call =>
      have hlt : e < l.nextCall := by
        rcases h with hf | ⟨_, phase, hf, _⟩
        · exact hl.numbered e _ hf
        · exact hl.numbered e _ hf
      exact stays id (by rw [apply, find?_calls_begin, if_neg (Nat.ne_of_gt hlt)])
    | drop d =>
      refine stays id ?_
      show (l.calls.erase d).find? e = _
      rw [Directory.find?_erase, if_neg]
      rintro rfl
      exact hkept rfl
    | farEnd line connects => exact stays id rfl

/-! ### Behind a close -/

/-- A send or a receive is in line for a half that is gone, and no open stands before it. -/
structure Behind (l : Link) (c : CallId) (half : Half) : Prop where
  /-- The half is gone, and nobody has got hold of it. -/
  bare : l.Bare half
  /-- The call is in line for it. -/
  turn : ∃ call : LinkCall, call.half? = some half ∧ l.calls.find? c = some call.turn
  /-- No open stands before it. -/
  before : ∀ d ∈ (l.lineOf half).takeWhile (fun d => decide (d ≠ c)), ∀ phase,
    l.calls.find? d = some phase → phase.kind ≠ .opening

theorem awaits_turn {call : LinkCall} (hcall : call.half? = some half) :
    call.turn.awaits = some half := by
  cases call with
  | send => exact hcall
  | receive => exact hcall
  | _ => cases hcall

theorem kind_turn {call : LinkCall} (hcall : call.half? = some half) :
    call.turn.kind ≠ .opening := by
  cases call with
  | send => simp [LinkCall.turn, LinkPhase.kind]
  | receive => simp [LinkCall.turn, LinkPhase.kind]
  | _ => cases hcall

/-- Whoever stands first in the line for a half that is gone can move, unless it is an
open. -/
theorem Bare.exists_move (h : l.Bare half) (hl : l.Locked)
    (hfirst : (l.lineOf half).head? = some d)
    (hno : ∀ phase, l.calls.find? d = some phase → phase.kind ≠ .opening) : l.moves d ≠ [] := by
  obtain ⟨phase, hf, hq⟩ := ((hl.inLine half).mem_iff d).mp (List.mem_of_mem_head? hfirst)
  have hidle := h.idle d phase hf
  have hkind := hno phase hf
  rw [moves, hf]
  show l.movesIn d phase ≠ []
  cases half with
  | writer =>
    have hholds : l.holdsWriter d = true := beq_iff_eq.mpr hfirst
    cases phase with
    | closeWriter =>
      rw [movesIn, if_pos hholds]
      split <;> simp
    | shuttingDown => simp [movesIn]
    | sendTurn bytes =>
      rw [movesIn, if_pos hholds]
      split <;> simp
    | writing rest => cases hidle
    | openWriter => exact absurd rfl hkind
    | connecting => exact absurd rfl hkind
    | _ => cases hq
  | reader =>
    have hholds : l.holdsReader d = true := beq_iff_eq.mpr hfirst
    cases phase with
    | closeReader => rw [movesIn, if_pos hholds]; simp
    | receiveTurn most =>
      rw [movesIn, if_pos hholds]
      split <;> simp
    | reading most => cases hidle
    | openReader => exact absurd rfl hkind
    | openWriter => exact absurd rfl hkind
    | connecting => exact absurd rfl hkind
    | _ => cases hq

namespace Behind

/-- Whoever is first in line is before the call, or the call itself. -/
theorem kind_of_first (h : l.Behind c half) (hfirst : (l.lineOf half).head? = some d)
    (hf : l.calls.find? d = some phase) : phase.kind ≠ .opening := by
  by_cases he : d = c
  · subst he
    obtain ⟨call, hcall, hturn⟩ := h.turn
    obtain rfl := Option.some.inj (hturn.symm.trans hf)
    exact kind_turn hcall
  · refine h.before d ?_ phase hf
    generalize l.lineOf half = line at hfirst
    cases line with
    | nil => cases hfirst
    | cons i rest =>
      obtain rfl := Option.some.inj hfirst
      rw [List.takeWhile_cons_of_pos (by simpa using he)]
      exact List.mem_cons_self

theorem exists_move (h : l.Behind c half) (hl : l.Locked) (hw : l.WaitsFor c d) :
    l.moves d ≠ [] := by
  obtain ⟨call, hcall, hturn⟩ := h.turn
  obtain ⟨phase, hf, hd⟩ := hw
  obtain rfl := Option.some.inj (hturn.symm.trans hf)
  have hfirst : (l.lineOf half).head? = some d := by rwa [awaits_turn hcall] at hd
  exact h.bare.exists_move hl hfirst fun phase hf => h.kind_of_first hfirst hf

/-- Nobody reaches the far end past a call that is in line. -/
theorem not_reaches (h : l.Behind c half) (hl : l.Locked) (ho : Happens l o l') :
    o.reaches = false := by
  rcases happens_cases ho with ⟨e, events, phase, rfl, hf, hd⟩ | ⟨i, rfl, _⟩
  · refine decide_eq_false fun hr => ?_
    obtain ⟨rfl, _⟩ := hd.eq_reached hr
    have hfirst : (l.lineOf half).head? = some e :=
      (hl.inLine half).first e _ hf (by cases half <;> rfl)
    exact h.kind_of_first hfirst hf rfl
  · rfl

/-- **A call in line for a half that is gone stays so, or ends.** -/
theorem happens (h : l.Behind c half) (hl : l.Locked) (ho : Happens l o l') :
    l'.calls.find? c = none ∨ l'.Behind c half := by
  have hbare := h.bare.happens ho (h.not_reaches hl ho)
  obtain ⟨call, hcall, hturn⟩ := h.turn
  have hmem := hl.mem_line hturn (awaits_turn hcall)
  -- another call comes further, or is gone, and none of those before was an open
  have touched : ∀ {e}, c ≠ e → Touches e l l' →
      (∀ phase', l'.calls.find? e = some phase' → ∃ phase, l.calls.find? e = some phase ∧
        phase.kind = phase'.kind) → l'.Behind c half := fun {e} hne ht hkind => by
    refine ⟨hbare, ⟨call, hcall, (ht.other c hne).trans hturn⟩, fun d hd phase' hf' => ?_⟩
    have hd := ((ht.lines half).takeWhile_sublist hne hmem).subset hd
    by_cases hde : d = e
    · subst hde
      obtain ⟨phase, hf, hk⟩ := hkind phase' hf'
      exact hk ▸ h.before d hd phase hf
    · rw [ht.other d hde] at hf'
      exact h.before d hd phase' hf'
  rcases happens_cases ho with ⟨e, events, phase, rfl, hf, hd⟩ | ⟨i, rfl, rfl⟩
  · by_cases he : c = e
    · subst he
      obtain rfl := Option.some.inj (hturn.symm.trans hf)
      obtain ⟨_, ⟨hhas, _⟩ | ⟨_, rfl, _⟩⟩ := hd.turn_carrier hcall
      · rw [h.bare.gone] at hhas
        cases hhas
      · exact Or.inl (find?_abort_self l c)
    · refine Or.inr (touched he (hd.touches hf) fun phase' hf' => ?_)
      obtain ⟨hm⟩ := ho
      exact (keeps_of_mem_moves hm).2 e (hl.numbered e phase hf) phase' hf'
  · cases i with
    | drop e =>
      by_cases he : c = e
      · subst he
        exact Or.inl (find?_abort_self l c)
      · refine Or.inr (touched he (touches_abort l e) fun phase' hf' => ?_)
        rw [apply, find?_abort_self] at hf'
        cases hf'
    | begin call' =>
      have hlt := hl.numbered c _ hturn
      have hline : (l.apply (.begin call')).lineOf half = l.lineOf half := by cases half <;> rfl
      refine Or.inr ⟨hbare, ⟨call, hcall, ?_⟩, fun d hd phase hf => ?_⟩
      · rw [apply, find?_calls_begin, if_neg (Nat.ne_of_gt hlt), hturn]
      · rw [hline] at hd
        have hmem' : d ∈ l.lineOf half := (List.takeWhile_sublist _).subset hd
        obtain ⟨phase', hf', _⟩ := ((hl.inLine half).mem_iff d).mp hmem'
        rw [apply, find?_calls_begin, if_neg (Nat.ne_of_gt (hl.numbered d _ hf'))] at hf
        exact h.before d hd phase hf
    | farEnd line connects =>
      have hline : (l.apply (.farEnd line connects)).lineOf half = l.lineOf half := by
        cases half <;> rfl
      exact Or.inr ⟨hbare, ⟨call, hcall, hturn⟩, fun d hd => h.before d (hline ▸ hd)⟩

end Behind

/-- **A send or a receive that is in line when a close ends stands behind nobody but those
who find the half gone.** -/
theorem behind_of_carries (hbare : ∀ half, l.Bare half) (hno : l.Unopened)
    (hf : l.calls.find? c = some phase) (hc : phase.carries = true) : ∃ half, l.Behind c half := by
  cases phase with
  | sendTurn bytes =>
    exact ⟨.writer, hbare _, ⟨.send bytes, rfl, hf⟩, fun d _ phase hf => hno d phase hf⟩
  | receiveTurn most =>
    exact ⟨.reader, hbare _, ⟨.receive most, rfl, hf⟩, fun d _ phase hf => hno d phase hf⟩
  | writing rest => cases (hbare .writer).idle c _ hf
  | reading most => cases (hbare .reader).idle c _ hf
  | _ => cases hc

/-! ### Runs -/

/-- A link that goes on for ever. -/
structure Run where
  /-- The link at each time. -/
  state : ℕ → Link
  /-- What happens then. -/
  what : ℕ → Occurrence
  /-- It leads to the link at the next time. -/
  step : ∀ k, Happens (state k) (what k) (state (k + 1))

namespace Run

/-- Whether a call is under way at a time. -/
def Under (ρ : Run) (k : ℕ) (c : CallId) : Prop := (ρ.state k).calls.find? c ≠ none

/-- A call that can move from some time on does so at some time. -/
def Fair (ρ : Run) : Prop :=
  ∀ c n, (∀ k, n ≤ k → (ρ.state k).moves c ≠ []) → ∃ k, n ≤ k ∧ ∃ events, ρ.what k = .move c events

/-- A close begins that is not dropped, and no open is under way as long as it is. -/
structure Uncrossed (ρ : Run) (n : ℕ) (e : CallId) : Prop where
  /-- The close begins. -/
  begun : (ρ.state n).calls.find? e = some (.begun .close)
  /-- It is not dropped. -/
  kept : ∀ k, n ≤ k → ρ.what k ≠ .input (.drop e)
  /-- No open overlaps it. -/
  alone : ∀ k, n ≤ k → ρ.Under k e → (ρ.state k).Unopened

variable {ρ : Run} {n : ℕ}

theorem locked (hl : (ρ.state 0).Locked) (n : ℕ) : (ρ.state n).Locked := by
  induction n with
  | zero => exact hl
  | succ n ih => exact locked_happens (ρ.step n) ih

theorem nextCall_le {k : ℕ} (hk : n ≤ k) : (ρ.state n).nextCall ≤ (ρ.state k).nextCall := by
  induction k, hk using Nat.le_induction with
  | base => exact Nat.le_refl _
  | succ k _ ih => exact Nat.le_trans ih (nextCall_le_happens (ρ.step k))

/-- Who has ended does not come back. -/
theorem gone (hlt : c < (ρ.state n).nextCall) (hend : (ρ.state n).calls.find? c = none) {k : ℕ}
    (hk : n ≤ k) : (ρ.state k).calls.find? c = none := by
  induction k, hk using Nat.le_induction with
  | base => exact hend
  | succ k hk ih =>
    cases hf : (ρ.state (k + 1)).calls.find? c with
    | none => rfl
    | some phase =>
      rcases before_happens (ρ.step k) (Nat.lt_of_lt_of_le hlt (nextCall_le hk)) hf with
        hf | ⟨_, _, _, hf, _⟩
      · rw [ih] at hf
        cases hf
      · rw [ih] at hf
        cases hf

theorem under_of_le (hlt : c < (ρ.state n).nextCall) {j k : ℕ} (hj : n ≤ j) (hk : j ≤ k)
    (hu : ρ.Under k c) : ρ.Under j c := fun hend =>
  hu (gone (Nat.lt_of_lt_of_le hlt (nextCall_le hj)) hend hk)

/-- What each step keeps for a call holds as long as the call is under way. -/
theorem holds_while_under {P : Link → Prop} (hlt : c < (ρ.state n).nextCall) (hP : P (ρ.state n))
    (keep : ∀ k, n ≤ k → ρ.Under k c → P (ρ.state k) → ρ.Under (k + 1) c → P (ρ.state (k + 1)))
    {k : ℕ} (hk : n ≤ k) (hu : ρ.Under k c) : P (ρ.state k) := by
  induction k, hk using Nat.le_induction with
  | base => exact hP
  | succ k hk ih =>
    have hbefore := under_of_le hlt hk (Nat.le_succ k) hu
    exact keep k hk hbefore (ih hbefore) hu

/-! ### Ends -/

/-- A call that waits comes nearer to its end: otherwise it would wait for the same one for
ever, who could move all the time. -/
theorem exists_rank_lt (hl : (ρ.state 0).Locked) (hfair : ρ.Fair)
    (hmoves : ∀ k, n ≤ k → ∀ d, (ρ.state k).WaitsFor c d → (ρ.state k).moves d ≠ [])
    (hu : ρ.Under n c) : ∃ k, n ≤ k ∧ (ρ.state k).rank c < (ρ.state n).rank c := by
  by_contra hnever
  push Not at hnever
  obtain ⟨phase, hf⟩ := Option.ne_none_iff_exists'.mp hu
  obtain ⟨d, hd⟩ := (locked hl n).exists_waitsFor hf
  have hwaits : ∀ k, n ≤ k →
      (ρ.state k).rank c ≤ (ρ.state n).rank c ∧ (ρ.state k).WaitsFor c d := by
    intro k hk
    induction k, hk using Nat.le_induction with
    | base => exact ⟨le_refl _, hd⟩
    | succ k hk ih =>
      rcases rank_happens (ρ.step k) (locked hl k) ih.2 with hlt | ⟨hle, hw, _⟩
      · exact absurd (hlt.trans_le ih.1) (hnever (k + 1) (by omega)).not_gt
      · exact ⟨hle.trans ih.1, hw⟩
  obtain ⟨k, hk, events, hmove⟩ := hfair d n fun k hk => hmoves k hk d (hwaits k hk).2
  rcases rank_happens (ρ.step k) (locked hl k) (hwaits k hk).2 with hlt | ⟨_, _, hother⟩
  · exact absurd (hlt.trans_le (hwaits k hk).1) (hnever (k + 1) (by omega)).not_gt
  · exact hother events hmove

/-- **A call comes to its end if whoever it waits for can always move.** -/
theorem exists_end (hl : (ρ.state 0).Locked) (hfair : ρ.Fair)
    (hmoves : ∀ k, n ≤ k → ∀ d, (ρ.state k).WaitsFor c d → (ρ.state k).moves d ≠ []) :
    ∃ k, n ≤ k ∧ (ρ.state k).calls.find? c = none := by
  -- the two numbers cannot fall for ever
  induction hr : (ρ.state n).rank c using WellFoundedLT.induction generalizing n with
  | _ r ih =>
    subst hr
    by_cases hu : ρ.Under n c
    · obtain ⟨k, hk, hlt⟩ := exists_rank_lt hl hfair hmoves hu
      obtain ⟨m, hm, hend⟩ := ih _ hlt (fun j hj => hmoves j (hk.trans hj)) rfl
      exact ⟨m, hk.trans hm, hend⟩
    · exact ⟨n, le_refl n, not_not.mp hu⟩

theorem under_of_waitsFor {k : ℕ} (hw : (ρ.state k).WaitsFor c d) : ρ.Under k c := by
  obtain ⟨phase, hf, _⟩ := hw
  rw [Under, hf]
  simp

namespace Uncrossed

theorem closes (h : ρ.Uncrossed n e) (hl : (ρ.state 0).Locked) {k : ℕ} (hk : n ≤ k)
    (hu : ρ.Under k e) : (ρ.state k).Closes e := by
  have hlt := (locked hl n).numbered e _ h.begun
  refine holds_while_under hlt (P := fun l => l.Closes e) (Or.inl h.begun)
    (fun k hk hu hc hu' => ?_) hk hu
  refine (hc.happens (locked hl k) (h.alone k hk hu) (ρ.step k) (h.kept k hk)).resolve_right ?_
  exact fun hend => hu' hend.1

/-- **A close that no open overlaps comes to its end**, and leaves no half and nobody who
has got hold of one. -/
theorem exists_closed (h : ρ.Uncrossed n e) (hl : (ρ.state 0).Locked) (hfair : ρ.Fair) :
    ∃ k, n ≤ k ∧ (∀ j, n ≤ j → ρ.Under j e → j ≤ k) ∧ (ρ.state k).calls.find? e = none ∧
      (ρ.state k).Unopened ∧ ∀ half, (ρ.state k).Bare half := by
  have hlt := (locked hl n).numbered e _ h.begun
  have hend := exists_end hl hfair fun k hk d hw =>
    (h.closes hl hk (under_of_waitsFor hw)).exists_move (locked hl k)
      (h.alone k hk (under_of_waitsFor hw)) hw
  classical
  obtain ⟨hk, hnone⟩ := Nat.find_spec hend
  have hfirst : ∀ j, n ≤ j → j < Nat.find hend → ρ.Under j e := fun j hj hlt hnone =>
    Nat.find_min hend hlt ⟨hj, hnone⟩
  generalize Nat.find hend = k at hk hnone hfirst
  obtain ⟨m, rfl⟩ : ∃ m, k = m + 1 := by
    refine Nat.exists_eq_succ_of_ne_zero ?_
    rintro rfl
    obtain rfl := Nat.le_zero.mp hk
    rw [h.begun] at hnone
    cases hnone
  have hm : n ≤ m := by
    refine Nat.le_of_lt_succ (lt_of_le_of_ne hk ?_)
    rintro rfl
    rw [h.begun] at hnone
    cases hnone
  have hu := hfirst m hm (Nat.lt_succ_self m)
  refine ⟨m + 1, hk, fun j hj hu' => ?_, hnone, ?_⟩
  · by_contra hlate
    exact hu' (gone (Nat.lt_of_lt_of_le hlt (nextCall_le hk)) hnone (by omega))
  · rcases (h.closes hl hm hu).happens (locked hl m) (h.alone m hm hu) (ρ.step m) (h.kept m hm) with
      hc | ⟨_, hclosed⟩
    · rcases hc with hf | ⟨_, _, hf, _⟩
      · rw [hnone] at hf
        cases hf
      · rw [hnone] at hf
        cases hf
    · exact hclosed

/-- **A send or a receive that is in line while a close is under way comes to its end.** -/
theorem exists_end_of_carries (h : ρ.Uncrossed n e) (hl : (ρ.state 0).Locked) (hfair : ρ.Fair)
    {j : ℕ} (hj : n ≤ j) (hu : ρ.Under j e) (hf : (ρ.state j).calls.find? c = some phase)
    (hc : phase.carries = true) : ∃ k, j ≤ k ∧ (ρ.state k).calls.find? c = none := by
  obtain ⟨m, _, hlast, _, hno, hbare⟩ := h.exists_closed hl hfair
  have hjm := hlast j hj hu
  have hlt := (locked hl j).numbered c _ hf
  by_cases hum : ρ.Under m c
  · obtain ⟨phase', hf', hc'⟩ := holds_while_under hlt
      (P := fun l => ∃ phase, l.calls.find? c = some phase ∧ phase.carries = true)
      ⟨phase, hf, hc⟩ (fun k hk _ hP hu' => by
        obtain ⟨phase, hf, hc⟩ := hP
        obtain ⟨phase', hf'⟩ := Option.ne_none_iff_exists'.mp hu'
        refine ⟨phase', hf', ?_⟩
        rcases before_happens (ρ.step k) (Nat.lt_of_lt_of_le hlt (nextCall_le hk)) hf' with
          hf₀ | ⟨_, _, _, hf₀, hd⟩
        · obtain rfl := Option.some.inj (hf.symm.trans hf₀)
          exact hc
        · obtain rfl := Option.some.inj (hf.symm.trans hf₀)
          exact hd.carries hc hf') hjm hum
    obtain ⟨half, hbehind⟩ := behind_of_carries hbare hno hf' hc'
    have hltm := (locked hl m).numbered c _ hf'
    obtain ⟨k, hk, hend⟩ := exists_end hl hfair (n := m) (c := c) fun k hk d hw => by
      have hbehind' := holds_while_under hltm (P := fun l => l.Behind c half) hbehind
        (fun k hk _ hP hu' => (hP.happens (locked hl k) (ρ.step k)).resolve_left hu') hk
        (under_of_waitsFor hw)
      exact hbehind'.exists_move (locked hl k) hw
    exact ⟨k, hjm.trans hk, hend⟩
  · exact ⟨m, hjm, not_not.mp hum⟩

end Uncrossed

end Run

/-- **Closing never gets stuck.**  In every history, whatever calls are under way, some call
can move as long as the link is not open.  And whatever happens from then on, the far end
reading and writing or not, as long as a call that can move all the time does so at some
time: a close that is not dropped and that no open overlaps comes to its end, and so does
every send and every receive that is in line, or moves bytes, while it is under way. -/
theorem closing_never_gets_stuck {endpoint : String} {capacity : Option Nat}
    {connects : List (Option LinkError)} {past : List (Link × Occurrence)}
    (h : History (fresh endpoint capacity connects) past l) :
    (l.state ≠ .open → ∀ c phase, l.calls.find? c = some phase → ∃ d, l.moves d ≠ []) ∧
    ∀ ρ : Run, ρ.state 0 = l → ρ.Fair → ∀ n e, ρ.Uncrossed n e →
      (∃ k, n ≤ k ∧ (ρ.state k).calls.find? e = none) ∧
      ∀ j, n ≤ j → ρ.Under j e → ∀ c phase, (ρ.state j).calls.find? c = some phase →
        phase.carries = true → ∃ k, j ≤ k ∧ (ρ.state k).calls.find? c = none := by
  have hl : l.Locked := locked_of_history h
  refine ⟨fun hs c phase hf => hl.exists_move hs hf, ?_⟩
  rintro ρ rfl hfair n e hcloses
  obtain ⟨k, hk, _, hend, _⟩ := hcloses.exists_closed hl hfair
  exact ⟨⟨k, hk, hend⟩, fun j hj hu c phase hf hc =>
    hcloses.exists_end_of_carries hl hfair hj hu hf hc⟩

namespace Run

/-- A link to which nothing happens but that the far end stays as it is. -/
def rest (l : Link) : Run where
  state _ := l
  what _ := .input (.farEnd l.line l.connects)
  step _ := .input (Input.farEnd l.line l.connects)

theorem fair_rest (h : ∀ c, l.moves c = []) : (rest l).Fair :=
  fun c n hm => absurd (h c) (hm n (Nat.le_refl n))

/-- Something happens, and then everything else. -/
def cons (ρ : Run) (ho : Happens l o (ρ.state 0)) : Run where
  state := fun
    | 0 => l
    | k + 1 => ρ.state k
  what := fun
    | 0 => o
    | k + 1 => ρ.what k
  step := fun
    | 0 => ho
    | k + 1 => ρ.step k

theorem Fair.cons {ρ : Run} (h : ρ.Fair) (ho : Happens l o (ρ.state 0)) : (ρ.cons ho).Fair := by
  intro c n hm
  obtain ⟨k, hk, events, hmove⟩ := h c n fun k hk => hm (k + 1) (Nat.le_succ_of_le hk)
  exact ⟨k + 1, Nat.le_succ_of_le hk, events, hmove⟩

/-- What happened before a run, and the run. -/
theorem exists_after {past : List (Link × Occurrence)} (h : History l past l') : ∀ ρ : Run,
    ρ.state 0 = l' → ρ.Fair → ∃ ρ' : Run, ρ'.state 0 = l ∧ ρ'.Fair ∧
      ∀ k, (ρ'.state k, ρ'.what k) ∈ past ∨ ∃ j, ρ'.state k = ρ.state j ∧ ρ'.what k = ρ.what j := by
  induction h with
  | nil => exact fun ρ h₀ hfair => ⟨ρ, h₀, hfair, fun k => Or.inr ⟨k, rfl, rfl⟩⟩
  | @cons v w past o _ ho ih =>
    rintro ρ rfl hfair
    obtain ⟨ρ', h₀, hfair', hall⟩ := ih (ρ.cons ho) rfl (hfair.cons ho)
    refine ⟨ρ', h₀, hfair', fun k => ?_⟩
    rcases hall k with hm | ⟨j, hs, hw⟩
    · exact Or.inl (List.mem_cons_of_mem _ hm)
    · cases j with
      | zero => exact Or.inl (List.mem_cons.mpr (Or.inl (Prod.ext hs hw)))
      | succ j => exact Or.inr ⟨j, hs, hw⟩

/-- **A history that ends where nobody can move is the beginning of a fair run**, in which
nothing else happens. -/
theorem exists_of_history {past : List (Link × Occurrence)} (h : History l past l')
    (hrest : ∀ c, l'.moves c = []) :
    ∃ ρ : Run, ρ.state 0 = l ∧ ρ.Fair ∧ ∀ k, (ρ.state k, ρ.what k) ∈ past ∨
      ρ.state k = l' ∧ ρ.what k = .input (.farEnd l'.line l'.connects) := by
  obtain ⟨ρ, h₀, hfair, hall⟩ := exists_after h (rest l') rfl (fair_rest hrest)
  exact ⟨ρ, h₀, hfair, fun k => (hall k).imp_right fun ⟨_, hs, hw⟩ => ⟨hs, hw⟩⟩

end Run

/-- Whether a call moves. -/
def Occurrence.isMove : Occurrence → Bool
  | .move _ _ => true
  | .input _ => false

/-- A send waits for room and a receive for data, and the far end does nothing. -/
def parked : List Cue :=
  [.input (.begin .open), .move 0 0, .move 0 0, .move 0 0, .move 0 0,
    .input (.begin (.send [1, 2, 3, 4])), .input (.begin (.receive 8)),
    .move 1 0, .move 1 0, .move 1 0, .move 2 0, .move 2 0, .input (.begin .close)]

/-- A close publishes the closed state, and the others give up. -/
def unparked : List Cue :=
  [.move 3 0, .move 1 0, .move 2 0, .move 3 0, .move 3 0, .move 3 0]

theorem closing_never_gets_stuck_parked :
    ∃ past l, History (fresh "line" (some 3) []) past l ∧
      l.moves 1 = [] ∧ l.moves 2 = [] ∧
      ∃ ρ : Run, ρ.state 0 = l ∧ ρ.Fair ∧ ρ.Uncrossed 0 3 ∧
        ∀ c ∈ [1, 2, 3], ρ.Under 0 c ∧ ∃ k, (ρ.state k).calls.find? c = none := by
  obtain ⟨past, l, h, hwaits, ⟨hsend, hreceive, hclose⟩, hscript⟩ :=
    exists_history (fresh "line" (some 3) []) parked
      (fun _ l => ((l.moves 1).isEmpty ∧ (l.moves 2).isEmpty) ∧
        (l.calls.find? 1 = some (.writing [4]) ∧ l.calls.find? 2 = some (.reading 8) ∧
          l.calls.find? 3 = some (.begun .close)) ∧
        ((l.play [] unparked).any fun p => decide (p.2.calls.keys = [] ∧
          ∀ m ∈ p.1, (∀ phase ∈ m.1.calls.values, phase.kind ≠ .opening) ∧
            m.2.isMove = true)) = true)
      (by decide +kernel)
  obtain ⟨past', l', h', hnobody, hmoves⟩ := exists_history l unparked
    (fun past l' => l'.calls.keys = [] ∧ ∀ m ∈ past,
      (∀ phase ∈ m.1.calls.values, phase.kind ≠ .opening) ∧ m.2.isMove = true) hscript
  have hnone : ∀ c, l'.calls.find? c = none := fun c =>
    Directory.find?_eq_none_iff.mpr (by rw [hnobody]; exact List.not_mem_nil)
  obtain ⟨ρ, rfl, hfair, hall⟩ := Run.exists_of_history h' fun c => by rw [moves, hnone]
  have hcloses : ρ.Uncrossed 0 3 := by
    refine ⟨hclose, fun k _ hw => ?_, fun k _ _ c phase hf => ?_⟩
    · rcases hall k with hm | ⟨_, hrest⟩
      · rw [hw] at hm
        cases (hmoves _ hm).2
      · cases hw.symm.trans hrest
    · rcases hall k with hm | ⟨hs, _⟩
      · exact (hmoves _ hm).1 phase (List.mem_map.mpr ⟨_, Directory.mem_entries_of_find? hf, rfl⟩)
      · rw [hs, hnone] at hf
        cases hf
  obtain ⟨_, hends⟩ := closing_never_gets_stuck h
  obtain ⟨⟨k, _, hend⟩, hothers⟩ := hends ρ rfl hfair 0 3 hcloses
  have hunder : ρ.Under 0 3 := by rw [Run.Under, hclose]; exact Option.some_ne_none _
  have other : ∀ {c phase}, (ρ.state 0).calls.find? c = some phase → phase.carries = true →
      ρ.Under 0 c ∧ ∃ k, (ρ.state k).calls.find? c = none := fun hf hc => by
    obtain ⟨k, _, hend⟩ := hothers 0 (Nat.le_refl 0) hunder _ _ hf hc
    exact ⟨by rw [Run.Under, hf]; exact Option.some_ne_none _, k, hend⟩
  refine ⟨past, _, h, List.isEmpty_iff.mp hwaits.1, List.isEmpty_iff.mp hwaits.2, ρ, rfl, hfair,
    hcloses, fun c hc => ?_⟩
  simp only [List.mem_cons, List.not_mem_nil, or_false] at hc
  rcases hc with rfl | rfl | rfl
  · exact other hsend rfl
  · exact other hreceive rfl
  · exact ⟨hunder, k, hend⟩

end Link

end ZoneBus
