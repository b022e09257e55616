import Mathlib.Algebra.Order.BigOperators.Group.List
import Mathlib.Algebra.Ring.Nat
import Mathlib.Data.Prod.Lex
import ZoneBus.Link.Settle
import ZoneBus.Proofs.Link.Writing

/-!
# Who can move, and who waits for whom

A call that waits for a lock waits for whoever stands first in its line.  Once the link is
not open, whoever stands first can move, for a call that reads or writes may give up; only
an open that has the reading lock may wait in turn for whoever has the writing lock, who can
move.  So the calls never wait in a circle.

How far a call is from its end is told by two numbers: the moves that it has left itself,
and those that the calls before it in its line have left.  Newcomers stand behind it, so
neither number grows, and one of them falls whenever the call that it waits for moves.

## Main definitions

* `LinkPhase.awaits` — the half whose lock a call needs before it can go on.
* `Link.WaitsFor` — a call waits for another one, or for nobody but itself.
* `Link.rank` — how far a call is from its end.
* `Link.Touches` — a call comes further, or is gone.

## Main results

* `Link.Locked.exists_move` — **some call can move**, as long as the link is not open.
* `Link.rank_happens` — no call comes farther from its end, and a call comes nearer when the
  one that it waits for moves.
-/

namespace ZoneBus

namespace Line

/-- A partial attempt to write leaves less to write. -/
theorem length_lt_of_partly {l l' : Line} {bytes rest : Bytes}
    (h : l.write bytes = some (.partly rest, l')) : rest.length < bytes.length := by
  unfold write at h
  split at h
  · exact absurd rfl ((of_flush (Option.some.inj h)).2 rest)
  · split at h
    · cases h
    · dsimp only at h
      split at h
      · cases h
      · next hsome =>
        split at h
        · next hmore =>
          cases h
          rw [List.length_drop]
          omega
        · exact absurd rfl ((of_flush (Option.some.inj h)).2 rest)

end Line

theorem LinkPhase.work_pos (phase : LinkPhase) : 0 < phase.work := by
  cases phase with
  | begun call => cases call <;> simp [work]
  | _ => simp [work]

namespace Link

variable {l l' : Link} {c d : CallId} {phase : LinkPhase} {events : List LinkEvent}

/-! ### Whoever is first in line can move -/

/-- The head of the line for the writing lock can move once the link is not open. -/
theorem Locked.exists_writer_move (h : l.Locked) (hs : l.state ≠ .open)
    (hfirst : l.writerLock.head? = some d) : l.moves d ≠ [] := by
  obtain ⟨phase, hf, hq⟩ := (h.writer.mem_iff d).mp (List.mem_of_mem_head? hfirst)
  have hholds : l.holdsWriter d = true := beq_iff_eq.mpr hfirst
  rw [moves, hf]
  show l.movesIn d phase ≠ []
  cases phase with
  | openWriter =>
    rw [movesIn, if_pos hholds]
    split <;> simp
  | connecting => simp [movesIn]
  | closeWriter =>
    rw [movesIn, if_pos hholds]
    split <;> simp
  | shuttingDown => simp [movesIn]
  | sendTurn bytes =>
    rw [movesIn, if_pos hholds]
    split <;> simp
  | writing rest =>
    rw [movesIn, giveUp]
    split
    · next ho => exact absurd ho hs
    · simp
  | _ => cases hq

/-- The head of the line for the reading lock can move once the link is not open, unless it
is an open that is in turn for the writing lock. -/
theorem Locked.reader_head_cases (h : l.Locked) (hs : l.state ≠ .open)
    (hfirst : l.readerLock.head? = some d) :
    l.moves d ≠ [] ∨ l.calls.find? d = some .openWriter := by
  obtain ⟨phase, hf, hq⟩ := (h.reader.mem_iff d).mp (List.mem_of_mem_head? hfirst)
  have hholds : l.holdsReader d = true := beq_iff_eq.mpr hfirst
  rw [moves, hf]
  show l.movesIn d phase ≠ [] ∨ _
  cases phase with
  | openReader => exact Or.inl (by rw [movesIn, if_pos hholds]; simp)
  | openWriter => exact Or.inr rfl
  | connecting => exact Or.inl (by simp [movesIn])
  | closeReader => exact Or.inl (by rw [movesIn, if_pos hholds]; simp)
  | receiveTurn most =>
    refine Or.inl ?_
    rw [movesIn, if_pos hholds]
    split <;> simp
  | reading most =>
    refine Or.inl ?_
    rw [movesIn, giveUp]
    split
    · next ho => exact absurd ho hs
    · simp
  | _ => cases hq

end Link

/-- The half whose lock a call needs before it can go on. -/
def LinkPhase.awaits : LinkPhase → Option Half
  | .begun _ => none
  | .openReader | .closeReader | .receiveTurn _ | .reading _ => some .reader
  | .openWriter | .connecting | .closeWriter | .shuttingDown | .sendTurn _ | .writing _ =>
    some .writer

theorem LinkPhase.queues_of_awaits {phase : LinkPhase} {half : Half}
    (h : phase.awaits = some half) : half.queues phase = true := by
  cases phase with
  | begun => cases h
  | _ => cases h; rfl

namespace Link

variable {l l' : Link} {c d e : CallId} {phase : LinkPhase} {half : Half}
  {events : List LinkEvent}

/-- Whoever needs a lock stands in its line. -/
theorem Locked.mem_line (h : l.Locked) (hf : l.calls.find? c = some phase)
    (ha : phase.awaits = some half) : c ∈ l.lineOf half :=
  ((h.inLine half).mem_iff c).mpr ⟨phase, hf, LinkPhase.queues_of_awaits ha⟩

theorem exists_head? {line : List CallId} (h : c ∈ line) : ∃ d, line.head? = some d := by
  cases line with
  | nil => cases h
  | cons d rest => exact ⟨d, rfl⟩

/-- **Some call can move**, as long as the link is not open and any call is under way. -/
theorem Locked.exists_move (h : l.Locked) (hs : l.state ≠ .open)
    (hf : l.calls.find? c = some phase) : ∃ d, l.moves d ≠ [] := by
  have writer : ∀ {c phase}, l.calls.find? c = some phase → phase.awaits = some .writer →
      ∃ d, l.moves d ≠ [] := fun hf ha => by
    obtain ⟨d, hd⟩ := exists_head? (h.mem_line hf ha)
    exact ⟨d, h.exists_writer_move hs hd⟩
  cases ha : phase.awaits with
  | none =>
    refine ⟨c, ?_⟩
    rw [moves, hf]
    cases phase with
    | begun call => simp [movesIn]
    | _ => cases ha
  | some half =>
    cases half with
    | writer => exact writer hf ha
    | reader =>
      obtain ⟨d, hd⟩ := exists_head? (h.mem_line hf ha)
      rcases h.reader_head_cases hs hd with hm | hw
      · exact ⟨d, hm⟩
      -- an open that holds the reading lock waits for whoever holds the writing lock
      · exact writer hw rfl

/-! ### How much stands before a call -/

/-- The moves that a call has left at most, none once it has ended. -/
def workOf (l : Link) (c : CallId) : Nat := (l.calls.find? c).elim 0 LinkPhase.work

/-- The moves that those before a call have left at most, in the line in which it stands. -/
def ahead (l : Link) (c : CallId) : Nat :=
  match (l.calls.find? c).bind LinkPhase.awaits with
  | none => 0
  | some half => (((l.lineOf half).takeWhile fun d => decide (d ≠ c)).map l.workOf).sum

/-- How far a call is from its end: the moves that it has left count for more than all
those of the calls before it. -/
def rank (l : Link) (c : CallId) : ℕ ×ₗ ℕ := toLex (l.workOf c, l.ahead c)

/-- A call waits for another one, or for nobody but itself. -/
def WaitsFor (l : Link) (c d : CallId) : Prop :=
  ∃ phase, l.calls.find? c = some phase ∧
    match phase.awaits with
    | none => d = c
    | some half => (l.lineOf half).head? = some d

/-- A call that goes on has less to do. -/
theorem GoesOn.work_lt {phase' : LinkPhase} (h : l.GoesOn phase phase') :
    phase'.work < phase.work := by
  cases h with
  | writesPartly line hw => exact Nat.add_lt_add_left (Line.length_lt_of_partly hw) 2
  | _ => simp [LinkPhase.work]

/-- Every move leaves less to do. -/
theorem Deed.work_lt (hd : Deed l c phase l' events) : l'.workOf c < phase.work := by
  rcases hd.calls_cases with ⟨phase', hon, hcalls⟩ | hcalls
  · rw [workOf, hcalls, Directory.find?_put, if_pos rfl]
    exact hon.work_lt
  · rw [workOf, hcalls, Directory.find?_erase, if_pos rfl]
    exact phase.work_pos

/-- A call comes further, or is gone, and nobody else does anything. -/
structure Touches (e : CallId) (l l' : Link) : Prop where
  /-- The other calls are where they were. -/
  other : ∀ d, d ≠ e → l'.calls.find? d = l.calls.find? d
  /-- It has less to do than before. -/
  less : ∀ phase, l.calls.find? e = some phase → l'.workOf e < l.workOf e
  /-- In the lines it leaves, or joins at the end. -/
  lines : ∀ half, Shifts e (l.lineOf half) (l'.lineOf half)

theorem Deed.touches (hd : Deed l c phase l' events) (hf : l.calls.find? c = some phase) :
    Touches c l l' where
  other := hd.other
  less := fun _ _ => by
    have h := hd.work_lt
    rwa [show phase.work = l.workOf c by rw [workOf, hf]; rfl] at h
  lines := hd.shifts

theorem touches_abort (l : Link) (c : CallId) : Touches c l (l.abort c) where
  other := fun d hne => by
    show (l.calls.erase c).find? d = _
    rw [Directory.find?_erase, if_neg (Ne.symm hne)]
  less := fun phase hf => by
    rw [workOf, workOf, find?_abort_self, hf]
    exact phase.work_pos
  lines := fun half => by cases half <;> exact .leaves

/-! ### Waiting comes to an end -/

/-- Those before a call, when another one leaves, or joins at the end. -/
theorem Shifts.takeWhile_sublist {line line' : List CallId} (hs : Shifts e line line')
    (hne : c ≠ e) (hc : c ∈ line) :
    (line'.takeWhile fun d => decide (d ≠ c)).Sublist (line.takeWhile fun d => decide (d ≠ c)) := by
  have joined : ∀ {line : List CallId}, c ∈ line →
      (line ++ [e]).takeWhile (fun d => decide (d ≠ c)) =
        line.takeWhile fun d => decide (d ≠ c) := fun {line} hc => by
    induction line with
    | nil => cases hc
    | cons i line ih =>
      rw [List.cons_append, List.takeWhile_cons, List.takeWhile_cons]
      split
      · next hi =>
        have hne : i ≠ c := of_decide_eq_true hi
        rw [ih ((List.mem_cons.mp hc).resolve_left hne.symm)]
      · rfl
  have left : ∀ line : List CallId,
      ((line.filter fun i => decide (i ≠ e)).takeWhile fun d => decide (d ≠ c)).Sublist
        (line.takeWhile fun d => decide (d ≠ c)) := fun line => by
    induction line with
    | nil => exact .slnil
    | cons i line ih =>
      by_cases hi : i = e
      · subst hi
        rw [List.filter_cons_of_neg (by simp), List.takeWhile_cons_of_pos (by simpa using hne.symm)]
        exact ih.cons i
      · rw [List.filter_cons_of_pos (by simpa using hi), List.takeWhile_cons, List.takeWhile_cons]
        split
        · exact ih.cons_cons i
        · exact .slnil
  cases hs with
  | stays => exact .refl _
  | leaves => exact left line
  | joins => rw [joined hc]
  | rejoins =>
    rw [joined (List.mem_filter.mpr ⟨hc, decide_eq_true hne⟩)]
    exact left line

theorem ahead_eq (hf : l.calls.find? c = some phase) (ha : phase.awaits = some half) :
    l.ahead c = (((l.lineOf half).takeWhile fun d => decide (d ≠ c)).map l.workOf).sum := by
  rw [ahead, hf, Option.bind_some, ha]

theorem ahead_eq_zero (hf : l.calls.find? c = some phase) (ha : phase.awaits = none) :
    l.ahead c = 0 := by
  rw [ahead, hf, Option.bind_some, ha]

namespace Touches

/-- Where another call comes further, no more stands before a call, and less when the other
one stood there. -/
theorem ahead_le (h : Touches e l l') (hl : l.Locked) (hne : c ≠ e)
    (hf : l.calls.find? c = some phase) (ha : phase.awaits = some half) :
    l'.ahead c ≤ l.ahead c ∧
      (e ∈ (l.lineOf half).takeWhile (fun d => decide (d ≠ c)) → l'.ahead c < l.ahead c) := by
  rw [ahead_eq hf ha, ahead_eq ((h.other c hne).trans hf) ha]
  have hsub := (h.lines half).takeWhile_sublist hne (hl.mem_line hf ha)
  generalize (l'.lineOf half).takeWhile (fun d => decide (d ≠ c)) = front' at hsub ⊢
  have hline : ∀ d ∈ (l.lineOf half).takeWhile (fun d => decide (d ≠ c)),
      l'.workOf d ≤ l.workOf d ∧ (d = e → l'.workOf d < l.workOf d) := fun d hd => by
    have hmem : d ∈ l.lineOf half := (List.takeWhile_sublist _).subset hd
    obtain ⟨phase', hf', _⟩ := ((hl.inLine half).mem_iff d).mp hmem
    by_cases he : d = e
    · subst he
      have hless := h.less phase' hf'
      exact ⟨hless.le, fun _ => hless⟩
    · refine ⟨?_, fun hd => absurd hd he⟩
      rw [workOf, workOf, h.other d he]
  generalize (l.lineOf half).takeWhile (fun d => decide (d ≠ c)) = front at hsub hline ⊢
  have hshorter : (front'.map l'.workOf).sum ≤ (front.map l'.workOf).sum :=
    (hsub.map l'.workOf).sum_le_sum fun _ _ => Nat.zero_le _
  constructor
  · calc
      (front'.map l'.workOf).sum ≤ (front.map l'.workOf).sum := hshorter
      _ ≤ (front.map l.workOf).sum := List.sum_le_sum fun d hd => (hline d hd).1
  · intro he
    calc
      (front'.map l'.workOf).sum ≤ (front.map l'.workOf).sum := hshorter
      _ < (front.map l.workOf).sum :=
        List.sum_lt_sum _ _ (fun d hd => (hline d hd).1) ⟨e, he, (hline e he).2 rfl⟩

theorem workOf_eq (h : Touches e l l') (hne : c ≠ e) : l'.workOf c = l.workOf c := by
  rw [workOf, workOf, h.other c hne]

/-- **Where a call comes further, whoever waits for it comes nearer to its end**, and everybody
else goes on waiting for the same one. -/
theorem rank_cases (h : Touches e l l') (hl : l.Locked) (hw : l.WaitsFor c d) :
    l'.rank c < l.rank c ∨ l'.rank c ≤ l.rank c ∧ l'.WaitsFor c d ∧ d ≠ e := by
  obtain ⟨phase, hf, hd⟩ := hw
  by_cases hne : c = e
  · subst hne
    exact Or.inl (Prod.Lex.toLex_lt_toLex.mpr (Or.inl (h.less phase hf)))
  have hf' : l'.calls.find? c = some phase := (h.other c hne).trans hf
  cases ha : phase.awaits with
  | none =>
    rw [ha] at hd
    obtain rfl : d = c := hd
    refine Or.inr ⟨le_of_eq ?_, ⟨phase, hf', by rw [ha]⟩, hne⟩
    rw [rank, rank, h.workOf_eq hne, ahead_eq_zero hf ha, ahead_eq_zero hf' ha]
  | some half =>
    have hd : (l.lineOf half).head? = some d := by rwa [ha] at hd
    obtain ⟨hle, hlt⟩ := h.ahead_le hl hne hf ha
    by_cases hde : d = e
    · subst hde
      refine Or.inl (Prod.Lex.toLex_lt_toLex.mpr (Or.inr ⟨h.workOf_eq hne, hlt ?_⟩))
      generalize l.lineOf half = line at hd
      cases line with
      | nil => cases hd
      | cons i rest =>
        obtain rfl := Option.some.inj hd
        rw [List.takeWhile_cons_of_pos (by simpa using Ne.symm hne)]
        exact List.mem_cons_self
    · refine Or.inr ⟨Prod.Lex.toLex_le_toLex.mpr (Or.inr ⟨h.workOf_eq hne, hle⟩),
        ⟨phase, hf', ?_⟩, hde⟩
      rw [ha]
      show (l'.lineOf half).head? = some d
      have hhead := InLine.head?_filter (Ne.symm hde) hd
      have hs := h.lines half
      generalize l'.lineOf half = line' at hs
      cases hs with
      | stays => exact hd
      | leaves => exact hhead
      | joins => rw [List.head?_append, hd]; rfl
      | rejoins => rw [List.head?_append, hhead]; rfl

end Touches

/-- The calls that were under way, and how the lines stood, decide. -/
theorem rank_of_same (hl : l.Locked) (hf : ∀ d, d < l.nextCall → l'.calls.find? d = l.calls.find? d)
    (hline : ∀ half, l'.lineOf half = l.lineOf half) (hw : l.WaitsFor c d) :
    l'.rank c = l.rank c ∧ l'.WaitsFor c d := by
  obtain ⟨phase, hc, hd⟩ := hw
  have hc' : l'.calls.find? c = some phase := (hf c (hl.numbered c phase hc)).trans hc
  have hwork : ∀ d phase, l.calls.find? d = some phase → l'.workOf d = l.workOf d :=
    fun d phase hd => by rw [workOf, workOf, hf d (hl.numbered d phase hd)]
  refine ⟨?_, phase, hc', ?_⟩
  · rw [rank, rank, hwork c phase hc]
    cases ha : phase.awaits with
    | none => rw [ahead_eq_zero hc ha, ahead_eq_zero hc' ha]
    | some half =>
      rw [ahead_eq hc ha, ahead_eq hc' ha, hline half]
      congr 3
      refine List.map_congr_left fun d hd => ?_
      have hmem : d ∈ l.lineOf half := (List.takeWhile_sublist _).subset hd
      obtain ⟨phase', hf', _⟩ := ((hl.inLine half).mem_iff d).mp hmem
      exact hwork d phase' hf'
  · cases ha : phase.awaits with
    | none => rwa [ha] at hd
    | some half =>
      rw [ha] at hd
      show (l'.lineOf half).head? = some d
      rw [hline half]
      exact hd

/-- **Whatever happens, a call that waits does not come farther from its end**, and comes
nearer when the one that it waits for moves. -/
theorem rank_happens {o : Occurrence} (ho : Happens l o l') (hl : l.Locked)
    (hw : l.WaitsFor c d) :
    l'.rank c < l.rank c ∨
      l'.rank c ≤ l.rank c ∧ l'.WaitsFor c d ∧ ∀ events, o ≠ .move d events := by
  rcases happens_cases ho with ⟨e, events, phase, rfl, hf, hd⟩ | ⟨i, rfl, rfl⟩
  · refine ((hd.touches hf).rank_cases hl hw).imp_right fun ⟨hle, hw', hne⟩ => ⟨hle, hw', ?_⟩
    rintro events' ⟨⟩
    exact hne rfl
  · cases i with
    | drop e =>
      refine ((touches_abort l e).rank_cases hl hw).imp_right fun ⟨hle, hw', _⟩ => ⟨hle, hw', ?_⟩
      simp
    | begin call =>
      have hf : ∀ d, d < l.nextCall → (l.begin call).2.calls.find? d = l.calls.find? d :=
        fun d hd => by rw [find?_calls_begin, if_neg (Nat.ne_of_gt hd)]
      obtain ⟨hrank, hw'⟩ := rank_of_same hl hf (fun half => by cases half <;> rfl) hw
      exact Or.inr ⟨hrank.le, hw', by simp⟩
    | farEnd line connects =>
      have hline : ∀ half, (l.apply (.farEnd line connects)).lineOf half = l.lineOf half :=
        fun half => by cases half <;> rfl
      obtain ⟨hrank, hw'⟩ := rank_of_same hl (fun _ _ => rfl) hline hw
      exact Or.inr ⟨hrank.le, hw', by simp⟩

/-- Everybody waits for somebody. -/
theorem Locked.exists_waitsFor (h : l.Locked) (hf : l.calls.find? c = some phase) :
    ∃ d, l.WaitsFor c d := by
  cases ha : phase.awaits with
  | none => exact ⟨c, phase, hf, by rw [ha]⟩
  | some half =>
    obtain ⟨d, hd⟩ := exists_head? (h.mem_line hf ha)
    exact ⟨d, phase, hf, by rw [ha]; exact hd⟩

end Link

end ZoneBus
