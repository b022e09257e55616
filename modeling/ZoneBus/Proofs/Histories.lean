/-!
# Histories

Something goes on by the moves of its parts and by what is done to it from outside.  A part
has some moves to choose from; each leads somewhere, and something becomes known by it.  A
history is any sequence of these, in any order, so between two moves of one part anything may
happen.

A script says what is done, and which part takes which of its moves.  It can be run, and
what it leads to has a history; so a history that leads where something holds can be shown
by giving its script.

## Main definitions

* `Happens` — one move of a part, or one input.
* `History` — everything that happened, the latest first.
* `Cue`, `play` — a line of a script, and the history of a script.

## Main results

* `History.trans` — histories go on.
* `History.exists_of_append` — a history goes through whatever is in its past.
* `History.invariant` — what holds at first and is kept by everything that happens holds at
  the end of every history.
* `history_play`, `exists_history_of_play` — what a script leads to has a history.
-/

namespace ZoneBus

variable {σ τ ν ι ω : Type}

section

variable (moves : σ → τ → List (σ × ν)) (apply : σ → ι → σ) (moved : τ → ν → ω) (given : ι → ω)

/-- Something happens: `moved` tells of a move and of what becomes known by it, and `given`
of an input. -/
inductive Happens : σ → ω → σ → Prop where
  /-- A part takes one of its moves. -/
  | move {s s' : σ} {t : τ} {known : ν} :
      (s', known) ∈ moves s t → Happens s (moved t known) s'
  /-- Something is done from outside. -/
  | input {s : σ} (i : ι) : Happens s (given i) (apply s i)

end

/-- What happened between two states, the latest first, each with the state that it
happened in. -/
inductive History (Step : σ → ω → σ → Prop) : σ → List (σ × ω) → σ → Prop where
  /-- Nothing happened yet. -/
  | nil (s : σ) : History Step s [] s
  /-- Something more happens. -/
  | cons {s s' s'' : σ} {past : List (σ × ω)} {o : ω} :
      History Step s past s' → Step s' o s'' → History Step s ((s', o) :: past) s''

namespace History

variable {Step : σ → ω → σ → Prop} {s s' s'' : σ} {past later : List (σ × ω)}

theorem single {o : ω} (h : Step s o s') : History Step s [(s, o)] s' := .cons (.nil s) h

/-- Histories go on. -/
theorem trans (h : History Step s past s') (h' : History Step s' later s'') :
    History Step s (later ++ past) s'' := by
  induction h' with
  | nil => exact h
  | cons _ ho ih => exact .cons ih ho

/-- Every state on the way has a history. -/
theorem exists_of_mem {v : σ} (h : History Step s past s')
    (hv : v ∈ s' :: past.map Prod.fst) : ∃ earlier, History Step s earlier v := by
  induction h with
  | nil =>
    obtain rfl := List.mem_singleton.mp hv
    exact ⟨[], .nil _⟩
  | cons h ho ih =>
    rcases List.mem_cons.mp hv with rfl | hv
    · exact ⟨_, .cons h ho⟩
    · exact ih hv

/-- A history begins where it began. -/
theorem mem_start (h : History Step s past s') : s ∈ s' :: past.map Prod.fst := by
  induction h with
  | nil => exact List.mem_singleton_self _
  | cons _ _ ih => exact List.mem_cons_of_mem _ ih

/-- A history goes through whatever is in its past. -/
theorem exists_of_append (h : History Step s past s') {later earlier : List (σ × ω)} {m : σ × ω}
    (he : past = later ++ m :: earlier) :
    ∃ v, History Step s earlier m.1 ∧ Step m.1 m.2 v ∧ History Step v later s' := by
  induction h generalizing later with
  | nil => exact absurd he.symm (List.append_ne_nil_of_right_ne_nil later (List.cons_ne_nil _ _))
  | cons h ho ih =>
    cases later with
    | nil =>
      obtain ⟨rfl, rfl⟩ := List.cons.inj he
      exact ⟨_, h, ho, .nil _⟩
    | cons m' later =>
      obtain ⟨rfl, hpast⟩ := List.cons.inj he
      obtain ⟨u, hu, hm, hl⟩ := ih hpast
      exact ⟨u, hu, hm, .cons hl ho⟩

/-- **What holds at first and is kept by everything that happens holds at the end.** -/
theorem invariant {P : σ → Prop} (keep : ∀ {v w : σ} {o : ω}, Step v o w → P v → P w)
    (h : History Step s past s') (hs : P s) : P s' := by
  induction h with
  | nil => exact hs
  | cons _ ho ih => exact keep ho ih

end History

/-! ### Scripts -/

/-- A line of a script: an input, or a part with the number of the move it takes. -/
inductive Cue (τ ι : Type) where
  /-- The part takes its move with this number, from zero. -/
  | move (t : τ) (n : Nat)
  /-- This is done from outside. -/
  | input (i : ι)

section

variable (moves : σ → τ → List (σ × ν)) (apply : σ → ι → σ) (moved : τ → ν → ω) (given : ι → ω)

/-- What a script leads to, and what happened on the way, the latest first.  Nothing when a
part cannot take the move it is to take. -/
def play (s : σ) (past : List (σ × ω)) : List (Cue τ ι) → Option (List (σ × ω) × σ)
  | [] => some (past, s)
  | .move t n :: rest =>
    match (moves s t)[n]? with
    | none => none
    | some m => play m.1 ((s, moved t m.2) :: past) rest
  | .input i :: rest => play (apply s i) ((s, given i) :: past) rest

end

variable {moves : σ → τ → List (σ × ν)} {apply : σ → ι → σ} {moved : τ → ν → ω} {given : ι → ω}

/-- What a script leads to has a history. -/
theorem history_play : ∀ {script : List (Cue τ ι)} {s₀ s s' : σ} {past past' : List (σ × ω)},
    History (Happens moves apply moved given) s₀ past s →
    play moves apply moved given s past script = some (past', s') →
    History (Happens moves apply moved given) s₀ past' s' := by
  intro script
  induction script with
  | nil =>
    intro s₀ s s' past past' h hp
    rw [play, Option.some.injEq, Prod.mk.injEq] at hp
    obtain ⟨rfl, rfl⟩ := hp
    exact h
  | cons cue rest ih =>
    intro s₀ s s' past past' h hp
    cases cue with
    | move t n =>
      rw [play] at hp
      cases hm : (moves s t)[n]? with
      | none => rw [hm] at hp; cases hp
      | some m =>
        rw [hm] at hp
        exact ih (.cons h (.move (List.mem_of_getElem? hm))) hp
    | input i => exact ih (.cons h (.input i)) hp

/-- A script that leads where something holds shows a history that does. -/
theorem exists_history_of_play (s : σ) (script : List (Cue τ ι)) (P : List (σ × ω) → σ → Prop)
    [∀ past s', Decidable (P past s')]
    (h : ((play moves apply moved given s [] script).any fun p => decide (P p.1 p.2)) = true) :
    ∃ past s', History (Happens moves apply moved given) s past s' ∧ P past s' := by
  cases hp : play moves apply moved given s [] script with
  | none => rw [hp] at h; cases h
  | some p =>
    rw [hp, Option.any_some, decide_eq_true_eq] at h
    exact ⟨p.1, p.2, history_play (.nil s) hp, h⟩

end ZoneBus
