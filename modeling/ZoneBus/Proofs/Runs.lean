/-!
# Sequences of operations

Something that is operated on answers every operation, and is something else after it.
Two such things that answer alike, and stay in step whatever is asked, answer every
sequence of operations alike.

## Main definitions

* `runOps` — the answers to a sequence of operations, and what is there at the end.
* `answered` — the operations, each with its answer.
* `answersTo` — the answers to some of the operations.

## Main results

* `runOps_append` — one sequence after another.
* `runOps_eq_of_inStep` — two things in step give the same answers, and stay in step.
* `runOps_filter` — operations that make no difference may be left out.
* `runOps_filter_idle` — so may operations that do nothing.
-/

namespace ZoneBus

variable {σ τ ω β : Type}

/-- The answers to a sequence of operations, and what is there at the end. -/
def runOps (step : σ → ω → β × σ) (s : σ) : List ω → List β × σ
  | [] => ([], s)
  | op :: ops =>
    let (answer, s') := step s op
    let (answers, s'') := runOps step s' ops
    (answer :: answers, s'')

theorem runOps_cons (step : σ → ω → β × σ) (s : σ) (op : ω) (ops : List ω) :
    runOps step s (op :: ops) =
      ((step s op).1 :: (runOps step (step s op).2 ops).1, (runOps step (step s op).2 ops).2) :=
  rfl

theorem runOps_append (step : σ → ω → β × σ) (ops more : List ω) : ∀ s : σ,
    runOps step s (ops ++ more) =
      ((runOps step s ops).1 ++ (runOps step (runOps step s ops).2 more).1,
        (runOps step (runOps step s ops).2 more).2) := by
  induction ops with
  | nil => exact fun s => rfl
  | cons op ops ih =>
    intro s
    rw [List.cons_append, runOps_cons, runOps_cons, ih]
    rfl

/-- The operations, each with its answer. -/
def answered (step : σ → ω → β × σ) (s : σ) (ops : List ω) : List (ω × β) :=
  ops.zip (runOps step s ops).1

theorem answered_cons (step : σ → ω → β × σ) (s : σ) (op : ω) (ops : List ω) :
    answered step s (op :: ops) = (op, (step s op).1) :: answered step (step s op).2 ops :=
  rfl

theorem answered_append (step : σ → ω → β × σ) (ops more : List ω) : ∀ s : σ,
    answered step s (ops ++ more) =
      answered step s ops ++ answered step (runOps step s ops).2 more := by
  induction ops with
  | nil => exact fun s => rfl
  | cons op ops ih =>
    intro s
    rw [List.cons_append, answered_cons, answered_cons, ih]
    rfl

/-- **Two things in step give the same answers, and stay in step.**  Being in step may
depend on what is still to be asked. -/
theorem runOps_eq_of_inStep {step : σ → ω → β × σ} {step' : τ → ω → β × τ}
    {InStep : List ω → σ → τ → Prop}
    (keep : ∀ op ops s t, InStep (op :: ops) s t →
      (step s op).1 = (step' t op).1 ∧ InStep ops (step s op).2 (step' t op).2) :
    ∀ ops s t, InStep ops s t →
      (runOps step s ops).1 = (runOps step' t ops).1 ∧
        InStep [] (runOps step s ops).2 (runOps step' t ops).2 := by
  intro ops
  induction ops with
  | nil => exact fun s t h => ⟨rfl, h⟩
  | cons op ops ih =>
    intro s t h
    obtain ⟨hanswer, hnext⟩ := keep op ops s t h
    obtain ⟨hanswers, hend⟩ := ih _ _ hnext
    rw [runOps_cons, runOps_cons, hanswer, hanswers]
    exact ⟨rfl, hend⟩

/-! ### Leaving operations out -/

/-- The answers to the operations that are asked about. -/
def answersTo (asked : ω → Bool) (ops : List ω) (answers : List β) : List β :=
  ((ops.zip answers).filter fun e => asked e.1).map Prod.snd

theorem answersTo_cons (asked : ω → Bool) (op : ω) (ops : List ω) (answer : β)
    (answers : List β) : answersTo asked (op :: ops) (answer :: answers) =
      if asked op then answer :: answersTo asked ops answers else answersTo asked ops answers := by
  rw [answersTo, List.zip_cons_cons, List.filter_cons]
  split <;> rfl

/-- **Operations that make no difference may be left out.**  What is there with them and
without them is alike in some way all along.  An operation that is left out keeps it so, and
so does one that is kept, done on both sides; and of these, those that are asked about are
answered the same. -/
theorem runOps_filter {step : σ → ω → β × σ} {kept asked : ω → Bool} (Alike : σ → σ → Prop)
    (hasked : ∀ op, asked op = true → kept op = true)
    (skip : ∀ op s t, kept op = false → Alike s t → Alike (step s op).2 t)
    (follow : ∀ op s t, kept op = true → Alike s t →
      (asked op = true → (step s op).1 = (step t op).1) ∧ Alike (step s op).2 (step t op).2) :
    ∀ ops s t, Alike s t →
      answersTo asked ops (runOps step s ops).1 =
          answersTo asked (ops.filter kept) (runOps step t (ops.filter kept)).1 ∧
        Alike (runOps step s ops).2 (runOps step t (ops.filter kept)).2 := by
  intro ops
  induction ops with
  | nil => exact fun s t h => ⟨rfl, h⟩
  | cons op ops ih =>
    intro s t h
    rw [runOps_cons, answersTo_cons]
    cases hkept : kept op with
    | false =>
      have hnot : ¬asked op = true := fun ha => by rw [hasked op ha] at hkept; cases hkept
      rw [List.filter_cons_of_neg (by rw [hkept]; exact Bool.false_ne_true), if_neg hnot]
      exact ih _ _ (skip op s t hkept h)
    | true =>
      obtain ⟨hanswer, hnext⟩ := follow op s t hkept h
      obtain ⟨hanswers, hend⟩ := ih _ _ hnext
      rw [List.filter_cons_of_pos hkept, runOps_cons, answersTo_cons]
      refine ⟨?_, hend⟩
      split
      · next ha => rw [hanswer ha, hanswers]
      · exact hanswers

/-- Operations that do nothing may be left out, whatever the others do: what is there is the
same in the end, and the same is answered. -/
theorem runOps_filter_idle {γ : Type} {step : σ → ω → List γ × σ} {kept : ω → Bool}
    {P : σ → Prop} (idle : ∀ op s, P s → kept op = false → step s op = ([], s))
    (keep : ∀ op s, P s → P (step s op).2) :
    ∀ ops s, P s → (runOps step s ops).2 = (runOps step s (ops.filter kept)).2 ∧
      (runOps step s ops).1.flatten = (runOps step s (ops.filter kept)).1.flatten := by
  intro ops
  induction ops with
  | nil => exact fun s _ => ⟨rfl, rfl⟩
  | cons op ops ih =>
    intro s hs
    obtain ⟨hend, hanswers⟩ := ih _ (keep op s hs)
    rw [runOps_cons, List.flatten_cons, hend, hanswers]
    cases hkept : kept op with
    | false =>
      rw [List.filter_cons_of_neg (by rw [hkept]; exact Bool.false_ne_true), idle op s hs hkept]
      exact ⟨rfl, rfl⟩
    | true =>
      rw [List.filter_cons_of_pos hkept, runOps_cons, List.flatten_cons]
      exact ⟨rfl, rfl⟩

end ZoneBus
