import ZoneBus.Proofs.Request.Register

/-!
# A withdrawn request leaves no trace

A request that is registered and withdrawn before it ends might as well never have been
there: whatever else is asked of the table in the meantime and later, every other request
ends as it would have, by the same operation, and every answer says the same of the others.

The two runs are compared on the plain register.  The one that has the request differs from
the other by just that request, wherever it stands, since a reply goes to the first that
waits and that is never the request: it would have ended by it.

## Main definitions

* `TableOp.concerns` — whether an operation is about a request.
* `TableTold.except` — what an operation tells of the others.
* `Register.Overlooks` — an operation does the same to the others without the request.
* `Register.Spares` — no operation ends the request, unless it is about it.

## Main results

* `Register.perform_except` — one operation, with the request and without it.
* `Register.run_except` — **a sequence of operations, with the request and without it.**
* `Register.withdrawal_leaves_no_trace` — **a request that is withdrawn leaves no trace.**
-/

namespace ZoneBus

/-- Whether an operation is about a request: registers it, notes that its frame was written,
or withdraws it. -/
def TableOp.concerns (x : RequestId) : TableOp → Bool
  | insert r => decide (r.frame.id = x)
  | markWritten id _ _ => decide (id = x)
  | cancel id _ => decide (id = x)
  | _ => false

/-- What an answer says of the other requests. -/
def TableAnswer.except (x : RequestId) : TableAnswer → TableAnswer
  | expired results => expired (results.filter fun e => decide (e.id ≠ x))
  | answer => answer

/-- What an operation tells of the other requests. -/
def TableTold.except (x : RequestId) (told : TableTold) : TableTold :=
  ⟨told.answer.except x, told.settled.filter fun e => decide (e.id ≠ x)⟩

namespace Register

variable {l : List PendingRequest} {x : RequestId}

/-! ### A register without a request -/

theorem lookup?_without {id : RequestId} (h : id ≠ x) :
    lookup? (without l x) id = lookup? l id := by
  unfold lookup? without
  rw [List.find?_filter]
  refine congrArg (fun p => List.find? p l) (funext fun r => ?_)
  by_cases hr : r.frame.id = id
  · simp [hr, h]
  · simp [hr]

theorem waiting_without (l : List PendingRequest) (x : RequestId) (key : ReplyKey) :
    waiting (without l x) key = without (waiting l key) x :=
  List.filter_comm _ _ _

theorem without_comm (l : List PendingRequest) (x id : RequestId) :
    without (without l x) id = without (without l id) x :=
  List.filter_comm _ _ _

theorem without_append (l more : List PendingRequest) (x : RequestId) :
    without (l ++ more) x = without l x ++ without more x :=
  List.filter_append ..

theorem without_self (l : List PendingRequest) (x : RequestId) :
    without (without l x) x = without l x := by
  refine without_eq_self fun h => ?_
  exact (mem_ids_without.mp h).2 rfl

theorem without_single (r : PendingRequest) (x : RequestId) :
    without [r] x = if r.frame.id = x then [] else [r] := by
  by_cases h : r.frame.id = x
  · simp [without, h]
  · simp [without, h]

/-- The request may be changed before it is taken out. -/
theorem without_replace (l : List PendingRequest) (r' : PendingRequest) :
    without (replace l r') r'.frame.id = without l r'.frame.id := by
  unfold without replace
  induction l with
  | nil => rfl
  | cons r l ih =>
    by_cases h : r.frame.id = r'.frame.id
    · simpa [h] using ih
    · simpa [h] using ih

theorem replace_without {r' : PendingRequest} (h : r'.frame.id ≠ x) :
    replace (without l x) r' = without (replace l r') x := by
  unfold without replace
  rw [List.filter_map]
  refine congrArg _ (List.filter_congr fun r _ => ?_)
  by_cases hr : r.frame.id = r'.frame.id
  · simp [hr, h]
  · simp [hr]

/-- An expiry leaves of the others what it would have left of them alone. -/
theorem without_expired (l : List PendingRequest) (x : RequestId) (now : Instant) :
    ((without l x).filterMap fun r => if r.isOverdue now then r.expired? else some r) =
      without (l.filterMap fun r => if r.isOverdue now then r.expired? else some r) x := by
  unfold without
  rw [List.filterMap_filter, List.filter_filterMap]
  refine List.filterMap_congr fun r _ => ?_
  by_cases ho : r.isOverdue now = true
  · rw [if_pos ho]
    cases he : r.expired? with
    | none => by_cases hr : r.frame.id = x <;> simp [hr]
    | some r' =>
      have hframe := (expired?_frame he).1
      by_cases hr : r.frame.id = x
      · simp [hr, hframe, Option.filter_some]
      · simp [hr, hframe, Option.filter_some]
  · rw [if_neg ho]
    by_cases hr : r.frame.id = x
    · simp [hr, Option.filter_some]
    · simp [hr, Option.filter_some]

/-! ### One operation -/

/-- An operation that is about the request changes nothing but it. -/
theorem perform_concerning {op : TableOp} (h : op.concerns x = true) :
    without (perform l op).2 x = without l x := by
  cases op with
  | insert r =>
    have hr : r.frame.id = x := of_decide_eq_true h
    rw [perform, without_append, without_single, if_pos hr, List.append_nil]
  | markWritten id now timeout =>
    have hid : id = x := of_decide_eq_true h
    subst hid
    rw [perform]
    split
    · rfl
    · next r hr =>
      obtain ⟨_, rfl⟩ := mem_of_lookup? hr
      split
      · exact without_replace l (r.written now timeout)
      · exact without_self l _
  | cancel id error =>
    have hid : id = x := of_decide_eq_true h
    subst hid
    rw [perform]
    split
    · rfl
    · exact without_self l _
  | resolve key reply => cases h
  | expire now => cases h
  | failAll error => cases h

/-- An operation tells the same of the others, and does the same to them, when a request is
not there. -/
def Overlooks (x : RequestId) (l : List PendingRequest) (op : TableOp) : Prop :=
  perform (without l x) op = ((perform l op).1.except x, without (perform l op).2 x)

theorem markWritten_except {id : RequestId} (hid : id ≠ x) (now : Instant) (timeout : Nat) :
    Overlooks x l (.markWritten id now timeout) := by
  rw [Overlooks, perform, perform, lookup?_without hid]
  cases hf : lookup? l id with
  | none => rfl
  | some r =>
    obtain ⟨_, rfl⟩ := mem_of_lookup? hf
    by_cases hkey : r.key.isSome = true
    · simp only [if_pos hkey]
      exact Prod.ext rfl (replace_without hid)
    · simp only [if_neg hkey]
      refine Prod.ext ?_ (without_comm l x _)
      simp [TableTold.except, TableAnswer.except, hid]

theorem cancel_except {id : RequestId} (hid : id ≠ x) (error : SessionError) :
    Overlooks x l (.cancel id error) := by
  rw [Overlooks, perform, perform, lookup?_without hid]
  cases hf : lookup? l id with
  | none => rfl
  | some r =>
    refine Prod.ext ?_ (without_comm l x _)
    simp [TableTold.except, TableAnswer.except, hid]

/-- A reply goes to the same request when one that it does not end is not there. -/
theorem resolve_except {key : ReplyKey} {reply : Reply}
    (hspared : x ∈ ids l → x ∈ ids (perform l (.resolve key reply)).2) :
    Overlooks x l (.resolve key reply) := by
  rw [perform] at hspared
  rw [Overlooks, perform, perform, waiting_without]
  cases hw : waiting l key with
  | nil => rfl
  | cons r rest =>
    -- the reply does not go to the request, which it would have ended
    have hr : r.frame.id ≠ x := by
      rintro rfl
      have hmem : r ∈ l := (List.mem_filter.mp (hw ▸ List.mem_cons_self : r ∈ waiting l key)).1
      rw [hw] at hspared
      exact (mem_ids_without.mp (hspared (List.mem_map_of_mem hmem))).2 rfl
    have hfront : without (r :: rest) x = r :: without rest x :=
      List.filter_cons_of_pos (decide_eq_true hr)
    rw [hfront]
    refine Prod.ext ?_ (without_comm l x _)
    simp [TableTold.except, TableAnswer.except, hr]

/-- The expiries of the others. -/
theorem expiries_without (l : List PendingRequest) (x : RequestId) (now : Instant) :
    ((without l x).filter fun r => r.isOverdue now).map (fun r => r.expiry r.frame.id) =
      ((l.filter fun r => r.isOverdue now).map fun r => r.expiry r.frame.id).filter
        fun e => decide (e.id ≠ x) := by
  unfold without
  rw [List.filter_map, List.filter_comm]
  refine congrArg _ (List.filter_congr fun r _ => ?_)
  simp

/-- The endings of the others. -/
theorem settled_except (results : List Expiry) (x : RequestId) :
    (results.filter fun e => decide (e.id ≠ x)).filterMap Expiry.settled? =
      (results.filterMap Expiry.settled?).filter fun e => decide (e.id ≠ x) := by
  rw [List.filterMap_filter, List.filter_filterMap]
  refine List.filterMap_congr fun e _ => ?_
  cases e with
  | resend frame priority attempt => simp [Expiry.settled?]
  | timedOut id attempts =>
    by_cases he : id = x
    · simp [Expiry.settled?, Expiry.id, he, Option.filter_some]
    · simp [Expiry.settled?, Expiry.id, he, Option.filter_some]

theorem expire_except (l : List PendingRequest) (x : RequestId) (now : Instant) :
    Overlooks x l (.expire now) := by
  rw [Overlooks, perform, perform, without_expired]
  refine Prod.ext ?_ rfl
  simp only [TableTold.except, TableAnswer.except, expiries_without, settled_except]

/-- When all are failed, nothing is told of a request that is not there. -/
theorem failAll_except (hx : x ∉ ids l) (error : SessionError) :
    Overlooks x l (.failAll error) := by
  rw [Overlooks, without_eq_self hx]
  refine Prod.ext ?_ rfl
  have hsettled : ((l.map fun r => (⟨r.frame.id, .outcome (.failure error)⟩ : Settled)).filter
      fun e => decide (e.id ≠ x)) = l.map fun r => ⟨r.frame.id, .outcome (.failure error)⟩ := by
    refine List.filter_eq_self.mpr fun e he => decide_eq_true ?_
    obtain ⟨r, hr, rfl⟩ := List.mem_map.mp he
    rintro rfl
    exact hx (List.mem_map_of_mem hr)
  simp only [perform, TableTold.except, TableAnswer.except, hsettled]

/-- **An operation that is about others, and does not end the request, tells the same of the
others and does the same to them when the request is not there.** -/
theorem perform_except {op : TableOp} (h : op.concerns x = false)
    (hspared : x ∈ ids l → x ∈ ids (perform l op).2) :
    perform (without l x) op = ((perform l op).1.except x, without (perform l op).2 x) := by
  cases op with
  | insert r =>
    have hr : r.frame.id ≠ x := of_decide_eq_false h
    rw [perform, perform, without_append, without_single, if_neg hr]
    rfl
  | markWritten id now timeout => exact markWritten_except (of_decide_eq_false h) now timeout
  | resolve key reply => exact resolve_except hspared
  | cancel id error => exact cancel_except (of_decide_eq_false h) error
  | expire now => exact expire_except l x now
  -- the request is not there, since it would have ended
  | failAll error => exact failAll_except (fun hmem => by cases hspared hmem) error

/-! ### A sequence of operations -/

/-- No operation of a sequence ends the request, unless it is about it. -/
def Spares (x : RequestId) : List PendingRequest → List TableOp → Prop
  | _, [] => True
  | l, op :: ops =>
    (op.concerns x = false → x ∈ ids l → x ∈ ids (perform l op).2) ∧ Spares x (perform l op).2 ops

theorem spares_append {ops more : List TableOp} : ∀ {l : List PendingRequest},
    Spares x l ops → Spares x (runOps perform l ops).2 more → Spares x l (ops ++ more) := by
  induction ops with
  | nil => exact fun _ h => h
  | cons op ops ih =>
    rintro l ⟨hop, hops⟩ h
    exact ⟨hop, ih hops h⟩

/-- A request that is not there, and is not registered, does not come. -/
theorem notMem_run {ops : List TableOp} (hx : x ∉ ids l)
    (hnew : x ∉ ops.filterMap TableOp.inserted?) : x ∉ ids (runOps perform l ops).2 := by
  intro hmem
  rcases List.mem_append.mp ((ids_run_sublist ops l).subset hmem) with h | h
  · exact hx h
  · exact hnew h

/-- What is not there is not ended. -/
theorem spares_of_notMem {ops : List TableOp} : ∀ {l : List PendingRequest}, x ∉ ids l →
    x ∉ ops.filterMap TableOp.inserted? → Spares x l ops := by
  induction ops with
  | nil => exact fun _ _ => trivial
  | cons op ops ih =>
    intro l hx hnew
    rw [inserted_cons, List.mem_append, not_or] at hnew
    refine ⟨fun _ hmem => absurd hmem hx, ih ?_ hnew.2⟩
    intro hmem
    rcases List.mem_append.mp ((ids_perform_sublist l op).subset hmem) with h | h
    · exact hx h
    · exact hnew.1 h

/-- What is there at the end was not ended on the way, when it is not registered again. -/
theorem spares_of_mem {ops : List TableOp} : ∀ {l : List PendingRequest},
    x ∈ ids (runOps perform l ops).2 → x ∉ ops.filterMap TableOp.inserted? → Spares x l ops := by
  induction ops with
  | nil => exact fun _ _ => trivial
  | cons op ops ih =>
    intro l hend hnew
    rw [inserted_cons, List.mem_append, not_or] at hnew
    refine ⟨fun _ _ => ?_, ih hend hnew.2⟩
    by_contra hgone
    exact notMem_run hgone hnew.2 hend

/-- **A sequence of operations, with the request and without it.**  Without the operations
that are about it, the others tell the same of the other requests, and leave the same of
them. -/
theorem run_except {ops : List TableOp} : ∀ {l : List PendingRequest}, Spares x l ops →
    ((ops.zip (runOps perform l ops).1).filter (fun e => !e.1.concerns x)).map
        (fun e => (e.1, e.2.except x)) =
      (ops.filter fun op => !op.concerns x).zip
        (runOps perform (without l x) (ops.filter fun op => !op.concerns x)).1 ∧
    (runOps perform (without l x) (ops.filter fun op => !op.concerns x)).2 =
      without (runOps perform l ops).2 x := by
  induction ops with
  | nil => exact fun _ => ⟨rfl, rfl⟩
  | cons op ops ih =>
    rintro l ⟨hop, hops⟩
    obtain ⟨htold, hend⟩ := ih hops
    rw [runOps_cons, List.zip_cons_cons]
    cases hc : op.concerns x with
    | true =>
      rw [perform_concerning hc] at htold hend
      rw [List.filter_cons_of_neg (by simp [hc]), List.filter_cons_of_neg (by simp [hc])]
      exact ⟨htold, hend⟩
    | false =>
      have hstep := perform_except hc (hop hc)
      rw [List.filter_cons_of_pos (by simp [hc]), List.filter_cons_of_pos (by simp [hc]),
        runOps_cons, hstep, List.map_cons, htold]
      exact ⟨rfl, hend⟩

/-- A request that is registered once, and is there when it is withdrawn: before it is
registered and after it is withdrawn it is not there, and in between nothing ends it. -/
theorem spares_of_withdrawn {before between after : List TableOp} {r : PendingRequest}
    {error : SessionError} (hr : r.frame.id = x)
    (hbefore : x ∉ before.filterMap TableOp.inserted?)
    (hbetween : x ∉ between.filterMap TableOp.inserted?)
    (hafter : x ∉ after.filterMap TableOp.inserted?)
    (hmem : x ∈ ids (runOps perform [] (before ++ .insert r :: between)).2) :
    Spares x [] (before ++ .insert r :: (between ++ .cancel x error :: after)) ∧
      x ∉ ids
        (runOps perform [] (before ++ .insert r :: (between ++ .cancel x error :: after))).2 := by
  let l := (perform (runOps perform [] before).2 (.insert r)).2
  have hend : x ∈ ids (runOps perform l between).2 := by
    rw [runOps_append] at hmem
    exact hmem
  have hgone : x ∉ ids (perform (runOps perform l between).2 (.cancel x error)).2 := by
    rw [perform]
    split
    · next hnone => exact fun _ => lookup?_eq_none_iff.mp hnone hend
    · exact fun h => (mem_ids_without.mp h).2 rfl
  constructor
  · refine spares_append (spares_of_notMem List.not_mem_nil hbefore) ⟨?_, ?_⟩
    · intro hc
      simp [TableOp.concerns, hr] at hc
    · refine spares_append (spares_of_mem hend hbetween) ⟨?_, spares_of_notMem hgone hafter⟩
      intro hc
      simp [TableOp.concerns] at hc
  · have hsplit : (runOps perform [] (before ++ .insert r ::
          (between ++ .cancel x error :: after))).2 =
        (runOps perform (perform (runOps perform l between).2 (.cancel x error)).2 after).2 := by
      simp only [runOps_append, runOps_cons]
      rfl
    rw [hsplit]
    exact notMem_run hgone hafter

/-! ### The table -/

/-- **A request that is withdrawn leaves no trace.**  Requests are registered under numbers
that were not used before, and one of them is registered, and withdrawn while it has not
ended.  Then every operation that is about others tells the same of them as when all
operations on that request are left out, and the table at the end is the same. -/
theorem withdrawal_leaves_no_trace (before between after : List TableOp) (r : PendingRequest)
    (error : SessionError)
    (hfresh : ((before ++ .insert r :: (between ++ .cancel r.frame.id error :: after)).filterMap
      TableOp.inserted?).Nodup)
    (hpending : (runOps PendingTable.perform .empty
      (before ++ .insert r :: between)).2.contains r.frame.id = true) :
    let x := r.frame.id
    let ops := before ++ .insert r :: (between ++ .cancel x error :: after)
    let others := ops.filter fun op => !op.concerns x
    let withIt := runOps PendingTable.perform .empty ops
    let withoutIt := runOps PendingTable.perform .empty others
    ((ops.zip withIt.1).filter fun e => !e.1.concerns x).map (fun e => (e.1, e.2.except x)) =
      others.zip withoutIt.1 ∧
    withIt.2.requests = withoutIt.2.requests ∧
    ∀ key, withIt.2.lines.find? key = withoutIt.2.lines.find? key := by
  intro x ops others withIt withoutIt
  -- the number is given once
  have hnumbers : ops.filterMap TableOp.inserted? =
      before.filterMap TableOp.inserted? ++
        x :: (between.filterMap TableOp.inserted? ++ after.filterMap TableOp.inserted?) := by
    simp [ops, x, List.filterMap_append, List.filterMap_cons, TableOp.inserted?]
  have hfresh' : (ops.filterMap TableOp.inserted?).Nodup := hfresh
  obtain ⟨hbefore, hafter⟩ : x ∉ before.filterMap TableOp.inserted? ∧
      x ∉ between.filterMap TableOp.inserted? ++ after.filterMap TableOp.inserted? := by
    rw [hnumbers] at hfresh'
    obtain ⟨_, hrest, hdisjoint⟩ := List.nodup_append.mp hfresh'
    refine ⟨fun h => hdisjoint x h x List.mem_cons_self rfl, (List.nodup_cons.mp hrest).1⟩
  rw [List.mem_append, not_or] at hafter
  have hothers : (others.filterMap TableOp.inserted?).Nodup :=
    hfresh'.sublist (List.filter_sublist.filterMap _)
  -- both runs are read on the register
  obtain ⟨htold, hlists⟩ := lists_run lists_empty (by simpa [ids] using hfresh')
  obtain ⟨htold', hlists'⟩ := lists_run lists_empty (by simpa [ids] using hothers)
  have hmem : x ∈ ids (runOps perform [] (before ++ .insert r :: between)).2 := by
    have hsub : ((before ++ .insert r :: between).filterMap TableOp.inserted?).Sublist
        (ops.filterMap TableOp.inserted?) := by
      refine List.Sublist.filterMap _ (List.Sublist.append_left ?_ _)
      exact (List.sublist_append_left between _).cons_cons _
    have hn := hfresh'.sublist hsub
    exact (lists_run lists_empty (by simpa [ids] using hn)).2.contains_iff.mp hpending
  obtain ⟨hspares, hgone⟩ : Spares x [] ops ∧ x ∉ ids (runOps perform [] ops).2 :=
    spares_of_withdrawn rfl hbefore hafter.1 hafter.2 hmem
  obtain ⟨hsame, hend⟩ := run_except hspares
  have hlists'' : Lists withoutIt.2 (runOps perform [] ops).2 := by
    rw [without_eq_self hgone] at hend
    rw [← hend]
    exact hlists'
  refine ⟨?_, ?_, fun key => hlists.lines_eq hlists'' key⟩
  · show ((ops.zip (runOps PendingTable.perform .empty ops).1).filter _).map _ =
      others.zip (runOps PendingTable.perform .empty others).1
    rw [htold, htold']
    exact hsame
  · exact congrArg Directory.mk (hlists.entries.trans hlists''.entries.symm)

/-- The first of three that wait for one reply is withdrawn after it was sent again: the reply
ends the second one, as if the first had never been there. -/
theorem withdrawal_leaves_no_trace_threeWaiting :
    let between : List TableOp := [.insert (waitingEvent 2 0), .insert (waitingEvent 3 0),
      .markWritten 1 10 5, .expire 15]
    let reply : TableOp := .resolve (.handshake (.controllerAt 1)) (.ack .command)
    let ops := .insert (waitingEvent 1 1) :: (between ++ [.cancel 1 .cancelled, reply])
    (ops.filterMap TableOp.inserted?).Nodup ∧
      (runOps PendingTable.perform .empty (.insert (waitingEvent 1 1) :: between)).2.contains 1 =
        true ∧
      ((ops.zip (runOps PendingTable.perform .empty ops).1).filter fun e =>
          !e.1.concerns 1).map (fun e => (e.1, e.2.except 1)) =
        (ops.filter fun op => !op.concerns 1).zip
          (runOps PendingTable.perform .empty (ops.filter fun op => !op.concerns 1)).1 := by
  intro between reply ops
  have hfresh : (ops.filterMap TableOp.inserted?).Nodup := by decide
  have hpending : (runOps PendingTable.perform .empty
      (.insert (waitingEvent 1 1) :: between)).2.contains 1 = true := by decide +kernel
  exact ⟨hfresh, hpending, (withdrawal_leaves_no_trace [] between [reply] (waitingEvent 1 1)
    .cancelled hfresh hpending).1⟩

end Register

end ZoneBus
