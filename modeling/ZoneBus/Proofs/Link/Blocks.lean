import ZoneBus.Proofs.Link.Writing

/-!
# What the line takes, in blocks

Several calls may send at once, and each writes its bytes in pieces of any size: as many
as the line has room for, until it is through, fails, gives up or is dropped.  Only the
call with the writing lock writes, so from the moment that the far end is reached the line
takes one block of bytes after the other, one for each send that came to hold the lock.  A
block is as much of the payload of its send as was written before the send stopped, and all
of it when the send ended well.  A send that fails on the line takes the writing half along,
so nothing is written after it.

## Main definitions

* `Link.taken` — everything that the line took, byte by byte, with the call that wrote it.
* `Link.granted` — the sends that came to hold the writing lock, in order.
* `Link.sinceReached` — what happened since the far end was reached.
* `Link.Block`, `Link.Parceled` — what the line took of one send, and of all.

## Main results

* `Link.exists_parceled` — what the line took since the far end was reached is one block
  after the other.
* `Link.Bare.taken_eq_nil` — where nobody can write, the line takes nothing.
* `Link.outbound_of_history` — **the line holds what it took**, so the blocks are what the
  far end can read.
* `Link.written_in_blocks` — **the bytes of a stream, and what they are made of.**
-/

namespace ZoneBus

namespace Link

variable {l l' : Link} {c : CallId} {phase : LinkPhase} {events : List LinkEvent}

/-! ### Blocks -/

/-- Everything that the line took, byte by byte, with the call that wrote it. -/
def taken : List (Link × Occurrence) → Link → List (CallId × UInt8)
  | [], _ => []
  | (v, .move c _) :: past, l => taken past v ++ (v.growth l).map fun b => (c, b)
  | (v, .input _) :: past, _ => taken past v

/-- The send that is in turn for the writing lock and moves on, so that it holds the lock. -/
def grant? (l : Link) : Occurrence → Option (CallId × Bytes)
  | .move c _ => (l.calls.find? c).bind fun phase =>
    match phase with
    | .sendTurn bytes => some (c, bytes)
    | _ => none
  | .input _ => none

/-- The sends that came to hold the writing lock, in the order in which they did, each with
what it is to write. -/
def granted : List (Link × Occurrence) → List (CallId × Bytes)
  | [] => []
  | m :: past => granted past ++ (m.1.grant? m.2).toList

/-- What happened since the far end was reached. -/
def sinceReached (past : List (Link × Occurrence)) : List (Link × Occurrence) :=
  past.takeWhile fun m => !m.2.reaches

/-- What the line took of one send. -/
structure Block where
  /-- The call that sends. -/
  call : CallId
  /-- What it is to write. -/
  payload : Bytes
  /-- What it has written. -/
  written : Bytes
deriving DecidableEq

/-- The bytes of a block, with the call that wrote them. -/
def Block.bytes (b : Block) : List (CallId × UInt8) := b.written.map fun byte => (b.call, byte)

/-- What the line took is these blocks, one after the other. -/
structure Parceled (blocks : List Block) (era : List (Link × Occurrence)) (l : Link) : Prop where
  /-- The line took nothing else. -/
  taken : taken era l = blocks.flatMap Block.bytes
  /-- There is one block for each send that came to hold the lock. -/
  granted : (blocks.map fun b => (b.call, b.payload)) = granted era
  /-- No send has two. -/
  nodup : (blocks.map Block.call).Nodup
  /-- A block is a front part of what was to be written. -/
  front : ∀ b ∈ blocks, b.written <+: b.payload
  /-- Its send bears a number that was given out. -/
  numbered : ∀ b ∈ blocks, b.call < l.nextCall
  /-- As long as the send is under way, it is to write the rest. -/
  writing : ∀ b ∈ blocks, ∀ phase, l.calls.find? b.call = some phase →
    ∃ rest, phase = .writing rest ∧ b.written ++ rest = b.payload
  /-- Whoever writes has the last block. -/
  last : ∀ c rest, l.calls.find? c = some (.writing rest) →
    ∃ earlier b, blocks = earlier ++ [b] ∧ b.call = c
  /-- A send that ended well has written everything. -/
  served : ∀ m ∈ era, ∀ c phase, m.1.calls.find? c = some phase → phase.kind = .sending →
    m.2.ends c .done = true → ∃ b ∈ blocks, b.call = c ∧ b.written = b.payload

/-- A send that ends well was writing. -/
theorem Deed.writing_of_done (hd : Deed l c phase l' events) (hk : phase.kind = .sending)
    (h : .finished c .done ∈ events) : ∃ rest, phase = .writing rest := by
  cases hd with
  | writes => exact ⟨_, rfl⟩
  | writesPartly => exact ⟨_, rfl⟩
  | writeFails => exact ⟨_, rfl⟩
  | asksSend => cases h
  | getsWriter => cases h
  | lacksWriter => simp at h
  | givesUp => simp at h
  | _ => cases hk

/-- Whoever comes to write was in turn for the lock, or wrote before. -/
theorem Deed.comes_to_write (hd : Deed l c phase l' events) {rest : Bytes}
    (hf : l'.calls.find? c = some (.writing rest)) :
    phase = .sendTurn rest ∨ ∃ before, phase = .writing before := by
  cases hd.goesOn hf with
  | getsWriter => exact Or.inl rfl
  | writesPartly => exact Or.inr ⟨_, rfl⟩

theorem grant?_turn {bytes : Bytes} (hf : l.calls.find? c = some (.sendTurn bytes))
    (events : List LinkEvent) : l.grant? (.move c events) = some (c, bytes) := by
  rw [grant?, hf]
  rfl

theorem grant?_other (hf : l.calls.find? c = some phase) (hno : ∀ bytes, phase ≠ .sendTurn bytes)
    (events : List LinkEvent) : l.grant? (.move c events) = none := by
  rw [grant?, hf, Option.bind_some]
  split
  · exact absurd rfl (hno _)
  · rfl

theorem ends_move {d : CallId} {result : LinkResult} :
    (Occurrence.move c events).ends d result = true ↔ .finished d result ∈ events :=
  decide_eq_true_iff

section Steps

variable {blocks : List Block} {era : List (Link × Occurrence)}

/-- A call that neither writes nor comes to hold the writing lock adds nothing. -/
theorem Parceled.other (h : Parceled blocks era l) (hf : l.calls.find? c = some phase)
    (hd : Deed l c phase l' events) (hturn : ∀ bytes, phase ≠ .sendTurn bytes)
    (hwriting : ∀ rest, phase ≠ .writing rest) :
    Parceled blocks ((l, .move c events) :: era) l' where
  taken := by
    rw [Link.taken, hd.growth_eq_nil hwriting, List.map_nil, List.append_nil]
    exact h.taken
  granted := by
    rw [Link.granted, grant?_other hf hturn, Option.toList_none, List.append_nil]
    exact h.granted
  nodup := h.nodup
  front := h.front
  numbered := fun b hb => hd.nextCall_eq ▸ h.numbered b hb
  writing := fun b hb phase' hf' => by
    by_cases he : b.call = c
    · obtain ⟨rest, hp, _⟩ := h.writing b hb phase (he ▸ hf)
      exact absurd hp (hwriting rest)
    · rw [hd.other _ he] at hf'
      exact h.writing b hb phase' hf'
  last := fun d rest hf' => by
    by_cases he : d = c
    · subst he
      rcases hd.comes_to_write hf' with hp | ⟨before, hp⟩
      · exact absurd hp (hturn rest)
      · exact absurd hp (hwriting before)
    · rw [hd.other _ he] at hf'
      exact h.last d rest hf'
  served := fun m hm d phase' hf' hk he => by
    rcases List.mem_cons.mp hm with rfl | hm
    · have hfin := ends_move.mp he
      obtain rfl := hd.finished_eq hfin
      obtain rfl := Option.some.inj (hf.symm.trans hf')
      obtain ⟨rest, hp⟩ := hd.writing_of_done hk hfin
      exact absurd hp (hwriting rest)
    · exact h.served m hm d phase' hf' hk he

/-- A send comes to hold the writing lock: nobody else writes, and its block begins. -/
theorem Parceled.turn {bytes : Bytes} (h : Parceled blocks era l) (hl : l.Locked)
    (hf : l.calls.find? c = some (.sendTurn bytes)) (hd : Deed l c (.sendTurn bytes) l' events) :
    Parceled (blocks ++ [⟨c, bytes, []⟩]) ((l, .move c events) :: era) l' := by
  have hcall : (LinkCall.send bytes).half? = some .writer := rfl
  obtain ⟨hfirst, hcase⟩ := Deed.turn_carrier hcall hd
  have hnew : ∀ b ∈ blocks, b.call ≠ c := fun b hb he => by
    obtain ⟨rest, hp, _⟩ := h.writing b hb _ (he ▸ hf)
    cases hp
  have hself : ∀ phase', l'.calls.find? c = some phase' → phase' = .writing bytes := by
    intro phase' hf'
    rcases hcase with ⟨_, rfl, _⟩ | ⟨_, rfl, _⟩
    · change (l.calls.put c (.writing bytes)).find? c = some phase' at hf'
      rw [Directory.find?_put, if_pos rfl] at hf'
      exact (Option.some.inj hf').symm
    · rw [find?_abort_self] at hf'
      cases hf'
  exact {
    taken := by
      rw [Link.taken, hd.growth_eq_nil (by simp), List.map_nil, List.append_nil,
        List.flatMap_append, h.taken]
      exact (List.append_nil _).symm
    granted := by
      rw [Link.granted, grant?_turn hf, List.map_append, h.granted]
      rfl
    nodup := by
      rw [List.map_append, List.nodup_append]
      refine ⟨h.nodup, List.pairwise_singleton _ _, fun d hd d' hd' => ?_⟩
      obtain ⟨b, hb, rfl⟩ := List.mem_map.mp hd
      rw [List.map_singleton, List.mem_singleton] at hd'
      rw [hd']
      exact hnew b hb
    front := fun b hb => by
      rcases List.mem_append.mp hb with hb | hb
      · exact h.front b hb
      · rw [List.mem_singleton.mp hb]
        exact List.nil_prefix
    numbered := fun b hb => by
      rw [hd.nextCall_eq]
      rcases List.mem_append.mp hb with hb | hb
      · exact h.numbered b hb
      · rw [List.mem_singleton.mp hb]
        exact hl.numbered c _ hf
    writing := fun b hb phase' hf' => by
      rcases List.mem_append.mp hb with hb | hb
      · rw [hd.other _ (hnew b hb)] at hf'
        exact h.writing b hb phase' hf'
      · obtain rfl := List.mem_singleton.mp hb
        exact ⟨bytes, hself phase' hf', rfl⟩
    last := fun d rest hf' => by
      by_cases he : d = c
      · exact ⟨blocks, _, rfl, he.symm⟩
      -- whoever wrote before would hold the lock
      · rw [hd.other _ he] at hf'
        have hhead := hl.writer.first d _ hf' rfl
        rw [show l.writerLock.head? = some c from hfirst] at hhead
        exact absurd (Option.some.inj hhead).symm he
    served := fun m hm d phase' hf' hk he => by
      rcases List.mem_cons.mp hm with rfl | hm
      · have hfin := ends_move.mp he
        obtain rfl := hd.finished_eq hfin
        obtain rfl := Option.some.inj (hf.symm.trans hf')
        obtain ⟨rest, hp⟩ := hd.writing_of_done hk hfin
        cases hp
      · obtain ⟨b, hb, hs⟩ := h.served m hm d phase' hf' hk he
        exact ⟨b, List.mem_append_left _ hb, hs⟩ }

/-- A send that writes adds to its block, which is the last. -/
theorem Parceled.writes {rest : Bytes} (h : Parceled blocks era l)
    (hf : l.calls.find? c = some (.writing rest)) (hd : Deed l c (.writing rest) l' events) :
    ∃ blocks', Parceled blocks' ((l, .move c events) :: era) l' := by
  obtain ⟨earlier, b, rfl, rfl⟩ := h.last c rest hf
  obtain ⟨left, hrest, hself, hdone⟩ := hd.writing
  have hmem : b ∈ earlier ++ [b] := List.mem_append_right _ (List.mem_singleton_self b)
  have hpayload : b.written ++ rest = b.payload := by
    obtain ⟨_, hp, hb⟩ := h.writing b hmem _ hf
    rw [LinkPhase.writing.inj hp]
    exact hb
  have hleft : (b.written ++ l.growth l') ++ left = b.payload := by
    rw [List.append_assoc, ← hrest, hpayload]
  have hnew : ∀ b' ∈ earlier, b'.call ≠ b.call := fun b' hb' he => by
    have hn := h.nodup
    rw [List.map_append, List.nodup_append] at hn
    exact hn.2.2 b'.call (List.mem_map_of_mem hb') b.call (List.mem_singleton_self _) he
  refine ⟨earlier ++ [{ b with written := b.written ++ l.growth l' }], ?_⟩
  exact {
    taken := by
      rw [Link.taken, h.taken, List.flatMap_append, List.flatMap_append, List.append_assoc]
      simp only [List.flatMap_singleton, Block.bytes, List.map_append]
    granted := by
      rw [Link.granted, grant?_other hf (by simp), Option.toList_none, List.append_nil, ← h.granted,
        List.map_append, List.map_append]
      rfl
    nodup := by
      have hn := h.nodup
      rw [List.map_append] at hn ⊢
      exact hn
    front := fun b' hb' => by
      rcases List.mem_append.mp hb' with hb' | hb'
      · exact h.front b' (List.mem_append_left _ hb')
      · rw [List.mem_singleton.mp hb']
        exact ⟨left, hleft⟩
    numbered := fun b' hb' => by
      rw [hd.nextCall_eq]
      rcases List.mem_append.mp hb' with hb' | hb'
      · exact h.numbered b' (List.mem_append_left _ hb')
      · rw [List.mem_singleton.mp hb']
        exact h.numbered b hmem
    writing := fun b' hb' phase' hf' => by
      rcases List.mem_append.mp hb' with hb' | hb'
      · rw [hd.other _ (hnew b' hb')] at hf'
        exact h.writing b' (List.mem_append_left _ hb') phase' hf'
      · obtain rfl := List.mem_singleton.mp hb'
        exact ⟨left, hself phase' hf', hleft⟩
    last := fun d rest' hf' => by
      refine ⟨earlier, _, rfl, ?_⟩
      by_cases he : d = b.call
      · exact he.symm
      · rw [hd.other _ he] at hf'
        obtain ⟨_, b', hb', rfl⟩ := h.last d rest' hf'
        obtain rfl := List.singleton_inj.mp (List.append_inj_right' hb' rfl)
        rfl
    served := fun m hm d phase' hf' hk he => by
      rcases List.mem_cons.mp hm with rfl | hm
      · have hfin := ends_move.mp he
        obtain rfl := hd.finished_eq hfin
        refine ⟨_, List.mem_append_right _ (List.mem_singleton_self _), rfl, ?_⟩
        rw [← hleft, hdone hfin, List.append_nil]
      · obtain ⟨b', hb', hcall, hwhole⟩ := h.served m hm d phase' hf' hk he
        rcases List.mem_append.mp hb' with hb' | hb'
        · exact ⟨b', List.mem_append_left _ hb', hcall, hwhole⟩
        -- a block that is whole does not grow
        · obtain rfl := List.mem_singleton.mp hb'
          refine ⟨_, List.mem_append_right _ (List.mem_singleton_self _), hcall, ?_⟩
          have hnone : rest = [] := List.append_cancel_left
            (hpayload.trans (hwhole.symm.trans (List.append_nil _).symm))
          rw [hnone] at hrest
          rw [(List.append_eq_nil_iff.mp hrest.symm).1, List.append_nil]
          exact hwhole }

/-- What is done from outside adds nothing, and lets nobody write. -/
theorem Parceled.input (h : Parceled blocks era l) (i : Input) :
    Parceled blocks ((l, .input i) :: era) (l.apply i) := by
  have before : ∀ {c phase}, (l.apply i).calls.find? c = some phase →
      l.calls.find? c = some phase ∨ c = l.nextCall ∧ ∃ call, phase = .begun call := by
    intro c phase hf
    cases i with
    | begin call =>
      rw [apply, find?_calls_begin] at hf
      split at hf
      · next he => exact Or.inr ⟨he.symm, call, (Option.some.inj hf).symm⟩
      · exact Or.inl hf
    | drop d =>
      change (l.calls.erase d).find? c = some phase at hf
      rw [Directory.find?_erase] at hf
      split at hf
      · cases hf
      · exact Or.inl hf
    | farEnd line connects => exact Or.inl hf
  have hnext : l.nextCall ≤ (l.apply i).nextCall := by
    cases i with
    | begin call => exact Nat.le_succ _
    | drop d => exact Nat.le_refl _
    | farEnd line connects => exact Nat.le_refl _
  exact {
    taken := h.taken
    granted := by
      rw [Link.granted]
      exact (h.granted.trans (List.append_nil _).symm)
    nodup := h.nodup
    front := h.front
    numbered := fun b hb => Nat.lt_of_lt_of_le (h.numbered b hb) hnext
    writing := fun b hb phase hf => by
      rcases before hf with hf | ⟨he, _⟩
      · exact h.writing b hb phase hf
      · exact absurd he (Nat.ne_of_lt (h.numbered b hb))
    last := fun c rest hf => by
      rcases before hf with hf | ⟨_, call, hp⟩
      · exact h.last c rest hf
      · cases hp
    served := fun m hm c phase hf hk he => by
      rcases List.mem_cons.mp hm with rfl | hm
      · cases he
      · exact h.served m hm c phase hf hk he }

/-- When the far end is reached, nobody writes. -/
theorem Parceled.reached (hl : l.Locked) (hf : l.calls.find? c = some phase)
    (hd : Deed l c phase l' events) (hr : .connected ∈ events) : Parceled [] [] l' := by
  obtain ⟨rfl, connects, rfl⟩ := hd.eq_reached hr
  have hquiet : ∀ d rest, ((l.reached connects).abort c).calls.find? d ≠ some (.writing rest) := by
    intro d rest hf'
    change (l.calls.erase c).find? d = _ at hf'
    rw [Directory.find?_erase] at hf'
    split at hf'
    · cases hf'
    · next hne =>
      have hhead := hl.writer.first d _ hf' rfl
      rw [hl.writer.first c _ hf rfl] at hhead
      exact hne (Option.some.inj hhead)
  exact ⟨rfl, rfl, List.nodup_nil, fun _ hb => (by cases hb), fun _ hb => (by cases hb),
    fun _ hb => (by cases hb), fun d rest hf' => absurd hf' (hquiet d rest),
    fun _ hm => by cases hm⟩

end Steps

theorem sinceReached_cons {past : List (Link × Occurrence)} (m : Link × Occurrence) :
    sinceReached (m :: past) = if m.2.reaches then [] else m :: sinceReached past := by
  rw [sinceReached, List.takeWhile_cons]
  cases m.2.reaches <;> rfl

theorem not_reaches_of_mem {past : List (Link × Occurrence)} {m : Link × Occurrence}
    (hm : m ∈ sinceReached past) : m.2.reaches = false := by
  have hall := List.all_eq_true.mp (List.all_takeWhile (l := past)) m hm
  simpa using hall

/-- What happened since the far end was reached happened at all. -/
theorem exists_of_sinceReached {past later earlier : List (Link × Occurrence)}
    {m : Link × Occurrence} (he : sinceReached past = later ++ m :: earlier) :
    ∃ before, past = later ++ m :: before := by
  obtain ⟨before, hbefore⟩ := List.takeWhile_prefix (l := past)
    fun m : Link × Occurrence => !m.2.reaches
  refine ⟨earlier ++ before, ?_⟩
  calc
    past = sinceReached past ++ before := hbefore.symm
    _ = later ++ m :: (earlier ++ before) := by rw [he, List.append_assoc, List.cons_append]

/-- **What the line took since the far end was reached is one block after the other.** -/
theorem exists_parceled {endpoint : String} {capacity : Option Nat}
    {connects : List (Option LinkError)} {past : List (Link × Occurrence)}
    (h : History (fresh endpoint capacity connects) past l) :
    ∃ blocks, Parceled blocks (sinceReached past) l := by
  generalize hl₀ : fresh endpoint capacity connects = l₀ at h
  induction h with
  | nil =>
    subst hl₀
    exact ⟨[], rfl, rfl, List.nodup_nil, fun _ hb => (by cases hb), fun _ hb => (by cases hb),
      fun _ hb => (by cases hb), fun _ _ hf => (by cases hf), fun _ hm => by cases hm⟩
  | @cons v w past o h ho ih =>
    subst hl₀
    obtain ⟨blocks, hp⟩ := ih
    have hl : v.Locked := locked_of_history h
    rw [sinceReached_cons]
    rcases happens_cases ho with ⟨c, events, phase, rfl, hf, hd⟩ | ⟨i, rfl, rfl⟩
    · split
      · next hr => exact ⟨[], Parceled.reached hl hf hd (of_decide_eq_true hr)⟩
      · cases phase with
        | sendTurn bytes => exact ⟨_, hp.turn hl hf hd⟩
        | writing rest => exact hp.writes hf hd
        | _ => exact ⟨blocks, hp.other hf hd (by simp) (by simp)⟩
    · exact ⟨blocks, hp.input i⟩

/-! ### In every history -/

section Histories

variable {endpoint : String} {capacity : Option Nat} {connects : List (Option LinkError)}
  {past : List (Link × Occurrence)}

/-- A send that comes to hold the lock writes what it was asked to. -/
theorem began_of_granted (h : History (fresh endpoint capacity connects) past l) {bytes : Bytes}
    (hg : (c, bytes) ∈ granted past) : Began past c (.send bytes) := by
  generalize hl₀ : fresh endpoint capacity connects = l₀ at h
  induction h with
  | nil => cases hg
  | @cons v w past o h ho ih =>
    subst hl₀
    rcases List.mem_append.mp hg with hg | hg
    · exact (ih hg).cons _
    · rw [Option.mem_toList] at hg
      cases o with
      | input i => cases hg
      | move d events =>
        obtain ⟨phase, hf, hg⟩ := Option.bind_eq_some_iff.mp hg
        split at hg
        · obtain ⟨rfl, rfl⟩ := Prod.mk.inj (Option.some.inj hg)
          obtain ⟨call, hb, hcall⟩ := (recalls_of_history h).follows _ _ hf
          exact hcall ▸ hb.cons _
        · cases hg

theorem granted_sinceReached (past : List (Link × Occurrence)) {g : CallId × Bytes}
    (hg : g ∈ granted (sinceReached past)) : g ∈ granted past := by
  induction past with
  | nil => exact hg
  | cons m past ih =>
    rw [sinceReached_cons] at hg
    split at hg
    · cases hg
    · rcases List.mem_append.mp hg with hg | hg
      · exact List.mem_append_left _ (ih hg)
      · exact List.mem_append_right _ hg

/-! ### After a failure -/

/-- A send that fails on the line takes the writing half along. -/
theorem Deed.bare (hd : Deed l c phase l' events) (hl : l.Locked)
    (hf : l.calls.find? c = some phase) (hk : phase.kind = .sending) {reason : String}
    (h : .finished c (.failed (.io reason)) ∈ events) : l'.Bare .writer := by
  have not_noted := fun line result => finished_notMem_noted (l := l) (c := c) c result line
  have hother := hd.other
  cases hd with
  | writeFails line =>
    have hfirst : (l.lineOf .writer).head? = some c := hl.writer.first c _ hf rfl
    refine hl.bare_of_first hfirst hother rfl fun phase' hf' => ?_
    rw [find?_abort_self] at hf'
    cases hf'
  | writes line => simp [not_noted line] at h
  | writesPartly line => exact absurd h (not_noted line _)
  | asksSend => cases h
  | getsWriter => cases h
  | lacksWriter => simp at h
  | givesUp => simp at h
  | _ => cases hk

theorem taken_cons (m : Link × Occurrence) (past : List (Link × Occurrence)) (l : Link) :
    taken (m :: past) l = taken past m.1 ++ taken [m] l := by
  obtain ⟨v, o⟩ := m
  cases o with
  | move c events => rfl
  | input i => exact (List.append_nil _).symm

/-- **Where nobody can write, nothing is added**, until the far end is reached. -/
theorem Bare.taken_eq_nil {v : Link} {later : List (Link × Occurrence)} (h : v.Bare .writer)
    (hl : History v later l) (hno : ∀ m ∈ later, m.2.reaches = false) :
    l.Bare .writer ∧ taken later l = [] := by
  induction hl with
  | nil => exact ⟨h, rfl⟩
  | @cons u w past o _ ho ih =>
    obtain ⟨hbare, hnone⟩ := ih fun m hm => hno m (List.mem_cons_of_mem _ hm)
    refine ⟨hbare.happens ho (hno _ List.mem_cons_self), ?_⟩
    rw [taken_cons, hnone, List.nil_append]
    rcases happens_cases ho with ⟨c, events, phase, rfl, hf, hd⟩ | ⟨i, rfl, rfl⟩
    · rw [taken, hd.growth_eq_nil]
      · rfl
      rintro rest rfl
      cases hbare.idle c _ hf
    · rfl

/-- **The line holds what it took**, byte by byte and in that order, as long as the far end is
not reached anew and leaves what was written where it is. -/
theorem outbound_of_history {v : Link} {later : List (Link × Occurrence)} (h : History v later l)
    (hno : ∀ m ∈ later, m.2.reaches = false)
    (hleaves : ∀ m ∈ later, ∀ line connects, m.2 = .input (.farEnd line connects) →
      line.outbound = m.1.line.outbound) :
    l.line.outbound = v.line.outbound ++ (taken later l).map Prod.snd := by
  induction h with
  | nil => exact (List.append_nil _).symm
  | @cons u w past o _ ho ih =>
    have hpast := ih (fun m hm => hno m (List.mem_cons_of_mem _ hm)) fun m hm =>
      hleaves m (List.mem_cons_of_mem _ hm)
    rcases happens_cases ho with ⟨c, events, phase, rfl, _, hd⟩ | ⟨i, rfl, rfl⟩
    · have hbytes : ((u.growth w).map fun b => (c, b)).map Prod.snd = u.growth w := by
        rw [List.map_map]
        exact List.map_id _
      rw [taken, List.map_append, hbytes, ← List.append_assoc, ← hpast]
      exact hd.outbound_eq (of_decide_eq_false (hno _ List.mem_cons_self))
    · cases i with
      | begin call => exact hpast
      | drop c => exact hpast
      | farEnd line connects => exact (hleaves _ List.mem_cons_self line connects rfl).trans hpast

/-! ### The blocks of a stream -/

theorem ends_cases {o : Occurrence} {d : CallId} {result : LinkResult} (ho : Happens l o l')
    (he : o.ends d result = true) :
    ∃ events phase, o = .move d events ∧ l.calls.find? d = some phase ∧
      Deed l d phase l' events ∧ .finished d result ∈ events := by
  rcases happens_cases ho with ⟨c, events, phase, rfl, hf, hd⟩ | ⟨i, rfl, _⟩
  · have hfin := ends_move.mp he
    obtain rfl := hd.finished_eq hfin
    exact ⟨events, phase, rfl, hf, hd, hfin⟩
  · cases he

/-- A call that was asked to send is sending as long as it is under way. -/
theorem kind_of_began (h : History (fresh endpoint capacity connects) past l) {bytes : Bytes}
    (hb : Began past c (.send bytes)) {m : Link × Occurrence}
    {later earlier : List (Link × Occurrence)} (hpast : past = later ++ m :: earlier)
    (hf : m.1.calls.find? c = some phase) : phase.kind = .sending := by
  obtain ⟨v, hm, _, _⟩ := h.exists_of_append hpast
  obtain ⟨call, hcall, hp⟩ := (recalls_of_history hm).follows c phase hf
  have hcall' : Began past c call := by
    obtain ⟨b, hb, hbegan⟩ := hcall
    exact ⟨b, hpast ▸ List.mem_append_right _ (List.mem_cons_of_mem _ hb), hbegan⟩
  rw [hp.kind_eq, (recalls_of_history h).once c _ _ hcall' hb]
  rfl

/-- **What the line takes is one block after the other.**  In every history, whatever calls
there are and in whatever order they move, give up or are dropped, and whatever the line
does, everything that the line took since the far end was reached is made of blocks, one
for each send that came to hold the writing lock since, in the order in which they did.
A block is a front part of what its send was asked to write, and all of it when the send
ended well.  After a send has failed on the line, the line takes nothing more. -/
theorem written_in_blocks (h : History (fresh endpoint capacity connects) past l) :
    (∃ blocks : List Block,
      taken (sinceReached past) l = blocks.flatMap Block.bytes ∧
      (blocks.map fun b => (b.call, b.payload)) = granted (sinceReached past) ∧
      (blocks.map Block.call).Nodup ∧
      (∀ b ∈ blocks, Began past b.call (.send b.payload) ∧ b.written <+: b.payload) ∧
      ∀ c bytes, Began past c (.send bytes) →
        (∃ m ∈ sinceReached past, m.2.ends c .done = true) → ⟨c, bytes, bytes⟩ ∈ blocks) ∧
    ∀ later m earlier, sinceReached past = later ++ m :: earlier →
      ∀ c bytes reason, Began past c (.send bytes) →
        m.2.ends c (.failed (.io reason)) = true → taken later l = [] := by
  constructor
  · obtain ⟨blocks, hp⟩ := exists_parceled h
    have hbegan : ∀ b ∈ blocks, Began past b.call (.send b.payload) := fun b hb => by
      refine began_of_granted h (granted_sinceReached past ?_)
      rw [← hp.granted]
      exact List.mem_map_of_mem hb
    refine ⟨blocks, hp.taken, hp.granted, hp.nodup, fun b hb => ⟨hbegan b hb, hp.front b hb⟩, ?_⟩
    rintro c bytes hb ⟨m, hm, he⟩
    obtain ⟨later, earlier, hera⟩ := List.append_of_mem hm
    obtain ⟨before, hpast⟩ := exists_of_sinceReached hera
    obtain ⟨v, _, hmoves, _⟩ := h.exists_of_append hpast
    obtain ⟨events, phase, _, hf, _, _⟩ := ends_cases hmoves he
    obtain ⟨b, hmem, rfl, hwhole⟩ := hp.served m hm c phase hf (kind_of_began h hb hpast hf) he
    have hpayload := LinkCall.send.inj ((recalls_of_history h).once _ _ _ (hbegan b hmem) hb)
    rw [hpayload] at hwhole
    have hb : b = ⟨b.call, bytes, bytes⟩ := by
      cases b
      cases hpayload
      cases hwhole
      rfl
    exact hb ▸ hmem
  · intro later m earlier hera c bytes reason hb he
    obtain ⟨before, hpast⟩ := exists_of_sinceReached hera
    obtain ⟨v, hm, hmoves, hlater⟩ := h.exists_of_append hpast
    obtain ⟨events, phase, _, hf, hd, hfin⟩ := ends_cases hmoves he
    have hbare := hd.bare (locked_of_history hm) hf (kind_of_began h hb hpast hf) hfin
    refine (hbare.taken_eq_nil hlater fun m' hm' => ?_).2
    exact not_reaches_of_mem (hera ▸ List.mem_append_left _ hm')

end Histories

/-- Three sends over a line with room for three bytes: the first is written, the second
partly, until the line breaks, and the third comes too late. -/
def cutShort : List Cue :=
  [.input (.begin .open), .move 0 0, .move 0 0, .move 0 0, .move 0 0,
    .input (.begin (.send [1, 2])), .input (.begin (.send [3, 4])), .input (.begin (.send [5])),
    .move 1 0, .move 2 0, .move 3 0, .move 1 0, .move 1 0, .move 2 0, .move 2 0,
    .input (.farEnd { Line.fresh none with writeFailure := some "broken pipe" } []), .move 2 0,
    .move 3 0]

theorem written_in_blocks_cutShort :
    ∃ past l, History (fresh "line" (some 3) []) past l ∧
      taken (sinceReached past) l = [(1, 1), (1, 2), (2, 3)] ∧
      granted (sinceReached past) = [(1, [1, 2]), (2, [3, 4]), (3, [5])] ∧
      (∃ blocks : List Block, taken (sinceReached past) l = blocks.flatMap Block.bytes ∧
        ⟨1, [1, 2], [1, 2]⟩ ∈ blocks) ∧
      ∃ later m earlier, sinceReached past = later ++ m :: earlier ∧
        m.2.ends 2 (.failed (.io "broken pipe")) = true ∧ taken later l = [] := by
  obtain ⟨past, l, h, htaken, hgranted, hfirst, hdone, hsecond, hfailed⟩ :=
    exists_history (fresh "line" (some 3) []) cutShort
      (fun past l => taken (sinceReached past) l = [(1, 1), (1, 2), (2, 3)] ∧
        granted (sinceReached past) = [(1, [1, 2]), (2, [3, 4]), (3, [5])] ∧
        Began past 1 (.send [1, 2]) ∧ (∃ m ∈ sinceReached past, m.2.ends 1 .done = true) ∧
        Began past 2 (.send [3, 4]) ∧
        ∃ m ∈ sinceReached past, m.2.ends 2 (.failed (.io "broken pipe")) = true)
      (by decide +kernel)
  obtain ⟨⟨blocks, hblocks, _, _, _, hserved⟩, hafter⟩ := written_in_blocks h
  obtain ⟨m, hm, he⟩ := hfailed
  obtain ⟨later, earlier, hera⟩ := List.append_of_mem hm
  exact ⟨past, l, h, htaken, hgranted, ⟨blocks, hblocks, hserved 1 _ hfirst hdone⟩,
    later, m, earlier, hera, he, hafter later m earlier hera 2 _ _ hsecond he⟩

end Link

end ZoneBus
