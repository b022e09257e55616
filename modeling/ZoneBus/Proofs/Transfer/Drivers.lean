import Mathlib.Data.List.Forall2
import ZoneBus.Proofs.Reassembly.Windows
import ZoneBus.Proofs.Runs

/-!
# A transfer driven without checks

A packet tells whether it is the first of its transfer and whether it is the last, so a
transfer can be driven by that alone: the first packet opens it, every packet is written,
the last one closes it.  Packets that were lost, repeated or mixed up make such a driver
publish values that nobody sent.  Checking the sequence takes these publications away, and
does nothing else: what is still published, the plain driver publishes too, at the same
packet; and where nothing is refused the two cannot be told apart.

## Main definitions

* `Buffer.takeChecked`, `Buffer.takePlain` — the two drivers.
* `Buffer.Covers` — what one buffer has gathered, the other has gathered as well.
* `Buffer.Observation`, `Buffer.observed` — all that a buffer shows.
* `IsTransfer` — the packets of a whole transfer, in order.

## Main results

* `Buffer.allows_run` — what the checked driver publishes, the plain one publishes.
* `Buffer.alike_run` — the two agree as long as nothing is refused.
* `Buffer.checked_removes` — **checking the sequence only takes publications away.**
-/

namespace ZoneBus

/-- The packet that ends a transfer is the one that reaches its count. -/
theorem Packet.isLast_iff {p : Packet} (h : p.number < p.count) :
    p.isLast = true ↔ p.count ≤ nextNumber p.number := by
  have hlt : p.number.toNat < p.count.toNat := h
  have hcount : p.count.toNat < 65536 := p.count.toNat_lt
  have hne : p.number ≠ 65535 := by
    intro he
    rw [he] at hlt
    exact Nat.not_lt_of_le (Nat.le_of_lt_succ hcount) hlt
  have hnext : (nextNumber p.number).toNat = p.number.toNat + 1 := by
    rw [nextNumber, if_neg hne, UInt16.toNat_add]
    exact Nat.mod_eq_of_lt (Nat.lt_of_le_of_lt hlt hcount)
  rw [isLast, beq_iff_eq, le_nextNumber_iff, ← UInt16.toNat_inj, hnext]
  omega

/-- The packets of a whole transfer, in order: as many as their count says, numbered from
zero on. -/
def IsTransfer (packets : List (Instant × Packet)) : Prop :=
  ∃ count : UInt16, packets.length = count.toNat ∧
    packets.map (fun e => e.2.number.toNat) = List.range packets.length ∧
    ∀ e ∈ packets, e.2.count = count

namespace Buffer

/-! ### The drivers -/

/-- Takes a packet and checks that it is the next one. -/
def takeChecked (b : Buffer) (e : Instant × Packet) : Except BufferError (Option Bytes) × Buffer :=
  b.takeFragment (e.2.fragment e.1)

/-- Opens a transfer for the first packet. -/
def openFor (b : Buffer) (p : Packet) : Buffer := if p.isFirst then b.begin else b

/-- Takes a packet by its place alone: the first opens a transfer, each is written, the last
closes the transfer.  Refusals are passed over. -/
def takePlain (b : Buffer) (e : Instant × Packet) : Option Bytes × Buffer :=
  let written := ((b.openFor e.2).write e.2.data).2
  if e.2.isLast then
    let (value, b') := written.finish e.1
    (value.toOption, b')
  else (none, written)

variable {b b' : Buffer} {e : Instant × Packet} {t t' : OpenTransfer}

@[simp] theorem path_openFor (b : Buffer) (p : Packet) : (b.openFor p).path = b.path := by
  rw [openFor]
  split <;> rfl

@[simp] theorem published_openFor (b : Buffer) (p : Packet) :
    (b.openFor p).published = b.published := by
  rw [openFor]
  split <;> rfl

/-- The plain driver writes to the transfer that is open, and closes it at the last packet. -/
theorem takePlain_of_open (h : (b.openFor e.2).transfer = some t) :
    b.takePlain e =
      if e.2.isLast then
        (some (t.bytes ++ e.2.data),
          { b with transfer := none, published := some ⟨t.bytes ++ e.2.data, e.1⟩ })
      else (none, { b with transfer := some (t.add e.2.data) }) := by
  have hwritten : ((b.openFor e.2).write e.2.data).2 =
      { b with transfer := some (t.add e.2.data) } := by
    simp only [write, h, path_openFor, published_openFor]
  rw [takePlain, hwritten, ← OpenTransfer.bytes_add]
  rfl

/-! ### One packet -/

/-- A transfer that a fragment goes on with has its count. -/
theorem count_of_continued {a : Fragment} (h : b.continued? a = some t) : t.count = a.count := by
  rw [continued?] at h
  split at h
  · rw [← Option.some.inj h, OpenTransfer.start]
  · rw [Option.filter_eq_some_iff, decide_eq_true_eq] at h
    exact h.2.2.symm

/-- What one buffer has gathered, the other has gathered as well. -/
def Covers (b b' : Buffer) : Prop :=
  ∀ t, b.transfer = some t → ∃ t', b'.transfer = some t' ∧ t'.bytes = t.bytes

theorem covers_of_closed (h : b.transfer = none) : b.Covers b' := by
  intro t ht
  rw [h] at ht
  cases ht

/-- A packet that is checked to be the next one finds the same bytes gathered when it is not
checked. -/
theorem Covers.openFor (h : b.Covers b') (hc : b.continued? (e.2.fragment e.1) = some t) :
    ∃ t', (b'.openFor e.2).transfer = some t' ∧ t'.bytes = t.bytes := by
  have hfirst : e.2.isFirst = true ↔ (e.2.fragment e.1).number = 0 := beq_iff_eq
  rw [continued?] at hc
  rw [Buffer.openFor]
  by_cases hzero : (e.2.fragment e.1).number = 0
  · rw [if_pos hzero] at hc
    obtain rfl := Option.some.inj hc
    rw [if_pos (hfirst.mpr hzero)]
    exact ⟨_, rfl, rfl⟩
  · rw [if_neg hzero, Option.filter_eq_some_iff] at hc
    rw [if_neg (mt hfirst.mp hzero)]
    exact h t hc.1

/-- A packet comes to the same in two buffers: it completes the same value in both, or both
go on with the same bytes. -/
inductive SameWay (b b' : Buffer) :
    Except BufferError (Option Bytes) × Buffer → Option Bytes × Buffer → Prop where
  /-- The same value is published. -/
  | publishes (value : Bytes) (now : Instant) : SameWay b b'
      (.ok (some value), { b with transfer := none, published := some ⟨value, now⟩ })
      (some value, { b' with transfer := none, published := some ⟨value, now⟩ })
  /-- The same bytes are gathered. -/
  | goesOn {t t' : OpenTransfer} : t'.bytes = t.bytes → SameWay b b'
      (.ok none, { b with transfer := some t }) (none, { b' with transfer := some t' })

/-- **A packet that is checked to be the next one** comes to the same without the check. -/
theorem sameWay_of_continued (hlt : e.2.number < e.2.count) (hcover : b.Covers b')
    (hc : b.continued? (e.2.fragment e.1) = some t) :
    SameWay b b' (b.takeChecked e) (b'.takePlain e) := by
  obtain ⟨t', ht', hbytes⟩ := hcover.openFor hc
  have hcount : t.count = e.2.count := count_of_continued hc
  rw [takeChecked, takeFragment_of_continued hc, takePlain_of_open ht', hbytes]
  rw [show (e.2.fragment e.1).number = e.2.number from rfl]
  by_cases hlast : t.count ≤ nextNumber e.2.number
  · rw [accept_of_le hlast, if_pos ((Packet.isLast_iff hlt).mpr (hcount ▸ hlast))]
    exact .publishes _ _
  · rw [accept_of_lt hlast, if_neg (mt (Packet.isLast_iff hlt).mp (hcount ▸ hlast))]
    refine .goesOn ?_
    rw [OpenTransfer.bytes_add, hbytes]
    exact (OpenTransfer.bytes_add t e.2.data).symm

/-! ### What is taken away -/

/-- A value that one driver answers with, the other answers with as well. -/
def Allows (answer : Except BufferError (Option Bytes)) (plain : Option Bytes) : Prop :=
  ∀ value, answer = .ok (some value) → plain = some value

theorem SameWay.allows {x : Except BufferError (Option Bytes) × Buffer} {y : Option Bytes × Buffer}
    (h : SameWay b b' x y) : Allows x.1 y.1 ∧ x.2.Covers y.2 := by
  cases h with
  | publishes value now =>
    exact ⟨fun _ hok => Except.ok.inj hok, covers_of_closed rfl⟩
  | goesOn hbytes =>
    refine ⟨nofun, fun t ht => ?_⟩
    obtain rfl := Option.some.inj ht
    exact ⟨_, rfl, hbytes⟩

/-- One packet: a value that is still published with the check is published without it, and
what is gathered stays covered.  A packet that is refused leaves nothing gathered. -/
theorem allows_step (hlt : e.2.number < e.2.count) (hcover : b.Covers b') :
    Allows (b.takeChecked e).1 (b'.takePlain e).1 ∧
      (b.takeChecked e).2.Covers (b'.takePlain e).2 := by
  cases hc : b.continued? (e.2.fragment e.1) with
  | none =>
    obtain ⟨error, herror⟩ := takeFragment_of_refused hc
    rw [takeChecked, herror]
    exact ⟨nofun, covers_of_closed rfl⟩
  | some t => exact (sameWay_of_continued hlt hcover hc).allows

/-- **What the checked driver publishes, the plain one publishes** at the same packet. -/
theorem allows_run (packets : List (Instant × Packet)) : ∀ {b b' : Buffer},
    (∀ e ∈ packets, e.2.number < e.2.count) → b.Covers b' →
      List.Forall₂ Allows (runOps takeChecked b packets).1 (runOps takePlain b' packets).1 := by
  induction packets with
  | nil => exact fun _ _ => .nil
  | cons e packets ih =>
    intro b b' hlt hcover
    rw [List.forall_mem_cons] at hlt
    obtain ⟨hallows, hnext⟩ := allows_step hlt.1 hcover
    exact .cons hallows (ih hlt.2 hnext)

/-- Where every value is allowed, the values are some of those that are published anyway. -/
theorem sublist_of_allows {answers : List (Except BufferError (Option Bytes))}
    {plain : List (Option Bytes)} (h : List.Forall₂ Allows answers plain) :
    (answers.filterMap published?).Sublist (plain.filterMap id) := by
  induction h with
  | nil => exact .slnil
  | @cons answer value answers plain hallows _ ih =>
    cases hp : published? answer with
    | none =>
      rw [List.filterMap_cons_none hp]
      exact ih.trans ((List.sublist_cons_self _ _).filterMap id)
    | some v =>
      have hok : answer = .ok (some v) := by
        cases answer with
        | error e => cases hp
        | ok v' => exact congrArg Except.ok hp
      rw [List.filterMap_cons_some hp, List.filterMap_cons_some (hallows v hok)]
      exact ih.cons_cons v

/-! ### What is left alone -/

/-- All that a buffer shows. -/
structure Observation where
  /-- The path whose value it holds. -/
  path : Path
  /-- Where it stands. -/
  state : BufferState
  /-- The last value published whole. -/
  read : Option Bytes
  /-- When it was published. -/
  lastModified : Option Instant
  /-- The bytes of the transfer in progress. -/
  pendingBytes : Bytes
deriving DecidableEq

/-- What a buffer shows. -/
def observed (b : Buffer) : Observation :=
  ⟨b.path, b.state, b.read, b.lastModified, b.pendingBytes⟩

/-- Two buffers differ at most in which packet they wait for. -/
structure Alike (b b' : Buffer) : Prop where
  /-- They hold the value of one path. -/
  path : b.path = b'.path
  /-- They have published the same value at the same time. -/
  published : b.published = b'.published
  /-- They have gathered the same bytes. -/
  gathered : b.transfer.map OpenTransfer.bytes = b'.transfer.map OpenTransfer.bytes

theorem Alike.refl (b : Buffer) : b.Alike b := ⟨rfl, rfl, rfl⟩

theorem Alike.covers (h : b.Alike b') : b.Covers b' := by
  intro t ht
  apply Option.map_eq_some_iff.mp
  rw [← h.gathered, ht]
  rfl

/-- Buffers that are alike show the same. -/
theorem Alike.observed (h : b.Alike b') : b.observed = b'.observed := by
  have hopen : b.transfer.isSome = b'.transfer.isSome := by
    rw [← Option.isSome_map (f := OpenTransfer.bytes), h.gathered, Option.isSome_map]
  have hstate : b.state = b'.state := by
    rw [state, state, h.published]
    cases ht : b.transfer <;> cases ht' : b'.transfer <;> simp [ht, ht'] at hopen ⊢
  rw [Buffer.observed, Buffer.observed, h.path, hstate, read, read, lastModified, lastModified,
    h.published, pendingBytes, pendingBytes, h.gathered]

theorem SameWay.alike {x : Except BufferError (Option Bytes) × Buffer} {y : Option Bytes × Buffer}
    (h : SameWay b b' x y) (halike : b.Alike b') : x.1 = .ok y.1 ∧ x.2.Alike y.2 := by
  cases h with
  | publishes value now => exact ⟨rfl, halike.path, rfl, rfl⟩
  | goesOn hbytes => exact ⟨rfl, halike.path, halike.published, congrArg some hbytes.symm⟩

/-- An answer that is no refusal. -/
def Accepted (answer : Except BufferError (Option Bytes)) : Prop := ∃ value, answer = .ok value

/-- **The two drivers agree as long as nothing is refused**, and their buffers are alike. -/
theorem alike_run (packets : List (Instant × Packet)) : ∀ {b b' : Buffer},
    (∀ e ∈ packets, e.2.number < e.2.count) → b.Alike b' →
      (∀ answer ∈ (runOps takeChecked b packets).1, Accepted answer) →
      (runOps takeChecked b packets).1 = (runOps takePlain b' packets).1.map .ok ∧
        (runOps takeChecked b packets).2.Alike (runOps takePlain b' packets).2 := by
  induction packets with
  | nil => exact fun _ halike _ => ⟨rfl, halike⟩
  | cons e packets ih =>
    intro b b' hlt halike haccepted
    rw [List.forall_mem_cons] at hlt
    rw [runOps_cons, List.forall_mem_cons] at haccepted
    cases hc : b.continued? (e.2.fragment e.1) with
    | none =>
      obtain ⟨error, herror⟩ := takeFragment_of_refused hc
      obtain ⟨value, hok⟩ := haccepted.1
      rw [takeChecked, herror] at hok
      cases hok
    | some t =>
      obtain ⟨hanswer, hnext⟩ := (sameWay_of_continued hlt.1 halike.covers hc).alike halike
      obtain ⟨hanswers, hend⟩ := ih hlt.2 hnext haccepted.2
      rw [runOps_cons, runOps_cons, List.map_cons, hanswer, hanswers]
      exact ⟨rfl, hend⟩

/-! ### Whole transfers -/

/-- The rest of a transfer is accepted by a buffer that waits for it. -/
theorem accepted_rest {n : Nat} (hn : n ≤ 65535) (packets : List (Instant × Packet)) :
    ∀ {b : Buffer} {gathered : Bytes} {i : Nat}, b.Ready gathered i n → i + packets.length = n →
      packets.map (fun e => e.2.number.toNat) = List.range' i packets.length →
      (∀ e ∈ packets, e.2.count = UInt16.ofNat n) →
      ∀ answer ∈ (runOps takeChecked b packets).1, Accepted answer := by
  induction packets with
  | nil => exact fun _ _ _ _ => List.forall_mem_nil _
  | cons e packets ih =>
    intro b gathered i hready hlength hnumbers hcounts
    rw [List.length_cons] at hlength hnumbers
    rw [List.map_cons, List.range'_succ, List.cons.injEq] at hnumbers
    rw [List.forall_mem_cons] at hcounts
    have hnumber : e.2.number = UInt16.ofNat i := by
      apply UInt16.toNat_inj.mp
      rw [hnumbers.1, toNat_ofNat (by omega)]
    have htook := writePacket_ready hready hn (by omega) e.1 e.2.data
    rw [← hnumber, ← hcounts.1] at htook
    rw [runOps_cons, List.forall_mem_cons]
    rcases Nat.lt_or_eq_of_le (show i + 1 ≤ n by omega) with hlt | heq
    · obtain ⟨hanswer, hgathered, _⟩ := htook.goesOn hlt
      exact ⟨⟨_, hanswer⟩, ih (Or.inr ⟨Nat.succ_ne_zero i, hgathered⟩) (by omega) hnumbers.2
        hcounts.2⟩
    · obtain rfl : packets = [] := List.length_eq_zero_iff.mp (by omega)
      exact ⟨⟨_, (htook.completes heq).1⟩, List.forall_mem_nil _⟩

/-- The packets of a whole transfer are accepted, whatever the buffer held. -/
theorem accepted_transfer {packets : List (Instant × Packet)} (h : IsTransfer packets)
    (b : Buffer) : ∀ answer ∈ (runOps takeChecked b packets).1, Accepted answer := by
  obtain ⟨count, hlength, hnumbers, hcounts⟩ := h
  refine accepted_rest (Nat.le_of_lt_succ count.toNat_lt) packets (Or.inl ⟨rfl, rfl⟩)
    ((Nat.zero_add _).trans hlength) (hnumbers.trans List.range_eq_range') ?_
  rw [UInt16.ofNat_toNat]
  exact hcounts

/-- One whole transfer after another is accepted. -/
theorem accepted_transfers (transfers : List (List (Instant × Packet))) :
    (∀ packets ∈ transfers, IsTransfer packets) → ∀ b : Buffer,
      ∀ answer ∈ (runOps takeChecked b transfers.flatten).1, Accepted answer := by
  induction transfers with
  | nil => exact fun _ _ => List.forall_mem_nil _
  | cons packets transfers ih =>
    intro h b
    rw [List.forall_mem_cons] at h
    rw [List.flatten_cons, runOps_append, List.forall_mem_append]
    exact ⟨accepted_transfer h.1 b, ih h.2 _⟩

/-- **Checking the sequence only takes publications away.**  A buffer is given packets, each
numbered below its count, and they are driven with and without the check.  What the checked
driver publishes at a packet the plain one publishes at that packet, so the values of the one
are some of the values of the other, in the same order.

If the packets are those of whole transfers, one after another and each in order, the two
answer every packet the same, nothing is refused, and their buffers show the same after
every packet. -/
theorem checked_removes (b : Buffer) (packets : List (Instant × Packet))
    (h : ∀ e ∈ packets, e.2.number < e.2.count) :
    let checked := runOps takeChecked b packets
    let plain := runOps takePlain b packets
    (∀ (i : Nat) (value : Bytes),
        checked.1[i]? = some (.ok (some value)) → plain.1[i]? = some (some value)) ∧
      (checked.1.filterMap published?).Sublist (plain.1.filterMap id) ∧
      ∀ transfers : List (List (Instant × Packet)), (∀ window ∈ transfers, IsTransfer window) →
        packets = transfers.flatten →
        ∀ n, let checkedSoFar := runOps takeChecked b (packets.take n)
          let plainSoFar := runOps takePlain b (packets.take n)
          checkedSoFar.1 = plainSoFar.1.map .ok ∧
            checkedSoFar.2.observed = plainSoFar.2.observed := by
  have hallows := allows_run packets h (Alike.refl b).covers
  refine ⟨fun i value hvalue => ?_, sublist_of_allows hallows, ?_⟩
  · obtain ⟨hlength, hget⟩ := List.forall₂_iff_get.mp hallows
    obtain ⟨hi, hanswer⟩ := List.getElem?_eq_some_iff.mp hvalue
    exact List.getElem?_eq_some_iff.mpr ⟨hlength ▸ hi, hget i hi (hlength ▸ hi) value hanswer⟩
  · rintro transfers htransfers rfl n
    have haccepted := accepted_transfers transfers htransfers b
    rw [← List.take_append_drop n transfers.flatten, runOps_append, List.forall_mem_append]
      at haccepted
    obtain ⟨hanswers, halike⟩ := alike_run _ (fun e he => h e (List.mem_of_mem_take he))
      (Alike.refl b) haccepted.1
    exact ⟨hanswers, halike.observed⟩

/-- A packet of a value for the root path. -/
def rootPacket (now : Instant) (number count : UInt16) (data : Bytes) : Instant × Packet :=
  (now, ⟨.root, .root, number, count, data⟩)

/-- A whole transfer, one that is interrupted by the next, and one that loses a packet.  The
last one is published only where nothing is checked. -/
theorem checked_removes_lostPacket :
    let packets := [rootPacket 1 0 2 [1], rootPacket 2 1 2 [2], rootPacket 3 0 3 [3],
      rootPacket 4 0 3 [4], rootPacket 5 2 3 [5]]
    (∀ e ∈ packets, e.2.number < e.2.count) ∧
      (runOps takeChecked (fresh .root) packets).1 =
        [.ok none, .ok (some [1, 2]), .ok none, .ok none,
          .error (.outOfSequence .root 1 3 2 3)] ∧
      (runOps takePlain (fresh .root) packets).1 =
        [none, some [1, 2], none, none, some [4, 5]] ∧
      ((runOps takeChecked (fresh .root) packets).1.filterMap published?).Sublist
        ((runOps takePlain (fresh .root) packets).1.filterMap id) ∧
      (runOps takeChecked (fresh .root) (packets.take 2)).2.observed =
        (runOps takePlain (fresh .root) (packets.take 2)).2.observed := by
  have hnumbers : ∀ e ∈ [rootPacket 1 0 2 [1], rootPacket 2 1 2 [2], rootPacket 3 0 3 [3],
      rootPacket 4 0 3 [4], rootPacket 5 2 3 [5]], e.2.number < e.2.count := by decide
  have hwhole : IsTransfer [rootPacket 1 0 2 [1], rootPacket 2 1 2 [2]] :=
    ⟨2, by decide, by decide, by decide⟩
  refine ⟨hnumbers, rfl, rfl, (checked_removes (fresh .root) _ hnumbers).2.1, ?_⟩
  exact ((checked_removes (fresh .root) [rootPacket 1 0 2 [1], rootPacket 2 1 2 [2]]
    (by decide)).2.2 [_] (List.forall_mem_singleton.mpr hwhole) rfl 2).2

end Buffer

end ZoneBus
