import ZoneBus.Reassembly.Store

/-!
# Packets in sequence

A packet that continues the open transfer adds its fragment, and the one that
completes the count publishes what was gathered.  Packet zero opens a transfer
whatever the buffer held, so nothing that was left unfinished can get into a
value.

## Main definitions

* `Buffer.Gathered` — a transfer is open, with these bytes and this packet next.
* `Buffer.Ready` — the next packet opens a transfer, or continues the open one.
* `Buffer.Took` — what taking a fragment comes to.
* `BufferStore.bufferOf` — the buffer at a path of a device.

## Main results

* `Buffer.writePacket_ready` — what the next packet does to a buffer.
* `BufferStore.writePacket_ready` — the same at a path of a device.
-/

namespace ZoneBus

/-! ### Numbers of packets -/

theorem toNat_ofNat {n : Nat} (h : n ≤ 65535) : (UInt16.ofNat n).toNat = n := by
  rw [UInt16.toNat_ofNat', Nat.mod_eq_of_lt (Nat.lt_succ_of_le h)]

theorem ofNat_lt_ofNat {i n : Nat} (h : i < n) (hn : n ≤ 65535) :
    UInt16.ofNat i < UInt16.ofNat n := by
  have hi : i ≤ 65535 := Nat.le_trans (Nat.le_of_lt h) hn
  rw [UInt16.lt_iff_toNat_lt, toNat_ofNat hi, toNat_ofNat hn]
  exact h

theorem ofNat_eq_zero {i : Nat} (h : i ≤ 65535) : UInt16.ofNat i = 0 ↔ i = 0 := by
  rw [← UInt16.toNat_inj, toNat_ofNat h]
  rfl

theorem nextNumber_ofNat {i : Nat} (h : i < 65535) :
    nextNumber (UInt16.ofNat i) = UInt16.ofNat (i + 1) := by
  have hne : UInt16.ofNat i ≠ 65535 := by
    intro he
    have hi := congrArg UInt16.toNat he
    rw [toNat_ofNat (Nat.le_of_lt h)] at hi
    exact Nat.ne_of_lt h hi
  rw [nextNumber, if_neg hne]
  apply UInt16.toNat_inj.mp
  rw [UInt16.toNat_add, toNat_ofNat (Nat.le_of_lt h), toNat_ofNat h]
  exact Nat.mod_eq_of_lt (Nat.succ_lt_succ h)

/-- The number that comes next reaches a count as if numbers had no largest one. -/
theorem le_nextNumber_iff {number count : UInt16} :
    count ≤ nextNumber number ↔ count.toNat ≤ number.toNat + 1 := by
  have hcount : count.toNat < 65536 := count.toNat_lt
  rw [UInt16.le_iff_toNat_le, nextNumber]
  split
  · next h =>
    subst h
    show count.toNat ≤ 65535 ↔ count.toNat ≤ 65535 + 1
    omega
  · next h =>
    have hlt : number.toNat < 65536 := number.toNat_lt
    have hne : number.toNat ≠ 65535 := fun he => h (UInt16.toNat_inj.mp he)
    have hmod : (number + 1).toNat = number.toNat + 1 := by
      rw [UInt16.toNat_add]
      exact Nat.mod_eq_of_lt (show number.toNat + 1 < 65536 by omega)
    rw [hmod]

/-! ### Buffers -/

namespace Buffer

variable {b : Buffer} {gathered fragment : Bytes} {i n : Nat}

/-- A transfer of some count is open: these bytes have arrived, and the packet with
this number comes next. -/
def Gathered (b : Buffer) (gathered : Bytes) (i n : Nat) : Prop :=
  ∃ t, b.transfer = some t ∧ t.bytes = gathered ∧ t.next = UInt16.ofNat i ∧
    t.count = UInt16.ofNat n

/-- The packet with this number opens a transfer, or continues the one that is open. -/
def Ready (b : Buffer) (gathered : Bytes) (i n : Nat) : Prop :=
  i = 0 ∧ gathered = [] ∨ i ≠ 0 ∧ b.Gathered gathered i n

/-- What taking a fragment comes to: the value is published when it is complete, and
otherwise the transfer goes on and the value before it stays. -/
structure Took (b b' : Buffer) (answer : Except BufferError (Option Bytes)) (gathered : Bytes)
    (i n : Nat) : Prop where
  /-- Before the last packet nothing is published. -/
  goesOn : i < n → answer = .ok none ∧ b'.Gathered gathered i n ∧ b'.read = b.read
  /-- The last packet publishes the whole value. -/
  completes : i = n → answer = .ok (some gathered) ∧ b'.read = some gathered

/-- A fragment whose next number reaches the count completes the value. -/
theorem accept_of_le {t : OpenTransfer} {number : UInt16} (h : t.count ≤ nextNumber number)
    (now : Instant) :
    b.accept now t number fragment =
      (some (t.bytes ++ fragment),
        { b with transfer := none, published := some ⟨t.bytes ++ fragment, now⟩ }) := by
  have hbytes : ({ t.add fragment with next := nextNumber number } : OpenTransfer).bytes =
      t.bytes ++ fragment := OpenTransfer.bytes_add t fragment
  rw [accept]
  dsimp only
  rw [if_pos (show (t.add fragment).count ≤ nextNumber number from h), publish, hbytes]

/-- Any other fragment is added to the transfer, which goes on. -/
theorem accept_of_lt {t : OpenTransfer} {number : UInt16} (h : ¬t.count ≤ nextNumber number)
    (now : Instant) :
    b.accept now t number fragment =
      (none, { b with transfer := some { t.add fragment with next := nextNumber number } }) := by
  rw [accept]
  dsimp only
  rw [if_neg (show ¬(t.add fragment).count ≤ nextNumber number from h)]

theorem accept_took {t : OpenTransfer} (hn : n ≤ 65535) (hi : i < n) (now : Instant)
    (hbytes : t.bytes = gathered) (hcount : t.count = UInt16.ofNat n) :
    b.Took (b.accept now t (UInt16.ofNat i) fragment).2
      (.ok (b.accept now t (UInt16.ofNat i) fragment).1) (gathered ++ fragment) (i + 1) n := by
  subst hbytes
  have hle : t.count ≤ nextNumber (UInt16.ofNat i) ↔ n ≤ i + 1 := by
    rw [hcount, le_nextNumber_iff, toNat_ofNat hn, toNat_ofNat (by omega)]
  refine ⟨fun hlt => ?_, fun heq => ?_⟩
  · have hnext : nextNumber (UInt16.ofNat i) = UInt16.ofNat (i + 1) :=
      nextNumber_ofNat (Nat.lt_of_lt_of_le hi hn)
    rw [accept_of_lt (fun h => absurd (hle.mp h) (Nat.not_le.mpr hlt))]
    exact ⟨rfl, ⟨_, rfl, OpenTransfer.bytes_add t fragment, hnext, hcount⟩, rfl⟩
  · rw [accept_of_le (hle.mpr (Nat.le_of_eq heq.symm))]
    exact ⟨rfl, rfl⟩

/-- **What the next packet does to a buffer.** -/
theorem writePacket_ready (h : b.Ready gathered i n) (hn : n ≤ 65535) (hi : i < n)
    (now : Instant) (fragment : Bytes) :
    b.Took (b.writePacket now (UInt16.ofNat i) (UInt16.ofNat n) fragment).2
      (b.writePacket now (UInt16.ofNat i) (UInt16.ofNat n) fragment).1
      (gathered ++ fragment) (i + 1) n := by
  have hi' : i ≤ 65535 := Nat.le_trans (Nat.le_of_lt hi) hn
  rw [writePacket]
  by_cases hzero : i = 0
  · -- packet zero opens a transfer, whatever was there
    rw [if_pos ((ofNat_eq_zero hi').mpr hzero)]
    rcases h with ⟨_, rfl⟩ | ⟨hne, _⟩
    · exact accept_took hn hi now rfl rfl
    · exact absurd hzero hne
  · rw [if_neg (fun he => hzero ((ofNat_eq_zero hi').mp he))]
    rcases h with ⟨h0, _⟩ | ⟨_, t, ht, hbytes, hnext, hcount⟩
    · exact absurd h0 hzero
    · rw [ht]
      dsimp only
      rw [if_pos ⟨hnext.symm, hcount.symm⟩]
      exact accept_took hn hi now hbytes hcount

end Buffer

/-! ### The buffers of every device -/

namespace BufferStore

variable {s : BufferStore} {a : Address} {path : Path} {gathered : Bytes} {i n : Nat}

/-- The buffer at a path of a device. -/
def bufferOf (s : BufferStore) (a : Address) (path : Path) : Buffer :=
  (s.device a).bufferAt path

theorem read_eq (s : BufferStore) (a : Address) (path : Path) :
    s.read a path = (s.bufferOf a path).read := by
  rw [read, bufferOf, device, DeviceBuffers.bufferAt]
  cases s.find? a with
  | none => rfl
  | some d =>
    show (d.find? path).bind Buffer.read = ((d.find? path).getD (.fresh path)).read
    cases d.find? path with
    | none => rfl
    | some b => rfl

theorem bufferOf_put (s : BufferStore) (a : Address) (d : DeviceBuffers) (b : Buffer) :
    bufferOf (s.put a (d.put path b)) a path = b := by
  rw [bufferOf, device, Directory.find?_put, if_pos rfl, Option.getD_some,
    DeviceBuffers.bufferAt, Directory.find?_put, if_pos rfl, Option.getD_some]

/-- A buffer with an open transfer is filed. -/
theorem find?_of_gathered (h : (s.bufferOf a path).Gathered gathered i n) :
    (s.device a).find? path = some (s.bufferOf a path) := by
  obtain ⟨t, ht, _⟩ := h
  rw [bufferOf, DeviceBuffers.bufferAt] at ht ⊢
  cases hf : (s.device a).find? path with
  | none => rw [hf] at ht; cases ht
  | some b => rfl

/-- **What the next packet does at a path of a device.** -/
theorem writePacket_ready (h : (s.bufferOf a path).Ready gathered i n) (hn : n ≤ 65535)
    (hi : i < n) (now : Instant) (fragment : Bytes) :
    let taken := s.writePacket now a path (UInt16.ofNat i) (UInt16.ofNat n) fragment
    (s.bufferOf a path).Took (bufferOf taken.2 a path) taken.1 (gathered ++ fragment) (i + 1)
      n := by
  have hi' : i ≤ 65535 := Nat.le_trans (Nat.le_of_lt hi) hn
  have hbuffer := Buffer.writePacket_ready h hn hi now fragment
  rw [writePacket, onDevice, DeviceBuffers.writePacket]
  by_cases hzero : i = 0
  · rw [if_pos ((ofNat_eq_zero hi').mpr hzero)]
    dsimp only
    rw [bufferOf_put]
    exact hbuffer
  · rw [if_neg (fun he => hzero ((ofNat_eq_zero hi').mp he))]
    rcases h with ⟨h0, _⟩ | ⟨_, hopen⟩
    · exact absurd h0 hzero
    -- later packets go to a buffer that is filed, and one with an open transfer is
    · rw [DeviceBuffers.onFiled, find?_of_gathered hopen]
      dsimp only
      rw [bufferOf_put]
      exact hbuffer

end BufferStore

end ZoneBus
