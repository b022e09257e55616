import ZoneBus.Proofs.Reassembly.Calls
import ZoneBus.Subscription

/-!
# Places keep apart

The buffers of all devices stand in one store, device by device and path by path, and are
filed when they are first used.  None of that shows at a place: what is asked there is
answered as if nothing had been asked anywhere else, but for whole devices and the whole
store being forgotten.  A place where nothing is filed answers as a fresh buffer does, and
an operation that fails there files none.

## Main definitions

* `StoreOp`, `BufferStore.perform` — the operations on a store.
* `StoreOp.isAt`, `StoreOp.reaches` — whether an operation is asked at a place, and whether
  it is one that the place can tell.
* `BufferStore.buffer?` — the buffer at a place, if one is filed.
* `Buffer.callAt`, `Buffer.performAt` — the operations at one place, which may be empty.

## Main results

* `BufferStore.buffer?_perform_of_reaches` — what an operation does at a place that it
  reaches.
* `BufferStore.buffer?_perform` — no other operation does anything there.
* `BufferStore.places_apart` — **a place goes by the operations that reach it, and answers as
  one buffer would.**
-/

namespace ZoneBus

/-! ### Operations -/

/-- An operation on the buffers of every device. -/
inductive StoreOp where
  /-- Opens a transfer at a path of a device. -/
  | begin (a : Address) (path : Path)
  /-- Adds a fragment to the open transfer. -/
  | write (a : Address) (path : Path) (fragment : Bytes)
  /-- Takes a numbered packet. -/
  | packet (a : Address) (path : Path) (fragment : Fragment)
  /-- Closes the open transfer and publishes its value. -/
  | finish (a : Address) (path : Path) (now : Instant)
  /-- Reads the last value published. -/
  | read (a : Address) (path : Path)
  /-- Forgets a path of a device. -/
  | remove (a : Address) (path : Path)
  /-- Forgets a device. -/
  | removeDevice (a : Address)
  /-- Forgets everything. -/
  | clear
deriving DecidableEq

/-- What is told of an operation on the buffers. -/
inductive StoreTold where
  /-- The answer of a buffer, with the value that it published. -/
  | answered (answer : Except BufferError (Option Bytes))
  /-- What was read. -/
  | value (value : Option Bytes)
  /-- Whether there was anything to forget. -/
  | forgot (found : Bool)
  /-- Nothing. -/
  | done

namespace StoreOp

/-- The call that an operation makes on the buffer at a place, if it makes one. -/
def call? : StoreOp → Option (Place × BufferCall)
  | begin a path => some ((a, path), .begin)
  | write a path fragment => some ((a, path), .write fragment)
  | packet a path p => some ((a, path), .packet p)
  | finish a path now => some ((a, path), .finish now)
  | _ => none

/-- Whether an operation is asked at a place. -/
def isAt (place : Place) : StoreOp → Bool
  | begin a path => decide ((a, path) = place)
  | write a path _ => decide ((a, path) = place)
  | packet a path _ => decide ((a, path) = place)
  | finish a path _ => decide ((a, path) = place)
  | read a path => decide ((a, path) = place)
  | remove a path => decide ((a, path) = place)
  | removeDevice _ => false
  | clear => false

/-- Whether an operation is asked at a place, or forgets its device or everything. -/
def reaches (place : Place) : StoreOp → Bool
  | removeDevice a => decide (a = place.1)
  | clear => true
  | op => op.isAt place

end StoreOp

namespace BufferStore

/-- An operation on the buffers of every device. -/
def perform (s : BufferStore) : StoreOp → StoreTold × BufferStore
  | .begin a path => (.answered (.ok none), (s.onDevice a fun d => ((), d.begin path)).2)
  | .write a path fragment =>
    let written := s.onDevice a fun d => d.write path fragment
    (.answered (written.1.map fun _ => none), written.2)
  | .packet a path p =>
    let taken := s.writePacket p.time a path p.number p.count p.bytes
    (.answered taken.1, taken.2)
  | .finish a path now =>
    let finished := s.onDevice a fun d => d.finish now path
    (.answered (finished.1.map some), finished.2)
  | .read a path => (.value (s.read a path), s)
  | .remove a path => (.forgot (s.remove a path).1, (s.remove a path).2)
  | .removeDevice a => (.forgot (s.removeDevice a).1, (s.removeDevice a).2)
  | .clear => (.done, s.clear)

/-- The buffer at a place, if one is filed there. -/
def buffer? (s : BufferStore) (place : Place) : Option Buffer :=
  (s.find? place.1).bind fun d => d.find? place.2

end BufferStore

/-! ### One place -/

namespace Buffer

/-- A call at a place where a buffer may be filed.  Where none is, a fresh one answers, and
is filed unless the call fails. -/
def callAt (path : Path) (filed : Option Buffer) (c : BufferCall) :
    Except BufferError (Option Bytes) × Option Buffer :=
  let next := (filed.getD (fresh path)).call c
  (next.1, if filed.isNone ∧ next.1.toBool = false then none else some next.2)

/-- An operation that reaches a place where a buffer may be filed. -/
def performAt (path : Path) (filed : Option Buffer) (op : StoreOp) : StoreTold × Option Buffer :=
  match op.call?, op with
  | some (_, c), _ => (.answered (callAt path filed c).1, (callAt path filed c).2)
  | none, .read _ _ => (.value (filed.getD (fresh path)).read, filed)
  | none, _ => (.forgot filed.isSome, none)

theorem callAt_some (path : Path) (b : Buffer) (c : BufferCall) :
    callAt path (some b) c = ((b.call c).1, some (b.call c).2) := by
  rw [callAt, Option.getD_some, if_neg (fun h => by cases h.1)]

/-- A call that is about an open transfer fails where nothing is filed. -/
theorem callAt_none_of_needs (path : Path) {c : BufferCall} (h : c.needsTransfer = true) :
    callAt path none c = (.error (.noActiveWrite path), none) := by
  have hrefused : ((fresh path).call c).1 = .error (.noActiveWrite path) :=
    (refused_iff (fresh path) c).mpr ⟨h, rfl⟩
  rw [callAt, Option.getD_none, hrefused, if_pos ⟨rfl, rfl⟩]

/-- A place where none is filed goes on like one with a fresh buffer: a call that fails
there leaves it fresh. -/
theorem callAt_getD (path : Path) (filed : Option Buffer) (c : BufferCall) :
    (callAt path filed c).2.getD (fresh path) = ((filed.getD (fresh path)).call c).2 := by
  cases filed with
  | some b => rw [callAt_some, Option.getD_some, Option.getD_some]
  | none =>
    rw [callAt, Option.getD_none]
    split
    · next hfails =>
      have hway := callWay_call (fresh path) c
      generalize (fresh path).call c = next at hway hfails
      obtain ⟨answer, b⟩ := next
      cases hway with
      | refused => rfl
      | breaks _ ht => cases ht
      | drops | goesOn | publishes => cases hfails.2
    · rfl

end Buffer

/-! ### A call reaches one place -/

namespace DeviceBuffers

variable {d d' : DeviceBuffers} {path : Path} {c : BufferCall}

/-- A call was made at one path of a device, with this answer. -/
structure Called (d : DeviceBuffers) (path : Path) (c : BufferCall)
    (answer : Except BufferError (Option Bytes)) (d' : DeviceBuffers) : Prop where
  /-- It is answered there. -/
  answer : answer = (Buffer.callAt path (d.find? path) c).1
  /-- It leaves there what it leaves. -/
  there : d'.find? path = (Buffer.callAt path (d.find? path) c).2
  /-- The other paths are left alone. -/
  elsewhere : ∀ path', path ≠ path' → d'.find? path' = d.find? path'

/-- A buffer is filed in place of the one that was there, or of a fresh one. -/
theorem called_put (h : ((d.bufferAt path).call c).1.toBool = true) :
    d.Called path c ((d.bufferAt path).call c).1 (d.put path ((d.bufferAt path).call c).2) where
  answer := rfl
  there := by
    rw [Directory.find?_put, if_pos rfl, Buffer.callAt]
    exact (if_neg fun hfail => by rw [← bufferAt, h] at hfail; cases hfail.2).symm
  elsewhere := fun _ hne => by rw [Directory.find?_put, if_neg hne]

/-- A call about an open transfer goes to a buffer that is filed, or fails. -/
theorem called_onFiled {α : Type} {f : Buffer → Except BufferError α × Buffer}
    {value : α → Option Bytes} (hneeds : c.needsTransfer = true)
    (hf : ∀ b : Buffer, b.call c = ((f b).1.map value, (f b).2)) :
    d.Called path c ((d.onFiled path f).1.map value) (d.onFiled path f).2 := by
  rw [onFiled]
  cases hfind : d.find? path with
  | none =>
    refine ⟨?_, ?_, fun _ _ => rfl⟩
    · rw [hfind, Buffer.callAt_none_of_needs path hneeds]
      rfl
    · rw [hfind, Buffer.callAt_none_of_needs path hneeds]
  | some b =>
    refine ⟨?_, ?_, fun _ hne => ?_⟩
    · rw [hfind, Buffer.callAt_some, hf b]
    · rw [hfind, Buffer.callAt_some, hf b]
      exact (Directory.find?_put d path path _).trans (if_pos rfl)
    · exact (Directory.find?_put d path _ _).trans (if_neg hne)

/-- A packet that opens a transfer files a buffer; any other goes to one that is filed. -/
theorem called_writePacket (d : DeviceBuffers) (path : Path) (p : Fragment) :
    d.Called path (.packet p) (d.writePacket p.time path p.number p.count p.bytes).1
      (d.writePacket p.time path p.number p.count p.bytes).2 := by
  rw [writePacket]
  by_cases hzero : p.number = 0
  · have hopens : ((d.bufferAt path).call (.packet p)).1.toBool = true := by
      rw [Buffer.call, Buffer.takeFragment, Buffer.writePacket, if_pos hzero]
      rfl
    rw [if_pos hzero]
    exact called_put hopens
  · let f := fun b : Buffer => b.writePacket p.time p.number p.count p.bytes
    have hcalled : d.Called path (.packet p) ((d.onFiled path f).1.map id) (d.onFiled path f).2 :=
      called_onFiled (decide_eq_true hzero) fun b => by rw [Except.map_id, id_eq]; rfl
    rw [Except.map_id, id_eq] at hcalled
    rw [if_neg hzero]
    exact hcalled

end DeviceBuffers

namespace BufferStore

variable {s : BufferStore} {a : Address} {path : Path} {place : Place} {c : BufferCall}
  {op : StoreOp}

theorem find?_device (s : BufferStore) (a : Address) (path : Path) :
    (s.device a).find? path = s.buffer? (a, path) := by
  rw [device, buffer?]
  cases s.find? a <;> rfl

theorem buffer?_put (s : BufferStore) (a : Address) (d : DeviceBuffers) (place : Place) :
    buffer? (s.put a d) place = if a = place.1 then d.find? place.2 else s.buffer? place := by
  rw [buffer?, Directory.find?_put]
  split <;> rfl

/-- What is read at a place is the value of the buffer there, and nothing when none is. -/
theorem read_eq_buffer? (s : BufferStore) (place : Place) :
    s.read place.1 place.2 = ((s.buffer? place).getD (.fresh place.2)).read := by
  rw [read, buffer?]
  cases s.find? place.1 with
  | none => rfl
  | some d =>
    show (d.find? place.2).bind Buffer.read = ((d.find? place.2).getD (.fresh place.2)).read
    cases d.find? place.2 <;> rfl

/-- An operation that makes a call on a buffer makes it at one path of one device. -/
theorem called_perform (h : op.call? = some ((a, path), c)) :
    ∃ answer d, (s.device a).Called path c answer d ∧
      s.perform op = (.answered answer, s.put a d) := by
  cases op with
  | begin a' path' =>
    obtain ⟨⟨rfl, rfl⟩, rfl⟩ := h
    exact ⟨_, _, DeviceBuffers.called_put rfl, rfl⟩
  | write a' path' fragment =>
    obtain ⟨⟨rfl, rfl⟩, rfl⟩ := h
    exact ⟨_, _, DeviceBuffers.called_onFiled rfl fun _ => rfl, rfl⟩
  | packet a' path' p =>
    obtain ⟨⟨rfl, rfl⟩, rfl⟩ := h
    exact ⟨_, _, DeviceBuffers.called_writePacket _ _ p, rfl⟩
  | finish a' path' now =>
    obtain ⟨⟨rfl, rfl⟩, rfl⟩ := h
    exact ⟨_, _, DeviceBuffers.called_onFiled rfl fun _ => rfl, rfl⟩
  | read | remove | removeDevice | clear => cases h

/-- A call is answered at its place, and changes nothing at any other. -/
theorem perform_call (h : op.call? = some ((a, path), c)) (place : Place) :
    (s.perform op).1 = .answered (Buffer.callAt path (s.buffer? (a, path)) c).1 ∧
      (s.perform op).2.buffer? place =
        if (a, path) = place then (Buffer.callAt path (s.buffer? (a, path)) c).2
        else s.buffer? place := by
  obtain ⟨answer, d, hcalled, hperform⟩ := called_perform (s := s) h
  obtain ⟨hanswer, hthere, helse⟩ := hcalled
  rw [find?_device] at hanswer hthere
  rw [hperform, hanswer, buffer?_put]
  refine ⟨rfl, ?_⟩
  obtain ⟨a', path'⟩ := place
  by_cases ha : a = a'
  · subst ha
    rw [if_pos rfl]
    by_cases hpath : path = path'
    · subst hpath
      rw [if_pos rfl, hthere]
    · rw [if_neg (fun he => hpath (Prod.mk.inj he).2), helse path' hpath, find?_device]
  · rw [if_neg ha, if_neg (fun he => ha (Prod.mk.inj he).1)]

/-! ### What an operation does at a place -/

theorem buffer?_remove (s : BufferStore) (a : Address) (path : Path) (place : Place) :
    (s.remove a path).1 = (s.buffer? (a, path)).isSome ∧
      (s.remove a path).2.buffer? place =
        if (a, path) = place then none else s.buffer? place := by
  rw [remove, buffer?]
  cases hfind : s.find? a with
  | none =>
    refine ⟨rfl, ?_⟩
    show s.buffer? place = _
    split
    · next he =>
      rw [← he, buffer?, hfind]
      rfl
    · rfl
  | some d =>
    refine ⟨rfl, ?_⟩
    dsimp only
    rw [buffer?_put, Directory.find?_erase]
    obtain ⟨a', path'⟩ := place
    by_cases ha : a = a'
    · subst ha
      by_cases hpath : path = path'
      · simp [hpath]
      · simp [hpath, buffer?, hfind]
    · simp [ha]

theorem buffer?_removeDevice (s : BufferStore) (a : Address) (place : Place) :
    (s.removeDevice a).2.buffer? place = if a = place.1 then none else s.buffer? place := by
  rw [removeDevice, buffer?, Directory.find?_erase]
  split <;> rfl

/-- **What an operation does at a place that it reaches.** -/
theorem buffer?_perform_of_reaches (h : op.reaches place = true) :
    (s.perform op).2.buffer? place =
      (Buffer.performAt place.2 (s.buffer? place) op).2 := by
  have calls : ∀ {c}, op.call? = some (place, c) →
      (s.perform op).2.buffer? place = (Buffer.callAt place.2 (s.buffer? place) c).2 :=
    fun hc => (perform_call hc place).2.trans (if_pos rfl)
  cases op with
  | begin a path | write a path fragment | packet a path p | finish a path now =>
    obtain rfl := of_decide_eq_true h
    exact calls rfl
  | read a path => rfl
  | remove a path =>
    obtain rfl := of_decide_eq_true h
    exact (buffer?_remove s a path _).2.trans (if_pos rfl)
  | removeDevice a => exact (buffer?_removeDevice s a place).trans (if_pos (of_decide_eq_true h))
  | clear => rfl

/-- **What is told of an operation that is asked at a place.** -/
theorem perform_of_isAt (h : op.isAt place = true) :
    (s.perform op).1 = (Buffer.performAt place.2 (s.buffer? place) op).1 := by
  cases op with
  | begin a path | write a path fragment | packet a path p | finish a path now =>
    obtain rfl := of_decide_eq_true h
    exact (perform_call rfl (a, path)).1
  | read a path =>
    obtain rfl := of_decide_eq_true h
    exact congrArg StoreTold.value (read_eq_buffer? s (a, path))
  | remove a path =>
    obtain rfl := of_decide_eq_true h
    exact congrArg StoreTold.forgot (buffer?_remove s a path (a, path)).1
  | removeDevice | clear => cases h

/-- **No other operation does anything there.** -/
theorem buffer?_perform (h : op.reaches place = false) :
    (s.perform op).2.buffer? place = s.buffer? place := by
  cases op with
  | begin a path | write a path fragment | packet a path p | finish a path now =>
    exact (perform_call rfl place).2.trans (if_neg (of_decide_eq_false h))
  | read a path => rfl
  | remove a path => exact (buffer?_remove s a path place).2.trans (if_neg (of_decide_eq_false h))
  | removeDevice a => exact (buffer?_removeDevice s a place).trans (if_neg (of_decide_eq_false h))
  | clear => cases h

/-! ### Any operations -/

theorem reaches_of_isAt (h : op.isAt place = true) : op.reaches place = true := by
  cases op with
  | removeDevice => cases h
  | clear => rfl
  | begin | write | packet | finish | read | remove => exact h

/-- **A place goes by the operations that reach it, and answers as one buffer would.**
After any operations on a store, what was told of those asked at a place, and the buffer
there, are what they would be had only these been done, with those that forget its device
or everything.

Whatever is asked there next is answered as by the buffer there, or by a fresh one where
there is none; and where there is none, a call that fails leaves none. -/
theorem places_apart (s : BufferStore) (ops : List StoreOp) (place : Place) :
    let alone := ops.filter (StoreOp.reaches place)
    let ran := runOps perform s ops
    let ranAlone := runOps perform s alone
    answersTo (StoreOp.isAt place) ops ran.1 =
        answersTo (StoreOp.isAt place) alone ranAlone.1 ∧
      ran.2.buffer? place = ranAlone.2.buffer? place ∧
      let filed := ran.2.buffer? place
      let b := filed.getD (.fresh place.2)
      ran.2.read place.1 place.2 = b.read ∧
        ∀ op c, op.call? = some (place, c) → let next := ran.2.perform op
          next.1 = .answered (b.call c).1 ∧
            next.2.buffer? place =
              if filed.isNone ∧ (b.call c).1.toBool = false then none
              else some (b.call c).2 := by
  intro alone ran ranAlone
  obtain ⟨hanswers, hend⟩ : answersTo (StoreOp.isAt place) ops ran.1 =
        answersTo (StoreOp.isAt place) alone ranAlone.1 ∧
      ran.2.buffer? place = ranAlone.2.buffer? place := runOps_filter
    (fun s t => s.buffer? place = t.buffer? place)
    (fun _ => reaches_of_isAt)
    (fun op s t hkept h => (buffer?_perform hkept).trans h)
    (fun op s t hkept h => by
      rw [buffer?_perform_of_reaches hkept, buffer?_perform_of_reaches hkept, h]
      refine ⟨fun hasked => ?_, rfl⟩
      rw [perform_of_isAt hasked, perform_of_isAt hasked, h])
    ops s s rfl
  refine ⟨hanswers, hend, read_eq_buffer? _ place, fun op c hc => ?_⟩
  obtain ⟨hanswer, hthere⟩ := perform_call (s := (runOps perform s ops).2) hc place
  exact ⟨hanswer, hthere.trans (if_pos rfl)⟩

/-! ### The buffer of a place -/

theorem bufferOf_eq (s : BufferStore) (place : Place) :
    s.bufferOf place.1 place.2 = (s.buffer? place).getD (.fresh place.2) := by
  rw [bufferOf, DeviceBuffers.bufferAt, find?_device]

/-- A packet is taken by the buffer of its place. -/
theorem bufferOf_writePacket (s : BufferStore) (target place : Place) (p : Fragment) :
    let taken := s.writePacket p.time target.1 target.2 p.number p.count p.bytes
    taken.1 = ((s.bufferOf target.1 target.2).takeFragment p).1 ∧
      taken.2.bufferOf place.1 place.2 =
        if target = place then ((s.bufferOf target.1 target.2).takeFragment p).2
        else s.bufferOf place.1 place.2 := by
  have hcall : (StoreOp.packet target.1 target.2 p).call? = some (target, .packet p) := rfl
  obtain ⟨hanswer, hthere⟩ := perform_call (s := s) hcall place
  dsimp only
  rw [bufferOf_eq, bufferOf_eq, bufferOf_eq]
  refine ⟨StoreTold.answered.inj hanswer, ?_⟩
  refine (congrArg (fun filed => Option.getD filed (.fresh place.2)) hthere).trans ?_
  split
  · next he =>
    subst he
    exact Buffer.callAt_getD _ _ _
  · rfl

/-- Forgetting a place leaves a fresh buffer there. -/
theorem bufferOf_remove (s : BufferStore) (target place : Place) :
    (s.remove target.1 target.2).2.bufferOf place.1 place.2 =
      if target = place then .fresh place.2 else s.bufferOf place.1 place.2 := by
  rw [bufferOf_eq, bufferOf_eq, (buffer?_remove s target.1 target.2 place).2]
  split <;> rfl

end BufferStore

end ZoneBus
