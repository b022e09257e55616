import ZoneBus.Proofs.Bounds
import ZoneBus.Proofs.Message.Cuts

/-!
# Reading a body by places

A body can be read with a place in it that moves on from field to field.  Every field is then
taken from between two places, and what is left over is the length of the body less the place
at the end.  No place is ever behind the end of the body, so no field is taken out of bounds,
and what is read is what a reader finds that has only the rest of the body.

## Main definitions

* `PlaceReader`, with `bytes`, `byte`, `word`, `path` and `finish` — reading by places.
* `PlaceReader.Follows` — a reader by places does what another one does, within bounds.
* `Message.ofPlaces`, `Envelope.ofPlaces` — the message in a body, and the envelope in a frame.

## Main results

* `PlaceReader.Follows.bind` — one field after another.
* `Message.ofPlaces_eq` — **a body is read within bounds.**
-/

namespace ZoneBus

/-- Whether a cause lies in a body. -/
def ProtocolError.isAboutBody : ProtocolError → Bool
  | malformedPath _ _ => true
  | malformedPayload _ => true
  | _ => false

/-- The elements at the start of the bytes, as many as the first byte says, and how many
bytes they take with it. -/
def Path.elementsAt : Bytes → Bounded (Bytes × Nat)
  | [] => throw (.malformedPath 0 0)
  | declared :: rest => do
    if rest.length < declared.toNat then
      throw (.malformedPath declared.toNat rest.length)
    return (← slice? rest 0 declared.toNat, 1 + declared.toNat)

/-- The path with the given elements, which must not be too many. -/
def Path.ofFew (elements : Bytes) : Option Path :=
  if h : elements.length ≤ maxPathLength then some ⟨elements, h⟩ else none

/-- The elements of a path, and the bytes that it takes. -/
theorem Path.elementsAt_encode_append (p : Path) (rest : Bytes) :
    elementsAt (p.encode ++ rest) = pure (p.elements, p.encodedLength) := by
  have hlength : (UInt8.ofNat p.length).toNat = p.elements.length := by
    have hle : p.length ≤ 255 := p.length_le
    rw [UInt8.toNat_ofNat', Nat.mod_eq_of_lt (Nat.lt_succ_of_le hle), length]
  have hall : p.elements.length ≤ (p.elements ++ rest).length := by simp
  rw [encode, List.cons_append, elementsAt, hlength, if_neg (Nat.not_lt.mpr hall),
    slice?_take hall, List.take_left]
  rfl

/-- Elements are missing where a path is malformed. -/
theorem Path.elementsAt_error {bs : Bytes} {e : ProtocolError} (h : decode bs = .error e) :
    e.isAboutBody = true ∧ elementsAt bs = throw e := by
  cases bs with
  | nil => cases h; exact ⟨rfl, rfl⟩
  | cons declared rest =>
    rw [decode] at h
    split at h
    · next hfew =>
      cases h
      rw [elementsAt, if_pos hfew]
      exact ⟨rfl, rfl⟩
    · cases h

/-- **The elements of a path are taken within bounds**, and they are those of a path. -/
theorem Path.elementsAt_eq (bs : Bytes) : (elementsAt bs).run =
    some ((decode bs).map fun read => (read.1.elements, read.1.encodedLength)) := by
  cases h : decode bs with
  | error e =>
    rw [(elementsAt_error h).2]
    rfl
  | ok read =>
    rw [eq_of_decode h, elementsAt_encode_append]
    rfl

/-- Reads from a place in a body and moves it on. -/
abbrev PlaceReader (α : Type) := StateT Nat (ExceptT ProtocolError Option) α

namespace PlaceReader

/-! ### Fields -/

/-- Reads the given number of bytes. -/
def bytes (body : Bytes) (type : MessageType) (n : Nat) : PlaceReader Bytes := fun place => do
  let rest ← slice? body place body.length
  if rest.length < n then
    throw (.malformedPayload (.truncated type n place rest.length))
  return (← slice? rest 0 n, place + n)

/-- Reads a byte. -/
def byte (body : Bytes) (type : MessageType) : PlaceReader UInt8 := fun place => do
  let (read, place') ← bytes body type 1 place
  return (← byteAt? read 0, place')

/-- Reads a word. -/
def word (body : Bytes) (type : MessageType) : PlaceReader UInt16 := fun place => do
  let (read, place') ← bytes body type 2 place
  return (wordOfBytes (← byteAt? read 0) (← byteAt? read 1), place')

/-- Reads a path. -/
def path (body : Bytes) : PlaceReader Path := fun place => do
  let rest ← slice? body place body.length
  let (elements, taken) ← Path.elementsAt rest
  return (← Path.ofFew elements, place + taken)

/-- Refuses bytes that are left over. -/
def finish (body : Bytes) (type : MessageType) : PlaceReader Unit := fun place => do
  let extra ← sub? body.length place
  if extra ≠ 0 then
    throw (.malformedPayload (.trailing type extra))
  return ((), place)

/-! ### Layouts -/

/-- Reads a packet. -/
def packet (body : Bytes) : PlaceReader Packet := do
  let targetPath ← path body
  let sourcePath ← path body
  let number ← word body .setData
  let count ← word body .setData
  let length ← word body .setData
  let data ← bytes body .setData length.toNat
  finish body .setData
  Packet.check number count
  return { targetPath, sourcePath, number, count, data }

/-- Reads a request. -/
def dataRequest (body : Bytes) : PlaceReader DataRequest := do
  let targetPath ← path body
  let sourcePath ← path body
  let code ← byte body .requestData
  finish body .requestData
  return { targetPath, sourcePath, code }

/-- Reads a handshake. -/
def handshake (body : Bytes) : PlaceReader HandshakeKind := do
  let code ← byte body .handshake
  finish body .handshake
  return .ofByte code

/-- Reads an event. -/
def event (body : Bytes) : PlaceReader Event := do
  let targetPath ← path body
  let sourcePath ← path body
  let id ← word body .event
  let data1 ← word body .event
  let data2 ← word body .event
  let data3 ← byte body .event
  finish body .event
  return { targetPath, sourcePath, id, data1, data2, data3 }

/-- Reads a whole body. -/
def read {α : Type} (reader : PlaceReader α) : Bounded α := do
  let (a, _) ← reader.run 0
  return a

/-! ### Staying with the other reader -/

variable {α β : Type} {body : Bytes} {x : PlaceReader α} {y : BodyReader α}
  {f : α → PlaceReader β} {g : α → BodyReader β} {type : MessageType}

/-- From any place in the body, the reader stays within bounds, and does what the other one
does with the rest of the body: both give the same and stand at the same place again, or both
end in the same error, which is about the body. -/
def Follows (body : Bytes) (x : PlaceReader α) (y : BodyReader α) : Prop :=
  ∀ place, place ≤ body.length →
    (∃ a place', place' ≤ body.length ∧ (x.run place).run = some (.ok (a, place')) ∧
      y.run ⟨place, body.drop place⟩ = .ok (a, ⟨place', body.drop place'⟩)) ∨
    ∃ e, e.isAboutBody = true ∧ (x.run place).run = some (.error e) ∧
      y.run ⟨place, body.drop place⟩ = .error e

/-- **One field after another.** -/
theorem Follows.bind (h : Follows body x y) (hf : ∀ a, Follows body (f a) (g a)) :
    Follows body (x >>= f) (y >>= g) := by
  intro place hplace
  obtain ⟨a, place', hplace', hx, hy⟩ | ⟨e, he, hx, hy⟩ := h place hplace
  · have hbind : ((x >>= f).run place).run = ((f a).run place').run := by
      show Option.bind (x.run place).run _ = _
      rw [hx]
      rfl
    rw [hbind, BodyReader.run_bind_ok hy]
    exact hf a place' hplace'
  · have hbind : ((x >>= f).run place).run = some (.error e) := by
      show Option.bind (x.run place).run _ = _
      rw [hx]
      rfl
    exact Or.inr ⟨e, he, hbind, BodyReader.run_bind_error hy⟩

theorem follows_pure (a : α) : Follows body (pure a) (pure a) :=
  fun place hplace => Or.inl ⟨a, place, hplace, rfl, rfl⟩

theorem follows_check (number count : UInt16) :
    Follows body (liftM (Packet.check number count)) (liftM (Packet.check number count)) := by
  intro place hplace
  rw [Packet.check]
  split
  · exact Or.inl ⟨(), place, hplace, rfl, rfl⟩
  · exact Or.inr ⟨_, rfl, rfl, rfl⟩

theorem bytes_of_lt {n place : Nat} (hplace : place ≤ body.length)
    (hfew : (body.drop place).length < n) : bytes body type n place =
      throw (.malformedPayload (.truncated type n place (body.drop place).length)) := by
  rw [bytes, slice?_drop hplace, liftM_some_bind, if_pos hfew]
  rfl

theorem bytes_of_le {n place : Nat} (hplace : place ≤ body.length)
    (hall : n ≤ (body.drop place).length) :
    bytes body type n place = pure ((body.drop place).take n, place + n) := by
  rw [bytes, slice?_drop hplace, liftM_some_bind, if_neg (Nat.not_lt.mpr hall), slice?_take hall]
  rfl

theorem follows_bytes (n : Nat) : Follows body (bytes body type n) (BodyReader.bytes type n) := by
  intro place hplace
  show (∃ a place', _ ∧ (bytes body type n place).run = _ ∧ BodyReader.bytes type n _ = _) ∨
    ∃ e, _ ∧ (bytes body type n place).run = _ ∧ BodyReader.bytes type n _ = _
  rw [BodyReader.bytes]
  by_cases hfew : (body.drop place).length < n
  · rw [bytes_of_lt hplace hfew, if_pos hfew]
    exact Or.inr ⟨_, rfl, rfl, rfl⟩
  · rw [bytes_of_le hplace (Nat.not_lt.mp hfew), if_neg hfew]
    rw [List.length_drop] at hfew
    refine Or.inl ⟨(body.drop place).take n, place + n, by omega, rfl, ?_⟩
    rw [List.drop_drop]

theorem follows_byte : Follows body (byte body type) (BodyReader.byte type) := by
  intro place hplace
  show (∃ a place', _ ∧ (byte body type place).run = _ ∧ BodyReader.byte type _ = _) ∨
    ∃ e, _ ∧ (byte body type place).run = _ ∧ BodyReader.byte type _ = _
  rw [byte]
  match hrest : body.drop place with
  | [] =>
    have hfew : (body.drop place).length < 1 := by rw [hrest]; exact Nat.one_pos
    rw [bytes_of_lt hplace hfew, hrest]
    exact Or.inr ⟨_, rfl, rfl, rfl⟩
  | b :: rest =>
    have hall : 1 ≤ (body.drop place).length := by rw [hrest]; simp
    have hend : place + 1 ≤ body.length := by rw [List.length_drop] at hall; omega
    have hnext : body.drop (place + 1) = rest := by rw [← List.drop_drop, hrest]; rfl
    rw [bytes_of_le hplace hall, hrest]
    refine Or.inl ⟨b, place + 1, hend, rfl, ?_⟩
    rw [hnext]
    rfl

theorem follows_word : Follows body (word body type) (BodyReader.word type) := by
  intro place hplace
  show (∃ a place', _ ∧ (word body type place).run = _ ∧ BodyReader.word type _ = _) ∨
    ∃ e, _ ∧ (word body type place).run = _ ∧ BodyReader.word type _ = _
  rw [word]
  match hrest : body.drop place with
  | [] | [_] =>
    have hfew : (body.drop place).length < 2 := by rw [hrest]; simp
    rw [bytes_of_lt hplace hfew, hrest]
    exact Or.inr ⟨_, rfl, rfl, rfl⟩
  | low :: high :: rest =>
    have hall : 2 ≤ (body.drop place).length := by rw [hrest]; simp
    have hend : place + 2 ≤ body.length := by rw [List.length_drop] at hall; omega
    have hnext : body.drop (place + 2) = rest := by rw [← List.drop_drop, hrest]; rfl
    rw [bytes_of_le hplace hall, hrest]
    refine Or.inl ⟨wordOfBytes low high, place + 2, hend, rfl, ?_⟩
    rw [hnext]
    rfl

theorem follows_path : Follows body (path body) BodyReader.path := by
  intro place hplace
  show (∃ a place', _ ∧ (path body place).run = _ ∧ BodyReader.path _ = _) ∨
    ∃ e, _ ∧ (path body place).run = _ ∧ BodyReader.path _ = _
  rw [path, slice?_drop hplace, liftM_some_bind, BodyReader.path]
  dsimp only
  cases hread : Path.decode (body.drop place) with
  | error e =>
    obtain ⟨he, hat⟩ := Path.elementsAt_error hread
    rw [hat]
    exact Or.inr ⟨e, he, rfl, rfl⟩
  | ok read =>
    obtain ⟨p, rest⟩ := read
    have hsplit := Path.eq_of_decode hread
    have hlength := congrArg List.length hsplit
    rw [List.length_drop, List.length_append, Path.length_encode] at hlength
    have hnext : body.drop (place + p.encodedLength) = rest := by
      rw [← List.drop_drop, hsplit, ← Path.length_encode, List.drop_left]
    rw [hsplit, Path.elementsAt_encode_append]
    refine Or.inl ⟨p, place + p.encodedLength, by omega, ?_, ?_⟩
    · show (liftM (Path.ofFew p.elements) >>= _ : Bounded (Path × Nat)).run = _
      rw [Path.ofFew, dif_pos p.length_le]
      rfl
    · rw [hnext]

theorem follows_finish : Follows body (finish body type) (BodyReader.finish type) := by
  intro place hplace
  show (∃ a place', _ ∧ (finish body type place).run = _ ∧ BodyReader.finish type _ = _) ∨
    ∃ e, _ ∧ (finish body type place).run = _ ∧ BodyReader.finish type _ = _
  rw [finish, sub?_of_le hplace, liftM_some_bind, ← List.length_drop]
  match hrest : body.drop place with
  | [] =>
    refine Or.inl ⟨(), place, hplace, rfl, ?_⟩
    rw [hrest]
    rfl
  | b :: rest => exact Or.inr ⟨_, rfl, rfl, rfl⟩

/-! ### Whole bodies -/

theorem follows_packet : Follows body (packet body) BodyReader.packet := by
  refine follows_path.bind fun target => ?_
  refine follows_path.bind fun source => ?_
  refine follows_word.bind fun number => ?_
  refine follows_word.bind fun count => ?_
  refine follows_word.bind fun length => ?_
  refine (follows_bytes _).bind fun data => ?_
  refine follows_finish.bind fun _ => ?_
  exact (follows_check number count).bind fun _ => follows_pure _

theorem follows_dataRequest : Follows body (dataRequest body) BodyReader.dataRequest := by
  refine follows_path.bind fun target => ?_
  refine follows_path.bind fun source => ?_
  refine follows_byte.bind fun code => ?_
  exact follows_finish.bind fun _ => follows_pure _

theorem follows_handshake : Follows body (handshake body) BodyReader.handshake :=
  follows_byte.bind fun _ => follows_finish.bind fun _ => follows_pure _

theorem follows_event : Follows body (event body) BodyReader.event := by
  refine follows_path.bind fun target => ?_
  refine follows_path.bind fun source => ?_
  refine follows_word.bind fun id => ?_
  refine follows_word.bind fun data1 => ?_
  refine follows_word.bind fun data2 => ?_
  refine follows_byte.bind fun data3 => ?_
  exact follows_finish.bind fun _ => follows_pure _

/-- What is read of a whole body. -/
theorem Follows.read (h : Follows body x y) (k : α → β) :
    (k <$> x.read).run = some ((y.read body).map k) ∧
      ∀ e, (y.read body).map k = .error e → e.isAboutBody = true := by
  obtain ⟨a, place, _, hx, hy⟩ | ⟨e, he, hx, hy⟩ := h 0 (Nat.zero_le _)
  · change x.run 0 = pure (a, place) at hx
    change y.run ⟨0, body⟩ = _ at hy
    rw [PlaceReader.read, hx, BodyReader.read, hy]
    exact ⟨rfl, fun _ h => by cases h⟩
  · change x.run 0 = throw e at hx
    change y.run ⟨0, body⟩ = _ at hy
    rw [PlaceReader.read, hx, BodyReader.read, hy]
    exact ⟨rfl, fun _ h => by cases h; exact he⟩

end PlaceReader

/-! ### Messages and envelopes -/

/-- The message with the given type byte and body, read by places. -/
def Message.ofPlaces (typeByte : UInt8) (body : Bytes) : Bounded Message :=
  match MessageType.ofByte? typeByte with
  | some .setData => .setData <$> (PlaceReader.packet body).read
  | some .requestData => .requestData <$> (PlaceReader.dataRequest body).read
  | some .handshake => .handshake <$> (PlaceReader.handshake body).read
  | some .event => .event <$> (PlaceReader.event body).read
  | none => return .unknown typeByte body

/-- The envelope in a frame, read by places. -/
def Envelope.ofPlaces (f : Frame) : Bounded Envelope := do
  let message ← Message.ofPlaces f.type f.body
  return ⟨f.target, f.source, message⟩

/-- **A body is read within bounds**, and where it is refused, the cause lies in it. -/
theorem Message.ofPlaces_eq (typeByte : UInt8) (body : Bytes) :
    (ofPlaces typeByte body).run = some (ofBody typeByte body) ∧
      ∀ e, ofBody typeByte body = .error e → e.isAboutBody = true := by
  rw [ofPlaces, ofBody]
  cases MessageType.ofByte? typeByte with
  | none => exact ⟨rfl, fun _ h => by cases h⟩
  | some type =>
    cases type with
    | setData => exact PlaceReader.follows_packet.read setData
    | requestData => exact PlaceReader.follows_dataRequest.read requestData
    | handshake => exact PlaceReader.follows_handshake.read handshake
    | event => exact PlaceReader.follows_event.read Message.event

theorem Envelope.ofPlaces_eq (f : Frame) :
    (ofPlaces f).run = some (ofFrame f) ∧ ∀ e, ofFrame f = .error e → e.isAboutBody = true := by
  obtain ⟨hrun, herror⟩ := Message.ofPlaces_eq f.type f.body
  rw [ofPlaces, ofFrame]
  cases hm : Message.ofBody f.type f.body with
  | error e =>
    rw [hm] at hrun
    change Message.ofPlaces f.type f.body = throw e at hrun
    rw [hrun]
    exact ⟨rfl, fun _ h => by cases h; exact herror e hm⟩
  | ok m =>
    rw [hm] at hrun
    change Message.ofPlaces f.type f.body = pure m at hrun
    rw [hrun]
    exact ⟨rfl, fun _ h => by cases h⟩

end ZoneBus
