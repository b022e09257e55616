import ZoneBus.Proofs.Message.Bodies

/-!
# Messages and their bodies

Every message has a layout, and its body is the layout unless the message is a packet
that is out of range or too long.  Reading goes the other way: each field reader takes
the bytes that its value is written as and no others, and nothing may be left over.  So
a body is read as a message exactly when it is the body of that message and the message
is canonical, which leaves out only the messages that are written like others: an
unnamed handshake with the code of a named one, and an uninterpreted message with the
type of an interpreted one.

## Main definitions

* `Message.layout` — the bytes of a message, field by field.
* `Message.Writable` — whether a message has a body.
* `Message.Canonical` — whether a message is the one that its bytes are read as.
* `BodyReader.Spells`, `BodyReader.Accepts` — what a reader takes, from its result.

## Main results

* `Message.body_eq_ok_iff` — the body of a message is its layout.
* `Message.ofBody_eq_ok_iff` — **a body is read as the canonical message that has it.**
-/

namespace ZoneBus

/-! ### Writing -/

namespace Message

/-- The bytes of a message, field by field. -/
def layout : Message → Bytes
  | setData packet => packet.layout
  | requestData request => request.body
  | handshake kind => [kind.byte]
  | .event e => e.body
  | unknown _ body => body

/-- A packet has a body when its number is below its count and its length field can
tell how long its data is; any other message has one. -/
def Writable : Message → Prop
  | setData packet => packet.number < packet.count ∧ packet.data.length ≤ 65535
  | _ => True

/-- A message is the one that its bytes are read as: it does not bear a name of its own
for what has one already. -/
def Canonical : Message → Prop
  | handshake (.other code) => code ≠ 0x01 ∧ code ≠ 0x02
  | unknown code _ => code ≠ 0x00 ∧ code ≠ 0x01 ∧ code ≠ 0x02 ∧ code ≠ 0x05
  | _ => True

end Message

theorem Packet.body_eq_ok_iff {p : Packet} {bs : Bytes} :
    p.body = .ok bs ↔ (p.number < p.count ∧ p.data.length ≤ 65535) ∧ bs = p.layout := by
  constructor
  · intro h
    have hrange : p.number < p.count := by
      refine Decidable.not_not.mp fun hnot => ?_
      rw [body, check, if_neg hnot] at h
      cases h
    have hlen : p.data.length ≤ 65535 := by
      refine Decidable.not_not.mp fun hnot => ?_
      rw [body, check, if_pos hrange, if_neg hnot] at h
      cases h
    rw [body_eq hrange hlen] at h
    exact ⟨⟨hrange, hlen⟩, (Except.ok.inj h).symm⟩
  · rintro ⟨⟨hrange, hlen⟩, rfl⟩
    exact body_eq hrange hlen

/-- The body of a message is its layout. -/
theorem Message.body_eq_ok_iff {m : Message} {bs : Bytes} :
    m.body = .ok bs ↔ m.Writable ∧ bs = m.layout := by
  have plain : ∀ as : Bytes, (Except.ok as : Except ProtocolError Bytes) = .ok bs ↔
      True ∧ bs = as := by
    intro as
    rw [Except.ok.injEq, true_and]
    exact eq_comm
  cases m with
  | setData packet => exact packet.body_eq_ok_iff
  | requestData request => exact plain request.body
  | handshake kind => exact plain [kind.byte]
  | event e => exact plain e.body
  | unknown code body => exact plain body

/-! ### What a reader takes -/

/-- A path that was read is written as the bytes that it was read from. -/
theorem Path.eq_of_decode {bs rest : Bytes} {p : Path} (h : decode bs = .ok (p, rest)) :
    bs = p.encode ++ rest := by
  cases bs with
  | nil => cases h
  | cons declared more =>
    rw [decode] at h
    split at h
    · cases h
    · next hlong =>
      cases h
      have hlen : (more.take declared.toNat).length = declared.toNat := by
        rw [List.length_take]
        omega
      rw [encode, length, hlen, UInt8.ofNat_toNat, List.cons_append, List.take_append_drop]

namespace BodyReader

variable {α β : Type} {x : BodyReader α} {f : α → BodyReader β} {spell : α → Bytes}
  {P : β → Bytes → Prop}

/-- Whatever value the reader gives, it took the bytes that the value is written as. -/
def Spells (x : BodyReader α) (spell : α → Bytes) : Prop :=
  ∀ c a c', x.run c = .ok (a, c') → c.rest = spell a ++ c'.rest

/-- Whatever value the reader gives, all that was left to read fits it. -/
def Accepts (x : BodyReader β) (P : β → Bytes → Prop) : Prop :=
  ∀ c b c', x.run c = .ok (b, c') → P b c.rest

theorem exists_of_run_bind {c c'' : Cursor} {b : β} (h : (x >>= f).run c = .ok (b, c'')) :
    ∃ a c', x.run c = .ok (a, c') ∧ (f a).run c' = .ok (b, c'') := by
  rw [StateT.run_bind] at h
  cases hx : x.run c with
  | error e => rw [hx] at h; cases h
  | ok p =>
    rw [hx] at h
    exact ⟨p.1, p.2, rfl, h⟩

/-- A field, and the fields after it. -/
theorem Spells.accept (h : Spells x spell)
    (hf : ∀ a, Accepts (f a) fun b rest => P b (spell a ++ rest)) : Accepts (x >>= f) P := by
  intro c b c'' hrun
  obtain ⟨a, c', hx, hfa⟩ := exists_of_run_bind hrun
  rw [h c a c' hx]
  exact hf a c' b c'' hfa

/-- At the end nothing is left. -/
theorem accepts_finish (type : MessageType) {g : Unit → BodyReader β}
    (h : ∀ c b c', (g ()).run c = .ok (b, c') → P b []) : Accepts (finish type >>= g) P := by
  intro c b c'' hrun
  obtain ⟨_, c', hx, hg⟩ := exists_of_run_bind hrun
  have hnone : c.rest = [] := by
    change finish type c = _ at hx
    rw [finish] at hx
    split at hx
    · assumption
    · cases hx
  rw [hnone]
  exact h c' b c'' hg

theorem reads_byte (type : MessageType) (b : UInt8) : Reads (byte type) [b] b :=
  fun _ _ => rfl

theorem spells_byte (type : MessageType) : Spells (byte type) fun b => [b] := by
  intro c a c' h
  change byte type c = _ at h
  rw [byte] at h
  split at h
  · next hc => cases h; rw [hc]; rfl
  · cases h

theorem spells_word (type : MessageType) : Spells (word type) wordBytes := by
  intro c a c' h
  change word type c = _ at h
  rw [word] at h
  split at h
  · next hc => cases h; rw [hc, wordBytes_wordOfBytes]; rfl
  · cases h

theorem spells_path : Spells path Path.encode := by
  intro c a c' h
  change path c = _ at h
  rw [path] at h
  cases hd : Path.decode c.rest with
  | error e => rw [hd] at h; cases h
  | ok p =>
    rw [hd] at h
    cases h
    exact Path.eq_of_decode hd

/-- Bytes stand for themselves, and are as many as were asked for. -/
theorem accepts_bytes (type : MessageType) (n : Nat) {f : Bytes → BodyReader β}
    (hf : ∀ as, as.length = n → Accepts (f as) fun b rest => P b (as ++ rest)) :
    Accepts (bytes type n >>= f) P := by
  intro c b c'' hrun
  obtain ⟨as, c', hx, hfa⟩ := exists_of_run_bind hrun
  change bytes type n c = _ at hx
  rw [bytes] at hx
  split at hx
  · cases hx
  · next hlong =>
    cases hx
    have hlen : (c.rest.take n).length = n := by
      rw [List.length_take]
      omega
    rw [← List.take_append_drop n c.rest]
    exact hf _ hlen _ b c'' hfa

end BodyReader

/-! ### Reading a whole body -/

namespace BodyReader

variable {type : MessageType}

theorem Accepts.read {α : Type} {x : BodyReader α} {P : α → Bytes → Prop} {body : Bytes} {a : α}
    (h : Accepts x P) (hr : x.read body = .ok a) : P a body := by
  rw [BodyReader.read] at hr
  cases hx : x.run ⟨0, body⟩ with
  | error e => rw [hx] at hr; cases hr
  | ok p =>
    rw [hx] at hr
    obtain rfl := Except.ok.inj hr
    exact h ⟨0, body⟩ p.1 p.2 hx

theorem accepts_packet : Accepts packet fun p body =>
    (p.number < p.count ∧ p.data.length ≤ 65535) ∧ body = p.layout := by
  rw [packet]
  refine spells_path.accept fun target => ?_
  refine spells_path.accept fun source => ?_
  refine (spells_word _).accept fun number => ?_
  refine (spells_word _).accept fun count => ?_
  refine (spells_word _).accept fun length => ?_
  refine accepts_bytes _ _ fun data hlen => ?_
  refine accepts_finish _ fun c p c' h => ?_
  have hrange : number < count := by
    refine Decidable.not_not.mp fun hnot => ?_
    rw [Packet.check, if_neg hnot] at h
    cases h
  rw [Packet.check, if_pos hrange] at h
  cases h
  have hle : length.toNat < 65536 := length.toNat_lt
  refine ⟨⟨hrange, ?_⟩, ?_⟩
  · show data.length ≤ 65535
    omega
  · rw [Packet.layout, hlen, UInt16.ofNat_toNat, List.append_nil]

theorem fills_dataRequest (r : DataRequest) : Fills dataRequest r.body r := by
  rw [dataRequest, DataRequest.body, List.append_assoc]
  refine (reads_path _).fill ?_
  refine (reads_path _).fill ?_
  rw [← List.append_nil [r.code]]
  refine (reads_byte _ _).fill ?_
  exact fills_finish _ fun o => rfl

theorem accepts_dataRequest : Accepts dataRequest fun r body => body = r.body := by
  rw [dataRequest]
  refine spells_path.accept fun target => ?_
  refine spells_path.accept fun source => ?_
  refine (spells_byte _).accept fun code => ?_
  refine accepts_finish _ fun c r c' h => ?_
  cases h
  rw [DataRequest.body, List.append_assoc]
  rfl

theorem fills_event (e : Event) : Fills event e.body e := by
  rw [event, Event.body]
  simp only [List.append_assoc]
  refine (reads_path _).fill ?_
  refine (reads_path _).fill ?_
  refine (reads_word _ _).fill ?_
  refine (reads_word _ _).fill ?_
  refine (reads_word _ _).fill ?_
  rw [← List.append_nil [e.data3]]
  refine (reads_byte _ _).fill ?_
  exact fills_finish _ fun o => rfl

theorem accepts_event : Accepts event fun e body => body = e.body := by
  rw [event]
  refine spells_path.accept fun target => ?_
  refine spells_path.accept fun source => ?_
  refine (spells_word _).accept fun id => ?_
  refine (spells_word _).accept fun data1 => ?_
  refine (spells_word _).accept fun data2 => ?_
  refine (spells_byte _).accept fun data3 => ?_
  refine accepts_finish _ fun c e c' h => ?_
  cases h
  simp only [Event.body, List.append_assoc]
  rfl

theorem fills_handshake (code : UInt8) : Fills handshake [code] (.ofByte code) := by
  rw [handshake, ← List.append_nil [code]]
  refine (reads_byte _ _).fill ?_
  exact fills_finish _ fun o => rfl

theorem accepts_handshake : Accepts handshake fun kind body =>
    ∃ code, kind = .ofByte code ∧ body = [code] := by
  rw [handshake]
  refine (spells_byte _).accept fun code => ?_
  refine accepts_finish _ fun c kind c' h => ?_
  cases h
  exact ⟨code, rfl, rfl⟩

end BodyReader

/-- A kind is the one that its byte is read as, unless it bears the code of a named one. -/
theorem HandshakeKind.ofByte_byte_iff {kind : HandshakeKind} :
    ofByte kind.byte = kind ↔ (Message.handshake kind).Canonical := by
  cases kind with
  | command => exact iff_of_true rfl trivial
  | data => exact iff_of_true rfl trivial
  | other code =>
    show ofByte code = .other code ↔ code ≠ 0x01 ∧ code ≠ 0x02
    rw [ofByte]
    by_cases hcommand : code = 0x01
    · simp [hcommand]
    · by_cases hdata : code = 0x02
      · simp [hdata]
      · simp [hcommand, hdata]

/-- A type byte stands for no interpreted type exactly when an uninterpreted message may
bear it. -/
theorem MessageType.ofByte?_eq_none_iff {code : UInt8} {body : Bytes} :
    ofByte? code = none ↔ (Message.unknown code body).Canonical := by
  show _ ↔ code ≠ 0x00 ∧ code ≠ 0x01 ∧ code ≠ 0x02 ∧ code ≠ 0x05
  constructor
  · intro h
    refine ⟨?_, ?_, ?_, ?_⟩ <;> rintro rfl <;> cases h
  · rintro ⟨h₀, h₁, h₂, h₅⟩
    rw [ofByte?, if_neg h₀, if_neg h₁, if_neg h₂, if_neg h₅]

namespace Message

theorem map_eq_ok_iff {α : Type} {x : Except ProtocolError α} {f : α → Message} {m : Message} :
    x.map f = .ok m ↔ ∃ a, x = .ok a ∧ f a = m := by
  cases x with
  | error e => exact iff_of_false (fun h => by cases h) (fun ⟨_, h, _⟩ => by cases h)
  | ok a => simp [Except.map]

/-- **A body is read as the canonical message that has it**, and as no other. -/
theorem ofBody_eq_ok_iff {code : UInt8} {body : Bytes} {m : Message} :
    ofBody code body = .ok m ↔ m.Canonical ∧ m.typeByte = code ∧ m.body = .ok body := by
  rw [body_eq_ok_iff]
  constructor
  · intro h
    rw [ofBody] at h
    cases ht : MessageType.ofByte? code with
    | none =>
      rw [ht] at h
      cases h
      exact ⟨MessageType.ofByte?_eq_none_iff.mp ht, rfl, trivial, rfl⟩
    | some type =>
      rw [ht] at h
      obtain rfl := MessageType.byte_of_ofByte? ht
      cases type with
      | setData =>
        obtain ⟨p, hr, rfl⟩ := map_eq_ok_iff.mp h
        obtain ⟨hw, hbody⟩ := BodyReader.accepts_packet.read hr
        exact ⟨trivial, rfl, hw, hbody⟩
      | requestData =>
        obtain ⟨r, hr, rfl⟩ := map_eq_ok_iff.mp h
        exact ⟨trivial, rfl, trivial, BodyReader.accepts_dataRequest.read hr⟩
      | handshake =>
        obtain ⟨kind, hr, rfl⟩ := map_eq_ok_iff.mp h
        obtain ⟨byte, rfl, rfl⟩ := BodyReader.accepts_handshake.read hr
        refine ⟨HandshakeKind.ofByte_byte_iff.mp ?_, rfl, trivial, ?_⟩
        · rw [HandshakeKind.byte_ofByte]
        · rw [layout, HandshakeKind.byte_ofByte]
      | event =>
        obtain ⟨e, hr, rfl⟩ := map_eq_ok_iff.mp h
        exact ⟨trivial, rfl, trivial, BodyReader.accepts_event.read hr⟩
  · rintro ⟨hcanonical, rfl, hwritable, rfl⟩
    cases m with
    | setData p => exact ofBody_layout hwritable.1 hwritable.2
    | requestData r =>
      show (BodyReader.dataRequest.read r.body).map requestData = _
      rw [(BodyReader.fills_dataRequest r).read]
      rfl
    | handshake kind =>
      show (BodyReader.handshake.read [kind.byte]).map handshake = _
      rw [(BodyReader.fills_handshake kind.byte).read,
        HandshakeKind.ofByte_byte_iff.mpr hcanonical]
      rfl
    | event e =>
      show (BodyReader.event.read e.body).map Message.event = _
      rw [(BodyReader.fills_event e).read]
      rfl
    | unknown code body =>
      rw [typeByte, ofBody, MessageType.ofByte?_eq_none_iff.mpr hcanonical]
      rfl

end Message

end ZoneBus
