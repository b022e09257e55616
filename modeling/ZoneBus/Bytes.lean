/-!
# Bytes and words

Everything on the bus is a sequence of bytes.  Sixteen-bit words travel with
their low byte first.

## Main definitions

* `Bytes` — a finite sequence of bytes.
* `wordBytes`, `wordOfBytes` — a sixteen-bit word as its two bytes, low byte
  first, and back.
* `hexPair` — a byte as two upper-case hexadecimal digits.

## Main results

* `wordOfBytes_wordBytes`, `wordBytes_wordOfBytes` — a word and its two bytes
  determine each other.
-/

namespace ZoneBus

/-- A finite sequence of bytes. -/
abbrev Bytes := List UInt8

/-- The low byte of a word. -/
def lowByte (w : UInt16) : UInt8 := UInt8.ofNat (w.toNat % 256)

/-- The high byte of a word. -/
def highByte (w : UInt16) : UInt8 := UInt8.ofNat (w.toNat / 256)

/-- The two bytes of a word, low byte first. -/
def wordBytes (w : UInt16) : Bytes := [lowByte w, highByte w]

/-- The word with the given low and high byte. -/
def wordOfBytes (low high : UInt8) : UInt16 := UInt16.ofNat (low.toNat + 256 * high.toNat)

@[simp] theorem length_wordBytes (w : UInt16) : (wordBytes w).length = 2 := rfl

/-- A word is read back from its two bytes. -/
theorem wordOfBytes_wordBytes (w : UInt16) : wordOfBytes (lowByte w) (highByte w) = w := by
  apply UInt16.toNat_inj.mp
  have hw : w.toNat < 65536 := w.toNat_lt
  simp only [wordOfBytes, lowByte, highByte, UInt16.toNat_ofNat', UInt8.toNat_ofNat']
  omega

/-- The bytes of a word are the two it was put together from. -/
theorem wordBytes_wordOfBytes (low high : UInt8) :
    wordBytes (wordOfBytes low high) = [low, high] := by
  have hl : low.toNat < 256 := low.toNat_lt
  have hh : high.toNat < 256 := high.toNat_lt
  simp only [wordBytes, List.cons.injEq, and_true]
  constructor <;> apply UInt8.toNat_inj.mp <;>
    simp only [wordOfBytes, lowByte, highByte, UInt16.toNat_ofNat', UInt8.toNat_ofNat'] <;> omega

/-- The upper-case hexadecimal digit of a number below sixteen. -/
def hexDigit (n : Nat) : Char :=
  if n < 10 then Char.ofNat (48 + n) else Char.ofNat (55 + n)

/-- A byte as two upper-case hexadecimal digits. -/
def hexPair (b : UInt8) : String :=
  String.ofList [hexDigit (b.toNat / 16), hexDigit (b.toNat % 16)]

end ZoneBus
