import ZoneBus.Text.Numeral

/-!
# Which texts are numerals

A numeral is one decimal digit or more, perhaps behind a plus sign; its value is the
value of its digits, so zeros in front do not count.  Reading goes from left to right and
gives up as soon as the number is above the bound.  No numeral is lost by that: a digit
more never makes a number smaller.

## Main definitions

* `Numeral.Decimal` — digits and their value.
* `Numeral.Denotes` — a numeral and its value.

## Main results

* `Numeral.natural_eq_ok_iff` — **what is read are the numerals up to the bound, with their
  values.**
-/

namespace ZoneBus

namespace Numeral

/-- One decimal digit or more, of this value. -/
structure Decimal (ds : List Char) (n : Nat) : Prop where
  /-- There is a digit. -/
  nonempty : ds ≠ []
  /-- There are only digits. -/
  isDigit : ∀ c ∈ ds, c.isDigit = true
  /-- The value in base ten. -/
  value : Nat.ofDigitChars 10 ds 0 = n

/-- A numeral of this value. -/
inductive Denotes : List Char → Nat → Prop
  /-- Only digits. -/
  | plain {ds : List Char} {n : Nat} (h : Decimal ds n) : Denotes ds n
  /-- Digits behind a plus sign. -/
  | plus {ds : List Char} {n : Nat} (h : Decimal ds n) : Denotes ('+' :: ds) n

variable {most n m : Nat} {outOfRange : NumeralError} {cs : List Char}

/-! ### Digits -/

theorem digit?_eq (c : Char) :
    digit? c = if c.isDigit = true then some (c.toNat - '0'.toNat) else none := by
  simp only [digit?, Char.isDigit_iff_toNat]
  rfl

/-- Digits behind a number never make it smaller. -/
theorem le_ofDigitChars (n : Nat) (cs : List Char) : n ≤ Nat.ofDigitChars 10 cs n := by
  rw [Nat.ofDigitChars_eq_ofDigitChars_zero]
  calc n ≤ 10 ^ cs.length * n := Nat.le_mul_of_pos_left n (Nat.pow_pos (by decide))
    _ ≤ 10 ^ cs.length * n + Nat.ofDigitChars 10 cs 0 := Nat.le_add_right _ _

/-- Reading goes on behind a number that is in range, and gives the value of all digits when
there are only digits and that value is in range too. -/
theorem ofDigits_eq_ok_iff (h : n ≤ most) :
    ofDigits most outOfRange n cs = .ok m ↔
      (∀ c ∈ cs, c.isDigit = true) ∧ Nat.ofDigitChars 10 cs n = m ∧ m ≤ most := by
  induction cs generalizing n with
  | nil =>
    rw [ofDigits, Except.ok.injEq, Nat.ofDigitChars_nil]
    constructor
    · rintro rfl
      exact ⟨fun c hc => absurd hc List.not_mem_nil, rfl, h⟩
    · exact fun hm => hm.2.1
  | cons c cs ih =>
    rw [ofDigits, digit?_eq, Nat.ofDigitChars_cons, List.forall_mem_cons]
    cases hc : c.isDigit with
    | false => simp
    | true =>
      simp only [if_true, true_and]
      split
      case isTrue hle => exact ih hle
      case isFalse hle =>
        -- one digit is too many, and so are those behind it
        refine iff_of_false (fun hm => by cases hm) ?_
        rintro ⟨_, rfl, hm⟩
        exact hle (Nat.le_trans (le_ofDigitChars _ cs) hm)

theorem digits_eq_ok_iff : digits most outOfRange cs = .ok m ↔ Decimal cs m ∧ m ≤ most := by
  cases cs with
  | nil => exact iff_of_false (fun hm => by cases hm) fun hm => hm.1.nonempty rfl
  | cons c cs =>
    rw [digits, ofDigits_eq_ok_iff (Nat.zero_le most)]
    · constructor
      · exact fun ⟨hdigits, hvalue, hm⟩ => ⟨⟨List.cons_ne_nil c cs, hdigits, hvalue⟩, hm⟩
      · exact fun ⟨hd, hm⟩ => ⟨hd.isDigit, hd.value, hm⟩
    · exact List.cons_ne_nil c cs

/-- A number is written in decimal with digits of its value. -/
theorem decimal_toDigits (n : Nat) : Decimal (Nat.toDigits 10 n) n where
  nonempty := Nat.toDigits_ne_nil
  isDigit := fun _ hc => Nat.isDigit_of_mem_toDigits (by decide) (by decide) hc
  value := Nat.ofDigitChars_ten_toDigits

/-- Any other character but a digit is missing among digits. -/
theorem Decimal.notMem {c : Char} (h : Decimal cs n) (hc : c.isDigit = false) : c ∉ cs :=
  fun hmem => Bool.false_ne_true (hc.symm.trans (h.isDigit c hmem))

/-! ### Numerals -/

theorem Denotes.ne_nil (h : Denotes cs n) : cs ≠ [] := by
  cases h with
  | plain hd => exact hd.nonempty
  | plus _ => exact List.cons_ne_nil _ _

/-- There are only digits in a numeral, and perhaps a plus sign. -/
theorem Denotes.notMem {c : Char} (h : Denotes cs n) (hdigit : c.isDigit = false)
    (hplus : c ≠ '+') : c ∉ cs := by
  cases h with
  | plain hd => exact hd.notMem hdigit
  | plus hd =>
    rw [List.mem_cons, not_or]
    exact ⟨hplus, hd.notMem hdigit⟩

theorem denotes_plus_iff : Denotes ('+' :: cs) n ↔ Decimal cs n := by
  constructor
  · intro h
    cases h with
    | plain hd => exact absurd List.mem_cons_self (hd.notMem (by decide))
    | plus hd => exact hd
  · exact .plus

theorem denotes_iff_decimal {c : Char} (hc : c ≠ '+') :
    Denotes (c :: cs) n ↔ Decimal (c :: cs) n := by
  constructor
  · intro h
    cases h with
    | plain hd => exact hd
    | plus hd => exact absurd rfl hc
  · exact .plain

/-- **What is read are the numerals up to the bound, with their values.** -/
theorem natural_eq_ok_iff : natural most cs = .ok m ↔ Denotes cs m ∧ m ≤ most := by
  match cs with
  | [] => exact iff_of_false (fun hm => by cases hm) fun hm => hm.1.ne_nil rfl
  | c :: cs =>
    by_cases hc : c = '+'
    · rw [hc, natural, digits_eq_ok_iff, denotes_plus_iff]
    · rw [natural, digits_eq_ok_iff, denotes_iff_decimal hc]
      · exact List.cons_ne_nil c cs
      · rintro rest ⟨⟩
        exact hc rfl

end Numeral

end ZoneBus
