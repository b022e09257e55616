import ZoneBus.Path.Text
import ZoneBus.Proofs.Text.Numerals
import Mathlib.Data.List.Forall2

/-!
# Which texts are paths

Somebody types nothing for the root, and otherwise a numeral for every element with one dot
between two of them.  No numeral is empty and none holds a dot, so a text can be taken apart
in one way only, and a dot too many leaves an empty part, which is no numeral.  A value may
be typed in many ways, with zeros or a plus sign in front; plain decimal is one of them.

## Main definitions

* `Path.Typed` — the texts of paths, with the values of their elements.

## Main results

* `Path.splitDots_eq_splitOn`, `Path.joinDots_eq_intercalate` — taking a text apart at its
  dots, and putting dots between parts.
* `Path.ofText_eq_ok_iff` — what is read as a given path.
* `Path.typed_iff_read` — **what is read are the texts of paths**, and a path typed in plain
  decimal is read as that path.
-/

namespace ZoneBus

namespace Path

/-- A text for a path whose elements have these values. -/
inductive Typed : List Char → List Nat → Prop
  /-- The root is the empty text. -/
  | root : Typed [] []
  /-- Otherwise there are up to 255 numerals with single dots between them, and none of
  their values is above 255. -/
  | elements {parts : List (List Char)} {values : List Nat} (nonempty : parts ≠ [])
      (few : parts.length ≤ 255) (numerals : List.Forall₂ Numeral.Denotes parts values)
      (inRange : ∀ n ∈ values, n ≤ 255) : Typed (['.'].intercalate parts) values

variable {text part : List Char} {parts : List (List Char)} {values : List Nat}
  {b : UInt8} {bs : Bytes} {p : Path}

/-! ### Parts -/

theorem splitDots_eq_splitOn (text : List Char) : splitDots text = text.splitOn '.' := by
  induction text with
  | nil => simp [splitDots]
  | cons c rest ih =>
    rw [splitDots, ih, List.splitOn_cons_eq_if_modifyHead]
    by_cases hc : c = '.'
    · simp [hc]
    · cases hrest : rest.splitOn '.' with
      | nil => exact absurd hrest (List.splitOn_ne_nil '.' rest)
      | cons part parts => simp [hc]

theorem joinDots_eq_intercalate (parts : List (List Char)) :
    joinDots parts = ['.'].intercalate parts := by
  induction parts with
  | nil => simp [joinDots]
  | cons part parts ih =>
    cases parts with
    | nil => simp [joinDots]
    | cons next parts => simp [joinDots, ih]

/-- Numerals can be told apart when there are dots between them. -/
theorem splitOn_intercalate_of_numerals (nonempty : parts ≠ [])
    (numerals : List.Forall₂ Numeral.Denotes parts values) :
    (['.'].intercalate parts).splitOn '.' = parts := by
  have hdots : List.Forall₂ (fun part n => '.' ∉ part ∧ Numeral.Denotes part n) parts values :=
    numerals.imp fun part n h => ⟨h.notMem (by decide) (by decide), h⟩
  exact List.splitOn_intercalate '.' ((List.forall₂_and_left parts values).mp hdots).1 nonempty

/-! ### Elements -/

theorem values_le (bs : Bytes) : ∀ n ∈ bs.map UInt8.toNat, n ≤ 255 := by
  rw [List.forall_mem_map]
  exact fun b _ => Nat.le_of_lt_succ b.toNat_lt

/-- Numbers up to 255 are the values of bytes. -/
theorem map_toNat_map_ofNat (h : ∀ n ∈ values, n ≤ 255) :
    (values.map UInt8.ofNat).map UInt8.toNat = values := by
  calc (values.map UInt8.ofNat).map UInt8.toNat = values.map id := by
        rw [List.map_map]
        exact List.map_congr_left fun n hn =>
          UInt8.toNat_ofNat_of_lt' (Nat.lt_succ_of_le (h n hn))
    _ = values := List.map_id values

theorem elementOfText_eq_ok_iff :
    elementOfText part = .ok b ↔ Numeral.Denotes part b.toNat := by
  have hb : b.toNat ≤ 255 := Nat.le_of_lt_succ b.toNat_lt
  rw [elementOfText]
  constructor
  · intro h
    cases hn : Numeral.natural 255 part with
    | error e => rw [hn] at h; cases h
    | ok n =>
      obtain ⟨hdenotes, hle⟩ := Numeral.natural_eq_ok_iff.mp hn
      rw [hn] at h
      obtain rfl := Except.ok.inj h
      rwa [UInt8.toNat_ofNat_of_lt' (Nat.lt_succ_of_le hle)]
  · intro h
    rw [Numeral.natural_eq_ok_iff.mpr ⟨h, hb⟩]
    exact congrArg Except.ok (UInt8.ofNat_toNat)

/-- The first part is read first, and then the others. -/
theorem elementsOfText_cons_eq_ok_iff :
    elementsOfText (part :: parts) = .ok bs ↔
      ∃ b rest, elementOfText part = .ok b ∧ elementsOfText parts = .ok rest ∧ bs = b :: rest := by
  rw [elementsOfText]
  cases elementOfText part with
  | error e => simp
  | ok b =>
    cases elementsOfText parts with
    | error e => simp [Except.map]
    | ok rest => simp [Except.map, eq_comm]

theorem elementsOfText_eq_ok_iff :
    elementsOfText parts = .ok bs ↔
      List.Forall₂ (fun part b => Numeral.Denotes part b.toNat) parts bs := by
  induction parts generalizing bs with
  | nil =>
    rw [elementsOfText, Except.ok.injEq, List.forall₂_nil_left_iff]
    exact eq_comm
  | cons part parts ih =>
    rw [elementsOfText_cons_eq_ok_iff, List.forall₂_cons_left_iff]
    simp only [elementOfText_eq_ok_iff, ih]

/-- Some elements make a path when they are its elements. -/
theorem ofElements_eq_ok_iff : ofElements bs = .ok p ↔ bs = p.elements := by
  constructor
  · intro h
    rw [ofElements] at h
    split at h
    case isTrue => exact congrArg elements (Except.ok.inj h)
    case isFalse => cases h
  · rintro rfl
    exact ofElements_elements p

/-! ### Texts -/

theorem typed_nil_iff : Typed [] values ↔ values = [] := by
  constructor
  · intro h
    generalize htext : ([] : List Char) = text at h
    cases h with
    | root => rfl
    | elements nonempty few numerals inRange =>
      -- there would be one part, and an empty one
      have hparts := splitOn_intercalate_of_numerals nonempty numerals
      rw [← htext, List.splitOn_nil] at hparts
      subst hparts
      cases numerals with
      | cons hfirst _ => exact absurd rfl hfirst.ne_nil
  · rintro rfl
    exact .root

theorem typed_iff_of_ne_nil (h : text ≠ []) :
    Typed text values ↔ (text.splitOn '.').length ≤ 255 ∧
      List.Forall₂ Numeral.Denotes (text.splitOn '.') values ∧ ∀ n ∈ values, n ≤ 255 := by
  constructor
  · intro htyped
    cases htyped with
    | root => exact absurd rfl h
    | elements nonempty few numerals inRange =>
      rw [splitOn_intercalate_of_numerals nonempty numerals]
      exact ⟨few, numerals, inRange⟩
  · rintro ⟨few, numerals, inRange⟩
    have htyped : Typed (['.'].intercalate (text.splitOn '.')) values :=
      .elements (List.splitOn_ne_nil '.' text) few numerals inRange
    rwa [List.intercalate_splitOn] at htyped

/-- The values of a text are those of the elements of some path. -/
theorem exists_path_of_typed (h : Typed text values) :
    ∃ p : Path, p.elements.map UInt8.toNat = values := by
  cases h with
  | root => exact ⟨root, rfl⟩
  | elements nonempty few numerals inRange =>
    have hlength : (values.map UInt8.ofNat).length ≤ maxPathLength := by
      rw [List.length_map, ← numerals.length_eq]
      exact few
    exact ⟨⟨values.map UInt8.ofNat, hlength⟩, map_toNat_map_ofNat inRange⟩

theorem ofText_eq_ok_iff_of_ne_nil (h : text ≠ []) :
    ofText text = .ok p ↔ elementsOfText (text.splitOn '.') = .ok p.elements := by
  rw [ofText, if_neg (by simpa using h), splitDots_eq_splitOn]
  cases elementsOfText (text.splitOn '.') with
  | error e => simp
  | ok bs =>
    dsimp only
    rw [Except.ok.injEq, ← ofElements_eq_ok_iff]
    cases ofElements bs with
    | error e => simp
    | ok q => simp

/-- What is read as a given path are the texts for the values of its elements. -/
theorem ofText_eq_ok_iff : ofText text = .ok p ↔ Typed text (p.elements.map UInt8.toNat) := by
  by_cases h : text = []
  · have hroot : ofText [] = .ok root := rfl
    rw [h, hroot, Except.ok.injEq, typed_nil_iff, List.map_eq_nil_iff]
    constructor
    · rintro rfl
      rfl
    · exact fun hp => Path.ext hp.symm
  · rw [ofText_eq_ok_iff_of_ne_nil h, elementsOfText_eq_ok_iff, typed_iff_of_ne_nil h,
      List.forall₂_map_right_iff]
    constructor
    · exact fun numerals => ⟨numerals.length_eq ▸ p.length_le, numerals, values_le p.elements⟩
    · exact fun ⟨_, numerals, _⟩ => numerals

/-- A path typed in plain decimal is typed as it should be. -/
theorem typed_toText (p : Path) : Typed p.toText (p.elements.map UInt8.toNat) := by
  rw [toText, joinDots_eq_intercalate]
  by_cases h : p.elements = []
  · rw [h]
    exact .root
  · refine .elements (by simpa using h) ?_ ?_ (values_le p.elements)
    · rw [List.length_map]
      exact p.length_le
    · rw [List.forall₂_map_left_iff, List.forall₂_map_right_iff, List.forall₂_same]
      exact fun b _ => .plain (Numeral.decimal_toDigits b.toNat)

/-- **What is read are the texts of paths.**  A text is read as a path whose elements have
given values, in their order, exactly when it is a text for those values: the empty one for
none, and otherwise up to 255 numerals from 0 to 255 with single dots between them.  The
elements of any path, written in decimal and with dots between them, are read as that path. -/
theorem typed_iff_read :
    (∀ text values,
      (∃ p : Path, ofText text = .ok p ∧ p.elements.map UInt8.toNat = values) ↔
        Typed text values) ∧
    ∀ p : Path, ofText p.toText = .ok p := by
  refine ⟨fun text values => ⟨?_, ?_⟩, fun p => ofText_eq_ok_iff.mpr (typed_toText p)⟩
  · rintro ⟨p, hread, rfl⟩
    exact ofText_eq_ok_iff.mp hread
  · intro h
    obtain ⟨p, rfl⟩ := exists_path_of_typed h
    exact ⟨p, ofText_eq_ok_iff.mpr h, rfl⟩

/-- Zeros and a plus sign in front do not count, and the largest value is allowed; an empty part
is no numeral. -/
theorem typed_iff_read_zeros :
    Typed ['+', '0', '0', '7', '.', '2', '5', '5', '.', '0'] [7, 255, 0] ∧
      (∀ values, ¬ Typed ['7', '.', '.', '0'] values) ∧
      ofText ['7', '.', '2', '5', '5', '.', '0'] = .ok ⟨[7, 255, 0], by decide⟩ := by
  obtain ⟨hread, hback⟩ := typed_iff_read
  refine ⟨(hread _ _).mp ⟨⟨[7, 255, 0], by decide⟩, rfl, rfl⟩, ?_,
    hback ⟨[7, 255, 0], by decide⟩⟩
  intro values htyped
  obtain ⟨p, hp, _⟩ := (hread _ _).mpr htyped
  have hrefused : ofText ['7', '.', '.', '0'] = .error (.element [] .empty) := rfl
  rw [hrefused] at hp
  cases hp

end Path

end ZoneBus
