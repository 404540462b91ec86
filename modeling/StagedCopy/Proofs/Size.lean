import Mathlib.Data.List.Induction
import Mathlib.Data.List.TakeWhile
import Mathlib.Data.Nat.Digits.Defs
import StagedCopy.Size

/-!
# What a size denotes

A size is a numeral and perhaps a unit, with blanks before either. This module says so without any
reading from left to right: a text is such a size when it can be cut into these parts, and it
denotes the number of the numeral times a power of 1024. The reader accepts just the texts that
denote a number of 64 bits, and gives that number.

* `Size.numeral`, `Size.IsUnit`, `Size.Denotes` — what numerals, units and sizes denote.
* `Size.readDigits_eq_some_iff` — the guard at every digit refuses just the numbers that do not fit.
* `Size.unitFactor?_eq_some_iff` — the units, in any letter case.
* `Size.Denotes.parse_iff` — a text denotes one number only.
* `Size.parse_eq_some_iff` — the theorem.
-/

namespace StagedCopy

namespace Size

/-! ## What is denoted -/

/-- The number that decimal digits denote, the most significant first. -/
def numeral (digits : Bytes) : Nat := Nat.ofDigits 10 (digits.map digitValue).reverse

/-- The names of the units in small letters, in the order of their powers of 1024. No name at all
means bytes. -/
def unitNames : List (List Bytes) :=
  [[utf8 "", utf8 "b"],
    [utf8 "k", utf8 "kb", utf8 "kib"],
    [utf8 "m", utf8 "mb", utf8 "mib"],
    [utf8 "g", utf8 "gb", utf8 "gib"],
    [utf8 "t", utf8 "tb", utf8 "tib"]]

/-- The text is a name of the unit of the given power, in any letter case. -/
def IsUnit (unit : Bytes) (power : Nat) : Prop :=
  ∃ names, unitNames[power]? = some names ∧ lower unit ∈ names

/-- The text is made of blanks, digits, blanks and a unit, and denotes the value. At least one digit
must be there, and any of the other parts may be empty. -/
def Denotes (text : Bytes) (value : Nat) : Prop :=
  ∃ (blanks digits gap unit : Bytes) (power : Nat),
    text = blanks ++ (digits ++ (gap ++ unit)) ∧
      (∀ b ∈ blanks, isSpace b = true) ∧ digits ≠ [] ∧ (∀ b ∈ digits, isDigit b = true) ∧
      (∀ b ∈ gap, isSpace b = true) ∧ IsUnit unit power ∧ value = numeral digits * 1024 ^ power

/-! ## Digits -/

theorem numeral_concat (digits : Bytes) (d : UInt8) :
    numeral (digits ++ [d]) = numeral digits * 10 + digitValue d := by
  rw [numeral, List.map_append, List.map_singleton, List.reverse_concat, Nat.ofDigits_cons,
    Nat.add_comm, Nat.mul_comm]
  rfl

/-- More digits give no smaller number. -/
theorem numeral_le_append (digits more : Bytes) : numeral digits ≤ numeral (digits ++ more) := by
  induction more using List.reverseRecOn with
  | nil => rw [List.append_nil]
  | append_singleton more d ih =>
    rw [← List.append_assoc, numeral_concat]
    omega

/-- Digits are read to the number of all of them, those already read included, unless it has
outgrown 64 bits. -/
theorem readDigits_numeral (done digits : Bytes) (hdone : numeral done < bound) :
    readDigits (numeral done) digits
      = if numeral (done ++ digits) < bound then some (numeral (done ++ digits)) else none := by
  induction digits generalizing done with
  | nil => rw [readDigits, List.append_nil, if_pos hdone]
  | cons d rest ih =>
    rw [readDigits, ← numeral_concat, List.append_cons done d rest]
    by_cases hnext : numeral (done ++ [d]) < bound
    · rw [if_pos hnext, ih (done ++ [d]) hnext]
    · -- the number does not shrink again
      have hle := numeral_le_append (done ++ [d]) rest
      rw [if_neg hnext, if_neg (by omega)]

theorem readDigits_eq_some_iff {digits : Bytes} {number : Nat} :
    readDigits 0 digits = some number ↔ numeral digits < bound ∧ number = numeral digits := by
  have hread : readDigits 0 digits
      = if numeral digits < bound then some (numeral digits) else none :=
    readDigits_numeral [] digits (by decide)
  rw [hread, Option.ite_none_right_eq_some, Option.some.injEq, eq_comm (a := number)]

/-! ## Units -/

/-- Every name in the table stands for its power of 1024. -/
theorem unitFactor?_of_table : ∀ power < unitNames.length, ∀ name ∈ unitNames[power]?.getD [],
    unitFactor? name = some (1024 ^ power) := by
  decide

theorem isLetter_of_table : ∀ names ∈ unitNames, ∀ name ∈ names, name.all isLetter = true := by
  decide

/-- A name has a factor when it is in the table, and the factor is that of its power. -/
theorem unitFactor?_eq_some_iff {unit : Bytes} {factor : Nat} :
    unitFactor? (lower unit) = some factor ↔
      ∃ power, IsUnit unit power ∧ factor = 1024 ^ power := by
  constructor
  · intro h
    generalize hname : lower unit = name at h
    -- one branch for each unit, in the order of the table
    have htable : ∃ power names, unitNames[power]? = some names ∧ name ∈ names ∧
        factor = 1024 ^ power := by
      unfold unitFactor? at h
      split at h
      · next hb => exact ⟨0, _, rfl, by simpa using hb, by cases h; decide⟩
      split at h
      · next hk => exact ⟨1, _, rfl, by simpa using hk, by cases h; decide⟩
      split at h
      · next hm => exact ⟨2, _, rfl, by simpa using hm, by cases h; decide⟩
      split at h
      · next hg => exact ⟨3, _, rfl, by simpa using hg, by cases h; decide⟩
      split at h
      · next ht => exact ⟨4, _, rfl, by simpa using ht, by cases h; decide⟩
      · cases h
    obtain ⟨power, names, hnames, hmem, hfactor⟩ := htable
    exact ⟨power, ⟨names, hnames, hname ▸ hmem⟩, hfactor⟩
  · rintro ⟨power, ⟨names, hnames, hmem⟩, rfl⟩
    refine unitFactor?_of_table power (List.getElem?_eq_some_iff.1 hnames).1 _ ?_
    rw [hnames]
    exact hmem

theorem isLetter_of_lowerByte {b : UInt8} (h : isLetter (lowerByte b) = true) :
    isLetter b = true := by
  unfold lowerByte at h
  split at h
  · next hcapital =>
    rw [isLetter, hcapital]
    rfl
  · exact h

/-- Units are spelled with letters alone. -/
theorem IsUnit.isLetter {unit : Bytes} {power : Nat} (h : IsUnit unit power) :
    ∀ b ∈ unit, isLetter b = true := by
  obtain ⟨names, hnames, hmem⟩ := h
  have hletters := isLetter_of_table names (List.mem_of_getElem? hnames) _ hmem
  rw [lower, List.all_map, List.all_eq_true] at hletters
  exact fun b hb => isLetter_of_lowerByte (hletters b hb)

/-! ## Parts -/

theorem toNat_of_isSpace {b : UInt8} (h : isSpace b = true) : b.toNat < 48 := by
  simp [isSpace, UInt8.le_iff_toNat_le, ← UInt8.toNat_inj] at h
  omega

theorem toNat_of_isDigit {b : UInt8} (h : isDigit b = true) : 48 ≤ b.toNat ∧ b.toNat < 58 := by
  simp [isDigit, UInt8.le_iff_toNat_le] at h
  omega

theorem toNat_of_isLetter {b : UInt8} (h : isLetter b = true) : 65 ≤ b.toNat := by
  simp [isLetter, UInt8.le_iff_toNat_le] at h
  omega

/-- Digits and letters are no blanks. -/
theorem isSpace_eq_false {b : UInt8} (h : 48 ≤ b.toNat) : isSpace b = false := by
  rw [Bool.eq_false_iff]
  intro hspace
  exact Nat.not_lt.2 h (toNat_of_isSpace hspace)

/-- Blanks and letters are no digits. -/
theorem isDigit_eq_false {b : UInt8} (h : b.toNat < 48 ∨ 65 ≤ b.toNat) : isDigit b = false := by
  rw [Bool.eq_false_iff]
  intro hdigit
  obtain ⟨hlow, hhigh⟩ := toNat_of_isDigit hdigit
  omega

/-- A beginning of one class before something of another class is what is taken while the first
class lasts. -/
theorem span_append {f : UInt8 → Bool} {front rest : Bytes} (hfront : ∀ b ∈ front, f b = true)
    (hrest : ∀ b ∈ rest.head?, f b = false) :
    (front ++ rest).takeWhile f = front ∧ (front ++ rest).dropWhile f = rest := by
  rw [List.takeWhile_append_of_pos hfront, List.dropWhile_append_of_pos hfront]
  cases rest with
  | nil => exact ⟨List.append_nil front, rfl⟩
  | cons b rest =>
    have hb : f b = false := hrest b rfl
    rw [List.takeWhile_cons_of_neg (by simp [hb]), List.dropWhile_cons_of_neg (by simp [hb])]
    exact ⟨List.append_nil front, rfl⟩

/-- What is read as the digits of a text. -/
def digitsOf (text : Bytes) : Bytes := (text.dropWhile isSpace).takeWhile isDigit

/-- What is read as the unit of a text. -/
def unitOf (text : Bytes) : Bytes := ((text.dropWhile isSpace).dropWhile isDigit).dropWhile isSpace

/-- Digits, blanks and letters are told apart, so a text can be cut into parts in one way only. -/
theorem parts_eq {blanks digits gap unit : Bytes} (hblanks : ∀ b ∈ blanks, isSpace b = true)
    (hempty : digits ≠ []) (hdigits : ∀ b ∈ digits, isDigit b = true)
    (hgap : ∀ b ∈ gap, isSpace b = true) (hunit : ∀ b ∈ unit, isLetter b = true) :
    digitsOf (blanks ++ (digits ++ (gap ++ unit))) = digits ∧
      unitOf (blanks ++ (digits ++ (gap ++ unit))) = unit := by
  have hafterBlanks : ∀ b ∈ (digits ++ (gap ++ unit)).head?, isSpace b = false := by
    intro b hb
    obtain ⟨d, rest, rfl⟩ := List.exists_cons_of_ne_nil hempty
    obtain rfl : d = b := Option.some.inj hb
    exact isSpace_eq_false (toNat_of_isDigit (hdigits d List.mem_cons_self)).1
  have hafterDigits : ∀ b ∈ (gap ++ unit).head?, isDigit b = false := by
    intro b hb
    rcases List.mem_append.1 (List.mem_of_mem_head? hb) with hmem | hmem
    · exact isDigit_eq_false (.inl (toNat_of_isSpace (hgap b hmem)))
    · exact isDigit_eq_false (.inr (toNat_of_isLetter (hunit b hmem)))
  have hafterGap : ∀ b ∈ unit.head?, isSpace b = false := by
    intro b hb
    have hletter := toNat_of_isLetter (hunit b (List.mem_of_mem_head? hb))
    exact isSpace_eq_false (Nat.le_trans (by decide) hletter)
  rw [digitsOf, unitOf, (span_append hblanks hafterBlanks).2,
    (span_append hdigits hafterDigits).1, (span_append hdigits hafterDigits).2,
    (span_append hgap hafterGap).2]
  exact ⟨rfl, rfl⟩

/-- A text is its blanks, its digits, more blanks and the rest. -/
theorem eq_parts (text : Bytes) :
    text = text.takeWhile isSpace ++ (digitsOf text
      ++ (((text.dropWhile isSpace).dropWhile isDigit).takeWhile isSpace ++ unitOf text)) := by
  rw [digitsOf, unitOf, List.takeWhile_append_dropWhile, List.takeWhile_append_dropWhile,
    List.takeWhile_append_dropWhile]

/-- What the reader asks of the parts. -/
theorem parse_eq (text : Bytes) :
    parse text = if (digitsOf text).isEmpty then none
      else (readDigits 0 (digitsOf text)).bind fun number =>
        if (unitOf text).all isLetter then
          (unitFactor? (lower (unitOf text))).bind fun factor =>
            if number * factor < bound then some (number * factor) else none
        else none :=
  rfl

/-- A text is accepted when it has digits and a unit and the product is not too large. The guard at
the digits refuses nothing that the guard at the product would accept. -/
theorem parse_eq_some_iff_parts {text : Bytes} {value : Nat} :
    parse text = some value ↔ digitsOf text ≠ [] ∧
      ∃ power, IsUnit (unitOf text) power ∧
        value = numeral (digitsOf text) * 1024 ^ power ∧ value < bound := by
  rw [parse_eq, Option.ite_none_left_eq_some, List.isEmpty_iff]
  refine and_congr_right fun _ => ?_
  constructor
  · intro h
    obtain ⟨number, hnumber, h⟩ := Option.bind_eq_some_iff.1 h
    obtain ⟨-, h⟩ := Option.ite_none_right_eq_some.1 h
    obtain ⟨factor, hfactor, h⟩ := Option.bind_eq_some_iff.1 h
    obtain ⟨hfits, h⟩ := Option.ite_none_right_eq_some.1 h
    obtain ⟨-, rfl⟩ := readDigits_eq_some_iff.1 hnumber
    obtain ⟨power, hunit, rfl⟩ := unitFactor?_eq_some_iff.1 hfactor
    cases h
    exact ⟨power, hunit, rfl, hfits⟩
  · rintro ⟨power, hunit, rfl, hfits⟩
    have hnumber : numeral (digitsOf text) < bound :=
      (Nat.le_mul_of_pos_right _ (Nat.pow_pos (by decide))).trans_lt hfits
    refine Option.bind_eq_some_iff.2 ⟨_, readDigits_eq_some_iff.2 ⟨hnumber, rfl⟩, ?_⟩
    refine Option.ite_none_right_eq_some.2 ⟨List.all_eq_true.2 hunit.isLetter, ?_⟩
    refine Option.bind_eq_some_iff.2 ⟨_, unitFactor?_eq_some_iff.2 ⟨power, hunit, rfl⟩, ?_⟩
    exact if_pos hfits

/-- What a text denotes is the product of what its digits and its unit stand for. -/
theorem Denotes.parts {text : Bytes} {value : Nat} (h : Denotes text value) :
    digitsOf text ≠ [] ∧ ∃ power, IsUnit (unitOf text) power ∧
      value = numeral (digitsOf text) * 1024 ^ power := by
  obtain ⟨blanks, digits, gap, unit, power, rfl, hblanks, hempty, hdigits, hgap, hunit, hvalue⟩ := h
  obtain ⟨hdigitsOf, hunitOf⟩ := parts_eq hblanks hempty hdigits hgap hunit.isLetter
  rw [hdigitsOf, hunitOf]
  exact ⟨hempty, power, hunit, hvalue⟩

theorem IsUnit.factor_unique {unit : Bytes} {power other : Nat} (h : IsUnit unit power)
    (hother : IsUnit unit other) : 1024 ^ power = 1024 ^ other := by
  have hfactor := unitFactor?_eq_some_iff.2 ⟨power, h, rfl⟩
  have hfactor' := unitFactor?_eq_some_iff.2 ⟨other, hother, rfl⟩
  exact Option.some.inj (hfactor.symm.trans hfactor')

/-- A text that denotes a number can be read as this number only, and is read when it fits. -/
theorem Denotes.parse_iff {text : Bytes} {n value : Nat} (h : Denotes text n) :
    parse text = some value ↔ value = n ∧ n < bound := by
  obtain ⟨hempty, power, hunit, rfl⟩ := h.parts
  rw [parse_eq_some_iff_parts]
  constructor
  · rintro ⟨-, other, hother, rfl, hfits⟩
    rw [hother.factor_unique hunit] at hfits ⊢
    exact ⟨rfl, hfits⟩
  · rintro ⟨rfl, hfits⟩
    exact ⟨hempty, power, hunit, rfl, hfits⟩

/-- The reader accepts just the texts that are made of blanks, digits, blanks and a unit and denote
a number of 64 bits, and gives this number. -/
theorem parse_eq_some_iff {text : Bytes} {value : Nat} :
    parse text = some value ↔ Denotes text value ∧ value < 2 ^ 64 := by
  have hbound : bound = 2 ^ 64 := by decide
  rw [parse_eq_some_iff_parts, hbound]
  constructor
  · rintro ⟨hempty, power, hunit, hvalue, hfits⟩
    refine ⟨⟨_, _, _, _, power, eq_parts text, ?_, hempty, ?_, ?_, hunit, hvalue⟩, hfits⟩
    · exact fun b hb => List.mem_takeWhile_imp hb
    · exact fun b hb => List.mem_takeWhile_imp hb
    · exact fun b hb => List.mem_takeWhile_imp hb
  · rintro ⟨hdenotes, hfits⟩
    obtain ⟨hempty, power, hunit, hvalue⟩ := hdenotes.parts
    exact ⟨hempty, power, hunit, hvalue, hfits⟩

end Size

end StagedCopy
