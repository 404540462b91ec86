import Mathlib.Order.Bounds.Basic
import StagedCopy.Progress
import StagedCopy.Proofs.Binary64
import StagedCopy.Proofs.Size

/-!
# Byte counts for readers

A byte count is shown in the largest unit that it reaches, with one digit after the point. Below
`2 ^ 53` the count is a double, and so is every quotient by a power of 1024 on the way to its unit;
only the last digit is rounded, and it is off by at most a half of itself.

* `Size.numeral_decimal`, `Size.head?_decimal` — a numeral denotes the number that it was made from,
  and has no needless zero in front.
* `IsOneDecimal`, `oneDecimal_close` — numerals with one digit after the point, and how close they
  are.
* `formatScaled_eq` — the unit at which scaling stops, by induction on the units.
* `formatBytes_rounds` — the theorem.
-/

namespace StagedCopy

/-! ## Numerals -/

namespace Size

/-- The digits below ten. -/
theorem digit_spec : ∀ d < 10, digitValue (ascii d.digitChar) = d ∧
    isDigit (ascii d.digitChar) = true := by
  decide

theorem decimal_of_lt {n : Nat} (h : n < 10) : decimal n = [ascii n.digitChar] := by
  rw [decimal, Nat.toDigits_of_lt_base h, List.map_singleton]

theorem decimal_of_le {n : Nat} (h : 10 ≤ n) :
    decimal n = decimal (n / 10) ++ [ascii (n % 10).digitChar] := by
  rw [decimal, Nat.toDigits_of_base_le (by decide) h, List.map_append, List.map_singleton]
  rfl

/-- A numeral is made of digits and denotes the number that it was made from. -/
theorem numeral_decimal (n : Nat) :
    numeral (decimal n) = n ∧ decimal n ≠ [] ∧ ∀ b ∈ decimal n, isDigit b = true := by
  induction n using Nat.strongRecOn with
  | ind n ih =>
    by_cases hsmall : n < 10
    · obtain ⟨hvalue, hdigit⟩ := digit_spec n hsmall
      rw [decimal_of_lt hsmall]
      refine ⟨?_, List.cons_ne_nil _ _, fun b hb => ?_⟩
      · rw [numeral, List.map_singleton, hvalue, List.reverse_singleton, Nat.ofDigits_singleton]
      · rw [List.mem_singleton.1 hb]
        exact hdigit
    · obtain ⟨hvalue, hne, hdigits⟩ := ih (n / 10) (by omega)
      obtain ⟨hlast, hdigit⟩ := digit_spec (n % 10) (Nat.mod_lt n (by decide))
      rw [decimal_of_le (by omega)]
      refine ⟨?_, List.append_ne_nil_of_left_ne_nil hne _, fun b hb => ?_⟩
      · rw [numeral_concat, hvalue, hlast]
        omega
      · rcases List.mem_append.1 hb with hb | hb
        · exact hdigits b hb
        · rw [List.mem_singleton.1 hb]
          exact hdigit

/-- Only the numeral of zero begins with a zero. -/
theorem head?_decimal {n : Nat} (hn : 0 < n) : (decimal n).head? ≠ some (ascii '0') := by
  induction n using Nat.strongRecOn with
  | ind n ih =>
    by_cases hsmall : n < 10
    · rw [decimal_of_lt hsmall, List.head?_cons]
      have hdigits : ∀ d < 10, 0 < d → some (ascii d.digitChar) ≠ some (ascii '0') := by decide
      exact hdigits n hsmall hn
    · obtain ⟨-, hne, -⟩ := numeral_decimal (n / 10)
      rw [decimal_of_le (by omega), List.head?_append_of_ne_nil _ hne]
      exact ih (n / 10) (by omega) (by omega)

end Size

/-- The text is a decimal numeral with exactly one digit after the point and no needless zero in
front, and denotes the value. -/
def IsOneDecimal (text : Bytes) (value : ℚ) : Prop :=
  ∃ (whole : Bytes) (tenth : UInt8), text = whole ++ [ascii '.', tenth] ∧ whole ≠ [] ∧
    (∀ b ∈ whole, isDigit b = true) ∧ isDigit tenth = true ∧
      (whole.head? = some (ascii '0') → whole = [ascii '0']) ∧
        value = Size.numeral (whole ++ [tenth]) / 10

namespace Binary64

/-- A number is at most half a tenth away from its numeral with one digit after the point. -/
theorem oneDecimal_close {q : ℚ} (hq : 0 ≤ q) :
    ∃ value, IsOneDecimal (oneDecimal q) value ∧ |value - q| ≤ 1 / 20 := by
  have hself : ((q.num.natAbs * 10 : Nat) : ℚ) / q.den = q * 10 := by
    rw [Nat.cast_mul, Nat.cast_natAbs, abs_of_nonneg (Rat.num_nonneg.2 hq), mul_div_right_comm,
      Rat.num_div_den]
    rfl
  have hclose := roundHalfEven_close (q.num.natAbs * 10) q.den_pos
  rw [hself] at hclose
  unfold oneDecimal
  generalize roundHalfEven (q.num.natAbs * 10) q.den = tenths at hclose
  obtain ⟨hwhole, hne, hdigits⟩ := Size.numeral_decimal (tenths / 10)
  have hlt : tenths % 10 < 10 := Nat.mod_lt tenths (by decide)
  obtain ⟨htenth, hdigit⟩ := Size.digit_spec (tenths % 10) hlt
  have hnumeral : Size.numeral (decimal (tenths / 10) ++ [ascii (tenths % 10).digitChar])
      = tenths := by
    rw [Size.numeral_concat, hwhole, htenth]
    omega
  refine ⟨tenths / 10, ⟨decimal (tenths / 10), ascii (tenths % 10).digitChar, ?_, hne, hdigits,
    hdigit, fun hzero => ?_, by rw [hnumeral]⟩, ?_⟩
  · dsimp only
    rw [Size.decimal_of_lt hlt, List.append_assoc]
    rfl
  · have hnone : tenths / 10 = 0 := by
      by_contra hsome
      exact Size.head?_decimal (Nat.pos_of_ne_zero hsome) hzero
    rw [hnone]
    rfl
  · have hscaled : (tenths : ℚ) / 10 - q = (tenths - q * 10) / 10 := by ring
    rw [hscaled, abs_div, abs_of_pos (by norm_num : (0 : ℚ) < 10)]
    linarith

/-- A short integer over a power of 1024 is a double. -/
theorem isDouble_div_pow {n k : Nat} (hn : n ≤ 2 ^ 53) (hk : k ≤ 100) :
    IsDouble ((n : ℚ) / 1024 ^ k) := by
  refine ⟨n, -(10 * k : Nat), by simpa using by exact_mod_cast hn, by omega, ?_⟩
  rw [zpow_neg, zpow_natCast, pow_mul, Int.cast_natCast, div_eq_mul_inv]
  norm_num

/-- Such a quotient is divided by 1024 without rounding. -/
theorem div_pow_eq {n k : Nat} (hn : n ≤ 2 ^ 53) (hk : k < 100) :
    div ((n : ℚ) / 1024 ^ k) 1024 = (n : ℚ) / 1024 ^ (k + 1) := by
  rw [div, div_div, ← pow_succ]
  exact nearest_eq_self (by positivity) (isDouble_div_pow hn hk)

end Binary64

/-! ## Units -/

open Binary64 in
/-- Scaling stops at the largest unit that the count reaches, by induction on the units that are
left. -/
theorem formatScaled_eq {n u : Nat} {letter : UInt8} {units : List UInt8} {k : Nat}
    (hn : n ≤ 2 ^ 53) (hlow : 1024 ^ u ≤ n) (hhigh : n < 1024 ^ (u + 1)) (hku : k ≤ u)
    (hk : k + units.length < 100) (hletter : units[u - k]? = some letter) :
    formatScaled ((n : ℚ) / 1024 ^ k) units = oneDecimal ((n : ℚ) / 1024 ^ u) ++ [letter] := by
  induction units generalizing k with
  | nil => cases hletter
  | cons unit more ih =>
    have hreaches : 1024 ≤ (n : ℚ) / 1024 ^ k ↔ k < u := by
      rw [le_div_iff₀ (by positivity), mul_comm, ← pow_succ]
      norm_cast
      constructor
      · intro h
        exact Nat.succ_lt_succ_iff.1 ((Nat.pow_lt_pow_iff_right (by decide)).1 (h.trans_lt hhigh))
      · intro h
        exact (Nat.pow_le_pow_right (by decide) h).trans hlow
    cases more with
    | nil =>
      have hend : u - k = 0 := by
        have hlength := (List.getElem?_eq_some_iff.1 hletter).1
        rw [List.length_singleton] at hlength
        omega
      rw [hend] at hletter
      obtain rfl : u = k := by omega
      cases hletter
      rfl
    | cons larger more =>
      rw [formatScaled]
      by_cases hnext : k < u
      · have hshift : u - k = u - (k + 1) + 1 := by omega
        rw [if_pos (hreaches.2 hnext), div_pow_eq hn (by omega)]
        rw [hshift, List.getElem?_cons_succ] at hletter
        rw [List.length_cons] at hk
        exact ih hnext (by omega) hletter
      · obtain rfl : u = k := by omega
        rw [if_neg (mt hreaches.1 hnext)]
        rw [Nat.sub_self] at hletter
        cases hletter
        rfl

/-- A byte count below 1024 is shown as it is. From there on, and below `2 ^ 53`, it is shown as a
numeral with one digit after the point and the letter of the largest unit that it reaches, and the
numeral is at most half a tenth away from the quotient. -/
theorem formatBytes_rounds (n : Nat) :
    (n < 1024 → formatBytes n = decimal n) ∧
    ∀ u, 1024 ≤ n → n < 2 ^ 53 → IsGreatest { u | 1024 ^ u ≤ n } u →
      ∃ numeral letter value, formatBytes n = numeral ++ [letter] ∧
        (utf8 "KMGTPE")[u - 1]? = some letter ∧ IsOneDecimal numeral value ∧
          |value - (n : ℚ) / 1024 ^ u| ≤ 1 / 20 := by
  refine ⟨fun hsmall => if_pos hsmall, fun u hlarge hshort hgreatest => ?_⟩
  have hlow : 1024 ^ u ≤ n := hgreatest.1
  have hhigh : n < 1024 ^ (u + 1) := by
    by_contra hmore
    have hle : u + 1 ≤ u := hgreatest.2 (not_lt.1 hmore)
    omega
  have hexponent : ∀ {a b : Nat}, 1024 ^ a < 1024 ^ b → a < b :=
    fun h => (Nat.pow_lt_pow_iff_right (by decide)).1 h
  have hpos : 1 < u + 1 := hexponent (hlarge.trans_lt hhigh)
  have hbound : u < 6 := hexponent (hlow.trans_lt (hshort.trans (by norm_num)))
  obtain ⟨letter, hletter⟩ : ∃ letter, byteUnits[u - 1]? = some letter :=
    ⟨_, List.getElem?_eq_getElem (by omega : u - 1 < 6)⟩
  have hscaled : formatBytes n = Binary64.oneDecimal ((n : ℚ) / 1024 ^ u) ++ [letter] := by
    rw [formatBytes, if_neg (by omega), Binary64.ofNat_eq_self hshort.le]
    have hfirst := Binary64.div_pow_eq (k := 0) hshort.le (by decide)
    rw [pow_zero, div_one] at hfirst
    rw [hfirst]
    exact formatScaled_eq hshort.le hlow hhigh (by omega) (by decide) hletter
  obtain ⟨value, hnumeral, hclose⟩ :=
    Binary64.oneDecimal_close (by positivity : (0 : ℚ) ≤ (n : ℚ) / 1024 ^ u)
  exact ⟨_, letter, value, hscaled, hletter, hnumeral, hclose⟩

/-- The last count before the second unit is rounded up to a whole one and keeps its letter. -/
theorem formatBytes_rounds_boundary :
    1024 ≤ 1048575 ∧ 1048575 < 2 ^ 53 ∧ IsGreatest { u | 1024 ^ u ≤ 1048575 } 1 ∧
      formatBytes 1048575 = utf8 "1024.0K" ∧
      ∃ numeral letter value, formatBytes 1048575 = numeral ++ [letter] ∧
        (utf8 "KMGTPE")[1 - 1]? = some letter ∧ IsOneDecimal numeral value ∧
          |value - ((1048575 : Nat) : ℚ) / 1024 ^ 1| ≤ 1 / 20 := by
  have hgreatest : IsGreatest { u | 1024 ^ u ≤ 1048575 } 1 := by
    refine ⟨by norm_num, fun u hu => ?_⟩
    have hexponent : (1024 : Nat) ^ u < 1024 ^ 2 := lt_of_le_of_lt hu (by norm_num)
    have hlt := (Nat.pow_lt_pow_iff_right (by decide)).1 hexponent
    omega
  exact ⟨by norm_num, by norm_num, hgreatest, by decide +kernel,
    (formatBytes_rounds 1048575).2 1 (by norm_num) (by norm_num) hgreatest⟩

end StagedCopy
