import Mathlib.Algebra.Order.Field.Power
import Mathlib.Algebra.Order.Floor.Ring
import Mathlib.Data.Rat.Floor
import Mathlib.Tactic.FieldSimp
import Mathlib.Tactic.Linarith
import Mathlib.Tactic.NormNum
import Mathlib.Tactic.Positivity
import Mathlib.Tactic.Ring
import StagedCopy.Binary64

/-!
# Rounding to the closest double

A double is a whole number of at most 53 binary digits times a power of two. What is rounded becomes
a multiple of the unit that belongs to its magnitude, and no double is closer to it. So a double
stays what it is, an integer stays an integer, and a number moves by at most a `2 ^ 53`th of itself.

* `roundHalfEven_close`, `closest_of_half` — rounding to an integer, and why no integer is closer.
* `unitExponent_spec` — the unit of a quotient.
* `Rounds`, `nearest_rounds` — a number and the multiple of its unit that it is rounded to.
* `IsDouble`, `isDouble_nearest`, `nearest_closest` — rounding among all doubles.
* `nearest_error` — how far a number moves.
* `ofNat_eq_self`, `exists_ofNat_eq` — integers are rounded to integers, short ones to themselves.
* `toInt64_eq_floor`, `toInt64_of_large` — the conversion of a double to 64 bits.
-/

namespace StagedCopy

/-! ## Rounding to an integer -/

/-- A quotient is at most a half away from the integer that it is rounded to. -/
theorem roundHalfEven_close (n : Nat) {d : Nat} (hd : 0 < d) :
    |(roundHalfEven n d : ℚ) - n / d| ≤ 1 / 2 := by
  have hpos : (0 : ℚ) < d := by exact_mod_cast hd
  have hsplit : (d : ℚ) * (n / d : Nat) + (n % d : Nat) = n := by exact_mod_cast Nat.div_add_mod n d
  have hquotient : (n : ℚ) / d = (n / d : Nat) + ((n % d : Nat) : ℚ) / d := by
    rw [eq_comm, ← hsplit]
    field_simp
  have hlow : 0 ≤ ((n % d : Nat) : ℚ) / d := by positivity
  have hhigh : ((n % d : Nat) : ℚ) / d < 1 :=
    (div_lt_one hpos).2 (by exact_mod_cast Nat.mod_lt n hd)
  rw [hquotient, abs_le]
  unfold roundHalfEven
  dsimp only
  split
  · next hless =>
    have hhalf : ((n % d : Nat) : ℚ) / d ≤ 1 / 2 := by
      rw [div_le_div_iff₀ hpos two_pos]
      exact_mod_cast (by omega : n % d * 2 ≤ 1 * d)
    constructor <;> linarith
  split
  · next hmore =>
    have hhalf : 1 / 2 ≤ ((n % d : Nat) : ℚ) / d := by
      rw [div_le_div_iff₀ two_pos hpos]
      exact_mod_cast (by omega : 1 * d ≤ n % d * 2)
    push_cast
    constructor <;> linarith
  · next hless hmore =>
    have hhalf : ((n % d : Nat) : ℚ) / d = 1 / 2 := by
      rw [div_eq_div_iff hpos.ne' two_ne_zero]
      exact_mod_cast (by omega : n % d * 2 = 1 * d)
    obtain heven | hodd := Nat.mod_two_eq_zero_or_one (n / d)
    · rw [heven, hhalf]
      constructor <;> norm_num
    · rw [hodd, hhalf]
      push_cast
      constructor <;> linarith

/-- No integer is closer to a number than one that is at most a half away. -/
theorem closest_of_half {q : ℚ} {k : Int} (h : |k - q| ≤ 1 / 2) (j : Int) : |k - q| ≤ |j - q| := by
  obtain rfl | hne := eq_or_ne j k
  · exact le_rfl
  · have happart : (1 : ℚ) ≤ |(j : ℚ) - k| := by
      exact_mod_cast Int.one_le_abs (sub_ne_zero.2 hne)
    have hpath : |(j : ℚ) - k| ≤ |j - q| + |k - q| := by
      rw [abs_sub_comm (k : ℚ) q]
      exact abs_sub_le _ _ _
    linarith

namespace Binary64

/-! ## The unit of a quotient -/

theorem twoPow_eq (e : Int) : twoPow e = (2 : ℚ) ^ e := by
  unfold twoPow
  split
  · next h =>
    obtain ⟨k, rfl⟩ := Int.eq_ofNat_of_zero_le h
    simp [Nat.shiftLeft_eq]
  · next h =>
    obtain ⟨k, rfl⟩ : ∃ k : Nat, e = -k := ⟨(-e).toNat, by omega⟩
    simp [Nat.shiftLeft_eq]

section quotient

variable {n d : Nat}

theorem overTwoPow_pos (hd : 0 < d) (e : Int) : 0 < (overTwoPow n d e).2 := by
  unfold overTwoPow
  split
  · simpa [Nat.shiftLeft_eq] using hd
  · exact hd

theorem overTwoPow_div (n d : Nat) (e : Int) :
    ((overTwoPow n d e).1 : ℚ) / (overTwoPow n d e).2 = n / d / 2 ^ e := by
  unfold overTwoPow
  split
  · next h =>
    obtain ⟨k, rfl⟩ := Int.eq_ofNat_of_zero_le h
    simp [Nat.shiftLeft_eq, div_div]
  · next h =>
    obtain ⟨k, rfl⟩ : ∃ k : Nat, e = -k := ⟨(-e).toNat, by omega⟩
    simp [Nat.shiftLeft_eq, div_eq_mul_inv]
    ring

/-- A quotient lies between the powers of two that the lengths of its terms tell. -/
theorem two_zpow_lt_div (hn : 0 < n) (hd : 0 < d) :
    (2 : ℚ) ^ ((n.log2 : Int) - d.log2 - 1) < n / d ∧
      (n : ℚ) / d < 2 ^ ((n.log2 : Int) - d.log2 + 1) := by
  have hnlow : (2 : ℚ) ^ n.log2 ≤ n := by exact_mod_cast Nat.log2_self_le hn.ne'
  have hnhigh : (n : ℚ) < 2 ^ (n.log2 + 1) := by exact_mod_cast Nat.lt_log2_self
  have hdlow : (2 : ℚ) ^ d.log2 ≤ d := by exact_mod_cast Nat.log2_self_le hd.ne'
  have hdhigh : (d : ℚ) < 2 ^ (d.log2 + 1) := by exact_mod_cast Nat.lt_log2_self
  have hdpos : (0 : ℚ) < d := by exact_mod_cast hd
  constructor
  · rw [lt_div_iff₀ hdpos]
    calc (2 : ℚ) ^ ((n.log2 : Int) - d.log2 - 1) * d
        < 2 ^ ((n.log2 : Int) - d.log2 - 1) * 2 ^ (d.log2 + 1) := by gcongr
      _ = 2 ^ n.log2 := by
          rw [← zpow_natCast, ← zpow_natCast, ← zpow_add₀ two_ne_zero]
          congr 1
          push_cast
          ring
      _ ≤ n := hnlow
  · rw [div_lt_iff₀ hdpos]
    calc (n : ℚ) < 2 ^ (n.log2 + 1) := hnhigh
      _ = 2 ^ ((n.log2 : Int) - d.log2 + 1) * 2 ^ d.log2 := by
          rw [← zpow_natCast, ← zpow_natCast, ← zpow_add₀ two_ne_zero]
          congr 1
          push_cast
          ring
      _ ≤ 2 ^ ((n.log2 : Int) - d.log2 + 1) * d := by gcongr

/-- A quotient has at most 53 binary digits over its unit, and exactly 53 unless the unit is the
smallest. -/
theorem unitExponent_spec (hn : 0 < n) (hd : 0 < d) :
    -1074 ≤ unitExponent n d ∧ (n : ℚ) / d < 2 ^ (unitExponent n d + 53) ∧
      (unitExponent n d = -1074 ∨ (2 : ℚ) ^ (unitExponent n d + 52) ≤ n / d) := by
  obtain ⟨hlow, hhigh⟩ := two_zpow_lt_div hn hd
  generalize hlength : (n.log2 : Int) - d.log2 = length at hlow hhigh
  have hfewer : (overTwoPow n d (length - 52)).1 < (overTwoPow n d (length - 52)).2 * hiddenBit ↔
      (n : ℚ) / d < 2 ^ length := by
    have hpos : (0 : ℚ) < (overTwoPow n d (length - 52)).2 := by
      exact_mod_cast overTwoPow_pos hd (length - 52)
    have hunit : (0 : ℚ) < 2 ^ (length - 52) := by positivity
    have hsum : (2 : ℚ) ^ length = 2 ^ (52 : Int) * 2 ^ (length - 52) := by
      rw [← zpow_add₀ two_ne_zero]
      congr 1
      ring
    rw [hsum, ← div_lt_iff₀ hunit, ← overTwoPow_div, div_lt_iff₀ hpos, mul_comm]
    norm_num [hiddenBit]
    exact_mod_cast Iff.rfl
  have hunit : unitExponent n d =
      max (if (n : ℚ) / d < 2 ^ length then length - 52 - 1 else length - 52) (-1074) := by
    unfold unitExponent
    simp only [hlength, hfewer]
  rw [hunit]
  have hmono : ∀ {a b : Int}, a ≤ b → (2 : ℚ) ^ a ≤ 2 ^ b := fun h =>
    zpow_le_zpow_right₀ one_le_two h
  split
  · next hless =>
    refine ⟨le_max_right _ _, hless.trans_le (hmono (by omega)), ?_⟩
    obtain hcase | hcase := max_choice (length - 52 - 1) (-1074)
    · exact .inr ((hmono (by omega)).trans hlow.le)
    · exact .inl hcase
  · next hmore =>
    refine ⟨le_max_right _ _, hhigh.trans_le (hmono (by omega)), ?_⟩
    obtain hcase | hcase := max_choice (length - 52) (-1074)
    · exact .inr ((hmono (by omega)).trans (not_lt.1 hmore))
    · exact .inl hcase

end quotient

/-! ## Rounding to a multiple of the unit -/

/-- A number `x` and the multiple `y` of its unit `2 ^ e` that it is rounded to. -/
structure Rounds (x y : ℚ) (m e : Int) : Prop where
  value : y = m * 2 ^ e
  close : |y - x| ≤ 2 ^ e / 2
  nonneg : 0 ≤ m
  digits : m ≤ 2 ^ 53
  smallest : -1074 ≤ e
  unit : e = -1074 ∨ 2 ^ (e + 52) ≤ x

/-- What a quotient is rounded to. -/
theorem nearestQuotient_rounds (n : Nat) {d : Nat} (hd : 0 < d) :
    ∃ m e, Rounds (n / d) (nearestQuotient n d) m e := by
  obtain rfl | hn := Nat.eq_zero_or_pos n
  · have hzero : nearestQuotient 0 d = 0 := if_pos rfl
    refine ⟨0, -1074, by simp [hzero], ?_, le_rfl, by norm_num, le_rfl, .inl rfl⟩
    rw [hzero, Nat.cast_zero, zero_div, sub_zero, abs_zero]
    positivity
  obtain ⟨hsmallest, hdigits, hunit⟩ := unitExponent_spec hn hd
  generalize he : unitExponent n d = e at hsmallest hdigits hunit
  generalize hscaled : overTwoPow n d e = scaled
  have hpos : 0 < scaled.2 := hscaled ▸ overTwoPow_pos hd e
  have hquotient : (scaled.1 : ℚ) / scaled.2 = n / d / 2 ^ e := hscaled ▸ overTwoPow_div n d e
  have hclose := roundHalfEven_close scaled.1 hpos
  have hvalue : nearestQuotient n d = roundHalfEven scaled.1 scaled.2 * 2 ^ e := by
    simp only [nearestQuotient, hn.ne', if_false, he, hscaled, twoPow_eq]
  rw [hquotient] at hclose
  have htwo : (0 : ℚ) < 2 ^ e := by positivity
  refine ⟨roundHalfEven scaled.1 scaled.2, e, ⟨by exact_mod_cast hvalue, ?_, by positivity, ?_,
    hsmallest, hunit⟩⟩
  · have hmove : nearestQuotient n d - n / d
        = (roundHalfEven scaled.1 scaled.2 - n / d / 2 ^ e) * 2 ^ e := by
      rw [hvalue, sub_mul, div_mul_cancel₀ _ htwo.ne']
    rw [hmove, abs_mul, abs_of_pos htwo]
    calc _ ≤ 1 / 2 * (2 : ℚ) ^ e := by gcongr
      _ = 2 ^ e / 2 := by ring
  · -- a quotient below `2 ^ 53` is at most a half away from what it is rounded to
    have hbelow : (n : ℚ) / d / 2 ^ e < 2 ^ 53 := by
      rw [div_lt_iff₀ htwo]
      calc (n : ℚ) / d < 2 ^ (e + 53) := hdigits
        _ = 2 ^ 53 * 2 ^ e := by
          rw [zpow_add₀ two_ne_zero, mul_comm]
          rfl
    have hrounded : (roundHalfEven scaled.1 scaled.2 : ℚ) < 2 ^ 53 + 1 := by
      linarith [(abs_le.1 hclose).2]
    exact_mod_cast Nat.lt_succ_iff.1 (by exact_mod_cast hrounded)

/-- What a number that is not negative is rounded to. -/
theorem nearest_rounds {q : ℚ} (hq : 0 ≤ q) : ∃ m e, Rounds q (nearest q) m e := by
  have hself : (q.num.natAbs : ℚ) / q.den = q := by
    rw [Nat.cast_natAbs, abs_of_nonneg (Rat.num_nonneg.2 hq), Rat.num_div_den]
  have hrounds := nearestQuotient_rounds q.num.natAbs q.den_pos
  rw [hself] at hrounds
  rwa [nearest, if_neg (not_lt.2 hq)]

namespace Rounds

variable {x y : ℚ} {m e : Int}

/-- No multiple of the unit is closer. -/
theorem closest (h : Rounds x y m e) (k : Int) : |y - x| ≤ |k * 2 ^ e - x| := by
  have htwo : (0 : ℚ) < 2 ^ e := by positivity
  have hscale : ∀ j : Int, |j * 2 ^ e - x| = |j - x / 2 ^ e| * 2 ^ e := fun j => by
    rw [← abs_of_pos htwo, ← abs_mul, abs_of_pos htwo, sub_mul, div_mul_cancel₀ _ htwo.ne']
  have hhalf : |m - x / 2 ^ e| ≤ 1 / 2 := by
    have hclose := h.close
    rw [h.value, hscale] at hclose
    exact le_of_mul_le_mul_right (by linarith) htwo
  rw [h.value, hscale, hscale]
  exact mul_le_mul_of_nonneg_right (closest_of_half hhalf k) htwo.le

/-- Half the unit is small beside the number, or as small as it gets. -/
theorem half_unit_le (h : Rounds x y m e) (hx : 0 ≤ x) :
    (2 : ℚ) ^ e / 2 ≤ x / 2 ^ 53 + 2 ^ (-1075 : Int) := by
  have hpos : (0 : ℚ) < 2 ^ (-1075 : Int) := by positivity
  obtain rfl | hunit := h.unit
  · have hhalf : (2 : ℚ) ^ (-1074 : Int) / 2 = 2 ^ (-1075 : Int) := by
      rw [show (-1074 : Int) = -1075 + 1 by norm_num, zpow_add_one₀ two_ne_zero]
      ring
    rw [hhalf]
    have : 0 ≤ x / 2 ^ 53 := by positivity
    linarith
  · have hsmall : (2 : ℚ) ^ e * 2 ^ 52 ≤ x := by
      refine le_trans (le_of_eq ?_) hunit
      rw [zpow_add₀ two_ne_zero]
      rfl
    linarith

end Rounds

/-! ## Doubles -/

/-- The finite doubles, with no bound on their exponent from above. -/
def IsDouble (x : ℚ) : Prop := ∃ m e : Int, |m| ≤ 2 ^ 53 ∧ -1074 ≤ e ∧ x = m * 2 ^ e

theorem isDouble_intCast {n : Int} (h : |n| ≤ 2 ^ 53) : IsDouble n :=
  ⟨n, 0, h, by norm_num, by simp⟩

section nearest

variable {q x : ℚ}

theorem isDouble_nearest (hq : 0 ≤ q) : IsDouble (nearest q) := by
  obtain ⟨m, e, h⟩ := nearest_rounds hq
  exact ⟨m, e, by rw [abs_of_nonneg h.nonneg]; exact h.digits, h.smallest, h.value⟩

theorem nearest_nonneg (hq : 0 ≤ q) : 0 ≤ nearest q := by
  obtain ⟨m, e, h⟩ := nearest_rounds hq
  have hm : (0 : ℚ) ≤ m := by exact_mod_cast h.nonneg
  rw [h.value]
  positivity

/-- No double is closer to a number than the one it is rounded to. -/
theorem nearest_closest (hq : 0 ≤ q) (hx : IsDouble x) : |nearest q - q| ≤ |x - q| := by
  obtain ⟨m, e, h⟩ := nearest_rounds hq
  obtain ⟨k, f, hk, hf, rfl⟩ := hx
  by_cases hunits : e ≤ f
  · -- the double is a multiple of the unit
    obtain ⟨shift, rfl⟩ := Int.le.dest hunits
    have hmultiple : (k : ℚ) * 2 ^ (e + shift) = (k * 2 ^ shift : Int) * 2 ^ e := by
      rw [zpow_add₀ two_ne_zero, zpow_natCast]
      push_cast
      ring
    rw [hmultiple]
    exact h.closest _
  · -- the double has a smaller unit, so the number is above it, with a multiple in between
    have hbetween : (2 : ℚ) ^ (e + 52) ≤ q := h.unit.resolve_left (by omega)
    have hbelow : (k : ℚ) * 2 ^ f ≤ 2 ^ (e + 52) := by
      have hdigits : (k : ℚ) ≤ 2 ^ 53 := by exact_mod_cast (le_abs_self k).trans hk
      calc (k : ℚ) * 2 ^ f ≤ 2 ^ 53 * 2 ^ f := by gcongr
        _ = 2 ^ (f + 53) := by
          rw [zpow_add₀ two_ne_zero, mul_comm]
          rfl
        _ ≤ 2 ^ (e + 52) := zpow_le_zpow_right₀ one_le_two (by omega)
    have hmultiple : (2 : ℚ) ^ (e + 52) = (2 ^ 52 : Int) * 2 ^ e := by
      rw [zpow_add₀ two_ne_zero, mul_comm]
      norm_cast
    have hclosest := h.closest (2 ^ 52)
    rw [← hmultiple, abs_of_nonpos (by linarith : (2 : ℚ) ^ (e + 52) - q ≤ 0)] at hclosest
    rw [abs_of_nonpos (by linarith : (k : ℚ) * 2 ^ f - q ≤ 0)]
    linarith

/-- A double is rounded to itself. -/
theorem nearest_eq_self (hq : 0 ≤ q) (h : IsDouble q) : nearest q = q := by
  have hclosest := nearest_closest hq h
  rw [sub_self, abs_zero] at hclosest
  exact sub_eq_zero.1 (abs_eq_zero.1 (le_antisymm hclosest (abs_nonneg _)))

/-- Rounding moves a number by at most a `2 ^ 53`th of it, or half of the smallest unit. -/
theorem nearest_error (hq : 0 ≤ q) : |nearest q - q| ≤ q / 2 ^ 53 + 2 ^ (-1075 : Int) := by
  obtain ⟨m, e, h⟩ := nearest_rounds hq
  exact h.close.trans (h.half_unit_le hq)

/-- There is no double on the way from a number to the one it is rounded to. -/
theorem eq_nearest_of_lt_of_le (hx : IsDouble x) (hq : 0 ≤ q) (hlow : q < x)
    (hhigh : x ≤ nearest q) : x = nearest q := by
  have hclosest := nearest_closest hq hx
  rw [abs_of_pos (by linarith : 0 < x - q), abs_of_pos (by linarith : 0 < nearest q - q)]
    at hclosest
  linarith

end nearest

/-! ## Integers -/

theorem nearest_natCast (n : Nat) : nearest n = ofNat n := by
  have hsign : ¬ (n : ℚ) < 0 := not_lt.2 n.cast_nonneg
  rw [nearest, if_neg hsign]
  simp [ofNat]

theorem ofInt_natCast (n : Nat) : ofInt n = ofNat n := by
  rw [ofInt, Int.cast_natCast, nearest_natCast]

theorem ofInt_neg_natCast {n : Nat} (hn : 0 < n) : ofInt (-n) = -ofNat n := by
  have hsign : ((-n : Int) : ℚ) < 0 := by exact_mod_cast (by omega : (-n : Int) < 0)
  rw [ofInt, nearest, if_pos hsign]
  simp [ofNat]

/-- An integer of at most 53 binary digits is a double. -/
theorem ofNat_eq_self {n : Nat} (h : n ≤ 2 ^ 53) : ofNat n = n := by
  rw [← nearest_natCast]
  exact nearest_eq_self n.cast_nonneg (isDouble_intCast (by simpa using by exact_mod_cast h))

/-- An integer is rounded to an integer. -/
theorem exists_ofNat_eq (n : Nat) : ∃ k : Nat, ofNat n = k := by
  rw [← nearest_natCast]
  obtain ⟨m, e, h⟩ := nearest_rounds (n.cast_nonneg : (0 : ℚ) ≤ n)
  obtain ⟨k, rfl | rfl⟩ := e.eq_nat_or_neg
  · refine ⟨m.toNat * 2 ^ k, ?_⟩
    have hm : ((m.toNat : Nat) : ℚ) = m := by exact_mod_cast Int.toNat_of_nonneg h.nonneg
    rw [h.value, zpow_natCast]
    push_cast
    rw [hm]
  · -- the integer is itself a multiple of the unit
    have hclosest := h.closest (n * 2 ^ k)
    have hself : ((n * 2 ^ k : Int) : ℚ) * 2 ^ (-k : Int) = n := by
      push_cast
      rw [zpow_neg, zpow_natCast, mul_assoc, mul_inv_cancel₀ (by positivity), mul_one]
    rw [hself, sub_self, abs_zero] at hclosest
    exact ⟨n, sub_eq_zero.1 (abs_eq_zero.1 (le_antisymm hclosest (abs_nonneg _)))⟩

/-! ## Conversions to 64 bits -/

section toInt64

variable {q : ℚ}

theorem truncate_eq_floor (hq : 0 ≤ q) : truncate q = ⌊q⌋ := by
  rw [truncate, Int.tdiv_eq_ediv_of_nonneg (Rat.num_nonneg.2 hq), Rat.floor_def']

/-- What does not fit turns negative. -/
theorem toInt64_eq_truncate (h : 0 ≤ toInt64 q) : toInt64 q = truncate q := by
  unfold toInt64 at h ⊢
  dsimp only at h ⊢
  split
  · rfl
  · next hrange =>
    rw [if_neg hrange] at h
    omega

/-- What fits is cut to its integer part. -/
theorem toInt64_eq_floor (hq : 0 ≤ q) (h : q < 2 ^ 63) : toInt64 q = ⌊q⌋ := by
  have hlow : 0 ≤ ⌊q⌋ := Int.floor_nonneg.2 hq
  have hhigh : ⌊q⌋ < 2 ^ 63 := Int.floor_lt.2 (by exact_mod_cast h)
  rw [toInt64, truncate_eq_floor hq]
  exact if_pos (by omega)

theorem toInt64_of_large (h : 2 ^ 63 ≤ q) : toInt64 q = -2 ^ 63 := by
  have hhigh : 2 ^ 63 ≤ ⌊q⌋ := Int.le_floor.2 (by exact_mod_cast h)
  rw [toInt64, truncate_eq_floor ((by positivity : (0 : ℚ) ≤ 2 ^ 63).trans h)]
  exact if_neg (by omega)

end toInt64

end Binary64

end StagedCopy
