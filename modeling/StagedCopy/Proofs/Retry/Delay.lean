import StagedCopy.Proofs.Binary64
import StagedCopy.Retry.Policy

/-!
# The cap on the wait between attempts

The wait is computed in double precision and the cap becomes a double before it is compared, so a
cap of more than 53 binary digits may grow. A wait that is capped is then as long as the grown cap,
and next to `2 ^ 63` it does not fit in 64 bits any more and turns negative. In every other case the
wait keeps to the cap.

* `Binary64.power_nonneg` — powers are not negative, however large the exponent.
* `RetryPolicy.uncapped`, `RetryPolicy.cappedDouble` — the wait as a double, before and after the
  comparison with the cap.
* `RetryPolicy.delayFor_capped_iff` — the theorem.
* `RetryPolicy.delayFor_exceeds_cap` — two waits that do not keep to their cap.
-/

namespace StagedCopy

namespace Binary64

theorem nearestQuotient_nonneg (n : Nat) {d : Nat} (hd : 0 < d) : 0 ≤ nearestQuotient n d := by
  obtain ⟨m, e, h⟩ := nearestQuotient_rounds n hd
  have hm : (0 : ℚ) ≤ m := by exact_mod_cast h.nonneg
  rw [h.value]
  positivity

theorem exponential_nonneg (x : Parts) : 0 ≤ exponential x :=
  nearestQuotient_nonneg _ (Rat.den_pos _)

theorem limit_nonneg : 0 ≤ limit := Nat.cast_nonneg _

/-- A power is not negative, also where it is out of range. -/
theorem power_nonneg (x : Rat) (k : Nat) : 0 ≤ power x k := by
  unfold power
  dsimp only
  split
  · exact zero_le_one
  split
  · exact limit_nonneg
  split
  · exact limit_nonneg
  · exact exponential_nonneg _

/-- A number that is not above an integer of 63 binary digits stays below it in 64 bits. -/
theorem toInt64_bounds {q : ℚ} {n : Nat} (hq : 0 ≤ q) (h : q ≤ n) (hn : n < 2 ^ 63) :
    0 ≤ toInt64 q ∧ toInt64 q ≤ n := by
  have hword : (n : ℚ) < 2 ^ 63 := by exact_mod_cast hn
  rw [toInt64_eq_floor hq (h.trans_lt hword)]
  refine ⟨Int.floor_nonneg.2 hq, ?_⟩
  have hfloor : ((⌊q⌋ : Int) : ℚ) ≤ (n : Int) := (Int.floor_le q).trans h
  exact_mod_cast hfloor

end Binary64

open Binary64

namespace RetryPolicy

/-- The wait after a number of failures as a double, before it is capped. -/
def uncapped (policy : RetryPolicy) (failed : Nat) : ℚ :=
  mul (ofInt policy.initialDelay) (policy.backoff failed)

/-- The wait after a number of failures as a double, not above the cap as a double. -/
def cappedDouble (policy : RetryPolicy) (failed : Nat) : ℚ :=
  min (policy.uncapped failed) (ofInt policy.maxDelay)

variable {policy : RetryPolicy} {failed : Nat}

theorem delayFor_of_no_wait (h : failed = 0 ∨ policy.initialDelay ≤ 0) :
    policy.delayFor failed = 0 := if_pos h

theorem delayFor_eq (h : ¬ (failed = 0 ∨ policy.initialDelay ≤ 0)) :
    policy.delayFor failed = toInt64 (policy.cappedDouble failed) := by
  rw [delayFor, if_neg h, cappedDouble, min_def, uncapped]
  dsimp only
  split
  · next hless => rw [if_neg (not_le.2 hless)]
  · next hmore => rw [if_pos (not_lt.1 hmore)]

theorem uncapped_factors_nonneg (hinitial : 0 ≤ policy.initialDelay) :
    0 ≤ ofInt policy.initialDelay * policy.backoff failed :=
  mul_nonneg (nearest_nonneg (by exact_mod_cast hinitial)) (power_nonneg _ _)

theorem uncapped_nonneg (hinitial : 0 ≤ policy.initialDelay) : 0 ≤ policy.uncapped failed :=
  nearest_nonneg (uncapped_factors_nonneg hinitial)

theorem isDouble_uncapped (hinitial : 0 ≤ policy.initialDelay) :
    IsDouble (policy.uncapped failed) :=
  isDouble_nearest (uncapped_factors_nonneg hinitial)

theorem cappedDouble_nonneg (hinitial : 0 ≤ policy.initialDelay) (hmost : 0 ≤ policy.maxDelay) :
    0 ≤ policy.cappedDouble failed :=
  le_min (uncapped_nonneg hinitial) (nearest_nonneg (by exact_mod_cast hmost))

/-- The wait as a double keeps to the cap unless it is the cap as a double, and this has grown: no
double lies in between. -/
theorem cappedDouble_le_iff (hinitial : 0 ≤ policy.initialDelay) (hmost : 0 ≤ policy.maxDelay) :
    policy.cappedDouble failed ≤ policy.maxDelay ↔
      ofInt policy.maxDelay ≤ policy.maxDelay ∨
        policy.uncapped failed < ofInt policy.maxDelay := by
  constructor
  · intro h
    by_contra hneither
    obtain ⟨hgrown, hreached⟩ := not_or.1 hneither
    exact hgrown (by rwa [cappedDouble, min_eq_right (not_lt.1 hreached)] at h)
  · rintro (hkept | hless)
    · exact (min_le_right _ _).trans hkept
    · rw [cappedDouble, min_eq_left hless.le]
      by_contra hmore
      exact hless.ne (eq_nearest_of_lt_of_le (isDouble_uncapped hinitial)
        (by exact_mod_cast hmost) (not_le.1 hmore) hless.le)

/-- What is above the cap is the cap as a double. -/
theorem cappedDouble_eq_cap (hinitial : 0 ≤ policy.initialDelay) (hmost : 0 ≤ policy.maxDelay)
    (h : policy.maxDelay < policy.cappedDouble failed) :
    policy.cappedDouble failed = ofInt policy.maxDelay := by
  obtain ⟨-, hreached⟩ := not_or.1 (mt (cappedDouble_le_iff hinitial hmost).2 (not_le.2 h))
  exact min_eq_right (not_lt.1 hreached)

/-- What is above the cap is an integer above it, and in 64 bits it stays so or turns negative. -/
theorem toInt64_cap_outside {n : Nat} (h : (n : ℚ) < ofNat n) :
    toInt64 (ofNat n) < 0 ∨ (n : Int) < toInt64 (ofNat n) := by
  obtain hlarge | hfits := le_or_gt (2 ^ 63) (ofNat n)
  · exact .inl (by rw [toInt64_of_large hlarge]; decide)
  · obtain ⟨k, hk⟩ := exists_ofNat_eq n
    rw [hk] at h hfits ⊢
    rw [toInt64_eq_floor k.cast_nonneg hfits, Int.floor_natCast]
    exact .inr (by exact_mod_cast h)

/-- The wait after any number of failures is not negative and keeps to the cap, unless the cap has
grown as a double and the backoff has reached it. A cap of at most 53 binary digits does not
grow. -/
theorem delayFor_capped_iff (hmost : 0 ≤ policy.maxDelay) (hword : policy.maxDelay < 2 ^ 63)
    (failed : Nat) :
    (0 ≤ policy.delayFor failed ∧ policy.delayFor failed ≤ policy.maxDelay ↔
      failed = 0 ∨ policy.initialDelay ≤ 0 ∨ ofInt policy.maxDelay ≤ policy.maxDelay ∨
        policy.uncapped failed < ofInt policy.maxDelay) ∧
      (policy.maxDelay ≤ 2 ^ 53 → ofInt policy.maxDelay = policy.maxDelay) := by
  obtain ⟨cap, hcap⟩ := Int.eq_ofNat_of_zero_le hmost
  refine ⟨?_, fun hshort => ?_⟩
  · rw [← or_assoc]
    by_cases hwait : failed = 0 ∨ policy.initialDelay ≤ 0
    · rw [delayFor_of_no_wait hwait]
      exact ⟨fun _ => .inl hwait, fun _ => ⟨le_rfl, hmost⟩⟩
    have hinitial : 0 ≤ policy.initialDelay := by omega
    rw [delayFor_eq hwait, ← cappedDouble_le_iff hinitial hmost, or_iff_right hwait, hcap]
    refine ⟨fun ⟨hlow, hhigh⟩ => ?_, fun h => ?_⟩
    · by_contra habove
      have hgrown := cappedDouble_eq_cap hinitial hmost (by rwa [hcap, ← not_le])
      rw [hcap, ofInt_natCast] at hgrown
      rw [hgrown] at habove hlow hhigh
      obtain hnegative | hmore := toInt64_cap_outside (not_le.1 habove)
      · omega
      · omega
    · exact toInt64_bounds (cappedDouble_nonneg hinitial hmost) h (by omega)
  · rw [hcap, ofInt_natCast, Int.cast_natCast]
    exact ofNat_eq_self (by omega)

/-- The largest initial delay under the largest cap that a double is sure to hold. -/
theorem delayFor_capped_iff_largest :
    let policy : RetryPolicy := { initialDelay := 2 ^ 63 - 1, maxDelay := 2 ^ 53 }
    (0 ≤ policy.maxDelay ∧ policy.maxDelay < 2 ^ 63) ∧
      0 ≤ policy.delayFor 4294967295 ∧ policy.delayFor 4294967295 ≤ 2 ^ 53 := by
  intro policy
  have hmost : 0 ≤ policy.maxDelay := by decide
  have hword : policy.maxDelay < 2 ^ 63 := by decide
  obtain ⟨hiff, hshort⟩ := delayFor_capped_iff hmost hword 4294967295
  exact ⟨⟨hmost, hword⟩, hiff.2 (.inr (.inr (.inl (hshort le_rfl).le)))⟩

/-- A cap of 54 binary digits grows by one, and the wait with it; the largest cap grows to `2 ^ 63`,
and the wait turns negative. -/
theorem delayFor_exceeds_cap :
    let long : RetryPolicy := { initialDelay := 2 ^ 53 + 3, maxDelay := 2 ^ 53 + 3 }
    let longest : RetryPolicy := { initialDelay := 2 ^ 63 - 1, maxDelay := 2 ^ 63 - 1 }
    long.delayFor 1 = long.maxDelay + 1 ∧ longest.delayFor 1 = -2 ^ 63 := by
  decide +kernel

end RetryPolicy

end StagedCopy
