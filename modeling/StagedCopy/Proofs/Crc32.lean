import Mathlib.Algebra.GroupWithZero.Nat
import StagedCopy.Checksum

/-!
# What the CRC-32 tells apart

The register of the CRC-32 is divided bit by bit, and every step can be undone: it is additive, and
nothing but zero goes to zero. So registers that differ go on to differ, whatever is fed to both.
And a difference that four bytes bring in, the same four bytes cannot take back: it is still in
the register, further down, where it can be told from no difference.

* `shiftBit_xor`, `shiftBit_injective` — a step is additive and can be undone.
* `shiftByte` — the steps for one byte; `toNat_of_shiftByte` — how they are undone as long as the
  polynomial does not come in.
* `feed_injective` — registers that differ go on to differ.
* `eq_of_feed_eq` — four bytes, or fewer, are determined by the registers before and after them.
* `ofBytes_window_ne` — contents that differ only within four bytes have different check values.
* `hex32_injective`, `bigEndian_injective` — the written forms of check values do not hide this.
-/

namespace StagedCopy

namespace Crc32

/-! ## One bit -/

theorem toNat_shiftRight_one (x : UInt32) : (x >>> 1).toNat = x.toNat / 2 := by
  rw [UInt32.toNat_shiftRight, Nat.shiftRight_eq_div_pow]
  rfl

theorem toNat_and_one (x : UInt32) : (x &&& 1).toNat = x.toNat % 2 := by
  rw [UInt32.toNat_and]
  exact Nat.and_one_is_mod x.toNat

theorem and_one_cases (x : UInt32) : x &&& 1 = 0 ∨ x &&& 1 = 1 := by
  rcases Nat.mod_two_eq_zero_or_one x.toNat with heven | hodd
  · exact .inl (UInt32.toNat_inj.1 ((toNat_and_one x).trans heven))
  · exact .inr (UInt32.toNat_inj.1 ((toNat_and_one x).trans hodd))

theorem xor_and_one (x y : UInt32) : (x ^^^ y) &&& 1 = (x &&& 1) ^^^ (y &&& 1) := by
  apply UInt32.toNat_inj.1
  rw [UInt32.toNat_xor, toNat_and_one, toNat_and_one, toNat_and_one, UInt32.toNat_xor]
  exact Nat.xor_mod_two_pow (n := 1)

theorem shiftBit_of_even {x : UInt32} (h : x &&& 1 = 0) : shiftBit x = x >>> 1 := by
  rw [shiftBit, h, if_neg (by decide)]

theorem shiftBit_of_odd {x : UInt32} (h : x &&& 1 = 1) :
    shiftBit x = (x >>> 1) ^^^ polynomial := by
  rw [shiftBit, if_pos h]

/-- A step of the division is additive. -/
theorem shiftBit_xor (x y : UInt32) : shiftBit (x ^^^ y) = shiftBit x ^^^ shiftBit y := by
  have hlow := xor_and_one x y
  rcases and_one_cases x with hx | hx <;> rcases and_one_cases y with hy | hy <;>
    rw [hx, hy] at hlow
  · rw [shiftBit_of_even hx, shiftBit_of_even hy, shiftBit_of_even hlow, UInt32.shiftRight_xor]
  · rw [shiftBit_of_even hx, shiftBit_of_odd hy, shiftBit_of_odd hlow, UInt32.shiftRight_xor,
      UInt32.xor_assoc]
  · rw [shiftBit_of_odd hx, shiftBit_of_even hy, shiftBit_of_odd hlow, UInt32.shiftRight_xor]
    ac_rfl
  · -- the polynomial is taken away twice
    rw [shiftBit_of_odd hx, shiftBit_of_odd hy, shiftBit_of_even hlow, UInt32.shiftRight_xor]
    calc x >>> 1 ^^^ y >>> 1
        = x >>> 1 ^^^ y >>> 1 ^^^ (polynomial ^^^ polynomial) := by simp
      _ = x >>> 1 ^^^ polynomial ^^^ (y >>> 1 ^^^ polynomial) := by ac_rfl

/-- Nothing but zero goes to zero: the polynomial has a top bit, and a register that was moved has
none. -/
theorem eq_zero_of_shiftBit {x : UInt32} (h : shiftBit x = 0) : x = 0 := by
  have hhalf := toNat_shiftRight_one x
  have hlow := toNat_and_one x
  have hbound := x.toNat_lt
  apply UInt32.toNat_inj.1
  rw [UInt32.toNat_zero]
  rcases and_one_cases x with heven | hodd
  · rw [shiftBit_of_even heven] at h
    rw [h, UInt32.toNat_zero] at hhalf
    rw [heven, UInt32.toNat_zero] at hlow
    omega
  · rw [shiftBit_of_odd hodd, UInt32.xor_eq_zero_iff] at h
    rw [h] at hhalf
    have htop : polynomial.toNat = 0xEDB88320 := rfl
    omega

/-- A step of the division can be undone. -/
theorem shiftBit_injective {x y : UInt32} (h : shiftBit x = shiftBit y) : x = y := by
  apply UInt32.xor_eq_zero_iff.1
  apply eq_zero_of_shiftBit
  rw [shiftBit_xor, h, UInt32.xor_self]

/-! ## One byte -/

/-- The steps of the division for one byte. -/
def shiftByte (register : UInt32) : UInt32 := Nat.repeat shiftBit 8 register

theorem feedByte_eq (register : UInt32) (b : UInt8) :
    feedByte register b = shiftByte (register ^^^ b.toUInt32) :=
  rfl

theorem repeat_shiftBit_xor (n : Nat) (x y : UInt32) :
    Nat.repeat shiftBit n (x ^^^ y) = Nat.repeat shiftBit n x ^^^ Nat.repeat shiftBit n y := by
  induction n with
  | zero => rfl
  | succ n ih => rw [Nat.repeat, ih, shiftBit_xor, Nat.repeat, Nat.repeat]

theorem repeat_shiftBit_injective {n : Nat} {x y : UInt32}
    (h : Nat.repeat shiftBit n x = Nat.repeat shiftBit n y) : x = y := by
  induction n with
  | zero => exact h
  | succ n ih => exact ih (shiftBit_injective h)

/-- A number that ends in zeros is only moved, as many places as there are zeros. -/
theorem toNat_repeat_shiftBit {n : Nat} {x : UInt32} {y : Nat} (h : x.toNat = y * 2 ^ n) :
    (Nat.repeat shiftBit n x).toNat = y := by
  induction n generalizing y with
  | zero => exact h.trans (Nat.mul_one y)
  | succ n ih =>
    have hmoved : (Nat.repeat shiftBit n x).toNat = y * 2 := by
      apply ih
      rw [h, Nat.pow_succ]
      ac_rfl
    have heven : Nat.repeat shiftBit n x &&& 1 = 0 := by
      apply UInt32.toNat_inj.1
      rw [toNat_and_one, hmoved, Nat.mul_mod_left]
      rfl
    rw [Nat.repeat, shiftBit_of_even heven, toNat_shiftRight_one, hmoved]
    exact Nat.mul_div_left y (by decide)

theorem shiftByte_xor (x y : UInt32) : shiftByte (x ^^^ y) = shiftByte x ^^^ shiftByte y :=
  repeat_shiftBit_xor 8 x y

theorem shiftByte_injective {x y : UInt32} (h : shiftByte x = shiftByte y) : x = y :=
  repeat_shiftBit_injective h

/-- A register of which only the lower three bytes are taken comes from the one that is eight places
further up. -/
theorem toNat_of_shiftByte {x : UInt32} (h : (shiftByte x).toNat < 2 ^ 24) :
    x.toNat = (shiftByte x).toNat * 2 ^ 8 := by
  have hup : (shiftByte x <<< 8).toNat = (shiftByte x).toNat * 2 ^ 8 := by
    have hfits : (shiftByte x).toNat * 2 ^ 8 < 2 ^ 32 := by omega
    rw [UInt32.toNat_shiftLeft, Nat.shiftLeft_eq]
    exact Nat.mod_eq_of_lt hfits
  have hback : shiftByte (shiftByte x <<< 8) = shiftByte x :=
    UInt32.toNat_inj.1 (toNat_repeat_shiftBit hup)
  rw [← hup, shiftByte_injective hback]

/-! ## Contents -/

/-- Registers that differ go on to differ when the same is fed to both. -/
theorem feed_injective {register register' : UInt32} {content : Bytes}
    (h : feed register content = feed register' content) : register = register' := by
  induction content generalizing register register' with
  | nil => exact h
  | cons b rest ih =>
    have hbyte : feedByte register b = feedByte register' b := ih h
    exact (UInt32.xor_left_inj _).1 (shiftByte_injective hbyte)

/-- Bytes, at most four, that lead to the same register: they came from registers that differ only
in as many bytes at the lower end, and from one register only the same bytes lead there. By
induction on the bytes, in which the division is undone from the last byte to the first. -/
theorem eq_of_feed_eq {register register' : UInt32} {s t : Bytes} (hlength : s.length = t.length)
    (hshort : s.length ≤ 4) (h : feed register s = feed register' t) :
    (register ^^^ register').toNat < 2 ^ (8 * s.length) ∧ (register = register' → s = t) := by
  induction s generalizing register register' t with
  | nil =>
    obtain rfl := List.length_eq_zero_iff.1 hlength.symm
    obtain rfl : register = register' := h
    simp
  | cons b s ih =>
    cases t with
    | nil => cases hlength
    | cons c t =>
      have hrest : s.length = t.length := Nat.succ.inj hlength
      have hfewer : s.length ≤ 3 := Nat.le_of_succ_le_succ hshort
      obtain ⟨hbound, hsame⟩ := ih hrest (Nat.le_succ_of_le hfewer) h
      -- what differs after the byte is what differs before it with the two bytes taken in
      have hdiffer : feedByte register b ^^^ feedByte register' c
          = shiftByte (register ^^^ register' ^^^ (b.toUInt32 ^^^ c.toUInt32)) := by
        rw [feedByte_eq, feedByte_eq, ← shiftByte_xor]
        congr 1
        ac_rfl
      have hbytes : (b.toUInt32 ^^^ c.toUInt32).toNat < 2 ^ 8 := by
        rw [UInt32.toNat_xor, UInt8.toNat_toUInt32, UInt8.toNat_toUInt32]
        exact Nat.xor_lt_two_pow b.toNat_lt c.toNat_lt
      rw [hdiffer] at hbound
      have hlower : 2 ^ (8 * s.length) ≤ 2 ^ 24 := Nat.pow_le_pow_right (by decide) (by omega)
      have hback := toNat_of_shiftByte (Nat.lt_of_lt_of_le hbound hlower)
      constructor
      · have hregisters : register ^^^ register' = register ^^^ register'
            ^^^ (b.toUInt32 ^^^ c.toUInt32) ^^^ (b.toUInt32 ^^^ c.toUInt32) := by
          rw [UInt32.xor_assoc _ (b.toUInt32 ^^^ c.toUInt32), UInt32.xor_self, UInt32.xor_zero]
        have hupper : 2 ^ (8 * (b :: s).length) = 2 ^ (8 * s.length) * 2 ^ 8 := by
          rw [List.length_cons, Nat.mul_succ, Nat.pow_add]
        have hpos : 0 < 2 ^ (8 * s.length) := Nat.two_pow_pos _
        rw [hregisters, UInt32.toNat_xor]
        apply Nat.xor_lt_two_pow
        · omega
        · omega
      · rintro rfl
        rw [UInt32.xor_self, UInt32.zero_xor] at hback
        have hnone : (b.toUInt32 ^^^ c.toUInt32).toNat = 0 := by omega
        have hwords : b.toUInt32 = c.toUInt32 :=
          UInt32.xor_eq_zero_iff.1 (UInt32.toNat_inj.1 hnone)
        obtain rfl : b = c := by
          apply UInt8.toNat_inj.1
          rw [← UInt8.toNat_toUInt32, hwords, UInt8.toNat_toUInt32]
        rw [hsame rfl]

/-- Contents that differ only within four bytes have different check values. -/
theorem ofBytes_window_ne {front s t back : Bytes} (hlength : s.length = t.length)
    (hshort : s.length ≤ 4) (hne : s ≠ t) :
    ofBytes (front ++ s ++ back) ≠ ofBytes (front ++ t ++ back) := by
  intro h
  have hfed : feed start (front ++ s ++ back) = feed start (front ++ t ++ back) :=
    (UInt32.xor_left_inj _).1 h
  simp only [feed_append] at hfed
  exact hne ((eq_of_feed_eq hlength hshort (feed_injective hfed)).2 rfl)

end Crc32

/-! ## Written forms -/

theorem hexDigit_injective : ∀ a b : Fin 16, hexDigit a = hexDigit b → a = b := by
  decide

theorem mod_of_hexDigit {n m : Nat} (h : hexDigit n = hexDigit m) : n % 16 = m % 16 := by
  have hlow (k : Nat) : hexDigit k = hexDigit (⟨k % 16, Nat.mod_lt k (by decide)⟩ : Fin 16) := by
    simp [hexDigit]
  rw [hlow n, hlow m] at h
  exact Fin.mk.inj (hexDigit_injective _ _ h)

/-- A number is determined by its digits in base sixteen. -/
theorem eq_of_digits {count n m : Nat} (hn : n < 16 ^ count) (hm : m < 16 ^ count)
    (h : ∀ i < count, n / 16 ^ i % 16 = m / 16 ^ i % 16) : n = m := by
  induction count generalizing n m with
  | zero => omega
  | succ count ih =>
    rw [Nat.pow_succ] at hn hm
    have hupper : n / 16 = m / 16 := by
      refine ih (Nat.div_lt_of_lt_mul (by omega)) (Nat.div_lt_of_lt_mul (by omega)) ?_
      intro i hi
      rw [Nat.div_div_eq_div_mul, Nat.div_div_eq_div_mul, ← Nat.pow_succ']
      exact h (i + 1) (Nat.succ_lt_succ hi)
    have hlast := h 0 (Nat.succ_pos count)
    rw [Nat.pow_zero, Nat.div_one, Nat.div_one] at hlast
    omega

/-- The numeral of eight digits tells words apart. -/
theorem hex32_injective {word word' : UInt32} (h : hex32 word = hex32 word') : word = word' := by
  have hshift : ∀ i < 8, 4 * i ∈ [28, 24, 20, 16, 12, 8, 4, 0] := by decide
  have hdigits : ∀ i < 8, word.toNat / 16 ^ i % 16 = word'.toNat / 16 ^ i % 16 := by
    intro i hi
    have hdigit := mod_of_hexDigit (List.map_inj_left.1 h (4 * i) (hshift i hi))
    rwa [Nat.shiftRight_eq_div_pow, Nat.shiftRight_eq_div_pow, Nat.pow_mul] at hdigit
  exact UInt32.toNat_inj.1 (eq_of_digits word.toNat_lt word'.toNat_lt hdigits)

@[simp] theorem length_bigEndian (word : UInt32) : (bigEndian word).length = 4 := rfl

/-- The four bytes tell words apart. -/
theorem bigEndian_injective {word word' : UInt32} (h : bigEndian word = bigEndian word') :
    word = word' := by
  simp only [bigEndian, List.cons.injEq, ← UInt8.toNat_inj, UInt32.toNat_toUInt8,
    UInt32.toNat_shiftRight, Nat.shiftRight_eq_div_pow, UInt32.reduceToNat, Nat.reduceMod,
    and_true] at h
  have hbound := word.toNat_lt
  have hbound' := word'.toNat_lt
  apply UInt32.toNat_inj.1
  omega

end StagedCopy
